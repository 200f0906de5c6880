import ClawMux.Lib.Text

namespace ClawMux
set_option autoImplicit true
open Lib.Text

/-- How one platform request ends. `failed` is an exception before there is an answer, be it the
transport, the access token, the file to send or a number that `int` does not read; the platform
may have applied the request all the same. An answer has the id from its body, or `none` when the
body is no JSON object. -/
inductive Outcome
  | failed (applied : Bool)
  | answered (status : Nat) (ok : Bool) (id : Option String)

/-- What `raise_for_status` lets through. -/
def is_success (status : Nat) : Bool := 200 ≤ status && status < 300

/-- The platform has made the post or the edit. -/
def Outcome.accepted : Outcome → Bool
  | .failed applied => applied
  | .answered status ok _ => is_success status && ok

/-- A request to post or edit `message`, followed by the notes about its files. -/
structure Request where
  endpoint : String
  channel_id : Option String := none
  root_id : Option String := none
  post_id : Option String := none
  message : String
  notes : String := ""
  files : List String := []
  accepted : Bool := false
  deriving DecidableEq, Repr

def Request.text (r : Request) : String := r.message ++ r.notes

/-- The requests that a call has made, and how it ended. -/
structure Called (α : Type) where
  requests : List Request
  result : Except Unit α

def Called.pure (x : α) : Called α := ⟨[], .ok x⟩

def Called.raise : Called α := ⟨[], .error ()⟩

def Called.bind (c : Called α) (f : α → Called β) : Called β :=
  match c.result with
  | .error e => ⟨c.requests, .error e⟩
  | .ok x => ⟨c.requests ++ (f x).requests, (f x).result⟩

def Called.noted (c : Called α) (notes : String) : Called α :=
  { c with requests := c.requests.map fun r => { r with notes := notes } }

/-- A post whose failures are raised; an error in a body of status 2xx goes unnoticed. -/
def post_raising (r : Request) (o : Outcome) : Called String where
  requests := [{ r with accepted := o.accepted }]
  result :=
    match o with
    | .answered status _ (some id) => if is_success status then .ok id else .error ()
    | _ => .error ()

/-- A post whose failures end in the empty id. -/
def post_swallowing (checks_ok : Bool) (r : Request) (o : Outcome) : Called String where
  requests := [{ r with accepted := o.accepted }]
  result :=
    match o with
    | .answered status ok (some id) =>
      if is_success status && (ok || !checks_ok) then .ok id else .ok ""
    | _ => .ok ""

/-- An edit whose failures are logged only; without a post id, or a channel where the platform
needs one, there is no request. -/
def edit_swallowing (needs_channel : Bool) (r : Request) (post_id channel_id : String)
    (o : Outcome) : Called Unit :=
  if post_id = "" || needs_channel && channel_id = "" then .pure ()
  else ⟨[{ r with post_id := some post_id, accepted := o.accepted }], .ok ()⟩

/-- Python's `x or None` on strings. -/
def given (s : String) : Option String := if s = "" then none else some s

def file_notes (label message : String) (paths : List String) : String :=
  let notes := "\n".intercalate (paths.map (label ++ ·))
  if message = "" then notes else "\n\n" ++ notes

namespace Mattermost

def send_reply (channel_id message root_id : String) : Outcome → Called String :=
  post_raising
    { endpoint := "/posts", channel_id := channel_id, root_id := given root_id, message := message }

def update_reply (post_id message channel_id : String) : Outcome → Called Unit :=
  edit_swallowing false { endpoint := "/posts/", message := message } post_id channel_id

def send_post_with_files (channel_id message : String) (file_ids : List String)
    (root_id : String) (o : Nat → Outcome) : Called String :=
  post_raising
    { endpoint := "/posts"
      channel_id := channel_id
      root_id := given root_id
      message := message
      files := file_ids } (o 0)

end Mattermost

namespace Telegram

/-- Topics are numbered: a root id without digits only is dropped, and `int` reads the others but
for superscripts and the like, on which the call raises. -/
def thread_id (root_id : String) : Option String :=
  if isDigit root_id then (readInt root_id).map toString else none

def send_reply (channel_id message root_id : String) : Outcome → Called String :=
  post_raising
    { endpoint := "sendMessage"
      channel_id := channel_id
      root_id := thread_id root_id
      message := message }

def update_reply (post_id message channel_id : String) : Outcome → Called Unit :=
  edit_swallowing true
    { endpoint := "editMessageText", channel_id := channel_id, message := message } post_id
    channel_id

/-- One document after the other, with the caption on the first. -/
def send_documents (channel_id root_id : String) :
    String → String → List String → (Nat → Outcome) → Called String
  | last_id, _, [], _ => .pure last_id
  | _, message, item :: rest, o =>
    (post_raising
      { endpoint := "sendDocument"
        channel_id := channel_id
        root_id := thread_id root_id
        message := message
        files := [item] } (o 0)).bind fun last_id =>
      send_documents channel_id root_id last_id "" rest fun i => o (i + 1)

def send_post_with_files (channel_id message : String) (file_ids_or_paths : List String)
    (root_id : String) (o : Nat → Outcome) : Called String :=
  send_documents channel_id root_id "" message file_ids_or_paths o

end Telegram

namespace Slack

def send_reply (channel_id message root_id : String) : Outcome → Called String :=
  post_swallowing true
    { endpoint := "chat.postMessage"
      channel_id := channel_id
      root_id := given root_id
      message := message }

def update_reply (post_id message channel_id : String) : Outcome → Called Unit :=
  edit_swallowing true
    { endpoint := "chat.update", channel_id := channel_id, message := message } post_id channel_id

def send_post_with_files (channel_id message : String) (file_ids_or_paths : List String)
    (root_id : String) (o : Nat → Outcome) : Called String :=
  let sent := send_reply channel_id message root_id (o 0)
  if file_ids_or_paths.isEmpty then sent
  else sent.noted (file_notes "📎 Attachment: " message file_ids_or_paths)

end Slack

namespace Bitrix

def send_reply (channel_id message _root_id : String) : Outcome → Called String :=
  post_raising
    { endpoint := "imbot.message.add.json", channel_id := channel_id, message := message }

def update_reply (post_id message channel_id : String) : Outcome → Called Unit :=
  edit_swallowing false { endpoint := "imbot.message.update.json", message := message } post_id
    channel_id

def send_post_with_files (channel_id message : String) (file_ids_or_paths : List String)
    (root_id : String) (o : Nat → Outcome) : Called String :=
  (send_reply channel_id message root_id (o 0)).noted
    (file_notes "📎 File: " message file_ids_or_paths)

end Bitrix

namespace Teams

/-- The body is not asked whether the activity was made. -/
def send_reply (channel_id message root_id : String) : Outcome → Called String :=
  post_swallowing false
    { endpoint := "activities"
      channel_id := channel_id
      root_id := given root_id
      message := message }

def update_reply (post_id message channel_id : String) : Outcome → Called Unit :=
  edit_swallowing true
    { endpoint := "activities/", channel_id := channel_id, message := message } post_id channel_id

def send_post_with_files (channel_id message : String) (file_ids_or_paths : List String)
    (root_id : String) (o : Nat → Outcome) : Called String :=
  let sent := send_reply channel_id message root_id (o 0)
  if file_ids_or_paths.isEmpty then sent
  else sent.noted (file_notes "📎 Attachment: " message file_ids_or_paths)

end Teams

namespace VkTeams

def send_reply (channel_id message root_id : String) : Outcome → Called String :=
  post_swallowing true
    { endpoint := "messages/sendText"
      channel_id := channel_id
      root_id := given root_id
      message := message }

def update_reply (post_id message channel_id : String) : Outcome → Called Unit :=
  edit_swallowing true
    { endpoint := "messages/editText", channel_id := channel_id, message := message } post_id
    channel_id

def send_post_with_files (channel_id message : String) (file_ids_or_paths : List String)
    (root_id : String) (o : Nat → Outcome) : Called String :=
  let sent := send_reply channel_id message root_id (o 0)
  if file_ids_or_paths.isEmpty then sent
  else sent.noted (file_notes "📎 Attachment: " message file_ids_or_paths)

end VkTeams

inductive Adapter
  | mattermost
  | telegram
  | slack
  | bitrix
  | teams
  | vk_teams
  deriving DecidableEq, Repr

namespace Adapter

def send_reply : Adapter → String → String → String → Outcome → Called String
  | .mattermost => Mattermost.send_reply
  | .telegram => Telegram.send_reply
  | .slack => Slack.send_reply
  | .bitrix => Bitrix.send_reply
  | .teams => Teams.send_reply
  | .vk_teams => VkTeams.send_reply

def update_reply : Adapter → String → String → String → Outcome → Called Unit
  | .mattermost => Mattermost.update_reply
  | .telegram => Telegram.update_reply
  | .slack => Slack.update_reply
  | .bitrix => Bitrix.update_reply
  | .teams => Teams.update_reply
  | .vk_teams => VkTeams.update_reply

/-- The name that `send_post_with_files` has for its third parameter. -/
def files_parameter : Adapter → String
  | .mattermost => "file_ids"
  | _ => "file_ids_or_paths"

/-- A call that passes the files by keyword; with another name it is a `TypeError`. -/
def send_post_with_files (adapter : Adapter) (keyword channel_id message : String)
    (files : List String) (root_id : String) (o : Nat → Outcome) : Called String :=
  if keyword ≠ adapter.files_parameter then .raise
  else
    match adapter with
    | .mattermost => Mattermost.send_post_with_files channel_id message files root_id o
    | .telegram => Telegram.send_post_with_files channel_id message files root_id o
    | .slack => Slack.send_post_with_files channel_id message files root_id o
    | .bitrix => Bitrix.send_post_with_files channel_id message files root_id o
    | .teams => Teams.send_post_with_files channel_id message files root_id o
    | .vk_teams => VkTeams.send_post_with_files channel_id message files root_id o

/-- The adapters whose posts raise on failure. -/
def raising : Adapter → Bool
  | .mattermost | .telegram | .bitrix => true
  | .slack | .teams | .vk_teams => false

/-- The adapters that edit only with a channel. -/
def needs_channel : Adapter → Bool
  | .mattermost | .bitrix => false
  | .telegram | .slack | .teams | .vk_teams => true

end Adapter

/-- The answer a raising post takes for success. -/
def Outcome.usable : Outcome → Bool
  | .answered status _ (some _) => is_success status
  | _ => false

theorem post_raising_error : (post_raising r o).result = .error () ↔ o.usable = false := by
  cases o with
  | failed applied => simp [post_raising, Outcome.usable]
  | answered status ok id =>
    cases id with
    | none => simp [post_raising, Outcome.usable]
    | some id => cases h : is_success status <;> simp [post_raising, Outcome.usable, h]

theorem post_swallowing_ok : ∃ id, (post_swallowing c r o).result = .ok id := by
  cases o with
  | failed applied => exact ⟨"", rfl⟩
  | answered status ok id =>
    cases id with
    | none => exact ⟨"", rfl⟩
    | some id =>
      simp only [post_swallowing]
      split
      · exact ⟨id, rfl⟩
      · exact ⟨"", rfl⟩

namespace Adapter

/-- A post fails loudly only on the adapters that raise, and only on an unusable answer. -/
theorem send_reply_error (adapter : Adapter) :
    (adapter.send_reply channel_id message root_id o).result = .error () ↔
      adapter.raising = true ∧ o.usable = false := by
  have hs : ∀ {c r}, (post_swallowing c r o).result ≠ .error () := by
    intro c r he
    obtain ⟨id, h⟩ := post_swallowing_ok (c := c) (r := r) (o := o)
    rw [h] at he
    cases he
  cases adapter with
  | mattermost => simp only [raising, true_and]; exact post_raising_error
  | telegram => simp only [raising, true_and]; exact post_raising_error
  | bitrix => simp only [raising, true_and]; exact post_raising_error
  | slack => simp only [raising, Bool.false_eq_true, false_and, iff_false]; exact hs
  | teams => simp only [raising, Bool.false_eq_true, false_and, iff_false]; exact hs
  | vk_teams => simp only [raising, Bool.false_eq_true, false_and, iff_false]; exact hs

/-- A post is one request that says the message. -/
theorem send_reply_requests (adapter : Adapter) (channel_id message root_id : String)
    (o : Outcome) : ∃ r, (adapter.send_reply channel_id message root_id o).requests = [r] ∧
      r.message = message ∧ r.post_id = none ∧ r.accepted = o.accepted := by
  cases adapter <;> exact ⟨_, rfl, rfl, rfl, rfl⟩

def Edits (adapter : Adapter) (channel_id : String) : Prop :=
  adapter.needs_channel = true → channel_id ≠ ""

theorem edit_swallowing_requests (h : post_id ≠ "") (hc : n = true → channel_id ≠ "") :
    (edit_swallowing n r post_id channel_id o).requests =
      [{ r with post_id := some post_id, accepted := o.accepted }] := by
  cases n with
  | false => simp [edit_swallowing, h]
  | true => simp [edit_swallowing, h, hc rfl]

theorem edit_swallowing_ok : (edit_swallowing n r post_id channel_id o).result = .ok () := by
  rw [edit_swallowing]
  split <;> rfl

/-- No edit ever raises. -/
theorem update_reply_ok (adapter : Adapter) :
    (adapter.update_reply post_id message channel_id o).result = .ok () := by
  cases adapter <;> exact edit_swallowing_ok

theorem update_reply_request (adapter : Adapter) (hp : post_id ≠ "")
    (h : adapter.Edits channel_id) (message : String) (o : Outcome) :
    ∃ r, (adapter.update_reply post_id message channel_id o).requests = [r] ∧
      r.message = message ∧ r.post_id = some post_id ∧ r.accepted = o.accepted := by
  cases adapter <;> exact ⟨_, edit_swallowing_requests hp h, rfl, rfl, rfl⟩

theorem update_reply_silent (adapter : Adapter) (h : ¬ adapter.Edits channel_id) :
    (adapter.update_reply post_id message channel_id o).requests = [] := by
  obtain ⟨hn, hc⟩ := Classical.not_imp.mp h
  have hc := Classical.not_not.mp hc
  subst hc
  cases adapter with
  | mattermost => cases hn
  | bitrix => cases hn
  | telegram => simp [update_reply, Telegram.update_reply, edit_swallowing, Called.pure]
  | slack => simp [update_reply, Slack.update_reply, edit_swallowing, Called.pure]
  | teams => simp [update_reply, Teams.update_reply, edit_swallowing, Called.pure]
  | vk_teams => simp [update_reply, VkTeams.update_reply, edit_swallowing, Called.pure]

/-- The file posts that raise when they are called by the keyword `file_ids_or_paths`. -/
def FilesFail (adapter : Adapter) (files : List String) (o : Nat → Outcome) : Prop :=
  match adapter with
  | .mattermost => True
  | .telegram => ∃ i < files.length, (o i).usable = false
  | _ => adapter.raising = true ∧ (o 0).usable = false

end Adapter

theorem bind_result (c : Called α) (f : α → Called β) :
    (c.bind f).result = .error () ↔
      c.result = .error () ∨ ∃ x, c.result = .ok x ∧ (f x).result = .error () := by
  rw [Called.bind]
  cases c.result with
  | error e => simp
  | ok x => simp

theorem mem_bind_requests {c : Called α} {f : α → Called β} :
    q ∈ (c.bind f).requests ↔
      q ∈ c.requests ∨ ∃ x, c.result = .ok x ∧ q ∈ (f x).requests := by
  rw [Called.bind]
  cases c.result with
  | error e => simp
  | ok x => simp

/-- A call that raises or makes a request of the kind `B`. -/
def Called.Shows (c : Called α) (B : Request → Prop) : Prop :=
  c.result = .error () ∨ ∃ r ∈ c.requests, B r

theorem shows_pure {B : Request → Prop} {x : α} : ¬ (Called.pure x).Shows B := by
  rintro (h | ⟨r, hr, -⟩)
  · cases h
  · cases hr

theorem shows_bind {B : Request → Prop} {c : Called α} {f : α → Called β} :
    (c.bind f).Shows B ↔ c.Shows B ∨ ∃ x, c.result = .ok x ∧ (f x).Shows B := by
  unfold Called.bind Called.Shows
  cases c.result with
  | error e => simp
  | ok x => simp [or_and_right, exists_or, or_left_comm]

theorem shows_bind_pure {B : Request → Prop} {c : Called α} {x : β} :
    (c.bind fun _ => .pure x).Shows B ↔ c.Shows B := by
  rw [shows_bind]
  exact or_iff_left fun ⟨_, _, h⟩ => shows_pure h

namespace Telegram

theorem send_documents_error :
    (send_documents channel_id root_id last message files o).result = .error () ↔
      ∃ i < files.length, (o i).usable = false := by
  induction files generalizing last message o with
  | nil => simp [send_documents, Called.pure]
  | cons item rest ih =>
    rw [send_documents, bind_result, post_raising_error]
    constructor
    · rintro (h0 | ⟨x, -, h⟩)
      · exact ⟨0, Nat.succ_pos _, h0⟩
      · obtain ⟨i, hi, hu⟩ := ih.mp h
        exact ⟨i + 1, Nat.succ_lt_succ hi, hu⟩
    · rintro ⟨i, hi, hu⟩
      cases h0 : (o 0).usable with
      | false => exact .inl rfl
      | true =>
        cases i with
        | zero => rw [h0] at hu; cases hu
        | succ i =>
          cases hr : (post_raising
            { endpoint := "sendDocument"
              channel_id := channel_id
              root_id := thread_id root_id
              message := message
              files := [item] } (o 0)).result with
          | error e => rw [post_raising_error.mp hr] at h0; cases h0
          | ok x => exact .inr ⟨x, rfl, ih.mpr ⟨i, Nat.lt_of_succ_lt_succ hi, hu⟩⟩

/-- Only the first document has a caption. -/
theorem send_documents_blank
    (h : q ∈ (send_documents channel_id root_id last "" files o).requests) :
    q.message = "" := by
  induction files generalizing last o with
  | nil => cases h
  | cons item rest ih =>
    rw [send_documents, mem_bind_requests] at h
    rcases h with h | ⟨x, -, h⟩
    · rw [List.mem_singleton.mp h]
    · exact ih h

end Telegram

namespace Adapter

variable {adapter : Adapter}

/-- The other adapters post the message once, with notes about the files. -/
theorem send_post_with_files_noted (hm : adapter ≠ .mattermost) (ht : adapter ≠ .telegram)
    (channel_id message root_id : String) (files : List String) (o : Nat → Outcome) :
    ∃ notes, adapter.send_post_with_files "file_ids_or_paths" channel_id message files root_id o =
      (adapter.send_reply channel_id message root_id (o 0)).noted notes := by
  cases adapter with
  | mattermost => exact absurd rfl hm
  | telegram => exact absurd rfl ht
  | bitrix => exact ⟨_, rfl⟩
  | slack =>
    cases files with
    | nil => exact ⟨"", rfl⟩
    | cons => exact ⟨_, rfl⟩
  | teams =>
    cases files with
    | nil => exact ⟨"", rfl⟩
    | cons => exact ⟨_, rfl⟩
  | vk_teams =>
    cases files with
    | nil => exact ⟨"", rfl⟩
    | cons => exact ⟨_, rfl⟩

theorem send_post_with_files_error (adapter : Adapter) :
    (adapter.send_post_with_files "file_ids_or_paths" channel_id message files root_id o).result =
      .error () ↔ adapter.FilesFail files o := by
  by_cases hm : adapter = .mattermost
  · subst hm
    exact iff_of_true rfl trivial
  · by_cases ht : adapter = .telegram
    · subst ht
      exact Telegram.send_documents_error
    · obtain ⟨notes, h⟩ := send_post_with_files_noted hm ht channel_id message root_id files o
      have hfail : adapter.FilesFail files o ↔ adapter.raising = true ∧ (o 0).usable = false := by
        cases adapter <;> first | exact Iff.rfl | contradiction
      rw [h, hfail]
      exact adapter.send_reply_error

/-- A file post says its message once, in its first request. -/
theorem send_post_with_files_requests (hm : adapter ≠ .mattermost) (hf : files ≠ [])
    (channel_id message root_id : String) (o : Nat → Outcome) :
    ∃ r rest, (adapter.send_post_with_files "file_ids_or_paths" channel_id message files root_id
        o).requests = r :: rest ∧ r.message = message ∧ r.post_id = none ∧
      r.accepted = (o 0).accepted ∧ ∀ q ∈ rest, q.message = "" := by
  by_cases ht : adapter = .telegram
  · subst ht
    cases files with
    | nil => exact absurd rfl hf
    | cons item tail =>
      simp only [send_post_with_files, files_parameter, ne_eq, not_true_eq_false, ↓reduceIte,
        Telegram.send_post_with_files, Telegram.send_documents, Called.bind]
      split
      · exact ⟨_, [], rfl, rfl, rfl, rfl, by simp⟩
      · exact ⟨_, _, rfl, rfl, rfl, rfl, fun q hq => Telegram.send_documents_blank hq⟩
  · obtain ⟨notes, h⟩ := send_post_with_files_noted hm ht channel_id message root_id files o
    obtain ⟨r, hr, hmsg, hp, ha⟩ := adapter.send_reply_requests channel_id message root_id (o 0)
    refine ⟨{ r with notes := notes }, [], ?_, hmsg, hp, ha, by simp⟩
    rw [h, Called.noted, hr, List.map_singleton]

end Adapter

end ClawMux
