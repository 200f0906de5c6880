import ClawMux.Services.Adapters

namespace ClawMux
set_option autoImplicit true

structure ChannelEvent where
  provider : String
  channel_id : String
  root_id : String := ""

/-- What the media paths of an answer are looked up with. -/
structure Media where
  uuid : Option String := none
  container_path_to_host : String → String → String := fun _ _ => ""
  file_manager : Bool := false
  upload_to_mattermost : String → String → Except Unit (Option String) := fun _ _ => .ok none

/-- How the platform ends each request of one message; `stream` has the texts of the edits that
the `StreamUpdater` makes. -/
structure Outcomes where
  placeholder : Outcome
  stream : List (String × Outcome) := []
  edit : Outcome := .failed false
  post : Outcome := .failed false
  files : Nat → Outcome := fun _ => .failed false
  error : Outcome := .failed false

inductive Status
  | success
  | empty
  | error
  deriving DecidableEq, Repr

/-- The id of the placeholder, the requests made after it, and what the message counts as. -/
structure Handled where
  placeholder_id : String
  requests : List Request
  status : Status

def error_text : String :=
  "❌ An error occurred while processing the request. Please try again later."

namespace Router

/-- The loop over the media paths of an answer. -/
def collect_files (event : ChannelEvent) (m : Media) (uuid : String) :
    List String → Except Unit (List String)
  | [] => .ok []
  | container_path :: rest => do
    let host_path := m.container_path_to_host container_path uuid
    let fid ←
      if host_path = "" then pure none
      else if event.provider = "mattermost" ∧ m.file_manager then
        m.upload_to_mattermost host_path event.channel_id
      else pure (some host_path)
    let uploaded_file_ids ← collect_files event m uuid rest
    return ((fid.filter (· ≠ "")).toList ++ uploaded_file_ids)

def uploaded_files (event : ChannelEvent) (m : Media) (media_paths : List String) :
    Except Unit (List String) :=
  match m.uuid with
  | none => .ok []
  | some uuid => collect_files event m uuid media_paths

/-- The channel that the final edit names. -/
def edit_channel (event : ChannelEvent) : String :=
  if event.provider = "mattermost" then "" else event.channel_id

def final_edit (adapter : Adapter) (event : ChannelEvent) (o : Outcomes)
    (placeholder_id response : String) : Called Unit :=
  adapter.update_reply placeholder_id response (edit_channel event) o.edit

def send_files (adapter : Adapter) (event : ChannelEvent) (o : Outcomes) (message : String)
    (files : List String) : Called String :=
  adapter.send_post_with_files "file_ids_or_paths" event.channel_id message files event.root_id
    o.files

def deliver (adapter : Adapter) (event : ChannelEvent) (o : Outcomes)
    (placeholder_id response : String) (files : List String) : Called Status :=
  if files ≠ [] then
    if placeholder_id ≠ "" then
      (final_edit adapter event o placeholder_id response).bind fun _ =>
        (send_files adapter event o "" files).bind fun _ => .pure .success
    else (send_files adapter event o response files).bind fun _ => .pure .success
  else if placeholder_id ≠ "" then
    (final_edit adapter event o placeholder_id response).bind fun _ => .pure .success
  else
    (adapter.send_reply event.channel_id response event.root_id o.post).bind fun _ =>
      .pure .success

/-- The `try` block of `handle_event` from the answer of `send_message` on. -/
def reply (adapter : Adapter) (event : ChannelEvent) (o : Outcomes) (m : Media)
    (placeholder_id : String) : Except Unit (String × List String) → Called Status
  | .error _ => .raise
  | .ok (response, media_paths) =>
    if response = "" then .pure .empty
    else
      match uploaded_files event m media_paths with
      | .error _ => .raise
      | .ok files => deliver adapter event o placeholder_id response files

/-- A failed placeholder is only logged. -/
def placeholder_id (adapter : Adapter) (event : ChannelEvent) (phrase : String) (o : Outcomes) :
    String :=
  match (adapter.send_reply event.channel_id phrase event.root_id o.placeholder).result with
  | .ok id => id
  | .error _ => ""

def stream_edits (adapter : Adapter) (event : ChannelEvent) (o : Outcomes)
    (placeholder_id : String) : List Request :=
  if placeholder_id = "" then []
  else
    o.stream.flatMap fun (text, out) =>
      (adapter.update_reply placeholder_id text event.channel_id out).requests

/-- `handle_event` once the instance of the user is known; `answer` is what `send_message`
returns or raises. -/
def handle_message (adapter : Adapter) (event : ChannelEvent) (phrase : String) (o : Outcomes)
    (m : Media) (answer : Except Unit (String × List String)) : Handled :=
  let post_id := placeholder_id adapter event phrase o
  let streamed := stream_edits adapter event o post_id
  let replied := reply adapter event o m post_id answer
  match replied.result with
  | .ok status => ⟨post_id, streamed ++ replied.requests, status⟩
  | .error _ =>
    let apology := adapter.send_reply event.channel_id error_text event.root_id o.error
    ⟨post_id, streamed ++ replied.requests ++ apology.requests, .error⟩

end Router

/-- The platform has the whole response, as an edit of the placeholder or as a new post. -/
def Handled.Accepted (h : Handled) (response : String) : Prop :=
  ∃ r ∈ h.requests, r.message = response ∧ r.accepted = true ∧
    (r.post_id = some h.placeholder_id ∨ r.post_id = none)

/-- The user has been sent the error message. -/
def Handled.Reported (h : Handled) : Prop :=
  ∃ r ∈ h.requests, r.message = error_text ∧ r.post_id = none

def Handled.NoSilentLoss (h : Handled) (response : String) : Prop :=
  if h.status = .success then h.Accepted response else h.Reported

namespace Router

/-- The delivery either puts the response on the platform or fails loudly: the edit is made and
accepted, the post is accepted or raises, or the post with the files raises. -/
inductive Carried (adapter : Adapter) (event : ChannelEvent) (o : Outcomes)
    (placeholder_id : String) (files : List String) : Prop
  | edited : placeholder_id ≠ "" → adapter.Edits (edit_channel event) → o.edit.accepted = true →
      Carried adapter event o placeholder_id files
  | posted : placeholder_id = "" → files = [] → o.post.accepted = true →
      Carried adapter event o placeholder_id files
  | refused : placeholder_id = "" → files = [] → adapter.raising = true → o.post.usable = false →
      Carried adapter event o placeholder_id files
  | attached : placeholder_id = "" → files ≠ [] → (o.files 0).accepted = true →
      Carried adapter event o placeholder_id files
  | unattached : files ≠ [] → adapter.FilesFail files o.files →
      Carried adapter event o placeholder_id files

/-- The response is among the stream edits that the platform accepted. -/
def Streamed (adapter : Adapter) (event : ChannelEvent) (o : Outcomes) (placeholder_id : String)
    (response : String) : Prop :=
  placeholder_id ≠ "" ∧ adapter.Edits event.channel_id ∧
    ∃ out, (response, out) ∈ o.stream ∧ out.accepted = true

/-- When nothing is lost: the stream has delivered the response already, the files cannot be
collected, or the delivery carries the response. -/
def Kept (adapter : Adapter) (event : ChannelEvent) (o : Outcomes) (m : Media)
    (placeholder_id : String) (response : String) (media_paths : List String) : Prop :=
  Streamed adapter event o placeholder_id response ∨
    ∀ files, uploaded_files event m media_paths = .ok files →
      Carried adapter event o placeholder_id files

variable {adapter : Adapter} {event : ChannelEvent} {o : Outcomes}

/-- The requests that bring the whole response. -/
def Brings (placeholder_id response : String) (r : Request) : Prop :=
  r.message = response ∧ r.accepted = true ∧ (r.post_id = some placeholder_id ∨ r.post_id = none)

theorem brings_stream_edits :
    (∃ r ∈ stream_edits adapter event o post_id, Brings post_id response r) ↔
      Streamed adapter event o post_id response := by
  unfold stream_edits Streamed
  by_cases hp : post_id = ""
  · simp [hp]
  · simp only [hp, if_false, List.mem_flatMap, ne_eq, not_false_eq_true, true_and]
    by_cases he : adapter.Edits event.channel_id
    · constructor
      · rintro ⟨r, ⟨⟨text, out⟩, hm, hr⟩, hmsg, ha, -⟩
        obtain ⟨q, hq, hqm, -, hqa⟩ := adapter.update_reply_request hp he text out
        rw [hq] at hr
        obtain rfl := List.mem_singleton.mp hr
        rw [← hqm, hmsg] at hm
        exact ⟨he, out, hm, hqa ▸ ha⟩
      · rintro ⟨-, out, hm, ha⟩
        obtain ⟨q, hq, hqm, hqp, hqa⟩ := adapter.update_reply_request hp he response out
        refine ⟨q, ⟨(response, out), hm, ?_⟩, hqm, hqa.trans ha, .inl hqp⟩
        rw [hq]
        exact List.mem_singleton.mpr rfl
    · refine iff_of_false ?_ (fun h => he h.1)
      rintro ⟨r, ⟨⟨text, out⟩, -, hr⟩, -⟩
      rw [adapter.update_reply_silent he] at hr
      cases hr

theorem shows_final_edit (hp : post_id ≠ "") :
    (final_edit adapter event o post_id response).Shows (Brings post_id response) ↔
      adapter.Edits (edit_channel event) ∧ o.edit.accepted = true := by
  unfold final_edit Called.Shows
  rw [adapter.update_reply_ok]
  by_cases he : adapter.Edits (edit_channel event)
  · obtain ⟨q, hq, hqm, hqp, hqa⟩ := adapter.update_reply_request hp he response o.edit
    rw [hq]
    simp [Brings, hqm, hqp, hqa, he]
  · rw [adapter.update_reply_silent he]
    simp [he]

theorem shows_send_reply :
    (adapter.send_reply channel_id response root_id out).Shows (Brings post_id response) ↔
      adapter.raising = true ∧ out.usable = false ∨ out.accepted = true := by
  rw [Called.Shows]
  obtain ⟨q, hq, hqm, hqp, hqa⟩ := adapter.send_reply_requests channel_id response root_id out
  rw [adapter.send_reply_error, hq]
  simp [Brings, hqm, hqp, hqa]

theorem shows_send_files (hf : files ≠ []) (h : response ≠ "") :
    (send_files adapter event o message files).Shows (Brings post_id response) ↔
      adapter.FilesFail files o.files ∨ message = response ∧ (o.files 0).accepted = true := by
  unfold send_files Called.Shows
  rw [adapter.send_post_with_files_error]
  by_cases hm : adapter = .mattermost
  · subst hm
    exact iff_of_true (.inl trivial) (.inl trivial)
  · obtain ⟨q, rest, hq, hqm, hqp, hqa, hrest⟩ :=
      Adapter.send_post_with_files_requests hm hf event.channel_id message event.root_id o.files
    have htail : ¬ ∃ r ∈ rest, Brings post_id response r := by
      rintro ⟨r, hr, hb⟩
      exact h (hb.1.symm.trans (hrest r hr))
    rw [hq]
    simp only [List.mem_cons, exists_eq_or_imp, or_iff_left htail]
    simp [Brings, hqm, hqp, hqa]

theorem deliver_ends (adapter : Adapter) (event : ChannelEvent) (o : Outcomes)
    (post_id response : String) (files : List String) :
    (deliver adapter event o post_id response files).result = .error () ∨
    (deliver adapter event o post_id response files).result = .ok .success := by
  have hpure : ∀ {α} (c : Called α), (c.bind fun _ => .pure Status.success).result = .error () ∨
      (c.bind fun _ => .pure Status.success).result = .ok .success := by
    intro α c
    rw [Called.bind]
    cases c.result with
    | error e => exact .inl rfl
    | ok x => exact .inr rfl
  rw [deliver]
  split
  · split
    · rw [Called.bind]
      rw [final_edit, adapter.update_reply_ok]
      exact hpure _
    · exact hpure _
  · split
    · exact hpure _
    · exact hpure _

/-- The delivery brings the response or raises exactly when it is `Carried`. -/
theorem shows_deliver (h : response ≠ "") :
    (deliver adapter event o post_id response files).Shows (Brings post_id response) ↔
      Carried adapter event o post_id files := by
  rw [deliver]
  by_cases hf : files = []
  · by_cases hp : post_id = ""
    · rw [if_neg (not_not_intro hf), if_neg (not_not_intro hp), shows_bind_pure, shows_send_reply]
      constructor
      · rintro (⟨hr, hu⟩ | ha)
        · exact .refused hp hf hr hu
        · exact .posted hp hf ha
      · rintro (⟨hne, -, -⟩ | ⟨-, -, ha⟩ | ⟨-, -, hr, hu⟩ | ⟨-, hne, -⟩ | ⟨hne, -⟩)
        · exact absurd hp hne
        · exact .inr ha
        · exact .inl ⟨hr, hu⟩
        · exact absurd hf hne
        · exact absurd hf hne
    · rw [if_neg (not_not_intro hf), if_pos hp, shows_bind_pure, shows_final_edit hp]
      constructor
      · rintro ⟨he, ha⟩
        exact .edited hp he ha
      · rintro (⟨-, he, ha⟩ | ⟨he, -⟩ | ⟨he, -⟩ | ⟨he, -⟩ | ⟨hne, -⟩)
        · exact ⟨he, ha⟩
        · exact absurd he hp
        · exact absurd he hp
        · exact absurd he hp
        · exact absurd hf hne
  · by_cases hp : post_id = ""
    · rw [if_pos hf, if_neg (not_not_intro hp), shows_bind_pure, shows_send_files hf h]
      constructor
      · rintro (hfail | ⟨-, ha⟩)
        · exact .unattached hf hfail
        · exact .attached hp hf ha
      · rintro (⟨hne, -, -⟩ | ⟨-, he, -⟩ | ⟨-, he, -⟩ | ⟨-, -, ha⟩ | ⟨-, hfail⟩)
        · exact absurd hp hne
        · exact absurd he hf
        · exact absurd he hf
        · exact .inr ⟨rfl, ha⟩
        · exact .inl hfail
    · rw [if_pos hf, if_pos hp, shows_bind, shows_final_edit hp, final_edit,
        adapter.update_reply_ok]
      simp only [shows_bind_pure, shows_send_files hf h, h.symm, false_and,
        or_false, exists_const, true_and]
      constructor
      · rintro (⟨he, ha⟩ | hfail)
        · exact .edited hp he ha
        · exact .unattached hf hfail
      · rintro (⟨-, he, ha⟩ | ⟨he, -⟩ | ⟨he, -⟩ | ⟨he, -⟩ | ⟨-, hfail⟩)
        · exact .inl ⟨he, ha⟩
        · exact absurd he hp
        · exact absurd he hp
        · exact absurd he hp
        · exact .inr hfail

theorem reported_of_raised (ha : (reply adapter event o m (placeholder_id adapter event phrase o)
    answer).result = .error ()) :
    (handle_message adapter event phrase o m answer).NoSilentLoss response := by
  rw [handle_message]
  simp only [ha]
  obtain ⟨q, hq, hqm, hqp, -⟩ :=
    adapter.send_reply_requests event.channel_id error_text event.root_id o.error
  refine ⟨q, ?_, hqm, hqp⟩
  rw [hq]
  exact List.mem_append_right _ (List.mem_singleton.mpr rfl)

/-- A non-empty response is either on the platform or reported as an error, exactly under the
condition `Kept` on what the platform answers. -/
theorem no_silent_loss (h : response ≠ "") :
    (handle_message adapter event phrase o m (.ok (response, media_paths))).NoSilentLoss response ↔
      Kept adapter event o m (placeholder_id adapter event phrase o) response media_paths := by
  rw [Kept]
  cases hu : uploaded_files event m media_paths with
  | error e =>
    refine iff_of_true (reported_of_raised ?_) (.inr fun files hf => by cases hf)
    simp only [reply, h, if_false, hu, Called.raise]
  | ok files =>
    have hreply : reply adapter event o m (placeholder_id adapter event phrase o)
        (.ok (response, media_paths)) =
          deliver adapter event o (placeholder_id adapter event phrase o) response files := by
      simp only [reply, h, if_false, hu]
    rcases deliver_ends adapter event o (placeholder_id adapter event phrase o) response files with
      hr | hr
    · refine iff_of_true (reported_of_raised (hreply ▸ hr)) (.inr ?_)
      rintro _ ⟨⟩
      exact (shows_deliver h).mp (.inl hr)
    · have hshows : (∃ r ∈ (deliver adapter event o (placeholder_id adapter event phrase o) response
          files).requests, Brings (placeholder_id adapter event phrase o) response r) ↔
            Carried adapter event o (placeholder_id adapter event phrase o) files := by
        rw [← shows_deliver h, Called.Shows, hr]
        simp
      simp only [Except.ok.injEq, forall_eq', ← brings_stream_edits, ← hshows, handle_message,
        hreply, hr, Handled.NoSilentLoss, if_true, Handled.Accepted, List.mem_append, or_and_right,
        exists_or, Brings]

/-- A Slack workspace that refuses the placeholder and takes the response as a post. -/
theorem no_silent_loss_posted :
    (handle_message .slack ⟨"slack", "c", ""⟩ "..."
      { placeholder := .failed false, post := .answered 200 true (some "1") } {}
      (.ok ("answer", []))).NoSilentLoss "answer" := by
  refine (no_silent_loss (by decide)).mpr (.inr ?_)
  rintro _ ⟨⟩
  exact .posted (by decide) rfl rfl

/-- Telegram makes the placeholder and refuses the edit. -/
def refused_edit : Outcomes where
  placeholder := .answered 200 true (some "1")
  edit := .answered 400 false (some "")

/-- A refused edit counts as a success. -/
theorem not_no_silent_loss :
    ¬ (handle_message .telegram ⟨"telegram", "c", ""⟩ "..." refused_edit {}
      (.ok ("answer", []))).NoSilentLoss "answer" := by
  have h : (handle_message .telegram ⟨"telegram", "c", ""⟩ "..." refused_edit {}
      (.ok ("answer", []))).status = .success ∧ ∀ r ∈ (handle_message .telegram
        ⟨"telegram", "c", ""⟩ "..." refused_edit {} (.ok ("answer", []))).requests,
          r.accepted = false := by decide
  rw [Handled.NoSilentLoss, if_pos h.1]
  rintro ⟨r, hr, -, ha, -⟩
  rw [h.2 r hr] at ha
  cases ha

end Router

end ClawMux
