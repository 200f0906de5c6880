import ClawMux.Services.BotAdapters

namespace ClawMux
set_option autoImplicit true
open Lib Lib.Text

/-- The exchanges of an adapter with its surroundings. -/
abbrev BotTrace := List (Sigma BotEffect.Answer)

def Logged.text (py : BotPython) : Logged → String
  | .value j => j.format py.dynamics
  | .error e => e.text

/-- The name and the values that a request to the logger has. -/
def BotEffect.texts (py : BotPython) : BotEffect → List String
  | .log event fields => event :: fields.map fun field => field.2.text py
  | _ => []

def raised : Except BotExn α → List String
  | .ok _ => []
  | .error e => [e.text]

/-- The strings passed to the logger, and the message of the exception that leaves the adapter. -/
def spoken (py : BotPython) (tr : BotTrace) (result : Except BotExn α) : List String :=
  (tr.flatMap fun y => y.1.texts py) ++ raised result

/-- Neither the log nor the exception that is raised has the secret. -/
def Kept (py : BotPython) (secret : String) (tr : BotTrace) (result : Except BotExn α) : Prop :=
  ∀ s ∈ spoken py tr result, contains s secret = false

/-- Which exceptions of a request an operation passes on as they are: those of the transport, by
their kind, and the one for a status that is no success. -/
structure Exposure where
  transport : BotExnKind → Bool
  status : Bool

def Exposure.none : Exposure := ⟨fun _ => false, false⟩

def Exposure.all : Exposure := ⟨fun _ => true, true⟩

/-- Only what is no `httpx.HTTPError`. -/
def Exposure.uncaught : Exposure := ⟨fun k => k = .httpx, false⟩

def Exposure.transports : Exposure := ⟨fun _ => true, false⟩

/-- The texts that a response, or its absence, exposes. -/
def Exposure.texts (x : Exposure) : Sigma BotEffect.Answer → List String
  | ⟨.request .., .error e⟩ => if e.of_httpx && x.transport e.kind then [e.text] else []
  | ⟨.request .., .ok r⟩ => if x.status && !is_success r.status_code then [r.status_error] else []
  | _ => []

def exposed (x : Exposure) (tr : BotTrace) : List String := tr.flatMap x.texts

def BotAdapter.exposes : BotAdapter → BotCall → Exposure
  | .telegram _, .start => .all
  | .telegram _, .send_reply .. => .uncaught
  | .telegram _, .update_reply .. => .uncaught
  | .telegram _, .send_post_with_files .. => .transports
  | .telegram _, _ => .none
  | .vk_teams _, .poll .. => .transports
  | .vk_teams _, .send_typing .. => .none
  | .vk_teams _, _ => .all
  | .bitrix _, .send_typing .. => .none
  | .bitrix _, _ => .all

/-- The bot token, or what is secret in a webhook's URL. A token of Telegram has no asterisks. -/
def BotAdapter.HasSecret (secret : String) : BotAdapter → Prop
  | .telegram a => secret = a.bot_token ∧ secret ≠ "" ∧ '*' ∉ secret.toList
  | .vk_teams a => secret = a.token
  | .bitrix a => contains a.webhook_url secret = true

/-- The texts that a redaction makes. -/
def BotAdapter.hidden : BotAdapter → String → Prop
  | .telegram a, text => ∃ s, text = redact a.bot_token s
  | _, _ => False

theorem redact_hides (hne : token ≠ "") (hstar : '*' ∉ token.toList) (text : String) :
    contains (redact token text) token = false := by
  rw [← Bool.not_eq_true, contains_iff, redact, if_pos hne, String.toList_ofList]
  refine Replace.not_infix_replaceAll ?_ (by decide) ?_ _
  · exact fun he => hne (String.toList_inj.mp he)
  · intro c hc hs
    have hstars : "***".toList = ['*', '*', '*'] := rfl
    rw [hstars] at hs
    simp only [List.mem_cons, List.not_mem_nil, or_false, or_self] at hs
    exact hstar (hs ▸ hc)

theorem hidden_free {a : BotAdapter} (h : a.HasSecret secret) (ht : a.hidden text) :
    contains text secret = false := by
  cases a with
  | telegram a =>
    obtain ⟨rfl, hne, hstar⟩ := h
    obtain ⟨s, rfl⟩ := ht
    exact redact_hides hne hstar s
  | vk_teams a => exact ht.elim
  | bitrix a => exact ht.elim

/-! What an adapter is given and told, the errors of httpx apart -/

/-- What calls of `get` with these names make of an answer. -/
inductive Got (data : Json) : List String → Json → Prop
  | self : Got data [] data
  | get (name : String) : missing ∈ [Json.null, .str "", .obj []] → Got data path j →
      Dynamic.get name missing j = .ok j' → Got data (path ++ [name]) j'

theorem Got.either (h : Got data path j) (h' : Got data path j') :
    Got data path (Dynamic.either j j') := by
  rw [Dynamic.either]
  split
  · exact h
  · exact h'

/-- Values of an answer, by the words that are put before them and the names that lead to them. -/
abbrev Quotes : Type := List (String × List String)

/-- What the answer to a request tells; of its values, the ones that are quoted. -/
inductive BotTold (py : BotPython) (quotes : Quotes) : Except BotExn BotResponse → String → Prop
  | failure : e.of_httpx = false → BotTold py quotes (.error e) e.text
  | status : BotTold py quotes (.ok r) ((Json.num r.status_code).format py.dynamics)
  | unread : r.json = .error text → BotTold py quotes (.ok r) text
  | value : r.json = .ok data → Got data path j → (lead, path) ∈ quotes →
      BotTold py quotes (.ok r) (lead ++ j.format py.dynamics)

def tells (py : BotPython) (quotes : Quotes) : Sigma BotEffect.Answer → String → Prop
  | ⟨.request .., answer⟩, s => BotTold py quotes answer s
  | ⟨.read _, .error text⟩, s => s = text
  | _, _ => False

/-- The values of its answers that an operation quotes: who the bot is, and why the platform has
refused. -/
def BotAdapter.quotes : BotAdapter → BotCall → Quotes
  | .telegram _, .start =>
    [("", ["result", "id"]), ("", ["result", "username"]),
      ("Telegram getMe failed: ", ["description"])]
  | .vk_teams _, .start =>
    [("", ["userId"]), ("", ["nick"]), ("VK Teams self/get failed: ", ["description"])]
  | .vk_teams _, .send_reply .. => [("", ["description"])]
  | .vk_teams _, .send_post_with_files .. => [("", ["description"])]
  | _, _ => []

/-! The names of what is logged -/

def TelegramAdapter.log_events : List String :=
  ["telegram_logged_in", "telegram_login_failed", "telegram_poll_error", "telegram_poll_exception",
    "telegram_on_message_error", "telegram_send_reply_error", "telegram_update_reply_warning",
    "telegram_typing_error", "telegram_stopped"]

def VkTeamsAdapter.log_events : List String :=
  ["vk_teams_logged_in", "vk_teams_login_failed", "vk_teams_poll_error", "vk_teams_poll_exception",
    "vk_teams_send_failed", "vk_teams_send_error", "vk_teams_update_error", "vk_teams_stopped"]

def BitrixAdapter.log_events : List String :=
  ["bitrix_adapter_started", "bitrix_send_reply_error", "bitrix_update_reply_warning",
    "bitrix_stopped"]

def BotAdapter.log_events : BotAdapter → List String
  | .telegram _ => TelegramAdapter.log_events
  | .vk_teams _ => VkTeamsAdapter.log_events
  | .bitrix _ => BitrixAdapter.log_events

/-- The chats, threads and posts that a call names. -/
def BotCall.ids : BotCall → List String
  | .send_reply channel_id _ root_id => [channel_id, root_id]
  | .update_reply post_id _ channel_id => [post_id, channel_id]
  | .send_typing channel_id parent_id => [channel_id, parent_id]
  | .send_post_with_files channel_id _ _ root_id => [channel_id, root_id]
  | _ => []

/-- What an adapter has of itself, of its caller, and of Python. -/
inductive BotAdapter.Given (py : BotPython) (a : BotAdapter) (c : BotCall) : String → Prop
  | event : s ∈ a.log_events → a.Given py c s
  | bot_id : a = .bitrix b → a.Given py c ((Json.num b.bot_id).format py.dynamics)
  | id : s ∈ c.ids → a.Given py c s
  | number : s ∈ c.ids → py.digits s = some (.error text) → a.Given py c text
  | failure : c = .dispatch (.error e) → e.of_httpx = false → a.Given py c e.text
  | python (r : Raised) : a.Given py c (py.describe r)

/-- The secret comes with the errors of httpx only. -/
structure Confined (py : BotPython) (secret : String) (a : BotAdapter) (c : BotCall)
    (tr : BotTrace) : Prop where
  given : ∀ s, a.Given py c s → contains s secret = false
  told : ∀ y ∈ tr, ∀ s, tells py (a.quotes c) y s → contains s secret = false

/-- Where a string that an adapter says comes from. -/
inductive Sourced (py : BotPython) (safe : String → Prop) (quotes : Quotes) (x : Exposure)
    (tr : BotTrace) (s : String) : Prop
  | shown : s ∈ exposed x tr → Sourced py safe quotes x tr s
  | allowed : safe s → Sourced py safe quotes x tr s
  | told : y ∈ tr → tells py quotes y s → Sourced py safe quotes x tr s

/-- What is said has a source, and all that is exposed is said. -/
structure Faithful (py : BotPython) (safe : String → Prop) (quotes : Quotes) (x : Exposure)
    (tr : BotTrace) (result : Except BotExn α) : Prop where
  said : ∀ s ∈ spoken py tr result, Sourced py safe quotes x tr s
  all : ∀ text ∈ exposed x tr, text ∈ spoken py tr result

variable {py : BotPython} {safe : String → Prop} {quotes : Quotes} {x : Exposure}

theorem Faithful.exposed_free (h : Faithful py safe quotes x tr result)
    (hkept : Kept py secret tr result) : ∀ text ∈ exposed x tr, contains text secret = false :=
  fun text ht => hkept text (h.all text ht)

theorem Faithful.kept (h : Faithful py safe quotes x tr result)
    (hsafe : ∀ s, safe s → contains s secret = false)
    (htold : ∀ y ∈ tr, ∀ s, tells py quotes y s → contains s secret = false)
    (hfree : ∀ text ∈ exposed x tr, contains text secret = false) : Kept py secret tr result := by
  intro s hs
  cases h.said s hs with
  | shown ht => exact hfree s ht
  | allowed ha => exact hsafe s ha
  | told hy ht => exact htold _ hy s ht

/-- All runs of a program are faithful. -/
def Says (py : BotPython) (safe : String → Prop) (quotes : Quotes) (x : Exposure)
    (p : Bot α) : Prop :=
  ∀ tr result, Program.Ends p tr result → Faithful py safe quotes x tr result

theorem spoken_append (tr tr' : BotTrace) (result : Except BotExn α) :
    spoken py (tr ++ tr') result = (tr.flatMap fun y => y.1.texts py) ++ spoken py tr' result := by
  rw [spoken, spoken, List.flatMap_append, List.append_assoc]

theorem spoken_ok (tr : BotTrace) (a : α) :
    spoken py tr (.ok a : Except BotExn α) = tr.flatMap fun y => y.1.texts py := List.append_nil _

theorem exposed_append (tr tr' : BotTrace) :
    exposed x (tr ++ tr') = exposed x tr ++ exposed x tr' := List.flatMap_append

theorem Sourced.append_left (h : Sourced py safe quotes x tr s) :
    Sourced py safe quotes x (tr ++ tr') s := by
  cases h with
  | shown h =>
    apply Sourced.shown
    rw [exposed_append]
    exact List.mem_append_left _ h
  | allowed h => exact .allowed h
  | told hy h => exact .told (List.mem_append_left _ hy) h

theorem Sourced.append_right (h : Sourced py safe quotes x tr' s) :
    Sourced py safe quotes x (tr ++ tr') s := by
  cases h with
  | shown h =>
    apply Sourced.shown
    rw [exposed_append]
    exact List.mem_append_right _ h
  | allowed h => exact .allowed h
  | told hy h => exact .told (List.mem_append_right _ hy) h

/-- Two parts of a run, the first of which has ended well. -/
theorem Faithful.append (h : Faithful py safe quotes x tr (.ok a : Except BotExn α))
    (h' : Faithful py safe quotes x tr' result) : Faithful py safe quotes x (tr ++ tr') result := by
  constructor
  case said =>
    intro s hs
    rw [spoken_append, ← spoken_ok tr a] at hs
    rcases List.mem_append.mp hs with hs | hs
    · exact (h.said s hs).append_left
    · exact (h'.said s hs).append_right
  case all =>
    intro text ht
    rw [spoken_append, ← spoken_ok tr a]
    rw [exposed_append] at ht
    rcases List.mem_append.mp ht with ht | ht
    · exact List.mem_append_left _ (h.all text ht)
    · exact List.mem_append_right _ (h'.all text ht)

/-- A failure ends both a program and what was to follow it. -/
theorem Faithful.error (h : Faithful py safe quotes x tr (.error e : Except BotExn α)) :
    Faithful py safe quotes x tr (.error e : Except BotExn β) := ⟨h.said, h.all⟩

theorem Says.andThen {f : α → Bot β} (h : Says py safe quotes x p)
    (hf : ∀ a, Says py safe quotes x (f a)) : Says py safe quotes x (p.andThen f) := by
  intro tr result hends
  obtain ⟨tr₁, tr₂, mid, rfl, h₁, h₂⟩ := Program.ends_bind.mp hends
  cases mid with
  | ok a => exact (h tr₁ _ h₁).append (hf a tr₂ result h₂)
  | error e =>
    obtain ⟨rfl, rfl⟩ := Program.ends_done.mp h₂
    rw [List.append_nil]
    exact (h tr₁ _ h₁).error

theorem says_ok (a : α) : Says py safe quotes x (.done (.ok a)) := by
  intro tr result hends
  obtain ⟨rfl, rfl⟩ := Program.ends_done.mp hends
  exact ⟨fun s hs => (by cases hs), fun text ht => (by cases ht)⟩

theorem Says.forget (h : Says py safe quotes x p) : Says py safe quotes x (Bot.forget p) :=
  h.andThen fun _ => says_ok ()

theorem says_error (h : safe e.text) :
    Says py safe quotes x (.done (.error e) : Bot α) := by
  intro tr result hends
  obtain ⟨rfl, rfl⟩ := Program.ends_done.mp hends
  refine ⟨fun s hs => .allowed ?_, fun text ht => by cases ht⟩
  rw [List.mem_singleton.mp hs]
  exact h

/-- An exchange in which nothing is said. -/
theorem Faithful.cons {e : BotEffect} {r : e.Answer} (h : Faithful py safe quotes x rest result)
    (hquiet : e.texts py = []) (hsafe : x.texts ⟨e, r⟩ = []) :
    Faithful py safe quotes x (⟨e, r⟩ :: rest) result := by
  have hspoken : spoken py (⟨e, r⟩ :: rest) result = spoken py rest result := by
    rw [spoken, spoken, List.flatMap_cons, hquiet, List.nil_append]
  have hexposed : exposed x (⟨e, r⟩ :: rest) = exposed x rest := by
    rw [exposed, exposed, List.flatMap_cons, hsafe, List.nil_append]
  constructor
  · rw [hspoken]
    intro s hs
    have hsourced : Sourced py safe quotes x ([⟨e, r⟩] ++ rest) s := (h.said s hs).append_right
    exact hsourced
  · rw [hspoken, hexposed]
    exact h.all

theorem says_ask {e : BotEffect} {next : e.Answer → Bot α} (hquiet : e.texts py = [])
    (hsafe : ∀ r, x.texts ⟨e, r⟩ = []) (h : ∀ r, Says py safe quotes x (next r)) :
    Says py safe quotes x (.ask e next) := by
  intro tr result hends
  obtain ⟨r, rest, rfl, hrest⟩ := Program.ends_ask.mp hends
  exact (h r rest result hrest).cons hquiet (hsafe r)

theorem says_log (hevent : safe event) (hfields : ∀ field ∈ fields, safe (Logged.text py field.2)) :
    Says py safe quotes x (Bot.log event fields) := by
  intro tr result hends
  obtain ⟨r, rest, rfl, hrest⟩ := Program.ends_ask.mp hends
  obtain ⟨rfl, rfl⟩ := Program.ends_done.mp hrest
  refine ⟨fun s hs => .allowed ?_, fun text ht => by cases ht⟩
  rw [spoken_ok, List.flatMap_singleton] at hs
  rcases List.mem_cons.mp hs with rfl | hs
  · exact hevent
  · obtain ⟨field, hm, rfl⟩ := List.mem_map.mp hs
    exact hfields field hm

theorem says_event (h : safe event) : Says py safe quotes x (Bot.log event []) :=
  says_log h fun _ hm => by cases hm

theorem says_sleep : Says py safe quotes x (Bot.sleep n) :=
  says_ask rfl (fun _ => rfl) fun _ => says_ok ()

theorem says_dispatch_all (events : List AdapterEvent) :
    Says py safe quotes x (Bot.dispatch_all events) := by
  induction events with
  | nil => exact says_ok ()
  | cons event events ih => exact says_ask rfl (fun _ => rfl) fun _ => ih

/-! One request -/

def Wording.is_raw : Wording → Bool
  | .raw => true
  | .redacted _ => false

/-- What is not shown as it is, is safe. -/
def Wording.Hides (safe : String → Prop) : Wording → Prop
  | .raw => True
  | .redacted token => ∀ text, safe (redact token text)

/-- An exception that a handler does not catch, logs as it is, or raises as it is. -/
def ExceptClause.reveals (h : ExceptClause) (k : BotExnKind) : Bool :=
  !h.catches k || h.logs.any (fun x => x.2.2.is_raw) || h.raises.any Wording.is_raw

structure ExceptClause.Hides (py : BotPython) (safe : String → Prop) (h : ExceptClause) :
    Prop where
  logs : ∀ event fields shown, h.logs = some (event, fields, shown) →
    safe event ∧ (∀ field ∈ fields, safe (Logged.text py field.2)) ∧ shown.Hides safe
  raises : ∀ shown, h.raises = some shown → shown.Hides safe

/-- What is shown of an exception is its text, or safe. -/
theorem shown_text (h : Wording.Hides safe shown) (e : BotExn) :
    shown.is_raw = true ∧ (e.shown shown).text = e.text ∨
      shown.is_raw = false ∧ safe (e.shown shown).text := by
  cases shown with
  | raw => exact .inl ⟨rfl, rfl⟩
  | redacted token => exact .inr ⟨rfl, h e.text⟩

/-- What a handler says of an exception: its text when it reveals it, and only what is safe
otherwise. -/
structure Caught (py : BotPython) (safe : String → Prop) (h : ExceptClause) (x : Exposure)
    (e : BotExn) (tr : BotTrace) (result : Except BotExn α) : Prop where
  quiet : exposed x tr = []
  said : ∀ s ∈ spoken py tr result, safe s ∨ h.reveals e.kind = true ∧ s = e.text
  reveals : h.reveals e.kind = true → e.text ∈ spoken py tr result

/-- How an exception that is caught is shown, first to the logger. -/
def ExceptClause.shows (h : ExceptClause) : List Wording :=
  (h.logs.map fun x => x.2.2).toList ++ h.raises.toList

theorem ExceptClause.Hides.shows {h : ExceptClause} (hh : h.Hides py safe) :
    ∀ shown ∈ h.shows, shown.Hides safe := by
  intro shown hm
  rcases List.mem_append.mp hm with hm | hm
  · obtain ⟨⟨event, fields, shown'⟩, hlogs, rfl⟩ :=
      Option.map_eq_some_iff.mp (Option.mem_toList.mp hm)
    exact (hh.logs event fields shown' hlogs).2.2
  · exact hh.raises shown (Option.mem_toList.mp hm)

theorem ExceptClause.reveals_caught {h : ExceptClause} (hcatch : h.catches k = true) :
    h.reveals k = true ↔ ∃ shown ∈ h.shows, shown.is_raw = true := by
  rw [ExceptClause.reveals, hcatch, ExceptClause.shows]
  cases h.logs <;> cases h.raises <;> simp

/-- The handler's own words come first. -/
theorem ExceptClause.caught_spoken {h : ExceptClause} (hh : h.Hides py safe)
    (hcatch : h.catches e.kind = true) (hends : Program.Ends (h.run d e) tr result) :
    exposed x tr = [] ∧ ∃ words, (∀ s ∈ words, safe s) ∧
      spoken py tr result = words ++ h.shows.map fun shown => (e.shown shown).text := by
  rw [ExceptClause.run, if_pos hcatch] at hends
  obtain ⟨tr₁, tr₂, mid, rfl, h₁, h₂⟩ := Program.ends_bind.mp hends
  have hlogged : mid = .ok () ∧ exposed x tr₁ = [] ∧ ∃ words, (∀ s ∈ words, safe s) ∧
      (tr₁.flatMap fun y => y.1.texts py) =
        words ++ (h.logs.map fun x => x.2.2).toList.map fun shown => (e.shown shown).text := by
    cases hlogs : h.logs with
    | none =>
      rw [hlogs] at h₁
      obtain ⟨rfl, rfl⟩ := Program.ends_done.mp h₁
      exact ⟨rfl, rfl, [], fun s hs => (by cases hs), rfl⟩
    | some l =>
      obtain ⟨event, fields, shown⟩ := l
      rw [hlogs] at h₁
      obtain ⟨r, rest, rfl, hrest⟩ := Program.ends_ask.mp h₁
      obtain ⟨rfl, rfl⟩ := Program.ends_done.mp hrest
      obtain ⟨hevent, hfields, -⟩ := hh.logs event fields shown hlogs
      refine ⟨rfl, rfl, event :: fields.map fun field => field.2.text py, ?_, ?_⟩
      · intro s hs
        rcases List.mem_cons.mp hs with rfl | hs
        · exact hevent
        · obtain ⟨field, hm, rfl⟩ := List.mem_map.mp hs
          exact hfields field hm
      · rw [List.flatMap_singleton, BotEffect.texts, List.map_append]
        rfl
  obtain ⟨rfl, hquiet, words, hwords, hsaid⟩ := hlogged
  have hrest : exposed x tr₂ = [] ∧ spoken py tr₂ result =
      h.raises.toList.map fun shown => (e.shown shown).text := by
    cases hraises : h.raises with
    | none =>
      rw [hraises] at h₂
      obtain ⟨rfl, rfl⟩ := Program.ends_done.mp h₂
      exact ⟨rfl, rfl⟩
    | some shown =>
      rw [hraises] at h₂
      obtain ⟨rfl, rfl⟩ := Program.ends_done.mp h₂
      exact ⟨rfl, rfl⟩
  refine ⟨?_, words, hwords, ?_⟩
  · rw [exposed_append, hquiet, hrest.1]
    rfl
  · rw [spoken_append, hsaid, hrest.2, ExceptClause.shows, List.map_append, List.append_assoc]

theorem ExceptClause.run_caught {h : ExceptClause} (hh : h.Hides py safe)
    (hends : Program.Ends (h.run d e) tr result) : Caught py safe h x e tr result := by
  cases hcatch : h.catches e.kind with
  | true =>
    obtain ⟨hquiet, words, hwords, hspoken⟩ :=
      ExceptClause.caught_spoken (x := x) hh hcatch hends
    refine ⟨hquiet, ?_, ?_⟩
    · intro s hs
      rw [hspoken] at hs
      rcases List.mem_append.mp hs with hs | hs
      · exact .inl (hwords s hs)
      · obtain ⟨shown, hm, rfl⟩ := List.mem_map.mp hs
        rcases shown_text (hh.shows shown hm) e with ⟨hraw, htext⟩ | ⟨-, hsafe⟩
        · exact .inr ⟨(ExceptClause.reveals_caught hcatch).mpr ⟨shown, hm, hraw⟩, htext⟩
        · exact .inl hsafe
    · intro hreveals
      obtain ⟨shown, hm, hraw⟩ := (ExceptClause.reveals_caught hcatch).mp hreveals
      rw [hspoken]
      apply List.mem_append_right
      rcases shown_text (hh.shows shown hm) e with ⟨-, htext⟩ | ⟨hnot, -⟩
      · exact List.mem_map.mpr ⟨shown, hm, htext⟩
      · exact absurd (hnot.symm.trans hraw) Bool.false_ne_true
  | false =>
    rw [ExceptClause.run, hcatch, if_neg Bool.false_ne_true] at hends
    obtain ⟨rfl, rfl⟩ := Program.ends_done.mp hends
    have hreveals : h.reveals e.kind = true := by
      rw [ExceptClause.reveals, hcatch]
      rfl
    refine ⟨rfl, ?_, fun _ => List.mem_cons_self⟩
    intro s hs
    exact .inr ⟨hreveals, List.mem_singleton.mp hs⟩

/-- What an operation may say once a request is answered. -/
def Heard (py : BotPython) (safe : String → Prop) (quotes : Quotes)
    (answer : Except BotExn BotResponse) (s : String) : Prop := safe s ∨ BotTold py quotes answer s

theorem Heard.sourced {answer : Except BotExn BotResponse} (h : Heard py safe quotes answer s) :
    Sourced py safe quotes x (⟨.request url data, answer⟩ :: tr) s := by
  rcases h with h | h
  · exact .allowed h
  · exact .told List.mem_cons_self h

/-- How a response is read: the exception is the one for its status, or has a text that may be
said, and so has the value. -/
structure Reads (py : BotPython) (safe : String → Prop) (quotes : Quotes) (status : Bool)
    (Q : BotResponse → α → Prop) (accept : BotResponse → Except BotExn α) : Prop where
  error : ∀ r e, accept r = .error e →
    e = ⟨.http_error, r.status_error⟩ ∧ is_success r.status_code = false ∨
      Heard py safe quotes (.ok r) e.text
  ok : ∀ r a, accept r = .ok a → Q r a
  status : status = true → ∀ r, is_success r.status_code = false →
    accept r = .error ⟨.http_error, r.status_error⟩

/-- A handler, and what it lets out. -/
structure ExceptClause.Exposes (h : ExceptClause) (x : Exposure) : Prop where
  transport : ∀ e : BotExn, e.of_httpx = true → x.transport e.kind = h.reveals e.kind
  status : x.status = h.reveals .http_error

theorem call_run (h : Program.Ends (call url data accept) tr result) :
    ∃ answer : Except BotExn BotResponse, tr = [⟨.request url data, answer⟩] ∧
      result = answer.bind accept := by
  obtain ⟨answer, rest, rfl, hrest⟩ := Program.ends_ask.mp h
  obtain ⟨rfl, rfl⟩ := Program.ends_done.mp hrest
  exact ⟨answer, rfl, rfl⟩

/-- What follows a request raises nothing, and says strings of one kind. -/
def Quiet (py : BotPython) (S : String → Prop) (p : Bot α) : Prop :=
  ∀ x tr result, Program.Ends p tr result →
    (∃ a, result = .ok a) ∧ (∀ s ∈ spoken py tr result, S s) ∧ exposed x tr = []

/-- The response that a request got is one whose status is not exposed. -/
theorem texts_accepted {accept : BotResponse → Except BotExn α}
    (hreads : Reads py safe quotes x.status Q accept) (hok : accept r = .ok a) :
    x.texts ⟨.request url data, .ok r⟩ = [] := by
  rw [Exposure.texts, if_neg]
  intro hboth
  obtain ⟨hstatus, hnot⟩ := Bool.and_eq_true_iff.mp hboth
  have herror := hreads.status hstatus r (by simpa using hnot)
  rw [hok] at herror
  cases herror

/-- An exception of a request that is revealed has a source in the answer. -/
theorem revealed_sourced {h : ExceptClause} {accept : BotResponse → Except BotExn α}
    {answer : Except BotExn BotResponse} (hx : h.Exposes x)
    (hreads : Reads py safe quotes x.status Q accept) (he : answer.bind accept = .error e)
    (hreveals : h.reveals e.kind = true) :
    Sourced py safe quotes x (⟨.request url data, answer⟩ :: tr) e.text := by
  have hshown (htext : e.text ∈ x.texts ⟨.request url data, answer⟩) :
      Sourced py safe quotes x (⟨.request url data, answer⟩ :: tr) e.text :=
    .shown (List.mem_append_left _ htext)
  cases answer with
  | error e₀ =>
    cases he
    cases ho : e.of_httpx with
    | false => exact Heard.sourced (.inr (.failure ho))
    | true =>
      apply hshown
      rw [Exposure.texts, ho, hx.transport e ho, hreveals]
      exact List.mem_cons_self
  | ok r =>
    rcases hreads.error r e he with ⟨rfl, hnot⟩ | hheard
    · apply hshown
      rw [Exposure.texts, hx.status, hreveals, hnot]
      exact List.mem_cons_self
    · exact hheard.sourced

/-- What the answer to a request exposes, its handler reveals. -/
theorem texts_revealed {h : ExceptClause} {accept : BotResponse → Except BotExn α}
    {answer : Except BotExn BotResponse} (hx : h.Exposes x)
    (hreads : Reads py safe quotes x.status Q accept) (he : answer.bind accept = .error e)
    (ht : text ∈ x.texts ⟨.request url data, answer⟩) :
    h.reveals e.kind = true ∧ text = e.text := by
  cases answer with
  | error e₀ =>
    cases he
    rw [Exposure.texts] at ht
    split at ht
    · rename_i hboth
      obtain ⟨ho, htransport⟩ := Bool.and_eq_true_iff.mp hboth
      exact ⟨(hx.transport e ho).symm.trans htransport, List.mem_singleton.mp ht⟩
    · cases ht
  | ok r =>
    rw [Exposure.texts] at ht
    split at ht
    · rename_i hboth
      obtain ⟨hstatus, hnot⟩ := Bool.and_eq_true_iff.mp hboth
      have herror := hreads.status hstatus r (by simpa using hnot)
      have he' : accept r = .error e := he
      rw [he'] at herror
      cases herror
      exact ⟨hx.status.symm.trans hstatus, List.mem_singleton.mp ht⟩
    · cases ht

theorem attempt_says {h : ExceptClause} {accept : BotResponse → Except BotExn α} {after : α → Bot β}
    (hh : h.Hides py safe) (hx : h.Exposes x) (hreads : Reads py safe quotes x.status Q accept)
    (hafter : ∀ r a, Q r a → Quiet py (Heard py safe quotes (.ok r)) (after a)) :
    Says py safe quotes x (attempt h url data accept after d) := by
  intro tr result hends
  obtain ⟨tr₁, tr₂, mid, rfl, h₁, h₂⟩ := Program.ends_bind.mp hends
  obtain ⟨tr₃, tr₄, got, rfl, h₃, h₄⟩ := Program.ends_bind.mp h₁
  obtain ⟨answer, rfl, rfl⟩ := call_run h₃
  have hspoken (tr' : BotTrace) : spoken py ([⟨.request url data, answer⟩] ++ tr') result =
      spoken py tr' result := spoken_append ..
  have hexposed (tr' : BotTrace) : exposed x ([⟨.request url data, answer⟩] ++ tr') =
      x.texts ⟨.request url data, answer⟩ ++ exposed x tr' := by
    rw [exposed_append, exposed, List.flatMap_singleton]
  cases hgot : answer.bind accept with
  | ok a =>
    rw [hgot] at h₄
    cases answer with
    | error e => cases hgot
    | ok r =>
      obtain ⟨⟨b, rfl⟩, hsaid, hquiet⟩ := hafter r a (hreads.ok r a hgot) x tr₄ mid h₄
      obtain ⟨rfl, rfl⟩ := Program.ends_done.mp h₂
      rw [List.append_nil]
      constructor
      · intro s hs
        rw [hspoken] at hs
        exact (hsaid s hs).sourced
      · intro text ht
        rw [hexposed, texts_accepted hreads hgot, hquiet] at ht
        cases ht
  | error e =>
    rw [hgot] at h₄
    obtain ⟨rfl, rfl⟩ := Program.ends_done.mp h₄
    have hcaught := ExceptClause.run_caught (x := x) hh h₂
    rw [List.append_nil]
    constructor
    · intro s hs
      rw [hspoken] at hs
      rcases hcaught.said s hs with hsafe | ⟨hreveals, rfl⟩
      · exact .allowed hsafe
      · exact revealed_sourced hx hreads hgot hreveals
    · intro text ht
      rw [hexposed, hcaught.quiet, List.append_nil] at ht
      rw [hspoken]
      obtain ⟨hreveals, rfl⟩ := texts_revealed hx hreads hgot ht
      exact hcaught.reveals hreveals

/-- A request that no handler guards: its transport is exposed. -/
theorem call_says {accept : BotResponse → Except BotExn α}
    (hreads : ∀ r e, accept r = .error e → Heard py safe quotes (.ok r) e.text) :
    Says py safe quotes .transports (call url data accept) := by
  intro tr result hends
  obtain ⟨answer, rfl, rfl⟩ := call_run hends
  cases answer with
  | error e =>
    have hexposed : exposed .transports
        [⟨.request url data, (.error e : Except BotExn BotResponse)⟩]
        = if e.of_httpx then [e.text] else [] := by
      rw [exposed, List.flatMap_cons, Exposure.texts, Exposure.transports, Bool.and_true]
      exact List.append_nil _
    constructor
    case said =>
      intro s hs
      have htext : s = e.text := List.mem_singleton.mp hs
      subst htext
      cases ho : e.of_httpx with
      | false => exact Heard.sourced (.inr (.failure ho))
      | true =>
        apply Sourced.shown
        rw [hexposed, ho]
        exact List.mem_cons_self
    case all =>
      intro text ht
      rw [hexposed] at ht
      split at ht
      · rw [List.mem_singleton.mp ht]
        exact List.mem_cons_self
      · cases ht
  | ok r =>
    refine ⟨?_, fun text ht => by cases ht⟩
    intro s hs
    cases haccept : accept r with
    | ok a =>
      have hnone : s ∈ raised (accept r) := hs
      rw [haccept] at hnone
      cases hnone
    | error e =>
      have hone : s ∈ raised (accept r) := hs
      rw [haccept] at hone
      rw [List.mem_singleton.mp hone]
      exact (hreads r e haccept).sourced

/-! Polling -/

variable {report : PollReport}

/-- What a poll loop says of its own. -/
structure PollReport.Allowed (py : BotPython) (safe : String → Prop) (report : PollReport) :
    Prop where
  status_event : safe report.status_event
  error_event : safe report.error_event
  describe : ∀ r, safe (py.describe r)

theorem PollReport.Allowed.mono (h : report.Allowed py safe) (hs : ∀ s, safe s → safe' s) :
    report.Allowed py safe' :=
  ⟨hs _ h.status_event, hs _ h.error_event, fun r => hs _ (h.describe r)⟩

/-- What follows an answer may say what it tells. -/
theorem Faithful.cons_request {answer : Except BotExn BotResponse}
    (h : Faithful py (Heard py safe quotes answer) quotes x rest result)
    (htexts : x.texts ⟨.request url data, answer⟩ = []) :
    Faithful py safe quotes x (⟨.request url data, answer⟩ :: rest) result := by
  constructor
  case said =>
    intro s hs
    cases h.said s hs with
    | shown h => exact .shown (List.mem_append_right _ h)
    | allowed h => exact h.sourced
    | told hy h => exact .told (List.mem_cons_of_mem _ hy) h
  case all =>
    intro text ht
    rw [exposed, List.flatMap_cons, htexts, List.nil_append] at ht
    exact h.all text ht

theorem says_poll_failed (hevent : safe report.error_event)
    (h : safe (e.shown report.shown).text) :
    Says py safe quotes x (poll_failed report e p) := by
  have hlogged : Says py safe quotes x ((Bot.log report.error_event
      [("error", .error (e.shown report.shown))]).andThen fun () =>
        (Bot.sleep report.pause).andThen fun () => .done (.ok (some p))) := by
    refine (says_log hevent ?_).andThen fun _ => says_sleep.andThen fun _ => says_ok _
    intro field hm
    rw [List.mem_singleton.mp hm]
    exact h
  rw [poll_failed]
  split
  · exact says_ok _
  · dsimp only
    split
    · refine says_ask rfl (fun _ => rfl) fun running => ?_
      cases running with
      | true => exact hlogged
      | false => exact says_ok _
    · exact hlogged

/-- A loop that hides what it logs, or one that logs what it is told. -/
inductive PollReport.Tells (safe : String → Prop) (report : PollReport) : Exposure → Prop
  | nothing : (∀ e : BotExn, safe (e.shown report.shown).text) → report.Tells safe .none
  | all : report.shown = .raw → report.asks_running = false → report.Tells safe .transports

variable (quotes) in
/-- Where the exception of a round comes from, and the status that it logs. -/
theorem poll_end_sources {answer : Except BotExn BotResponse}
    (h : poll_end py l report handle answer p = (p', ended)) :
    (∀ n : Nat, ended = .status n → BotTold py quotes answer ((Json.num n).format py.dynamics)) ∧
      ∀ e, ended = .raised e →
        answer = .error e ∨ BotTold py quotes answer e.text ∨ ∃ r, e.text = py.describe r := by
  have hraised {e₀ : BotExn}
      (he₀ : answer = .error e₀ ∨ BotTold py quotes answer e₀.text ∨ ∃ r, e₀.text = py.describe r) :
      (∀ n : Nat, PollEnd.raised e₀ = .status n →
        BotTold py quotes answer ((Json.num n).format py.dynamics)) ∧
        ∀ e, PollEnd.raised e₀ = .raised e →
          answer = .error e ∨ BotTold py quotes answer e.text ∨ ∃ r, e.text = py.describe r := by
    refine ⟨fun n hn => (by cases hn), fun e he => ?_⟩
    cases he
    exact he₀
  rw [poll_end.eq_def] at h
  split at h
  · cases h
    exact hraised (.inl rfl)
  · rename_i r
    split at h
    · cases h
      refine ⟨fun n hn => ?_, fun e he => by cases he⟩
      cases hn
      exact .status
    · split at h
      · rename_i e' hread
        cases h
        apply hraised
        rw [BotResponse.read] at hread
        cases hjson : r.json with
        | error text =>
          rw [hjson] at hread
          cases hread
          exact .inr (.inl (.unread hjson))
        | ok data =>
          rw [hjson] at hread
          cases hread
      · split at h
        · rename_i raised _
          cases h
          exact hraised (.inr (.inr ⟨raised, rfl⟩))
        · obtain ⟨-, hended⟩ := Prod.mk.inj h
          split at hended
          · rename_i raised _
            cases hended
            exact hraised (.inr (.inr ⟨raised, rfl⟩))
          · split at hended
            all_goals
              cases hended
              exact ⟨fun n hn => (by cases hn), fun e he => by cases he⟩

theorem says_poll_ended (hreport : report.Allowed py safe)
    (hstatus : ∀ n : Nat, ended = .status n → safe ((Json.num n).format py.dynamics))
    (hraised : ∀ e, ended = .raised e → safe (e.shown report.shown).text) :
    Says py safe quotes x (poll_ended report p ended) := by
  cases ended with
  | read => exact says_ok _
  | paused => exact says_sleep.andThen fun _ => says_ok _
  | status status_code =>
    refine (says_log hreport.status_event ?_).andThen fun _ => says_sleep.andThen fun _ =>
      says_ok _
    intro field hm
    rw [List.mem_singleton.mp hm]
    exact hstatus status_code rfl
  | raised e => exact says_poll_failed hreport.error_event (hraised e rfl)

/-- The request of a loop that logs what it is told has failed. -/
theorem poll_failed_raw (hraw : report.shown = .raw) (hrunning : report.asks_running = false)
    (hevent : safe report.error_event) (ho : e.of_httpx = true)
    (hends : Program.Ends (poll_failed report e p) rest result) :
    Faithful py safe quotes .transports (⟨.request url data, .error e⟩ :: rest) result := by
  have hkind : e.kind ≠ .cancelled := by
    intro he
    rw [BotExn.of_httpx, he] at ho
    cases ho
  rw [poll_failed, if_neg hkind, hrunning, hraw] at hends
  obtain ⟨r, rest₁, rfl, hrest₁⟩ := Program.ends_ask.mp hends
  obtain ⟨r', rest₂, rfl, hrest₂⟩ := Program.ends_ask.mp hrest₁
  obtain ⟨rfl, rfl⟩ := Program.ends_done.mp hrest₂
  have hexposed : Exposure.transports.texts ⟨.request url data, .error e⟩ = [e.text] := by
    rw [Exposure.texts, ho]
    rfl
  constructor
  case said =>
    intro s hs
    rcases List.mem_cons.mp hs with rfl | hs
    · exact .allowed hevent
    · apply Sourced.shown
      rw [exposed, List.flatMap_cons, hexposed, List.mem_singleton.mp hs]
      exact List.mem_cons_self
  case all =>
    intro text ht
    rw [exposed, List.flatMap_cons, hexposed] at ht
    have hone : text = e.text := List.mem_singleton.mp ht
    rw [hone]
    exact List.mem_cons_of_mem _ List.mem_cons_self

theorem says_poll_round (hreport : report.Allowed py safe) (hx : report.Tells safe x) :
    Says py safe quotes x (poll_round py l report handle url params p) := by
  rw [poll_round]
  split
  · rename_i raised _
    cases hx with
    | nothing hsafe => exact says_poll_failed hreport.error_event (hsafe _)
    | all hraw _ =>
      refine says_poll_failed hreport.error_event ?_
      rw [hraw]
      exact hreport.describe raised
  · rename_i offset _
    intro tr result hends
    obtain ⟨answer, rest, rfl, hrest⟩ := Program.ends_ask.mp hends
    obtain ⟨hstatus, hraised⟩ := poll_end_sources quotes
      (Prod.mk.eta (p := poll_end py l report handle answer p)).symm
    have hgo (hsafe : ∀ e, (poll_end py l report handle answer p).2 = .raised e →
        Heard py safe quotes answer (e.shown report.shown).text)
        (htexts : x.texts ⟨.request url (params offset), answer⟩ = []) :
        Faithful py safe quotes x (⟨.request url (params offset), answer⟩ :: rest) result := by
      have hended : Says py (Heard py safe quotes answer) quotes x
          (poll_ended report (poll_end py l report handle answer p).1
            (poll_end py l report handle answer p).2) :=
        says_poll_ended (hreport.mono fun _ hs => .inl hs) (fun n hn => .inr (hstatus n hn)) hsafe
      exact ((says_dispatch_all _).andThen (fun _ => hended) rest result hrest).cons_request htexts
    cases hx with
    | nothing hsafe =>
      refine hgo (fun e _ => .inl (hsafe e)) ?_
      cases answer with
      | error e =>
        rw [Exposure.texts, Exposure.none, Bool.and_false]
        rfl
      | ok r => rfl
    | all hraw hrunning =>
      have hheard (hother : ∀ e, answer = .error e → e.of_httpx = false) :
          ∀ e, (poll_end py l report handle answer p).2 = .raised e →
            Heard py safe quotes answer (e.shown report.shown).text := by
        intro e he
        rw [hraw]
        rcases hraised e he with rfl | htold | ⟨r, hr⟩
        · exact .inr (.failure (hother e rfl))
        · exact .inr htold
        · refine .inl ?_
          rw [BotExn.shown, hr]
          exact hreport.describe r
      cases answer with
      | error e =>
        cases ho : e.of_httpx with
        | false =>
          refine hgo (hheard fun e' he => ?_) ?_
          · cases he
            exact ho
          · rw [Exposure.texts, ho]
            rfl
        | true =>
          have hdrop : p.dispatched.drop p.dispatched.length = [] := List.drop_length
          have hfailed : Program.Ends ((Bot.dispatch_all
              (p.dispatched.drop p.dispatched.length)).andThen fun () => poll_failed report e p)
              rest result := hrest
          rw [hdrop] at hfailed
          exact poll_failed_raw hraw hrunning hreport.error_event ho hfailed
      | ok r => exact hgo (hheard fun e he => by cases he) rfl

theorem says_poll_rounds {round : Poller → Bot (Option Poller)}
    (h : ∀ p, Says py safe quotes x (round p)) (n : Nat) (p : Poller) :
    Says py safe quotes x (poll_rounds round n p) := by
  induction n generalizing p with
  | zero => exact says_ok _
  | succ n ih =>
    refine says_ask rfl (fun _ => rfl) fun running => ?_
    cases running with
    | true =>
      refine (h p).andThen fun next => ?_
      cases next with
      | none => exact says_ok _
      | some p' => exact ih p'
    | false => exact says_ok _

/-! The operations -/

theorem of_httpx_kind {e : BotExn} (h : e.of_httpx = true) :
    e.kind = .http_error ∨ e.kind = .httpx := by
  cases e with
  | mk kind text =>
    cases kind with
    | http_error => exact .inl rfl
    | httpx => exact .inr rfl
    | cancelled => cases h
    | other => cases h

theorem ExceptClause.exposes {h : ExceptClause}
    (hcaught : x.transport .http_error = h.reveals .http_error)
    (hothers : x.transport .httpx = h.reveals .httpx) (hstatus : x.status = h.reveals .http_error) :
    h.Exposes x := by
  refine ⟨fun e ho => ?_, hstatus⟩
  rcases of_httpx_kind ho with hk | hk
  · rw [hk, hcaught]
  · rw [hk, hothers]

theorem quiet_ok (a : α) : Quiet py S (.done (.ok a)) := by
  intro x tr result hends
  obtain ⟨rfl, rfl⟩ := Program.ends_done.mp hends
  exact ⟨⟨a, rfl⟩, fun s hs => (by cases hs), rfl⟩

theorem quiet_log (a : α) (hevent : S event)
    (hfields : ∀ field ∈ fields, S (Logged.text py field.2)) :
    Quiet py S ((Bot.log event fields).andThen fun () => .done (.ok a)) := by
  intro x tr result hends
  obtain ⟨r, rest, rfl, hrest⟩ := Program.ends_ask.mp hends
  obtain ⟨rfl, rfl⟩ := Program.ends_done.mp hrest
  refine ⟨⟨a, rfl⟩, fun s hs => ?_, rfl⟩
  rw [spoken_ok, List.flatMap_singleton] at hs
  rcases List.mem_cons.mp hs with rfl | hs
  · exact hevent
  · obtain ⟨field, hm, rfl⟩ := List.mem_map.mp hs
    exact hfields field hm

/-- What a computation raises, and what it returns. -/
structure Yields (S : String → Prop) (Q : α → Prop) (m : Except BotExn α) : Prop where
  error : ∀ e, m = .error e → S e.text
  ok : ∀ a, m = .ok a → Q a

theorem yields_ok {Q : α → Prop} (h : Q a) : Yields S Q (.ok a) := by
  constructor
  · intro e he
    cases he
  · intro b hb
    cases hb
    exact h

theorem yields_error {Q : α → Prop} (h : S text) : Yields S Q (.error ⟨.other, text⟩) := by
  constructor
  · intro e he
    cases he
    exact h
  · intro a ha
    cases ha

theorem Yields.bind {m : Except BotExn α} {f : α → Except BotExn β} (h : Yields S Q m)
    (hf : ∀ a, Q a → Yields S R (f a)) : Yields S R (m >>= f) := by
  cases m with
  | ok a => exact hf a (h.ok a rfl)
  | error e =>
    constructor
    · intro e' he
      cases he
      exact h.error e rfl
    · intro b hb
      cases hb

theorem yields_python {Q : α → Prop} {m : Except Raised α} (hpy : ∀ r, S (py.describe r))
    (h : ∀ a, m = .ok a → Q a) : Yields S Q (python py m) := by
  cases m with
  | ok a => exact yields_ok (h a rfl)
  | error r => exact yields_error (hpy r)

theorem yields_get (hpy : ∀ r, S (py.describe r)) (hm : missing ∈ [Json.null, .str "", .obj []])
    (hj : Got data path j) :
    Yields S (Got data (path ++ [name])) (python py (Dynamic.get name missing j)) :=
  yields_python hpy fun _ ha => .get name hm hj ha

theorem yields_read (r : BotResponse) :
    Yields (Heard py safe quotes (.ok r)) (fun data => r.json = .ok data) r.read := by
  rw [BotResponse.read]
  cases hr : r.json with
  | ok j => exact yields_ok rfl
  | error text => exact yields_error (.inr (.unread hr))

theorem yields_number_or (hs : ∀ text, py.digits s = some (.error text) → S text)
    (d : Option Json) : Yields S (fun _ => True) (number_or py s d) := by
  rw [number_or]
  split
  · exact yields_ok trivial
  · exact yields_ok trivial
  · rename_i text htext
    exact yields_error (hs text htext)

theorem says_done {m : Except BotExn α} (h : Yields safe Q m) :
    Says py safe quotes x (.done m) := by
  cases m with
  | ok a => exact says_ok a
  | error e => exact says_error (h.error e rfl)

theorem raise_for_status_error {r : BotResponse} (h : raise_for_status r = .error e) :
    e = ⟨.http_error, r.status_error⟩ ∧ is_success r.status_code = false := by
  rw [raise_for_status] at h
  split at h
  · cases h
  · rename_i hnot
    cases h
    exact ⟨rfl, by simpa using hnot⟩

theorem raise_for_status_failed {r : BotResponse} (h : is_success r.status_code = false) :
    raise_for_status r = .error ⟨.http_error, r.status_error⟩ := by
  rw [raise_for_status, h, if_neg Bool.false_ne_true]

/-- The value of an answer, with no words before it. -/
theorem heard_value (hdata : r.json = .ok data) (hj : Got data path j)
    (hquoted : ("", path) ∈ quotes) :
    Heard py safe quotes (.ok r) (j.format py.dynamics) := by
  have htold : BotTold py quotes (.ok r) ("" ++ j.format py.dynamics) := .value hdata hj hquoted
  rw [String.empty_append] at htold
  exact .inr htold

theorem reads_ok (a : α) : Reads py safe quotes false (fun _ _ => True) fun _ => .ok a where
  error _ _ h := by cases h
  ok _ _ _ := trivial
  status h := by cases h

/-- The status is checked first. -/
theorem reads_checked {next : BotResponse → Except BotExn α}
    (h : ∀ r, Yields (Heard py safe quotes (.ok r)) (Q r) (next r)) :
    Reads py safe quotes status Q fun r => raise_for_status r >>= fun _ => next r := by
  constructor
  case error =>
    intro r e he
    cases hr : raise_for_status r with
    | ok u =>
      rw [hr] at he
      exact .inr ((h r).error e he)
    | error e₀ =>
      rw [hr] at he
      cases he
      exact .inl (raise_for_status_error hr)
  case ok =>
    intro r a ha
    cases hr : raise_for_status r with
    | ok u =>
      rw [hr] at ha
      exact (h r).ok a ha
    | error e₀ =>
      rw [hr] at ha
      cases ha
  case status =>
    intro _ r hnot
    rw [raise_for_status_failed hnot]
    rfl

theorem reads_raise : Reads py safe quotes status (fun _ _ => True) raise_for_status where
  error _ _ he := .inl (raise_for_status_error he)
  ok _ _ _ := trivial
  status _ _ hnot := raise_for_status_failed hnot

/-- What may be said of an adapter's own: what it hides, and what it is given. -/
def BotAdapter.Safe (py : BotPython) (a : BotAdapter) (c : BotCall) (s : String) : Prop :=
  a.hidden s ∨ a.Given py c s

/-- What it may say of a response. -/
abbrev BotAdapter.Hears (py : BotPython) (a : BotAdapter) (c : BotCall) (r : BotResponse) :
    String → Prop := Heard py (a.Safe py c) (a.quotes c) (.ok r)

abbrev BotAdapter.Says (py : BotPython) (a : BotAdapter) (c : BotCall) (x : Exposure) (p : Bot α) :
    Prop := ClawMux.Says py (a.Safe py c) (a.quotes c) x p

section
variable {a : BotAdapter} {c : BotCall}

theorem safe_event (h : event ∈ a.log_events) : a.Safe py c event := .inr (.event h)

theorem safe_describe (r : Raised) : a.Safe py c (py.describe r) := .inr (.python r)

theorem hears_describe (r : BotResponse) (raised : Raised) :
    a.Hears py c r (py.describe raised) := .inl (safe_describe raised)

theorem safe_id (h : s ∈ c.ids) : a.Safe py c s := .inr (.id h)

/-- The fields of a request to the logger that is about one of the call's ids. -/
theorem safe_field (h : s ∈ c.ids) :
    ∀ field ∈ [(name, Logged.value (.str s))], a.Safe py c (Logged.text py field.2) := by
  intro field hm
  rw [List.mem_singleton.mp hm]
  exact safe_id h

theorem yields_number (hs : s ∈ c.ids) (d : Option Json) :
    Yields (a.Safe py c) (fun _ => True) (number_or py s d) :=
  yields_number_or (fun _ htext => .inr (.number hs htext)) d

end

/-! Telegram -/

namespace TelegramAdapter
variable (a : TelegramAdapter) {c : BotCall}

theorem allowed_event (h : event ∈ log_events) : (BotAdapter.telegram a).Safe py c event :=
  safe_event h

theorem redacted_hides :
    (Wording.redacted a.bot_token).Hides ((BotAdapter.telegram a).Safe py c) :=
  fun text => .inl ⟨text, rfl⟩

/-- A handler that logs a redacted text, next to an id of the call. -/
theorem redacting (hevent : event ∈ log_events)
    (hfields : ∀ field ∈ fields, (BotAdapter.telegram a).Safe py c (Logged.text py field.2))
    (hraises : ∀ shown, raises = some shown →
      shown.Hides ((BotAdapter.telegram a).Safe py c)) :
    ExceptClause.Hides py ((BotAdapter.telegram a).Safe py c)
      ⟨catches, some (event, fields, .redacted a.bot_token), raises⟩ := by
  constructor
  · rintro _ _ _ ⟨⟩
    exact ⟨safe_event hevent, hfields, a.redacted_hides⟩
  · exact hraises

theorem start_says :
    (BotAdapter.telegram a).Says py .start .all (a.start py) := by
  refine attempt_says (Q := fun r me =>
      (BotAdapter.telegram a).Hears py .start r me.1 ∧
        (BotAdapter.telegram a).Hears py .start r (me.2.format py.dynamics))
    (a.redacting (by decide) (fun _ hm => by cases hm) ?_) (ExceptClause.exposes rfl rfl rfl)
    (reads_checked fun r => ?_) ?_
  · rintro _ ⟨⟩
    trivial
  · refine (yields_read r).bind fun data hdata => ?_
    refine (yields_get (hears_describe r) (by simp) .self).bind fun ok _ => ?_
    have hme : Yields ((BotAdapter.telegram a).Hears py .start r) (fun me : String × Json =>
          (BotAdapter.telegram a).Hears py .start r me.1 ∧
            (BotAdapter.telegram a).Hears py .start r (me.2.format py.dynamics))
        (python py (Dynamic.get "result" (.obj []) data) >>= fun me =>
          python py (Dynamic.get "id" (.str "") me) >>= fun id =>
            python py (Dynamic.get "username" .null me) >>= fun username =>
              (.ok (id.format py.dynamics, username) : Except BotExn (String × Json))) := by
      refine (yields_get (hears_describe r) (by simp) .self).bind fun me hme => ?_
      refine (yields_get (hears_describe r) (by simp) hme).bind fun id hid => ?_
      refine (yields_get (hears_describe r) (by simp) hme).bind fun username husername => ?_
      exact yields_ok ⟨heard_value hdata hid (by simp [BotAdapter.quotes]),
        heard_value hdata husername (by simp [BotAdapter.quotes])⟩
    dsimp only
    split
    · refine (yields_get (hears_describe r) (by simp) .self).bind fun description hdescription => ?_
      exact yields_error (.inr (.value hdata hdescription (by simp [BotAdapter.quotes])))
    · exact hme
  · rintro r ⟨bot_id, username⟩ ⟨hid, husername⟩
    refine quiet_log _ (.inl (a.allowed_event (by decide))) fun field hm => ?_
    rcases List.mem_cons.mp hm with rfl | hm
    · exact hid
    · rw [List.mem_singleton.mp hm]
      exact husername

theorem poll_says (rounds : Nat) (p : Poller) :
    (BotAdapter.telegram a).Says py c .none (a.poll py rounds p) := by
  have hallowed : a.report.Allowed py ((BotAdapter.telegram a).Safe py c) :=
    ⟨a.allowed_event (show "telegram_poll_error" ∈ log_events by decide),
      a.allowed_event (show "telegram_poll_exception" ∈ log_events by decide), safe_describe⟩
  refine says_poll_rounds (fun _ => says_poll_round hallowed (.nothing fun e => ?_)) rounds p
  exact .inl ⟨e.text, rfl⟩

theorem dispatch_says (result : Except BotExn Unit) :
    (BotAdapter.telegram a).Says py (.dispatch result) .none (a.dispatch result) := by
  cases result with
  | ok u => exact says_ok ()
  | error e =>
    intro tr result hends
    have hcaught : Caught py ((BotAdapter.telegram a).Safe py (.dispatch (.error e))) _ .none e
        tr result :=
      ExceptClause.run_caught (a.redacting (by decide) (fun _ hm => by cases hm)
        fun _ h => by cases h) hends
    constructor
    case said =>
      intro s hs
      apply Sourced.allowed
      rcases hcaught.said s hs with hsafe | ⟨hreveals, rfl⟩
      · exact hsafe
      · cases ho : e.of_httpx with
        | false => exact .inr (.failure rfl ho)
        | true =>
          rcases of_httpx_kind ho with hk | hk
          · rw [hk] at hreveals
            cases hreveals
          · rw [hk] at hreveals
            cases hreveals
    case all =>
      intro text ht
      rw [hcaught.quiet] at ht
      cases ht

theorem yields_thread (h : root_id ∈ c.ids) :
    Yields ((BotAdapter.telegram a).Safe py c) (fun _ => True) (thread py root_id) := by
  rw [thread]
  split
  · exact yields_ok trivial
  · exact (yields_number h none).bind fun _ _ => yields_ok trivial

/-- A refusal is redacted before it is raised. -/
theorem sent_error {r : BotResponse} (h : a.sent py r = .error e) :
    (BotAdapter.telegram a).Hears py c r e.text := by
  have hread : Yields ((BotAdapter.telegram a).Hears py c r) (fun _ => True)
      (r.read >>= message_id py) := by
    refine (yields_read r).bind fun data hdata => ?_
    refine (yields_get (hears_describe r) (by simp) .self).bind fun result hresult => ?_
    exact (yields_get (hears_describe r) (by simp) hresult).bind fun id _ => yields_ok trivial
  cases hr : raise_for_status r with
  | ok u =>
    rw [sent, check, hr] at h
    exact hread.error e h
  | error e₀ =>
    rw [sent, check, hr] at h
    cases h
    obtain ⟨rfl, -⟩ := raise_for_status_error hr
    exact .inl (.inl ⟨r.status_error, rfl⟩)

theorem send_reply_says (channel_id message root_id : String) (hchannel : channel_id ∈ c.ids)
    (hroot : root_id ∈ c.ids) :
    (BotAdapter.telegram a).Says py c .uncaught (a.send_reply py channel_id message root_id) := by
  refine (says_done (a.yields_thread hroot)).andThen fun thread => ?_
  refine attempt_says (Q := fun _ _ => True)
    (a.redacting (by decide) (safe_field hchannel) ?_) (ExceptClause.exposes rfl rfl rfl)
    ⟨fun r e he => .inr (a.sent_error he), fun _ _ _ => trivial, fun h => by cases h⟩ fun _ _ _ =>
      quiet_ok _
  rintro _ ⟨⟩
  exact a.redacted_hides

theorem update_reply_says (post_id message channel_id : String) (hpost : post_id ∈ c.ids) :
    (BotAdapter.telegram a).Says py c .uncaught (a.update_reply py post_id message channel_id) := by
  rw [update_reply]
  split
  · exact says_ok ()
  · refine (says_done (yields_number hpost _)).andThen fun message_id => ?_
    refine attempt_says (Q := fun _ _ => True)
      (a.redacting (by decide) (safe_field hpost) fun _ h => by cases h)
      (ExceptClause.exposes rfl rfl rfl)
      ⟨fun r e he => ?_, fun _ _ _ => trivial, fun h => by cases h⟩ fun _ _ _ => quiet_ok _
    split at he
    · exact .inl (raise_for_status_error he)
    · cases he

theorem send_typing_says (channel_id parent_id : String) (hparent : parent_id ∈ c.ids) :
    (BotAdapter.telegram a).Says py c .none (a.send_typing py channel_id parent_id) := by
  refine (says_done (a.yields_thread hparent)).andThen fun thread => ?_
  exact attempt_says
    (a.redacting (by decide) (fun _ hm => by cases hm) fun _ h => by cases h)
    (ExceptClause.exposes rfl rfl rfl) (reads_ok ()) fun _ _ _ => quiet_ok ()

theorem send_document_says (channel_id message item root_id : String) (hroot : root_id ∈ c.ids) :
    (BotAdapter.telegram a).Says py c .transports
      (a.send_document py channel_id message item root_id) := by
  have hcall : (BotAdapter.telegram a).Says py c .transports
      ((.done (thread py root_id) : Bot _).andThen fun thread =>
        call (a.api_url ++ "/sendDocument")
          ([("chat_id", .str channel_id), ("document", .str item), ("caption", .str message)] ++
            thread)
          (a.sent py)) :=
    (says_done (a.yields_thread hroot)).andThen fun _ => call_says fun _ _ he => a.sent_error he
  refine says_ask rfl (fun _ => rfl) fun there => ?_
  cases there with
  | false => exact hcall
  | true =>
    intro tr result hends
    obtain ⟨content, rest, rfl, hrest⟩ := Program.ends_ask.mp hends
    cases content with
    | error text =>
      obtain ⟨rfl, rfl⟩ := Program.ends_done.mp hrest
      refine ⟨fun s hs => .told List.mem_cons_self ?_, fun text ht => by cases ht⟩
      exact List.mem_singleton.mp hs
    | ok u => exact (hcall rest result hrest).cons rfl rfl

theorem send_documents_says (channel_id root_id : String) (hroot : root_id ∈ c.ids)
    (items : List String) : ∀ last_id message,
      (BotAdapter.telegram a).Says py c .transports
        (a.send_documents py channel_id root_id last_id message items) := by
  induction items with
  | nil => exact fun last_id _ => says_ok last_id
  | cons item items ih =>
    intro _ message
    exact (a.send_document_says channel_id message item root_id hroot).andThen fun last_id =>
      ih last_id ""

theorem run_says (c : BotCall) :
    (BotAdapter.telegram a).Says py c ((BotAdapter.telegram a).exposes c)
      ((BotAdapter.telegram a).run py c) := by
  cases c with
  | start => exact a.start_says.forget
  | poll _ rounds p => exact a.poll_says rounds p
  | dispatch result => exact a.dispatch_says result
  | send_reply channel_id message root_id =>
    exact (a.send_reply_says channel_id message root_id List.mem_cons_self
      (List.mem_cons_of_mem _ List.mem_cons_self)).forget
  | update_reply post_id message channel_id =>
    exact a.update_reply_says post_id message channel_id List.mem_cons_self
  | send_typing channel_id parent_id =>
    exact a.send_typing_says channel_id parent_id (List.mem_cons_of_mem _ List.mem_cons_self)
  | send_post_with_files channel_id message items root_id =>
    exact (a.send_documents_says channel_id root_id (List.mem_cons_of_mem _ List.mem_cons_self)
      items "" message).forget
  | get_or_create_dm_channel _ => exact says_ok ()
  | stop => exact says_event (a.allowed_event (by decide))

end TelegramAdapter

/-! VK Teams -/

namespace VkTeamsAdapter
variable (a : VkTeamsAdapter) {c : BotCall}

theorem allowed_event (h : event ∈ log_events) : (BotAdapter.vk_teams a).Safe py c event :=
  safe_event h

/-- A handler that logs what it catches as it is. -/
theorem logging (hevent : event ∈ log_events)
    (hfields : ∀ field ∈ fields, (BotAdapter.vk_teams a).Safe py c (Logged.text py field.2)) :
    ExceptClause.Hides py ((BotAdapter.vk_teams a).Safe py c)
      ⟨catches, some (event, fields, .raw), none⟩ := by
  constructor
  · rintro _ _ _ ⟨⟩
    exact ⟨safe_event hevent, hfields, trivial⟩
  · rintro _ ⟨⟩

theorem start_says :
    (BotAdapter.vk_teams a).Says py .start .all (a.start py) := by
  refine attempt_says (Q := fun r me =>
      (BotAdapter.vk_teams a).Hears py .start r me.1 ∧
        (BotAdapter.vk_teams a).Hears py .start r (me.2.format py.dynamics))
    ⟨?_, ?_⟩ (ExceptClause.exposes rfl rfl rfl) (reads_checked fun r => ?_) ?_
  · rintro _ _ _ ⟨⟩
    exact ⟨a.allowed_event (by decide), fun _ hm => (by cases hm), trivial⟩
  · rintro _ ⟨⟩
    trivial
  · refine (yields_read r).bind fun data hdata => ?_
    refine (yields_get (hears_describe r) (by simp) .self).bind fun ok _ => ?_
    have hme : Yields ((BotAdapter.vk_teams a).Hears py .start r) (fun me : String × Json =>
          (BotAdapter.vk_teams a).Hears py .start r me.1 ∧
            (BotAdapter.vk_teams a).Hears py .start r (me.2.format py.dynamics))
        (python py (Dynamic.get "userId" .null data) >>= fun user_id =>
          python py (Dynamic.get "userId" (.str "") data) >>= fun d =>
            python py (Dynamic.get "nick" .null data) >>= fun nick =>
              (.ok ((Dynamic.either user_id d).format py.dynamics, nick) :
                Except BotExn (String × Json))) := by
      refine (yields_get (hears_describe r) (by simp) .self).bind fun user_id hid => ?_
      refine (yields_get (hears_describe r) (by simp) .self).bind fun d hd => ?_
      refine (yields_get (hears_describe r) (by simp) .self).bind fun nick hnick => ?_
      exact yields_ok ⟨heard_value hdata (hid.either hd) (by simp [BotAdapter.quotes]),
        heard_value hdata hnick (by simp [BotAdapter.quotes])⟩
    split
    · refine (yields_get (hears_describe r) (by simp) .self).bind fun description hdescription => ?_
      exact yields_error (.inr (.value hdata hdescription (by simp [BotAdapter.quotes])))
    · exact hme
  · rintro r ⟨bot_id, nickname⟩ ⟨hid, hnickname⟩
    refine quiet_log _ (.inl (a.allowed_event (by decide))) fun field hm => ?_
    rcases List.mem_cons.mp hm with rfl | hm
    · exact hid
    · rw [List.mem_singleton.mp hm]
      exact hnickname

theorem poll_says (bot_user_id : String) (rounds : Nat) (p : Poller) :
    (BotAdapter.vk_teams a).Says py c .transports (a.poll py bot_user_id rounds p) := by
  have hallowed : report.Allowed py ((BotAdapter.vk_teams a).Safe py c) :=
    ⟨a.allowed_event (show "vk_teams_poll_error" ∈ log_events by decide),
      a.allowed_event (show "vk_teams_poll_exception" ∈ log_events by decide), safe_describe⟩
  exact says_poll_rounds (fun _ => says_poll_round hallowed (.all rfl rfl)) rounds p

theorem send_reply_says (channel_id message root_id : String) (hchannel : channel_id ∈ c.ids)
    (hquoted : ("", ["description"]) ∈ (BotAdapter.vk_teams a).quotes c) :
    (BotAdapter.vk_teams a).Says py c .all (a.send_reply py channel_id message root_id) := by
  refine attempt_says (Q := fun r (answer : Except Json String) =>
      ∀ description, answer = .error description →
        (BotAdapter.vk_teams a).Hears py c r (description.format py.dynamics))
    (a.logging (by decide) (safe_field hchannel)) (ExceptClause.exposes rfl rfl rfl)
    (reads_checked fun r => ?_) ?_
  · refine (yields_read r).bind fun data hdata => ?_
    refine (yields_get (hears_describe r) (by simp) .self).bind fun ok _ => ?_
    split
    · refine (yields_get (hears_describe r) (by simp) .self).bind fun id _ => ?_
      exact yields_ok fun description h => by cases h
    · refine (yields_get (hears_describe r) (by simp) .self).bind fun description hdescription => ?_
      refine yields_ok fun d hd => ?_
      cases hd
      exact heard_value hdata hdescription hquoted
  · intro r answer hanswer
    cases answer with
    | ok id => exact quiet_ok id
    | error description =>
      refine quiet_log "" (.inl (a.allowed_event (by decide))) fun field hm => ?_
      rcases List.mem_cons.mp hm with rfl | hm
      · exact hanswer description rfl
      · exact .inl (safe_field hchannel field hm)

theorem run_says (c : BotCall) :
    (BotAdapter.vk_teams a).Says py c ((BotAdapter.vk_teams a).exposes c)
      ((BotAdapter.vk_teams a).run py c) := by
  cases c with
  | start => exact a.start_says.forget
  | poll bot_user_id rounds p => exact a.poll_says bot_user_id rounds p
  | dispatch _ => exact says_ok ()
  | send_reply channel_id message root_id =>
    exact (a.send_reply_says channel_id message root_id List.mem_cons_self
      List.mem_cons_self).forget
  | update_reply post_id message channel_id =>
    rw [BotAdapter.run, VkTeamsAdapter.update_reply]
    split
    · exact says_ok ()
    · exact attempt_says (a.logging (by decide) (safe_field List.mem_cons_self))
        (ExceptClause.exposes rfl rfl rfl) reads_raise fun _ _ _ => quiet_ok ()
  | send_typing channel_id parent_id =>
    refine attempt_says ⟨?_, ?_⟩ (ExceptClause.exposes rfl rfl rfl) (reads_ok ()) fun _ _ _ =>
      quiet_ok ()
    · rintro _ _ _ ⟨⟩
    · rintro _ ⟨⟩
  | send_post_with_files channel_id message items root_id =>
    exact (a.send_reply_says channel_id _ root_id List.mem_cons_self List.mem_cons_self).forget
  | get_or_create_dm_channel _ => exact says_ok ()
  | stop => exact says_event (a.allowed_event (by decide))

end VkTeamsAdapter

/-! Bitrix24 -/

namespace BitrixAdapter
variable (a : BitrixAdapter) {c : BotCall}

theorem allowed_event (h : event ∈ log_events) : (BotAdapter.bitrix a).Safe py c event :=
  safe_event h

theorem send_reply_says (channel_id message root_id : String) (hchannel : channel_id ∈ c.ids) :
    (BotAdapter.bitrix a).Says py c .all (a.send_reply py channel_id message root_id) := by
  refine attempt_says (Q := fun _ _ => True) ⟨?_, ?_⟩ (ExceptClause.exposes rfl rfl rfl)
    (reads_checked fun r => ?_) fun _ _ _ => quiet_ok _
  · rintro _ _ _ ⟨⟩
    exact ⟨a.allowed_event (by decide), safe_field hchannel, trivial⟩
  · rintro _ ⟨⟩
    trivial
  · refine (yields_read r).bind fun data _ => ?_
    refine (yields_get (hears_describe r) (by simp) .self).bind fun _ _ => ?_
    exact yields_ok trivial

theorem update_reply_says (post_id message channel_id : String) (hpost : post_id ∈ c.ids) :
    (BotAdapter.bitrix a).Says py c .all (a.update_reply py post_id message channel_id) := by
  rw [update_reply]
  split
  · exact says_ok ()
  · refine (says_done (yields_number hpost _)).andThen fun message_id => ?_
    refine attempt_says ⟨?_, ?_⟩ (ExceptClause.exposes rfl rfl rfl) reads_raise fun _ _ _ =>
      quiet_ok ()
    · rintro _ _ _ ⟨⟩
      exact ⟨a.allowed_event (by decide), safe_field hpost, trivial⟩
    · rintro _ ⟨⟩

theorem run_says (c : BotCall) :
    (BotAdapter.bitrix a).Says py c ((BotAdapter.bitrix a).exposes c)
      ((BotAdapter.bitrix a).run py c) := by
  cases c with
  | start =>
    refine says_log (a.allowed_event (by decide)) fun field hm => ?_
    rw [List.mem_singleton.mp hm]
    exact .inr (.bot_id rfl)
  | poll _ _ _ => exact says_ok ()
  | dispatch _ => exact says_ok ()
  | send_reply channel_id message root_id =>
    exact (a.send_reply_says channel_id message root_id List.mem_cons_self).forget
  | update_reply post_id message channel_id =>
    exact a.update_reply_says post_id message channel_id List.mem_cons_self
  | send_typing channel_id parent_id =>
    refine attempt_says ⟨?_, ?_⟩ (ExceptClause.exposes rfl rfl rfl) (reads_ok ()) fun _ _ _ =>
      quiet_ok ()
    · rintro _ _ _ ⟨⟩
    · rintro _ ⟨⟩
  | send_post_with_files channel_id message items root_id =>
    exact (a.send_reply_says channel_id _ root_id List.mem_cons_self).forget
  | get_or_create_dm_channel _ => exact says_ok ()
  | stop => exact says_event (a.allowed_event (by decide))

end BitrixAdapter

/-! Any adapter -/

theorem BotAdapter.run_says (a : BotAdapter) (c : BotCall) :
    a.Says py c (a.exposes c) (a.run py c) := by
  cases a with
  | telegram a => exact a.run_says c
  | vk_teams a => exact a.run_says c
  | bitrix a => exact a.run_says c

/-- The secret is kept only when no text that an operation exposes has it; and when nothing but the
errors of httpx brings it, exactly then. -/
theorem adapters_keep_secrets_iff (py : BotPython) (a : BotAdapter) (c : BotCall)
    (hsecret : a.HasSecret secret) (hends : Program.Ends (a.run py c) tr result) :
    (Kept py secret tr result →
      ∀ text ∈ exposed (a.exposes c) tr, contains text secret = false) ∧
    (Confined py secret a c tr →
      (Kept py secret tr result ↔
        ∀ text ∈ exposed (a.exposes c) tr, contains text secret = false)) := by
  have hfaithful := a.run_says c tr result hends
  have hsafe (hconfined : Confined py secret a c tr) (s : String) (hs : a.Safe py c s) :
      contains s secret = false := by
    rcases hs with hhidden | hgiven
    · exact hidden_free hsecret hhidden
    · exact hconfined.given s hgiven
  refine ⟨hfaithful.exposed_free, fun hconfined => ⟨hfaithful.exposed_free, fun hfree => ?_⟩⟩
  exact hfaithful.kept (hsafe hconfined) hconfined.told hfree

def refused_by : TelegramAdapter := { bot_token := "123:ABC" }

/-- The text of an error has the URL of the request. -/
def connect_error (method : String) : BotExn :=
  ⟨.http_error, "no route to https://api.telegram.org/bot123:ABC" ++ method⟩

theorem refused_by_secret : (BotAdapter.telegram refused_by).HasSecret "123:ABC" :=
  ⟨rfl, by decide, by decide⟩

/-- The exchanges of a request that is refused. -/
def refused_trace (method : String) (data : List (String × Json)) (event : String)
    (fields : List (String × Logged)) : BotTrace :=
  [⟨.request (refused_by.api_url ++ method) data, .error (connect_error method)⟩,
    ⟨.log event (fields ++
      [("error", .error ((connect_error method).shown (.redacted "123:ABC")))]), ()⟩]

/-- Only the error has the token. -/
theorem refused_trace_confined (hids : ∀ s ∈ c.ids, contains s "123:ABC" = false)
    (hcall : ∀ e, c ≠ .dispatch (.error e)) :
    Confined {} "123:ABC" (.telegram refused_by) c (refused_trace method data event fields) := by
  constructor
  · intro s hs
    cases hs with
    | event h =>
      have hevents : ∀ s ∈ (BotAdapter.telegram refused_by).log_events,
          contains s "123:ABC" = false := by decide +kernel
      exact hevents s h
    | bot_id h => cases h
    | id h => exact hids s h
    | number _ h => cases h
    | failure h _ => exact absurd h (hcall _)
    | python r =>
      have hnone : contains "" "123:ABC" = false := by decide +kernel
      exact hnone
  · intro y hy s hs
    rcases List.mem_cons.mp hy with rfl | hy
    · have ho : (connect_error method).of_httpx = true := rfl
      cases hs with
      | failure h => exact absurd (h.symm.trans ho) Bool.false_ne_true
    · rw [List.mem_singleton.mp hy] at hs
      exact hs.elim

theorem adapters_keep_secrets_iff_refused : ∃ tr result,
    Program.Ends ((BotAdapter.telegram refused_by).run {} (.send_reply "7" "hello" "")) tr result ∧
      result = .error ⟨.http_error, "no route to https://api.telegram.org/bot***/sendMessage"⟩ ∧
      Kept {} "123:ABC" tr result := by
  have hends : Program.Ends
      ((BotAdapter.telegram refused_by).run {} (.send_reply "7" "hello" ""))
      (refused_trace "/sendMessage" [("chat_id", .str "7"), ("text", .str "hello")]
        "telegram_send_reply_error" [("channel_id", .value (.str "7"))])
      (.error ⟨.http_error, "no route to https://api.telegram.org/bot***/sendMessage"⟩) := by
    apply Program.Ends.ask
    apply Program.Ends.ask
    apply Program.Ends.done
  refine ⟨_, _, hends, rfl, ?_⟩
  refine ((adapters_keep_secrets_iff {} _ _ refused_by_secret hends).2
    (refused_trace_confined ?_ ?_)).mpr ?_
  · decide +kernel
  · intro e he
    cases he
  · decide +kernel

/-- The login logs a redacted text, and raises the error as it was. -/
theorem not_adapters_keep_secrets : ¬ ∀ (a : BotAdapter) (c : BotCall) (secret : String)
    (tr : BotTrace) (result : Except BotExn Unit), a.HasSecret secret →
      Program.Ends (a.run {} c) tr result → Confined {} secret a c tr →
        Kept {} secret tr result := by
  intro h
  have hends : Program.Ends ((BotAdapter.telegram refused_by).run {} .start)
      (refused_trace "/getMe" [] "telegram_login_failed" []) (.error (connect_error "/getMe")) := by
    apply Program.Ends.ask
    apply Program.Ends.ask
    apply Program.Ends.done
  have hconfined : Confined {} "123:ABC" (.telegram refused_by) .start
      (refused_trace "/getMe" [] "telegram_login_failed" []) := by
    refine refused_trace_confined (fun s hs => by cases hs) ?_
    intro e he
    cases he
  have hkept := h (.telegram refused_by) .start "123:ABC" _ _ refused_by_secret hends hconfined
  have hraised := hkept (connect_error "/getMe").text (by decide +kernel)
  revert hraised
  decide +kernel

end ClawMux
