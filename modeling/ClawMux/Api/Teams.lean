import ClawMux.Services.LongPolling
import ClawMux.Services.Teams

namespace ClawMux
set_option autoImplicit true
open Lib Lib.Text

/-- A request, with what `request.json()` makes of its body unless it raises. -/
structure TeamsWebhook where
  authorization : Option String
  json : Option Json

inductive TeamsAnswer
  | response (status_code : Nat)
  | http_exception (status_code : Nat) (detail : String)
  | raised

/-- How a request ends, the call of `register_service_url`, and what the router is given. -/
structure TeamsOutcome where
  answer : TeamsAnswer
  registered : Option (String × String) := none
  event : Option AdapterEvent := none

/-- The fields of an activity. -/
structure TeamsMessage where
  user_id : String
  conversation_id : String
  text : String
  msg_id : String
  reply_to_id : String
  service_url : String

namespace Teams

variable (py : Dynamics) (s : TeamsSettings) (t : LibraryTables) (teams_adapter app_router : Bool)

/-- `str(x.get(name) or "")` -/
def field (name : String) (x : Json) : Except Raised String := do
  return VkTeamsAdapter.text_of py (← Dynamic.get name .null x)

/-- `none` for an activity that is no message. -/
def read_activity (activity : Json) : Except Raised (Option TeamsMessage) := do
  let activity_type ← Dynamic.get "type" .null activity
  if activity_type.string ≠ some "message" then return none
  let from_user ← Dynamic.get "from" (.obj []) activity
  let user_id ← field py "id" from_user
  let conversation ← Dynamic.get "conversation" (.obj []) activity
  let conversation_id ← field py "id" conversation
  let text ← field py "text" activity
  let msg_id ← field py "id" activity
  let reply_to_id ← field py "replyToId" activity
  let service_url ← field py "serviceUrl" activity
  return some {
    user_id := user_id
    conversation_id := conversation_id
    text := strip text
    msg_id := msg_id
    reply_to_id := reply_to_id
    service_url := service_url }

/-- `[str(a.get("name", i)) for i, a in enumerate(attachments)]`, from the number `i` on. -/
def file_ids_from : Nat → List Json → Except Raised (List Json)
  | _, [] => return []
  | i, a :: attachments => do
    let name ← Dynamic.get "name" (.num i) a
    return .str (name.format py) :: (← file_ids_from (i + 1) attachments)

def file_ids (activity : Json) : Except Raised (List Json) := do
  let attachments ← Dynamic.get "attachments" (.arr []) activity
  file_ids_from py 0 (← Dynamic.iterate attachments)

def channel_event (m : TeamsMessage) (file_ids : List Json) : AdapterEvent where
  provider := "teams"
  user_id := .str m.user_id
  channel_id := .str m.conversation_id
  text := .str m.text
  post_id := .str m.msg_id
  file_ids := file_ids
  root_id := .str m.reply_to_id

/-- A message of a known user with a URL that is allowed. -/
def deliver (activity : Json) (m : TeamsMessage) : TeamsOutcome :=
  let registered := if teams_adapter && m.service_url ≠ "" then
    some (m.conversation_id, m.service_url) else none
  match file_ids py activity with
  | .error _ => { answer := .raised, registered := registered }
  | .ok file_ids => {
      answer := .response 200
      registered := registered
      event := if app_router then some (channel_event m file_ids) else none }

def respond (activity : Json) : TeamsOutcome :=
  match read_activity py activity with
  | .error _ => { answer := .raised }
  | .ok none => { answer := .response 200 }
  | .ok (some m) =>
    if m.user_id = "" ∨ m.conversation_id = "" ∨ m.text = "" then { answer := .response 200 }
    else
      match TeamsAuth.is_allowed_service_url s t m.service_url with
      | none => { answer := .raised }
      | some false => { answer := .http_exception 403 "serviceUrl host is not allowed" }
      | some true => deliver py teams_adapter app_router activity m

def teams_webhook_messages (r : TeamsWebhook) :
    Program TeamsAuthEffect TeamsAuthEffect.Answer TeamsOutcome :=
  (TeamsAuth.verify_inbound_token s r.authorization).bind fun verified : Except String Unit =>
    match verified with
    | .error _ => .done { answer := .http_exception 401 "Unauthorized activity" }
    | .ok () =>
      match r.json with
      | none => .done { answer := .response 400 }
      | some activity => .done (respond py s t teams_adapter app_router activity)

/-- A message of a user, with a URL that is allowed. -/
structure Deliverable (m : TeamsMessage) : Prop where
  user_id : m.user_id ≠ ""
  conversation_id : m.conversation_id ≠ ""
  text : m.text ≠ ""
  allowed : TeamsAuth.is_allowed_service_url s t m.service_url = some true

/-- A request whose token is verified, with such a message. -/
structure Admitted (r : TeamsWebhook) (tr : TeamsAuthTrace) (activity : Json) (m : TeamsMessage) :
    Prop where
  verified : ∃ token, TeamsAuth.bearer r.authorization = .ok token ∧
    TeamsAuth.Verified s token tr
  json : r.json = some activity
  message : read_activity py activity = .ok (some m)
  deliverable : Deliverable s t m

variable {py s t teams_adapter app_router} {r : TeamsWebhook} {tr : TeamsAuthTrace}
  {out : TeamsOutcome}

theorem respond_deliverable (h : read_activity py activity = .ok (some m))
    (hd : Deliverable s t m) : respond py s t teams_adapter app_router activity =
      deliver py teams_adapter app_router activity m := by
  rw [respond, h]
  simp only [hd.allowed]
  rw [if_neg]
  rintro (he | he | he)
  · exact hd.user_id he
  · exact hd.conversation_id he
  · exact hd.text he

theorem respond_other (h : ∀ m, read_activity py activity = .ok (some m) → ¬ Deliverable s t m) :
    (respond py s t teams_adapter app_router activity).registered = none ∧
      (respond py s t teams_adapter app_router activity).event = none := by
  rw [respond]
  split
  · exact ⟨rfl, rfl⟩
  · exact ⟨rfl, rfl⟩
  · rename_i m hm
    split
    · exact ⟨rfl, rfl⟩
    · rename_i hfields
      obtain ⟨huser, hrest⟩ := not_or.mp hfields
      obtain ⟨hconversation, htext⟩ := not_or.mp hrest
      split
      · exact ⟨rfl, rfl⟩
      · exact ⟨rfl, rfl⟩
      · rename_i hallowed
        exact absurd ⟨huser, hconversation, htext, hallowed⟩ (h m hm)

theorem Verified.accepts (h : TeamsAuth.Verified s token tr) :
    ∃ x ∈ tr, TeamsAuth.accepts x = true := by
  obtain ⟨-, jwks_url, -, key, before, rfl⟩ := h
  exact ⟨_, List.mem_append_right _ (List.mem_cons_of_mem _ List.mem_cons_self), rfl⟩

/-- A request delivers its message, or it is not admitted and changes nothing. -/
theorem webhook_ends
    (h : Program.Ends (teams_webhook_messages py s t teams_adapter app_router r) tr out) :
    (∃ activity m, Admitted py s t r tr activity m ∧
      out = deliver py teams_adapter app_router activity m) ∨
    (∀ activity m, ¬ Admitted py s t r tr activity m) ∧ out.registered = none ∧
      out.event = none := by
  obtain ⟨tr₁, tr₂, verified, rfl, hverify, hrest⟩ := Program.ends_bind.mp h
  obtain ⟨hiff, hok⟩ := TeamsAuth.verify_ends hverify
  cases verified with
  | error e =>
    obtain ⟨rfl, rfl⟩ := Program.ends_done.mp hrest
    rw [List.append_nil]
    refine .inr ⟨fun activity m hadmitted => ?_, rfl, rfl⟩
    obtain ⟨token, -, hverified⟩ := hadmitted.verified
    cases hiff.mpr (Verified.accepts hverified)
  | ok u =>
    cases hjson : r.json with
    | none =>
      simp only [hjson] at hrest
      obtain ⟨rfl, rfl⟩ := Program.ends_done.mp hrest
      refine .inr ⟨fun activity m hadmitted => ?_, rfl, rfl⟩
      cases hjson.symm.trans hadmitted.json
    | some activity =>
      simp only [hjson] at hrest
      obtain ⟨rfl, rfl⟩ := Program.ends_done.mp hrest
      rw [List.append_nil]
      by_cases hd : ∃ m, read_activity py activity = .ok (some m) ∧ Deliverable s t m
      · obtain ⟨m, hm, hdm⟩ := hd
        exact .inl ⟨activity, m, ⟨hok rfl, hjson, hm, hdm⟩, respond_deliverable hm hdm⟩
      · refine .inr ⟨fun activity' m hadmitted => ?_,
          respond_other fun m hm hdm => hd ⟨m, hm, hdm⟩⟩
        cases hjson.symm.trans hadmitted.json
        exact hd ⟨m, hadmitted.message, hadmitted.deliverable⟩

/-- The router is given an event exactly for an admitted message whose attachments can be read. -/
theorem webhook_event_iff
    (h : Program.Ends (teams_webhook_messages py s t teams_adapter app_router r) tr out) :
    out.event = some e ↔ app_router = true ∧ ∃ activity m ids, Admitted py s t r tr activity m ∧
      file_ids py activity = .ok ids ∧ e = channel_event m ids := by
  rcases webhook_ends h with ⟨activity, m, hadmitted, rfl⟩ | ⟨hnone, -, hevent⟩
  · have hsame : ∀ activity' m', Admitted py s t r tr activity' m' →
        activity' = activity ∧ m' = m := by
      intro activity' m' h'
      cases h'.json.symm.trans hadmitted.json
      cases h'.message.symm.trans hadmitted.message
      exact ⟨rfl, rfl⟩
    rw [deliver]
    cases hids : file_ids py activity with
    | error x =>
      refine ⟨nofun, ?_⟩
      rintro ⟨-, activity', m', ids, h', hread, -⟩
      obtain ⟨rfl, rfl⟩ := hsame _ _ h'
      cases hids.symm.trans hread
    | ok ids =>
      cases app_router with
      | false => exact ⟨nofun, fun h => absurd h.1 Bool.false_ne_true⟩
      | true =>
        simp only [if_true, Option.some.injEq]
        constructor
        · rintro rfl
          exact ⟨trivial, activity, m, ids, hadmitted, hids, rfl⟩
        · rintro ⟨-, activity', m', ids', h', hread, rfl⟩
          obtain ⟨rfl, rfl⟩ := hsame _ _ h'
          cases hids.symm.trans hread
          rfl
  · rw [hevent]
    refine ⟨nofun, ?_⟩
    rintro ⟨-, activity, m, ids, h', -⟩
    exact absurd h' (hnone activity m)

theorem webhook_answer
    (h : Program.Ends (teams_webhook_messages py s t teams_adapter app_router r) tr out)
    (he : out.event = some e) : out.answer = .response 200 := by
  rcases webhook_ends h with ⟨activity, m, -, rfl⟩ | ⟨-, -, hevent⟩
  · rw [deliver] at he ⊢
    cases hids : file_ids py activity with
    | error x =>
      rw [hids] at he
      cases he
    | ok ids => rfl
  · rw [hevent] at he
    cases he

/-- The router is given an event exactly for an admitted message, and the sender a 200 with it. -/
theorem webhook_dispatches_iff
    (h : Program.Ends (teams_webhook_messages py s t teams_adapter app_router r) tr out) :
    (out.event = some e ↔ app_router = true ∧ ∃ activity m ids, Admitted py s t r tr activity m ∧
      file_ids py activity = .ok ids ∧ e = channel_event m ids) ∧
    (out.event = some e → out.answer = .response 200) :=
  ⟨webhook_event_iff h, webhook_answer h⟩

/-! A request with a token that PyJWT accepts -/

def sample_world : List (Sigma TeamsAuthEffect.Answer) → (e : TeamsAuthEffect) → e.Answer
  | _, .get_signing_key .. => .ok "key"
  | _, .decode .. => .ok ()

def sample_webhook : TeamsWebhook where
  authorization := some "Bearer token"
  json := some (.obj
    [("type", .str "message"), ("from", .obj [("id", .str "u1")]),
      ("conversation", .obj [("id", .str "c1")]), ("text", .str "hi"),
      ("serviceUrl", .str "https://smba.trafficmanager.net/emea/")])

theorem webhook_dispatches_iff_accepted : ∃ tr out e,
    Program.Ends (teams_webhook_messages {} TeamsAdapter.sample_config.toTeamsSettings
      TeamsAdapter.sample_hosts.toLibraryTables true true sample_webhook) tr out ∧
    out.event = some e ∧ ∃ activity m, Admitted {} TeamsAdapter.sample_config.toTeamsSettings
      TeamsAdapter.sample_hosts.toLibraryTables sample_webhook tr activity m := by
  obtain ⟨tr, -, hends⟩ := Program.run_ends sample_world (teams_webhook_messages {}
    TeamsAdapter.sample_config.toTeamsSettings TeamsAdapter.sample_hosts.toLibraryTables true true
    sample_webhook) []
  have hsome : (((teams_webhook_messages {} TeamsAdapter.sample_config.toTeamsSettings
      TeamsAdapter.sample_hosts.toLibraryTables true true sample_webhook).run
        sample_world []).2.event.isSome) = true := by decide +kernel
  obtain ⟨e, he⟩ := Option.isSome_iff_exists.mp hsome
  obtain ⟨-, activity, m, ids, hadmitted, -⟩ := (webhook_dispatches_iff hends).1.mp he
  exact ⟨_, _, e, hends, he, activity, m, hadmitted⟩

theorem deliver_registered {m : TeamsMessage} {x : String × String}
    (h : (deliver py teams_adapter app_router activity m).registered = some x) :
    x = (m.conversation_id, m.service_url) := by
  have hreg : (deliver py teams_adapter app_router activity m).registered =
      if teams_adapter && m.service_url ≠ "" then some (m.conversation_id, m.service_url)
      else none := by
    rw [deliver]
    split <;> rfl
  rw [hreg] at h
  split at h
  · exact (Option.some.inj h).symm
  · cases h

end Teams

/-- A request, what PyJWT was asked for it, and how it ended. -/
abbrev TeamsExchange := TeamsWebhook × TeamsAuthTrace × TeamsOutcome

/-- The adapter and the requests that its endpoint has served. -/
structure TeamsEndpoint where
  adapter : TeamsAdapter := {}
  served : List TeamsExchange := []

namespace TeamsEndpoint

/-- A step of the adapter, or a request, with the world that answers its questions. -/
inductive Act
  | adapter (a : TeamsAdapter.Act)
  | webhook (r : TeamsWebhook)
      (world : List (Sigma TeamsAuthEffect.Answer) → (e : TeamsAuthEffect) → e.Answer)

variable (py : Dynamics) (cfg : TeamsConfig) (t : LibraryTables) (app_router : Bool)

def register (s : TeamsAdapter) (registered : Option (String × String)) : TeamsAdapter :=
  match registered with
  | some x => s.register_service_url cfg t x.1 x.2
  | none => s

def step (s : TeamsEndpoint) : Act → Option TeamsEndpoint
  -- only the endpoint registers URLs
  | .adapter (.register ..) => none
  | .adapter a => (s.adapter.step cfg t a).map fun adapter => { s with adapter := adapter }
  | .webhook r world =>
    let answered := (Teams.teams_webhook_messages py cfg.toTeamsSettings t true app_router r).run
      world []
    some {
      adapter := register cfg t s.adapter answered.2.registered
      served := s.served ++ [(r, answered.1, answered.2)] }

def Initial (s : TeamsEndpoint) : Prop := s.adapter.Initial ∧ s.served = []

/-- A request with a verified token brought the URL for the conversation. -/
def Introduced (served : List TeamsExchange) (c base : String) :
    Prop :=
  ∃ r tr out activity m, (r, tr, out) ∈ served ∧
    Teams.Admitted py cfg.toTeamsSettings t r tr activity m ∧ m.conversation_id = c ∧
    base = rstrip_slash m.service_url

/-- The token goes to a conversation at the default URL, or at one that was introduced for it. -/
def Addressed (served : List TeamsExchange) (url : String) :
    Prop :=
  ∃ base c tail, url = base ++ ("/v3/conversations/" ++ c ++ "/activities" ++ tail) ∧
    (base = DEFAULT_SERVICE_URL ∨ Introduced py cfg t served c base)

structure Inv (s : TeamsEndpoint) : Prop where
  urls : ∀ e ∈ s.adapter.service_urls.entries, Introduced py cfg t s.served e.1 e.2
  sent : ∀ i at' method url token activity,
    TeamsRequest.activity i at' method url token activity ∈ s.adapter.requests →
      Addressed py cfg t s.served url

variable {py cfg t app_router} {s s' : TeamsEndpoint} {a : Act} {adapter adapter' : TeamsAdapter}
  {served served' : List TeamsExchange}

theorem Introduced.mono (h : Introduced py cfg t served c base) (hsub : served ⊆ served') :
    Introduced py cfg t served' c base := by
  obtain ⟨r, tr, out, activity, m, hm, hrest⟩ := h
  exact ⟨r, tr, out, activity, m, hsub hm, hrest⟩

theorem Inv.more (h : Inv py cfg t s) (x : TeamsExchange) :
    Inv py cfg t { s with served := s.served ++ [x] } := by
  constructor
  · intro e he
    exact (h.urls e he).mono (List.subset_append_left ..)
  · intro i at' method url token activity hr
    obtain ⟨base, c, tail, hurl, hbase⟩ := h.sent _ _ _ _ _ _ hr
    exact ⟨base, c, tail, hurl, hbase.imp_right fun h => h.mono (List.subset_append_left ..)⟩

theorem Inv.register {r : TeamsWebhook}
    (h : Inv py cfg t { adapter := adapter, served := served })
    (hx : (r, tr, out) ∈ served) (hends : Program.Ends (Teams.teams_webhook_messages py
      cfg.toTeamsSettings t true app_router r) tr out) :
    Inv py cfg t { adapter := register cfg t adapter out.registered, served := served } := by
  cases hreg : out.registered with
  | none => exact h
  | some x =>
    rcases Teams.webhook_ends hends with ⟨activity, m, hadmitted, rfl⟩ | ⟨-, hnone, -⟩
    · rw [Teams.deliver_registered hreg]
      constructor
      · intro e he
        rcases TeamsAdapter.mem_register_service_url he with he | rfl
        · exact h.urls e he
        · exact ⟨r, tr, _, activity, m, hx, hadmitted, rfl, rfl⟩
      · intro i at' method url token activity' hr
        rw [TeamsEndpoint.register, TeamsAdapter.register_service_url_requests] at hr
        exact h.sent _ _ _ _ _ _ hr
    · cases hreg.symm.trans hnone

theorem Inv.send (h : Inv py cfg t { adapter := adapter, served := served }) (i : Nat)
    (call : TeamsCall) (token : Json) :
    Inv py cfg t { adapter := adapter.send i call token, served := served } := by
  constructor
  · intro e he
    dsimp only at he
    rw [TeamsAdapter.send_service_urls] at he
    cases hp : call.post with
    | none =>
      rw [hp] at he
      exact h.urls e he
    | some p =>
      rw [hp] at he
      exact h.urls e (LruMap.mem_touch he)
  · intro j at' method url token' activity hr
    rcases TeamsAdapter.send_requests hr with hr | ⟨p, hp⟩
    · exact h.sent _ _ _ _ _ _ hr
    · cases hp
      refine ⟨_, p.channel_id, p.tail, rfl, ?_⟩
      rw [TeamsAdapter.get_service_url]
      cases hl : adapter.service_urls.lookup p.channel_id with
      | none => exact .inl rfl
      | some base =>
        obtain ⟨newer, older, he⟩ := LruMap.lookup_eq_some.mp hl
        exact .inr (h.urls (p.channel_id, base) (he ▸ List.mem_append_right _ List.mem_cons_self))

/-- A step of the adapter that registers nothing. -/
theorem Inv.moves {a : TeamsAdapter.Act}
    (h : Inv py cfg t { adapter := adapter, served := served })
    (ha : ∀ c url, a ≠ .register c url) (hs : adapter.step cfg t a = some adapter') :
    Inv py cfg t { adapter := adapter', served := served } := by
  cases TeamsAdapter.step_steps hs with
  | wait | skip | raised | unreadable | answered | cancel => exact ⟨h.urls, h.sent⟩
  | stored | refused => exact absurd rfl (ha _ _)
  | cached => exact h.send _ _ _
  | asks =>
    refine ⟨h.urls, fun i at' method url token activity hr => ?_⟩
    rcases List.mem_append.mp hr with hr | hr
    · exact h.sent _ _ _ _ _ _ hr
    · cases List.mem_singleton.mp hr
  | granted =>
    apply Inv.send
    exact ⟨h.urls, h.sent⟩

theorem inv_step (h : Inv py cfg t s) (hs : step py cfg t app_router s a = some s') :
    Inv py cfg t s' := by
  cases a with
  | adapter a =>
    have hadapter : ∀ ha : (∀ c url, a ≠ .register c url), step py cfg t app_router s (.adapter a) =
        (s.adapter.step cfg t a).map fun adapter => { s with adapter := adapter } := by
      intro ha
      cases a with
      | register c url => exact absurd rfl (ha c url)
      | _ => rfl
    by_cases ha : ∀ c url, a ≠ .register c url
    · rw [hadapter ha, Option.map_eq_some_iff] at hs
      obtain ⟨adapter, hstep, rfl⟩ := hs
      exact Inv.moves h ha hstep
    · cases a with
      | register c url => cases hs
      | _ => exact absurd nofun ha
  | webhook r world =>
    obtain ⟨rest, htr, hends⟩ := Program.run_ends world
      (Teams.teams_webhook_messages py cfg.toTeamsSettings t true app_router r) []
    rw [List.nil_append] at htr
    rw [← htr] at hends
    simp only [step, Option.some.injEq] at hs
    subst hs
    exact Inv.register (h.more _) (List.mem_append_right _ List.mem_cons_self) hends

theorem inv_reach (h : Reach (step py cfg t app_router) Any Initial s) : Inv py cfg t s := by
  apply h.invariant
  · rintro ⟨adapter, served⟩ ⟨⟨clock, rfl⟩, rfl⟩
    exact ⟨nofun, nofun⟩
  · exact fun _ _ _ hi _ hs => inv_step hi hs

/-- Whatever is posted to the endpoint, the token of the adapter goes to a conversation at the
default URL, or at the URL that a verified activity of that conversation brought. -/
theorem token_follows_verified_activities
    (h : Reach (step py cfg t app_router) Any Initial s)
    (hr : .activity i at' method url token activity ∈ s.adapter.requests) :
    Addressed py cfg t s.served url :=
  (inv_reach h).sent _ _ _ _ _ _ hr

def sample_run : List Act :=
  [.webhook Teams.sample_webhook Teams.sample_world, .adapter (.call 0 (.send_typing "c1")),
    .adapter (.granted 0 (.ok (.obj [("access_token", .str "tok")])))]

def has_sent (url : String) : TeamsRequest → Bool
  | .activity _ _ _ url' _ _ => url' = url
  | _ => false

theorem token_follows_verified_activities_answered : ∃ s,
    exec (step {} TeamsAdapter.sample_config TeamsAdapter.sample_hosts.toLibraryTables true) {}
      sample_run = some s ∧
    Addressed {} TeamsAdapter.sample_config TeamsAdapter.sample_hosts.toLibraryTables s.served
      TeamsAdapter.sample_url := by
  have h : ((exec (step {} TeamsAdapter.sample_config TeamsAdapter.sample_hosts.toLibraryTables
      true) {} sample_run).any fun s =>
        s.adapter.requests.any (has_sent TeamsAdapter.sample_url)) = true := by decide +kernel
  obtain ⟨s, hs, hr⟩ := (Option.any_eq_true _ _).mp h
  obtain ⟨r, hr, hsent⟩ := List.any_eq_true.mp hr
  refine ⟨s, hs, ?_⟩
  unfold has_sent at hsent
  split at hsent
  · rw [← of_decide_eq_true hsent]
    exact token_follows_verified_activities (reach_of_exec ⟨⟨0, rfl⟩, rfl⟩ hs) hr
  · cases hsent

end TeamsEndpoint

end ClawMux
