import ClawMux.Lib.LruMap
import ClawMux.Lib.Transition
import ClawMux.Services.FileManager
import ClawMux.Services.TeamsAuth
import Mathlib.Algebra.Order.Ring.Unbundled.Rat

namespace ClawMux
set_option autoImplicit true
open Lib Lib.Text

structure TeamsConfig extends TeamsSettings where
  teams_app_password : String := ""
  oauth_url : String := "https://login.microsoftonline.com/botframework.com/oauth2/v2.0/token"

def MAX_SERVICE_URLS : Nat := 10000

def DEFAULT_SERVICE_URL : String := "https://smba.trafficmanager.net/teams"

/-- The coroutines of the adapter that need its token; `start` asks for it in advance. -/
inductive TeamsCall
  | start
  | send_reply (channel_id message root_id : String)
  | update_reply (post_id message channel_id : String)
  | send_typing (channel_id : String)

/-- What a call sends to a conversation; `tail` is what follows `activities` in the URL. -/
structure TeamsPost where
  method : String
  channel_id : String
  tail : String := ""
  activity : Json

def TeamsCall.post : TeamsCall → Option TeamsPost
  | .start => none
  | .send_reply channel_id message root_id => some {
      method := "POST"
      channel_id := channel_id
      activity := .obj ([("type", .str "message"), ("text", .str message)] ++
        if root_id = "" then [] else [("replyToId", .str root_id)]) }
  | .update_reply post_id message channel_id => some {
      method := "PUT"
      channel_id := channel_id
      tail := "/" ++ post_id
      activity := .obj [("type", .str "message"), ("text", .str message)] }
  | .send_typing channel_id => some {
      method := "POST"
      channel_id := channel_id
      activity := .obj [("type", .str "typing")] }

/-- `start` without credentials, and an edit of no activity. -/
def TeamsCall.skipped (cfg : TeamsConfig) : TeamsCall → Bool
  | .start => strip cfg.teams_app_id = "" || strip cfg.teams_app_password = ""
  | .update_reply post_id _ channel_id => post_id = "" || channel_id = ""
  | _ => false

/-- What the adapter sends: the request for a token, with its secret, and activities with the
token, by the call and at the time. -/
inductive TeamsRequest
  | token (url client_id client_secret : String)
  | activity (call : Nat) (sent_at : Rat) (method url : String) (token activity : Json)

inductive TeamsPhase
  | fetching (call : TeamsCall) (asked_at : Rat)
  | posting
  | ended

/-- A token that was granted to a call, when it was asked for, and its lifetime. -/
structure TeamsGrant where
  call : Nat
  token : Json
  asked_at : Rat
  expires_in : Int

/-- The adapter, the calls under way, what was sent and what was granted. -/
structure TeamsAdapter where
  access_token : Json := .str ""
  token_expires_at : Rat := 0
  service_urls : LruMap String String MAX_SERVICE_URLS := .empty
  clock : Rat := 0
  calls : Nat → Option TeamsPhase := fun _ => none
  requests : List TeamsRequest := []
  grants : List TeamsGrant := []

namespace TeamsAdapter

variable (cfg : TeamsConfig) (t : LibraryTables)

def register_service_url (s : TeamsAdapter) (conversation_id service_url : String) : TeamsAdapter :=
  match TeamsAuth.is_allowed_service_url cfg.toTeamsSettings t service_url with
  | some true => { s with
      service_urls := s.service_urls.put conversation_id (rstrip_slash service_url) }
  | _ => s

def get_service_url (s : TeamsAdapter) (conversation_id : String) : String :=
  (s.service_urls.lookup conversation_id).getD DEFAULT_SERVICE_URL

/-- The cached token, with a minute to go. -/
def cached_token (s : TeamsAdapter) : Option Json :=
  if s.access_token.truthy ∧ s.clock < s.token_expires_at - 60 then some s.access_token else none

def set_phase (s : TeamsAdapter) (i : Nat) (phase : TeamsPhase) : TeamsAdapter :=
  { s with calls := Function.update s.calls i (some phase) }

/-- A call that has its token. -/
def send (s : TeamsAdapter) (i : Nat) (call : TeamsCall) (token : Json) : TeamsAdapter :=
  match call.post with
  | none => s.set_phase i .ended
  | some p =>
    let url := s.get_service_url p.channel_id ++ ("/v3/conversations/" ++ p.channel_id ++
      "/activities" ++ p.tail)
    { s.set_phase i .posting with
      service_urls := s.service_urls.touch p.channel_id
      requests := s.requests ++ [.activity i s.clock p.method url token p.activity] }

/-- The request of `_get_access_token`. -/
def fetch (s : TeamsAdapter) (i : Nat) (call : TeamsCall) : TeamsAdapter :=
  { s.set_phase i (.fetching call s.clock) with
    requests := s.requests ++
      [.token cfg.oauth_url (strip cfg.teams_app_id) (strip cfg.teams_app_password)] }

/-- The answer to it; a lifetime that is no number raises when the token is already stored. -/
def granted (s : TeamsAdapter) (i : Nat) (call : TeamsCall) (asked_at : Rat) :
    Except Unit Json → TeamsAdapter
  | .ok (.obj token_info) =>
    let token := Json.get token_info "access_token" (.str "")
    match parse_int (Json.get token_info "expires_in" (.num 3600)) with
    | none => { s.set_phase i .ended with access_token := token }
    | some expires_in =>
      send { s with
        access_token := token
        token_expires_at := asked_at + expires_in
        grants := s.grants ++ [⟨i, token, asked_at, expires_in⟩] } i call token
  | _ => s.set_phase i .ended

inductive Act
  | wait (seconds : Rat)
  | register (conversation_id service_url : String)
  | call (i : Nat) (call : TeamsCall)
  | granted (i : Nat) (answer : Except Unit Json)
  | answered (i : Nat)
  | cancel (i : Nat)

def step (s : TeamsAdapter) : Act → Option TeamsAdapter
  | .wait seconds => if 0 ≤ seconds then some { s with clock := s.clock + seconds } else none
  | .register conversation_id service_url =>
    some (s.register_service_url cfg t conversation_id service_url)
  | .call i call =>
    match s.calls i with
    | some _ => none
    | none =>
      if call.skipped cfg then some (s.set_phase i .ended)
      else
        match s.cached_token with
        | some token => some (s.send i call token)
        | none => some (s.fetch cfg i call)
  | .granted i answer =>
    match s.calls i with
    | some (.fetching call asked_at) => some (s.granted i call asked_at answer)
    | _ => none
  | .answered i =>
    match s.calls i with
    | some .posting => some (s.set_phase i .ended)
    | _ => none
  | .cancel i =>
    match s.calls i with
    | some _ => some (s.set_phase i .ended)
    | none => none

def Initial (s : TeamsAdapter) : Prop := ∃ clock, s = { clock := clock }

variable {cfg : TeamsConfig} {t : LibraryTables} {s s' : TeamsAdapter} {a : Act}

theorem mem_register_service_url {e : String × String}
    (h : e ∈ (s.register_service_url cfg t c url).service_urls.entries) :
    e ∈ s.service_urls.entries ∨ e = (c, rstrip_slash url) := by
  rw [register_service_url] at h
  split at h
  · exact LruMap.mem_put h
  · exact .inl h

@[simp] theorem register_service_url_requests (c url : String) :
    (s.register_service_url cfg t c url).requests = s.requests := by
  rw [register_service_url]
  split <;> rfl

@[simp] theorem send_access_token (i : Nat) (call : TeamsCall) (token : Json) :
    (s.send i call token).access_token = s.access_token := by
  rw [send]
  split <;> rfl

@[simp] theorem send_token_expires_at (i : Nat) (call : TeamsCall) (token : Json) :
    (s.send i call token).token_expires_at = s.token_expires_at := by
  rw [send]
  split <;> rfl

@[simp] theorem send_grants (i : Nat) (call : TeamsCall) (token : Json) :
    (s.send i call token).grants = s.grants := by
  rw [send]
  split <;> rfl

theorem send_service_urls (i : Nat) (call : TeamsCall) (token : Json) :
    (s.send i call token).service_urls =
      s.service_urls.uses (call.post.toList.map fun p => .touch p.channel_id) := by
  rw [send]
  split
  · rename_i hp
    rw [hp]
    rfl
  · rename_i p hp
    rw [hp]
    rfl

theorem send_requests {i : Nat} {call : TeamsCall} {token : Json} {r : TeamsRequest}
    (h : r ∈ (s.send i call token).requests) :
    r ∈ s.requests ∨ ∃ p : TeamsPost, r = .activity i s.clock p.method
      (s.get_service_url p.channel_id ++
        ("/v3/conversations/" ++ p.channel_id ++ "/activities" ++ p.tail)) token p.activity := by
  rw [send] at h
  split at h
  · exact .inl h
  · rename_i p _
    rcases List.mem_append.mp h with h | h
    · exact .inl h
    · exact .inr ⟨p, List.mem_singleton.mp h⟩

/-- What one step does: it sends with the cached token or with the one it was granted, it asks for
a token, it stores a URL, or it does none of these. -/
inductive Steps (cfg : TeamsConfig) (t : LibraryTables) (s : TeamsAdapter) :
    Act → TeamsAdapter → Prop
  | wait (h : 0 ≤ seconds) : Steps cfg t s (.wait seconds) { s with clock := s.clock + seconds }
  | stored (h : TeamsAuth.is_allowed_service_url cfg.toTeamsSettings t url = some true) :
    Steps cfg t s (.register conversation_id url)
      { s with service_urls := s.service_urls.put conversation_id (rstrip_slash url) }
  | refused (h : TeamsAuth.is_allowed_service_url cfg.toTeamsSettings t url ≠ some true) :
    Steps cfg t s (.register conversation_id url) s
  | skip (hc : c.skipped cfg = true) : Steps cfg t s (.call i c) (s.set_phase i .ended)
  | cached (hc : c.skipped cfg = false) (ht : s.cached_token = some token) :
    Steps cfg t s (.call i c) (s.send i c token)
  | asks (hc : c.skipped cfg = false) (ht : s.cached_token = none) :
    Steps cfg t s (.call i c) (s.fetch cfg i c)
  | raised {answer : Except Unit Json} (h : s.calls i = some (.fetching c asked_at))
      (ha : ∀ token_info, answer ≠ .ok (.obj token_info)) :
    Steps cfg t s (.granted i answer) (s.set_phase i .ended)
  | unreadable (h : s.calls i = some (.fetching c asked_at))
      (he : parse_int (Json.get token_info "expires_in" (.num 3600)) = none) :
    Steps cfg t s (.granted i (.ok (.obj token_info)))
      { s.set_phase i .ended with access_token := Json.get token_info "access_token" (.str "") }
  | granted (h : s.calls i = some (.fetching c asked_at))
      (he : parse_int (Json.get token_info "expires_in" (.num 3600)) = some expires_in) :
    Steps cfg t s (.granted i (.ok (.obj token_info)))
      (send { s with
        access_token := Json.get token_info "access_token" (.str "")
        token_expires_at := asked_at + expires_in
        grants := s.grants ++
          [⟨i, Json.get token_info "access_token" (.str ""), asked_at, expires_in⟩] } i c
        (Json.get token_info "access_token" (.str "")))
  | answered : Steps cfg t s (.answered i) (s.set_phase i .ended)
  | cancel : Steps cfg t s (.cancel i) (s.set_phase i .ended)

theorem step_steps (h : step cfg t s a = some s') : Steps cfg t s a s' := by
  cases a with
  | wait seconds =>
    rw [step] at h
    split at h
    · cases h
      exact .wait ‹_›
    · cases h
  | register c url =>
    cases h
    rw [register_service_url]
    split
    · exact .stored ‹_›
    · rename_i hne
      exact .refused hne
  | call i call =>
    rw [step] at h
    split at h
    · cases h
    · cases hc : call.skipped cfg with
      | true =>
        rw [hc, if_pos rfl] at h
        cases h
        exact .skip hc
      | false =>
        rw [hc, if_neg Bool.false_ne_true] at h
        split at h
        · cases h
          exact .cached hc ‹_›
        · cases h
          exact .asks hc ‹_›
  | granted i answer =>
    rw [step] at h
    split at h
    · rename_i hcalls
      cases h
      cases answer with
      | error e => exact .raised hcalls nofun
      | ok info =>
        cases info with
        | obj token_info =>
          simp only [TeamsAdapter.granted]
          split
          · exact .unreadable hcalls ‹_›
          · exact .granted hcalls ‹_›
        | _ => exact .raised hcalls nofun
    · cases h
  | answered i =>
    rw [step] at h
    split at h
    · cases h
      exact .answered
    · cases h
  | cancel i =>
    rw [step] at h
    split at h
    · cases h
      exact .cancel
    · cases h

/-! Where the token goes -/

/-- A URL below the default one, or one that is allowed. -/
def Trusted (cfg : TeamsConfig) (t : LibraryTables) (url : String) : Prop :=
  TeamsAuth.is_allowed_service_url cfg.toTeamsSettings t url = some true ∨
    ∃ path, startsWith path "/" = true ∧ url = DEFAULT_SERVICE_URL ++ path

structure Inv (cfg : TeamsConfig) (t : LibraryTables) (s : TeamsAdapter) : Prop where
  urls : ∀ e ∈ s.service_urls.entries,
    TeamsAuth.is_allowed_service_url cfg.toTeamsSettings t e.2 = some true
  sent : ∀ i at' method url token activity,
    TeamsRequest.activity i at' method url token activity ∈ s.requests → Trusted cfg t url

variable {hosts : HostTables}

theorem Inv.send (h : Inv cfg hosts.toLibraryTables s) (i : Nat) (call : TeamsCall)
    (token : Json) : Inv cfg hosts.toLibraryTables (s.send i call token) := by
  constructor
  · intro e he
    rw [send_service_urls] at he
    cases hp : call.post with
    | none =>
      rw [hp] at he
      exact h.urls e he
    | some p =>
      rw [hp] at he
      exact h.urls e (LruMap.mem_touch he)
  · intro j at' method url token' activity hr
    rcases send_requests hr with hr | ⟨p, hp⟩
    · exact h.sent _ _ _ _ _ _ hr
    · cases hp
      have hpath : startsWith ("/v3/conversations/" ++ p.channel_id ++ "/activities" ++ p.tail)
          "/" = true := by
        simp [startsWith, String.toList_append]
      rw [get_service_url]
      cases hl : s.service_urls.lookup p.channel_id with
      | none => exact .inr ⟨_, hpath, rfl⟩
      | some base =>
        obtain ⟨newer, older, he⟩ := LruMap.lookup_eq_some.mp hl
        have hbase := h.urls (p.channel_id, base)
          (he ▸ List.mem_append_right _ List.mem_cons_self)
        exact .inl (TeamsAuth.allowed_path hbase hpath)

theorem inv_step (h : Inv cfg hosts.toLibraryTables s)
    (hs : step cfg hosts.toLibraryTables s a = some s') : Inv cfg hosts.toLibraryTables s' := by
  cases step_steps hs with
  | wait | skip | raised | unreadable | answered | cancel => exact ⟨h.urls, h.sent⟩
  | refused => exact h
  | stored hallowed =>
    refine ⟨fun e he => ?_, h.sent⟩
    rcases LruMap.mem_put he with he | rfl
    · exact h.urls e he
    · exact TeamsAuth.allowed_rstrip hallowed
  | cached => exact h.send _ _ _
  | asks =>
    refine ⟨h.urls, fun i at' method url token activity hr => ?_⟩
    rcases List.mem_append.mp hr with hr | hr
    · exact h.sent _ _ _ _ _ _ hr
    · cases List.mem_singleton.mp hr
  | granted =>
    apply Inv.send
    exact ⟨h.urls, h.sent⟩

theorem inv_reach (h : Reach (step cfg hosts.toLibraryTables) Any Initial s) :
    Inv cfg hosts.toLibraryTables s := by
  apply h.invariant
  · rintro s ⟨clock, rfl⟩
    exact ⟨nofun, nofun⟩
  · exact fun _ _ _ hi _ hs => inv_step hi hs

/-- The token only goes to the default URL and to allowed ones, whatever URLs are registered and
however the calls interleave. -/
theorem token_stays_on_trusted_hosts (h : Reach (step cfg hosts.toLibraryTables) Any Initial s)
    (hr : .activity i at' method url token activity ∈ s.requests) :
    Trusted cfg hosts.toLibraryTables url :=
  (inv_reach h).sent _ _ _ _ _ _ hr

/-! A conversation whose URL is registered, and that is sent two activities with one token -/

def sample_config : TeamsConfig := { teams_app_id := "app", teams_app_password := "secret" }

def sample_hosts : HostTables := { lower_empty := rfl }

def sample_url : String := "https://smba.trafficmanager.net/emea/v3/conversations/c1/activities"

def sample_run : List Act :=
  [.register "c1" "https://smba.trafficmanager.net/emea/", .call 0 (.send_reply "c1" "hi" ""),
    .granted 0 (.ok (.obj [("access_token", .str "tok")])), .wait 60, .call 1 (.send_typing "c1")]

/-- The second call at the URL, a minute after the token was granted. -/
def second_sent : TeamsRequest → Bool
  | .activity 1 sent_at _ url _ _ => sent_at = 60 && url = sample_url
  | _ => false

theorem sample_sent : ∃ s, exec (step sample_config sample_hosts.toLibraryTables) {} sample_run =
    some s ∧ ∃ method token activity,
      .activity 1 60 method sample_url token activity ∈ s.requests := by
  have h : ((exec (step sample_config sample_hosts.toLibraryTables) {} sample_run).any fun s =>
      s.requests.any second_sent) = true := by decide +kernel
  obtain ⟨s, hs, hr⟩ := (Option.any_eq_true _ _).mp h
  obtain ⟨r, hr, hsecond⟩ := List.any_eq_true.mp hr
  refine ⟨s, hs, ?_⟩
  unfold second_sent at hsecond
  split at hsecond
  · rw [Bool.and_eq_true] at hsecond
    obtain ⟨hat, hurl⟩ := hsecond
    rw [← of_decide_eq_true hat, ← of_decide_eq_true hurl]
    exact ⟨_, _, _, hr⟩
  · cases hsecond

theorem token_stays_on_trusted_hosts_twice :
    ∃ s, exec (step sample_config sample_hosts.toLibraryTables) {} sample_run = some s ∧
      (∃ method token activity, .activity 1 60 method sample_url token activity ∈ s.requests) ∧
      Trusted sample_config sample_hosts.toLibraryTables sample_url := by
  obtain ⟨s, hs, method, token, activity, hr⟩ := sample_sent
  exact ⟨s, hs, ⟨method, token, activity, hr⟩,
    token_stays_on_trusted_hosts (reach_of_exec ⟨0, rfl⟩ hs) hr⟩

/-! How old a token may be -/

/-- The answers to the requests for a token have a lifetime that is a number. -/
def Readable (_ : TeamsAdapter) : Act → Prop
  | .granted _ (.ok (.obj token_info)) =>
    parse_int (Json.get token_info "expires_in" (.num 3600)) ≠ none
  | _ => True

/-- The token was granted to this very call, or it has more than a minute to go. -/
def Fresh (grants : List TeamsGrant) (i : Nat) (sent_at : Rat) (token : Json) : Prop :=
  ∃ g ∈ grants, g.token = token ∧ (g.call = i ∨ sent_at < g.asked_at + g.expires_in - 60)

structure Dated (s : TeamsAdapter) : Prop where
  cached : s.access_token.truthy = true →
    ∃ g ∈ s.grants, g.token = s.access_token ∧ s.token_expires_at = g.asked_at + g.expires_in
  sent : ∀ i at' method url token activity,
    TeamsRequest.activity i at' method url token activity ∈ s.requests → Fresh s.grants i at' token

theorem Dated.send {i : Nat} {token : Json} (h : Dated s) (hf : Fresh s.grants i s.clock token)
    (call : TeamsCall) : Dated (s.send i call token) := by
  constructor
  · intro ht
    simp only [send_access_token, send_token_expires_at, send_grants] at ht ⊢
    exact h.cached ht
  · intro j at' method url token' activity hr
    rw [send_grants]
    rcases send_requests hr with hr | ⟨p, hp⟩
    · exact h.sent _ _ _ _ _ _ hr
    · cases hp
      exact hf

theorem Fresh.mono {grants grants' : List TeamsGrant} (h : Fresh grants i sent_at token)
    (hsub : grants ⊆ grants') : Fresh grants' i sent_at token := by
  obtain ⟨g, hg, hrest⟩ := h
  exact ⟨g, hsub hg, hrest⟩

theorem dated_step (h : Dated s) (hc : Readable s a) (hs : step cfg t s a = some s') :
    Dated s' := by
  cases step_steps hs with
  | wait | stored | skip | raised | answered | cancel => exact ⟨h.cached, h.sent⟩
  | refused => exact h
  | cached hc hcached =>
    rw [cached_token] at hcached
    split at hcached
    · rename_i hvalid
      cases hcached
      obtain ⟨g, hg, htoken, hexpires⟩ := h.cached hvalid.1
      refine h.send ⟨g, hg, htoken, .inr ?_⟩ _
      rw [← hexpires]
      exact hvalid.2
    · cases hcached
  | asks =>
    refine ⟨h.cached, fun i at' method url token activity hr => ?_⟩
    rcases List.mem_append.mp hr with hr | hr
    · exact h.sent _ _ _ _ _ _ hr
    · cases List.mem_singleton.mp hr
  | unreadable hi he => exact absurd he hc
  | granted hi he =>
    apply Dated.send
    · exact ⟨fun _ => ⟨_, List.mem_append_right _ List.mem_cons_self, rfl, rfl⟩,
        fun _ _ _ _ _ _ hr => (h.sent _ _ _ _ _ _ hr).mono (List.subset_append_left ..)⟩
    · exact ⟨_, List.mem_append_right _ List.mem_cons_self, rfl, .inl rfl⟩

theorem dated_reach (h : Reach (step cfg t) Readable Initial s) : Dated s := by
  apply h.invariant
  · rintro s ⟨clock, rfl⟩
    exact ⟨nofun, nofun⟩
  · exact fun _ _ _ hi hc hs => dated_step hi hc hs

/-- However the calls interleave, a call sends a token that it was granted itself, or one that has
more than a minute to go. -/
theorem sent_token_is_fresh (h : Reach (step cfg t) Readable Initial s)
    (hr : .activity i at' method url token activity ∈ s.requests) : Fresh s.grants i at' token :=
  (dated_reach h).sent _ _ _ _ _ _ hr

theorem sample_readable :
    Meets (step sample_config sample_hosts.toLibraryTables) Readable {} sample_run := by
  apply meets_of_forall
  intro a ha s
  simp only [sample_run, List.mem_cons, List.not_mem_nil, or_false] at ha
  rcases ha with rfl | rfl | rfl | rfl | rfl
  · trivial
  · trivial
  · exact nofun
  · trivial
  · trivial

theorem sent_token_is_fresh_twice :
    ∃ s token, exec (step sample_config sample_hosts.toLibraryTables) {} sample_run = some s ∧
      Fresh s.grants 1 60 token := by
  obtain ⟨s, hs, method, token, activity, hr⟩ := sample_sent
  have hi : Initial {} := ⟨0, rfl⟩
  exact ⟨s, token, hs, sent_token_is_fresh ((Reach.start hi).exec sample_readable hs) hr⟩

/-! Which URL a conversation has -/

/-- What a step does with the URLs. -/
def uses (cfg : TeamsConfig) (t : LibraryTables) (s : TeamsAdapter) :
    Act → List (LruUse String String)
  | .register conversation_id url =>
    if TeamsAuth.is_allowed_service_url cfg.toTeamsSettings t url = some true then
      [.put conversation_id (rstrip_slash url)]
    else []
  | .call _ call =>
    if call.skipped cfg ∨ s.cached_token = none then []
    else call.post.toList.map fun p => .touch p.channel_id
  | .granted i (.ok (.obj token_info)) =>
    if parse_int (Json.get token_info "expires_in" (.num 3600)) = none then []
    else
      match s.calls i with
      | some (.fetching call _) => call.post.toList.map fun p => .touch p.channel_id
      | _ => []
  | _ => []

def history (cfg : TeamsConfig) (t : LibraryTables) (s : TeamsAdapter) :
    List Act → List (LruUse String String)
  | [] => []
  | a :: as => s.uses cfg t a ++
    match step cfg t s a with
    | some s' => history cfg t s' as
    | none => []

theorem step_uses (h : step cfg t s a = some s') :
    s'.service_urls = s.service_urls.uses (s.uses cfg t a) := by
  cases step_steps h with
  | wait | answered | cancel => rfl
  | stored hallowed =>
    rw [uses, if_pos hallowed]
    rfl
  | refused hrefused =>
    rw [uses, if_neg hrefused]
    rfl
  | skip hc =>
    rw [uses, if_pos (.inl hc)]
    rfl
  | cached hc ht =>
    rw [uses, if_neg]
    · exact send_service_urls ..
    · simp [hc, ht]
  | asks hc ht =>
    rw [uses, if_pos (.inr ht)]
    rfl
  | @raised i c asked_at answer hi hraised =>
    cases answer with
    | error e => rfl
    | ok info =>
      cases info with
      | obj token_info => exact absurd rfl (hraised token_info)
      | _ => rfl
  | unreadable hi he =>
    rw [uses, if_pos he]
    rfl
  | granted hi he =>
    rw [uses, if_neg (by rw [he]; exact nofun), hi]
    exact send_service_urls ..

theorem exec_uses (h : exec (step cfg t) s as = some s') :
    s'.service_urls = s.service_urls.uses (s.history cfg t as) := by
  induction as generalizing s with
  | nil =>
    cases h
    rfl
  | cons a as ih =>
    obtain ⟨s₁, hs, hrun⟩ := exec_cons.mp h
    rw [history, hs, LruMap.uses_append, ← step_uses hs]
    exact ih hrun

/-- A conversation keeps the URL that was registered for it until as many others have been used as
there is room for, and loses it when as many others have been stored while it was not used. -/
theorem registered_url_is_kept
    (hallowed : TeamsAuth.is_allowed_service_url cfg.toTeamsSettings t url = some true)
    (hs : step cfg t s (.register conversation_id url) = some s₁)
    (hrun : exec (step cfg t) s₁ as = some s₂) :
    ((∀ u ∈ s₁.history cfg t as, u.puts ≠ some conversation_id) →
      (LruMap.used (s₁.history cfg t as) conversation_id).card < MAX_SERVICE_URLS →
      s₂.get_service_url conversation_id = rstrip_slash url) ∧
    ((∀ u ∈ s₁.history cfg t as, u.key ≠ conversation_id) →
      MAX_SERVICE_URLS ≤ (LruMap.stored (s₁.history cfg t as)).card →
      s₂.get_service_url conversation_id = DEFAULT_SERVICE_URL) := by
  have hput : s₁.service_urls = s.service_urls.put conversation_id (rstrip_slash url) := by
    rw [step_uses hs, uses, if_pos hallowed]
    rfl
  simp only [get_service_url, exec_uses hrun]
  constructor
  · intro hputs hused
    rw [hput, LruMap.lookup_uses_put (by decide) hputs hused]
    rfl
  · intro hkeys hstored
    rw [LruMap.lookup_uses_none hkeys hstored]
    rfl

theorem registered_url_is_kept_two : ∃ s₁ s₂,
    step sample_config sample_hosts.toLibraryTables {}
      (.register "c1" "https://smba.trafficmanager.net/emea/") = some s₁ ∧
    exec (step sample_config sample_hosts.toLibraryTables) s₁
      [.register "c2" "https://smtg.trafficmanager.net/uk"] = some s₂ ∧
    s₂.get_service_url "c1" = "https://smba.trafficmanager.net/emea" := by
  have hallowed : TeamsAuth.is_allowed_service_url sample_config.toTeamsSettings
      sample_hosts.toLibraryTables "https://smba.trafficmanager.net/emea/" = some true := by
    decide +kernel
  have hallowed' : TeamsAuth.is_allowed_service_url sample_config.toTeamsSettings
      sample_hosts.toLibraryTables "https://smtg.trafficmanager.net/uk" = some true := by
    decide +kernel
  refine ⟨_, _, rfl, rfl, ?_⟩
  have hurl : rstrip_slash "https://smba.trafficmanager.net/emea/" =
      "https://smba.trafficmanager.net/emea" := by decide +kernel
  rw [← hurl]
  refine (@registered_url_is_kept _ _ {} _ _ _
    [.register "c2" "https://smtg.trafficmanager.net/uk"] _ hallowed rfl rfl).1 ?_ ?_
  · simp only [history, uses, hallowed', if_true]
    decide
  · simp only [history, uses, hallowed', if_true]
    decide

end TeamsAdapter

end ClawMux
