import ClawMux.Api.ControlPlane
import ClawMux.Router.Proactive

namespace ClawMux
set_option autoImplicit true
open Lib Lib.Text

namespace ControlPlane

variable (registered : List String) (repr : String → String) (s : ControlSettings)

/-! What each of them may ask, after what it has been answered -/

/-- The task was given the channel for this user of the provider. -/
def Own (tr : ControlTrace) (p u c : String) : Prop :=
  c ≠ "" ∧ (⟨.get_channel p u, .ok (some c)⟩ ∈ tr ∨
    ∃ adapter, get_adapter registered p = some adapter ∧
      ⟨.get_or_create_dm_channel adapter u, .ok c⟩ ∈ tr)

inductive ChannelRule (key p u : String) (tr : ControlTrace) : ControlEffect → Prop
  | cached : ChannelRule key p u tr (.user_channel key)
  | read : ChannelRule key p u tr (.get_channel p u)
  | direct : get_adapter registered p = some adapter →
      ChannelRule key p u tr (.get_or_create_dm_channel adapter u)
  | cache : Own registered tr p u c → ChannelRule key p u tr (.set_user_channel key c)
  | persist : Own registered tr p u c → ChannelRule key p u tr (.remember_channel p u c)

/-- `send_message` or `send_reply` has raised. -/
def Failed (tr : ControlTrace) : Prop :=
  (∃ k info m key, ⟨.send_message k info m key, .error ()⟩ ∈ tr) ∨
    ∃ adapter c m, ⟨.send_reply adapter c m, .error ()⟩ ∈ tr

def tells : ControlEffect → Bool
  | .send_message .. => true
  | _ => false

inductive TriggerRule (u : String) (info : InstanceInfo) (text : String)
    (session_key : Option String) (p : String) (tr : ControlTrace) : ControlEffect → Prop
  | channel : ChannelRule registered (identity_key p u) p u tr e →
      TriggerRule u info text session_key p tr e
  | send : (∀ x ∈ tr, tells x.1 = false) → (c = "" ∨ Own registered tr p u c) →
      TriggerRule u info text session_key p tr
        (.send_message (identity_key p u) info text (session_of session_key p c))
  | answer : get_adapter registered p = some adapter → Own registered tr p u c → m ≠ "" →
      ⟨.send_message (identity_key p u) info text key, .ok (m, files)⟩ ∈ tr →
      TriggerRule u info text session_key p tr (.send_reply adapter c m)
  | apology : get_adapter registered p = some adapter → Own registered tr p u c → Failed tr →
      TriggerRule u info text session_key p tr (.send_reply adapter c trigger_error_text)

/-- The user of a proactive message: the provider's own prefix is taken off the id. -/
def proactive_user (user_id p : String) : String :=
  if startsWith user_id (p ++ ":") then dropLen user_id (p ++ ":") else user_id

inductive ProactiveRule (user_id text p : String) (tr : ControlTrace) : ControlEffect → Prop
  | channel : ChannelRule registered (normalize_identity_key p user_id) p
      (proactive_user user_id p) tr e → ProactiveRule user_id text p tr e
  | send : get_adapter registered p = some adapter →
      Own registered tr p (proactive_user user_id p) c → text ≠ "" →
      ProactiveRule user_id text p tr (.send_reply adapter c text)

/-- The mapping has found the user and the instance. -/
def Found (tr : ControlTrace) (external_user_id p u : String) (info : InstanceInfo) : Prop :=
  ⟨.get_instance_by_external_id external_user_id p, .ok (u, info)⟩ ∈ tr

inductive RequestRule (external_user_id p : String) (order : String → InstanceInfo → Background)
    (tr : ControlTrace) : ControlEffect → Prop
  | uuid4 : RequestRule external_user_id p order tr .uuid4
  | lookup : RequestRule external_user_id p order tr
      (.get_instance_by_external_id external_user_id p)
  | order : (∀ x ∈ tr, spawned x.1 = none) → Found tr external_user_id p u info →
      RequestRule external_user_id p order tr (.fire_and_forget (order u info))

def trigger_order (req : TriggerRequest) (u : String) (info : InstanceInfo) : Background :=
  .trigger_message u info req.text req.session_key (lower (strip req.provider))

def notify_order (req : NotifyRequest) (u : String) (_ : InstanceInfo) : Background :=
  .handle_proactive u req.text (lower (strip req.provider))

def Rule : Job → ControlTrace → ControlEffect → Prop
  | .trigger x_api_token req, tr, e => authorize s x_api_token = .ok true ∧
      RequestRule req.external_user_id (lower (strip req.provider)) (trigger_order req) tr e
  | .notify x_api_token req, tr, e => authorize s x_api_token = .ok true ∧
      RequestRule req.external_user_id (lower (strip req.provider)) (notify_order req) tr e
  | .reload_mappings x_api_token, _, e =>
    authorize s x_api_token = .ok true ∧ e = .reload_cache_version
  | .proxy_mm_action r, _, e => authorize_action s r = .ok true ∧
      ∃ payload, r.json = some payload ∧ e = .proxy_post s.mm_action_proxy_url payload
  | .background (.trigger_message u info text session_key p), tr, e =>
    TriggerRule registered u info text session_key p tr e
  | .background (.handle_proactive user_id text p), tr, e =>
    ProactiveRule registered user_id text p tr e

variable {registered repr s} {tr h : ControlTrace} {P : ControlTrace → ControlEffect → Prop}

theorem Own.append_left (ho : Own registered tr p u c) (h : ControlTrace) :
    Own registered (h ++ tr) p u c := by
  obtain ⟨hc, hread | ⟨adapter, ha, hdm⟩⟩ := ho
  · exact ⟨hc, .inl (List.mem_append_right _ hread)⟩
  · exact ⟨hc, .inr ⟨adapter, ha, List.mem_append_right _ hdm⟩⟩

theorem Own.append (ho : Own registered h p u c) (tr : ControlTrace) :
    Own registered (h ++ tr) p u c := by
  obtain ⟨hc, hread | ⟨adapter, ha, hdm⟩⟩ := ho
  · exact ⟨hc, .inl (List.mem_append_left _ hread)⟩
  · exact ⟨hc, .inr ⟨adapter, ha, List.mem_append_left _ hdm⟩⟩

/-! The channel of a user -/

section Channel
variable {key p u : String} (hP : ∀ tr e, ChannelRule registered key p u tr e → P tr e)
include hP

theorem follows_remember (ho : Own registered h p u c) :
    Program.Follows P h (remember_channel key p u c) := by
  refine (Program.follows_perform (hP _ _ (.cache ho))).bind fun tr x hends => ?_
  refine (Program.follows_perform (hP _ _ (.persist (ho.append _)))).bind fun tr' x' hends' => ?_
  trivial

theorem follows_create :
    Program.Follows P h (create_channel registered key u p) := by
  rw [create_channel]
  split
  · trivial
  · rename_i adapter ha
    refine (Program.follows_perform (hP _ _ (.direct ha))).andThen fun tr c hends => ?_
    obtain rfl := Program.ends_perform.mp hends
    split
    · trivial
    · rename_i hc
      have ho : Own registered (h ++ [⟨.get_or_create_dm_channel adapter u, .ok c⟩]) p u c :=
        ⟨hc, .inr ⟨adapter, ha, List.mem_append_right _ List.mem_cons_self⟩⟩
      exact (follows_remember hP ho).bind fun tr' x hends' => trivial

theorem follows_channel :
    Program.Follows P h (get_or_create_channel registered key u p) := by
  refine (Program.follows_perform (hP _ _ .cached)).bind fun tr cached hends => ?_
  split
  · exact follows_create hP
  · refine (Program.follows_perform (hP _ _ .read)).bind fun tr' read hends' => ?_
    obtain rfl := Program.ends_perform.mp hends'
    split
    · rename_i c hread
      refine (Program.follows_perform (hP _ _ (.cache ?_))).bind fun tr'' x hends'' => trivial
      obtain ⟨hread, hc⟩ := Router.truthy_eq_some.mp hread
      cases read with
      | error e => cases hread
      | ok y =>
        obtain rfl : y = some c := hread
        exact ⟨hc, .inl (List.mem_append_right _ List.mem_cons_self)⟩
    · exact follows_create hP

end Channel

theorem create_ends (h : Program.Ends (create_channel registered key u p) tr (.ok c)) :
    c = "" ∨ Own registered tr p u c := by
  rw [create_channel] at h
  split at h
  · obtain ⟨-, he⟩ := Program.ends_done.mp h
    exact .inl (Except.ok.inj he)
  · rename_i adapter ha
    obtain ⟨r, rest, rfl, hrest⟩ := Program.ends_ask.mp h
    cases r with
    | error e => cases (Program.ends_done.mp hrest).2
    | ok d =>
      by_cases hd : d = ""
      · simp only [Program.bind, hd, if_true] at hrest
        exact .inl (Except.ok.inj (Program.ends_done.mp hrest).2)
      · simp only [Program.bind, if_neg hd] at hrest
        obtain ⟨tr₁, tr₂, x, rfl, -, hend⟩ := Program.ends_bind.mp hrest
        obtain ⟨-, he⟩ := Program.ends_done.mp hend
        cases he
        exact .inr ⟨hd, .inr ⟨adapter, ha, List.mem_cons_self⟩⟩

/-- A channel that is returned is one that the task was given. -/
theorem channel_ends (h : Program.Ends (get_or_create_channel registered key u p) tr (.ok c)) :
    c = "" ∨ Own registered tr p u c := by
  obtain ⟨cached, rest, rfl, hrest⟩ := Program.ends_ask.mp h
  simp only [Program.bind] at hrest
  split at hrest
  · exact (create_ends hrest).imp_right fun ho => ho.append_left [_]
  · obtain ⟨read, rest, rfl, hread⟩ := Program.ends_ask.mp hrest
    simp only [Program.bind] at hread
    split at hread
    · rename_i d hd
      obtain ⟨x, rest, rfl, hdone⟩ := Program.ends_ask.mp hread
      obtain ⟨-, he⟩ := Program.ends_done.mp hdone
      cases he
      obtain ⟨hd, hc⟩ := Router.truthy_eq_some.mp hd
      cases read with
      | error e => cases hd
      | ok y =>
        obtain rfl : y = some c := hd
        exact .inr ⟨hc, .inl (List.mem_cons_of_mem _ List.mem_cons_self)⟩
    · exact (create_ends hread).imp_right fun ho => ho.append_left [_, _]

theorem channel_silent {x : Except Unit String}
    (h : Program.Ends (get_or_create_channel registered key u p) tr x) :
    ∀ y ∈ tr, tells y.1 = false := by
  intro ⟨e, r⟩ hy
  obtain ⟨h', hrule⟩ := (follows_channel (h := []) fun _ _ he => he).ends h _ hy
  cases hrule with
  | cached => rfl
  | read => rfl
  | direct => rfl
  | cache => rfl
  | persist => rfl

/-! The coroutines in the background -/

theorem follows_reply {adapter : Option String} {c m : String}
    (hP : ∀ a, adapter = some a → c ≠ "" → P h (.send_reply a c m)) :
    Program.Follows P h (reply adapter c m) := by
  cases adapter with
  | none => trivial
  | some a =>
    rw [reply]
    split
    · trivial
    · rename_i hc
      exact (Program.follows_perform (hP a rfl hc)).andThen fun tr x hends => trivial

theorem reply_error {adapter : Option String} {c m : String}
    (h : Program.Ends (reply adapter c m) tr (.error ())) :
    ∃ a, ⟨.send_reply a c m, .error ()⟩ ∈ tr := by
  cases adapter with
  | none => cases (Program.ends_done.mp h).2
  | some a =>
    rw [reply] at h
    split at h
    · cases (Program.ends_done.mp h).2
    · obtain ⟨r, rest, rfl, hrest⟩ := Program.ends_ask.mp h
      cases r with
      | error e => exact ⟨a, List.mem_cons_self⟩
      | ok x => cases (Program.ends_done.mp hrest).2

theorem deliver_error {adapter : Option String} {c : String}
    (h : Program.Ends (deliver k info text key c adapter) tr (.error ())) : Failed tr := by
  obtain ⟨r, rest, rfl, hrest⟩ := Program.ends_ask.mp h
  cases r with
  | error e => exact .inl ⟨k, info, text, key, List.mem_cons_self⟩
  | ok answer =>
    simp only [Program.bind] at hrest
    split at hrest
    · cases (Program.ends_done.mp hrest).2
    · obtain ⟨a, ha⟩ := reply_error hrest
      exact .inr ⟨a, c, answer.1, List.mem_cons_of_mem _ ha⟩

theorem Failed.append_left (hf : Failed tr) (h : ControlTrace) : Failed (h ++ tr) := by
  rcases hf with ⟨k, info, m, key, hx⟩ | ⟨adapter, c, m, hx⟩
  · exact .inl ⟨k, info, m, key, List.mem_append_right _ hx⟩
  · exact .inr ⟨adapter, c, m, List.mem_append_right _ hx⟩

theorem follows_trigger (u : String) (info : InstanceInfo) (text : String)
    (session_key : Option String) (p : String) :
    Program.Follows (TriggerRule registered u info text session_key p) []
      (trigger_message registered u info text session_key p) := by
  refine (follows_channel fun _ _ he => .channel he).andThen fun tr c hends => ?_
  have hc := channel_ends hends
  have hsilent := channel_silent hends
  have hown : c ≠ "" → Own registered tr p u c := hc.resolve_left
  rw [List.nil_append]
  refine Program.Follows.bind ?_ fun tr' delivered hdelivered => ?_
  · refine (Program.follows_perform (.send hsilent hc)).andThen fun tr' answer hanswer => ?_
    obtain rfl := Program.ends_perform.mp hanswer
    split
    · trivial
    · rename_i hm
      have hsaid := List.mem_append_right tr (List.mem_singleton.mpr (Eq.refl
        (⟨.send_message (identity_key p u) info text (session_of session_key p c), .ok answer⟩ :
          Sigma ControlEffect.Answer)))
      exact follows_reply fun a ha hne => .answer ha ((hown hne).append _) hm hsaid
  · split
    · trivial
    · refine follows_reply fun a ha hne => .apology ha ((hown hne).append _) ?_
      exact (deliver_error hdelivered).append_left tr

theorem normalized_user (user_id p : String) :
    provider_user_id (normalize_identity_key p user_id) p = proactive_user user_id p := by
  rw [normalize_identity_key, proactive_user]
  split
  · rename_i hprefix
    rw [provider_user_id, if_pos hprefix]
  · exact provider_user_id_prefixed p user_id

theorem follows_proactive (user_id text p : String) :
    Program.Follows (ProactiveRule registered user_id text p) []
      (handle_proactive registered user_id text p) := by
  rw [handle_proactive, normalized_user]
  split
  · trivial
  · rename_i adapter ha
    refine (follows_channel fun _ _ he => .channel he).andThen fun tr c hends => ?_
    split
    · trivial
    · rename_i hnot
      obtain ⟨hc, htext⟩ := not_or.mp hnot
      have hown := (channel_ends hends).resolve_left hc
      refine (Program.follows_perform (.send ha ?_ htext)).bind fun tr' x hends' => trivial
      exact hown

/-! The endpoints -/

theorem follows_guarded {x_api_token : String} {rest : ControlTask ControlAnswer}
    (hrest : authorize s x_api_token = .ok true → Program.Follows P h rest) :
    Program.Follows P h (guarded s x_api_token rest) := by
  rw [guarded]
  split
  · trivial
  · trivial
  · rename_i hauth
    exact hrest hauth

theorem follows_resolve {rest : String → InstanceInfo → ControlTask ControlAnswer}
    (hlookup : P h (.get_instance_by_external_id external_user_id p))
    (hrest : ∀ u info, Program.Follows P
      (h ++ [⟨.get_instance_by_external_id external_user_id p, .ok (u, info)⟩]) (rest u info)) :
    Program.Follows P h (resolve repr external_user_id p missing rest) := by
  refine (Program.follows_perform hlookup).bind fun tr found hends => ?_
  obtain rfl := Program.ends_perform.mp hends
  split
  · exact hrest _ _
  · trivial
  · trivial
  · trivial

theorem found_last (h : ControlTrace) (external_user_id p u : String) (info : InstanceInfo) :
    Found (h ++ [⟨.get_instance_by_external_id external_user_id p, .ok (u, info)⟩])
      external_user_id p u info :=
  List.mem_append_right _ List.mem_cons_self

theorem follows_code (mapping : Bool) (job : Job) :
    Program.Follows (Rule registered s job) [] (code registered repr s mapping job) := by
  cases job with
  | trigger x_api_token req =>
    refine follows_guarded fun hauth => ?_
    refine (Program.follows_perform ⟨hauth, .uuid4⟩).bind fun tr request_id hends => ?_
    refine follows_resolve ⟨hauth, .lookup⟩ fun u info => ?_
    refine (Program.follows_perform ⟨hauth, .order ?_ (found_last ..)⟩).bind fun tr' x h' => trivial
    obtain rfl := Program.ends_perform.mp hends
    simp [spawned]
  | notify x_api_token req =>
    refine follows_guarded fun hauth => ?_
    refine follows_resolve ⟨hauth, .lookup⟩ fun u info => ?_
    refine (Program.follows_perform ⟨hauth, .order ?_ (found_last ..)⟩).bind fun tr' x h' => trivial
    simp [spawned]
  | reload_mappings x_api_token =>
    refine follows_guarded fun hauth => ?_
    split
    · refine (Program.follows_perform ⟨hauth, rfl⟩).bind fun tr version hends => ?_
      split <;> trivial
    · trivial
  | proxy_mm_action r =>
    rw [code, proxy_mm_action]
    split
    · trivial
    · trivial
    · rename_i hauth
      split
      · trivial
      · rename_i payload hjson
        split
        · trivial
        · refine (Program.follows_perform ⟨hauth, payload, hjson, rfl⟩).bind fun tr x hends => ?_
          split <;> trivial
  | background b =>
    cases b with
    | trigger_message u info text session_key p =>
      exact (follows_trigger ..).bind fun tr x hends => trivial
    | handle_proactive user_id text p =>
      exact (follows_proactive ..).bind fun tr x hends => trivial

/-! What the requests have done -/

/-- A request with the token that has found the user, or a message of an instance. -/
inductive Ordered (s : ControlSettings) (pool : Pool) : Background → Prop
  | trigger : t ∈ pool → t.label = .trigger x_api_token req →
      authorize s x_api_token = .ok true →
      Found t.trace req.external_user_id (lower (strip req.provider)) u info →
      Ordered s pool (trigger_order req u info)
  | notify : t ∈ pool → t.label = .notify x_api_token req →
      authorize s x_api_token = .ok true →
      Found t.trace req.external_user_id (lower (strip req.provider)) u info →
      Ordered s pool (notify_order req u info)
  | proactive : Ordered s pool (.handle_proactive key text DEFAULT_PROVIDER)

/-- The provider and the user that a coroutine sends to. -/
def recipient : Background → String × String
  | .trigger_message u _ _ _ p => (p, u)
  | .handle_proactive user_id _ p => (p, proactive_user user_id p)

/-- The user that was found for a request, unless the id of a notified one looks like a key of its
provider; and the one whose client a message comes from, on Mattermost. -/
inductive Meant (s : ControlSettings) (pool : Pool) : Background → String → String → Prop
  | trigger : t ∈ pool → t.label = .trigger x_api_token req →
      Found t.trace req.external_user_id (lower (strip req.provider)) u info →
      Meant s pool (trigger_order req u info) (lower (strip req.provider)) u
  | notify : t ∈ pool → t.label = .notify x_api_token req →
      Found t.trace req.external_user_id (lower (strip req.provider)) u info →
      startsWith u (lower (strip req.provider) ++ ":") = false →
      Meant s pool (notify_order req u info) (lower (strip req.provider)) u
  | proactive : Meant s pool (.handle_proactive (identity_key DEFAULT_PROVIDER u) text
      DEFAULT_PROVIDER) DEFAULT_PROVIDER u

theorem Meant.recipient (h : Meant s pool b p u) : recipient b = (p, u) := by
  cases h with
  | trigger ht hlabel hfound => rfl
  | notify ht hlabel hfound hplain =>
    rw [notify_order, ControlPlane.recipient, proactive_user, hplain]
    rfl
  | proactive =>
    rw [ControlPlane.recipient, proactive_user, identity_key, if_pos (startsWith_append ..),
      dropLen_append]

/-- The answer of the user's instance to this very text, or the apology; or the text itself. -/
def Says : Background → ControlTrace → String → Prop
  | .trigger_message u info text _ p, tr, m =>
    (m ≠ "" ∧ ∃ key files, ⟨.send_message (identity_key p u) info text key, .ok (m, files)⟩ ∈ tr) ∨
      m = trigger_error_text ∧ Failed tr
  | .handle_proactive _ text _, _, m => m = text

variable {mapping : Bool} {pool : Pool}
  {t : PoolTask ControlEffect ControlEffect.Answer ControlAnswer Job}

theorem Reachable.justified (h : Reachable registered repr s mapping pool) (ht : t ∈ pool) :
    Program.Justified (Rule registered s t.label) t.trace :=
  (TaskPool.reach_sound h).justified (follows_code mapping) ht

theorem Reachable.ordered (h : Reachable registered repr s mapping pool) (ht : t ∈ pool)
    (hlabel : t.label = .background b) : Ordered s pool b := by
  rcases (TaskPool.reach_sound h).made ht with houter | ⟨parent, hparent, ⟨e, r⟩, hx, hspawn⟩
  · rw [hlabel] at houter
    cases b with
    | trigger_message => cases houter
    | handle_proactive user_id text p =>
      obtain rfl : p = DEFAULT_PROVIDER := houter
      exact .proactive
  · obtain ⟨before, after, he⟩ := List.append_of_mem hx
    have hrule := h.justified hparent before _ after he
    rw [hlabel] at hspawn
    cases e with
    | fire_and_forget b' =>
      obtain rfl : b' = b := by simpa [spawned] using hspawn
      have hmore : ∀ {e p u info}, Found before e p u info → Found parent.trace e p u info :=
        fun hf => he ▸ List.mem_append_left _ hf
      cases hl : parent.label with
      | trigger x_api_token req =>
        rw [hl] at hrule
        obtain ⟨hauth, hrule⟩ := hrule
        cases hrule with
        | order _ hfound => exact .trigger hparent hl hauth (hmore hfound)
      | notify x_api_token req =>
        rw [hl] at hrule
        obtain ⟨hauth, hrule⟩ := hrule
        cases hrule with
        | order _ hfound => exact .notify hparent hl hauth (hmore hfound)
      | reload_mappings x_api_token =>
        rw [hl] at hrule
        cases hrule.2
      | proxy_mm_action r =>
        rw [hl] at hrule
        obtain ⟨-, payload, -, he⟩ := hrule
        cases he
      | background b =>
        rw [hl] at hrule
        cases b with
        | trigger_message =>
          cases hrule with
          | channel hrule => cases hrule
        | handle_proactive =>
          cases hrule with
          | channel hrule => cases hrule
    | _ => cases hspawn

/-- Whatever is sent to a chat was asked for, goes to the chat that the task was given for its
recipient, who is the user it was asked for in every case of `Meant`, and says what the user's own
instance has answered to the task. -/
theorem replies_reach_their_user (h : Reachable registered repr s mapping pool) (ht : t ∈ pool)
    (htrace : t.trace = before ++ ⟨.send_reply adapter c m, r⟩ :: after) :
    ∃ b, t.label = .background b ∧ Ordered s pool b ∧
      get_adapter registered (recipient b).1 = some adapter ∧
      Own registered before (recipient b).1 (recipient b).2 c ∧
      (∀ p u, Meant s pool b p u → recipient b = (p, u)) ∧ Says b before m := by
  have hrule := h.justified ht before _ after htrace
  cases hl : t.label with
  | trigger x_api_token req =>
    rw [hl] at hrule
    cases hrule.2
  | notify x_api_token req =>
    rw [hl] at hrule
    cases hrule.2
  | reload_mappings x_api_token =>
    rw [hl] at hrule
    cases hrule.2
  | proxy_mm_action r =>
    rw [hl] at hrule
    obtain ⟨-, payload, -, he⟩ := hrule
    cases he
  | background b =>
    rw [hl] at hrule
    refine ⟨b, rfl, h.ordered ht hl, ?_⟩
    cases b with
    | trigger_message u info text session_key p =>
      cases hrule with
      | channel hrule => cases hrule
      | answer hadapter hown hm hsaid =>
        exact ⟨hadapter, hown, fun _ _ hu => hu.recipient, .inl ⟨hm, _, _, hsaid⟩⟩
      | apology hadapter hown hfailed =>
        exact ⟨hadapter, hown, fun _ _ hu => hu.recipient, .inr ⟨rfl, hfailed⟩⟩
    | handle_proactive user_id text p =>
      cases hrule with
      | channel hrule => cases hrule
      | send hadapter hown => exact ⟨hadapter, hown, fun _ _ hu => hu.recipient, rfl⟩

/-- A request has the secret that its endpoint wants; a coroutine was asked for. -/
def Permitted (s : ControlSettings) (pool : Pool) : Job → Prop
  | .trigger x_api_token _ | .notify x_api_token _ | .reload_mappings x_api_token =>
    authorize s x_api_token = .ok true
  | .proxy_mm_action r => authorize_action s r = .ok true
  | .background b => Ordered s pool b

/-- The coroutine that a request asks for, once its user is found. -/
def Orders (tr : ControlTrace) : Job → Background → Prop
  | .trigger _ req, b => ∃ u info,
      Found tr req.external_user_id (lower (strip req.provider)) u info ∧
        b = trigger_order req u info
  | .notify _ req, b => ∃ u info,
      Found tr req.external_user_id (lower (strip req.provider)) u info ∧
        b = notify_order req u info
  | _, _ => False

theorem Reachable.permitted (h : Reachable registered repr s mapping pool) (ht : t ∈ pool)
    (hx : x ∈ t.trace) : Permitted s pool t.label := by
  obtain ⟨before, after, he⟩ := List.append_of_mem hx
  have hrule := h.justified ht before _ after he
  cases hl : t.label with
  | trigger x_api_token req =>
    rw [hl] at hrule
    exact hrule.1
  | notify x_api_token req =>
    rw [hl] at hrule
    exact hrule.1
  | reload_mappings x_api_token =>
    rw [hl] at hrule
    exact hrule.1
  | proxy_mm_action r =>
    rw [hl] at hrule
    exact hrule.1
  | background b => exact h.ordered ht hl

theorem guarded_ends {x_api_token : String} {rest : ControlTask ControlAnswer}
    (h : Program.Ends (guarded s x_api_token rest) tr a) :
    Program.Ends rest tr a ∨ tr = [] ∧ a.sent = false := by
  rw [guarded] at h
  split at h
  · obtain ⟨rfl, rfl⟩ := Program.ends_done.mp h
    exact .inr ⟨rfl, rfl⟩
  · obtain ⟨rfl, rfl⟩ := Program.ends_done.mp h
    exact .inr ⟨rfl, rfl⟩
  · exact .inl h

theorem resolve_ends {rest : String → InstanceInfo → ControlTask ControlAnswer}
    (h : Program.Ends (resolve repr external_user_id p missing rest) tr a) :
    (∃ u info tr', tr = ⟨.get_instance_by_external_id external_user_id p, .ok (u, info)⟩ :: tr' ∧
      Program.Ends (rest u info) tr' a) ∨
    (∃ e, tr = [⟨.get_instance_by_external_id external_user_id p, .error e⟩]) ∧ a.sent = false := by
  obtain ⟨found, tr', rfl, hfound⟩ := Program.ends_ask.mp h
  cases found with
  | ok found => exact .inl ⟨found.1, found.2, tr', rfl, hfound⟩
  | error e =>
    refine .inr ?_
    cases e with
    | unsupported_provider q =>
      obtain ⟨rfl, rfl⟩ := Program.ends_done.mp hfound
      exact ⟨⟨_, rfl⟩, rfl⟩
    | instance_not_found =>
      obtain ⟨rfl, rfl⟩ := Program.ends_done.mp hfound
      exact ⟨⟨_, rfl⟩, rfl⟩
    | other =>
      obtain ⟨rfl, rfl⟩ := Program.ends_done.mp hfound
      exact ⟨⟨_, rfl⟩, rfl⟩

theorem action_ends {r : ActionRequest} (h : Program.Ends (proxy_mm_action s r) tr a) :
    a.sent = false ∧ tr.filterMap (fun x => spawned x.1) = [] := by
  rw [proxy_mm_action] at h
  split at h
  · obtain ⟨rfl, rfl⟩ := Program.ends_done.mp h
    exact ⟨rfl, rfl⟩
  · obtain ⟨rfl, rfl⟩ := Program.ends_done.mp h
    exact ⟨rfl, rfl⟩
  · split at h
    · obtain ⟨rfl, rfl⟩ := Program.ends_done.mp h
      exact ⟨rfl, rfl⟩
    · split at h
      · obtain ⟨rfl, rfl⟩ := Program.ends_done.mp h
        exact ⟨rfl, rfl⟩
      · obtain ⟨response, tr', rfl, hdone⟩ := Program.ends_ask.mp h
        cases response with
        | error e =>
          obtain ⟨rfl, rfl⟩ := Program.ends_done.mp hdone
          exact ⟨rfl, rfl⟩
        | ok response =>
          obtain ⟨rfl, rfl⟩ := Program.ends_done.mp hdone
          exact ⟨rfl, rfl⟩

theorem background_spawns (h : Program.Ends (background registered b) tr result) :
    ∀ x ∈ tr, spawned x.1 = none := by
  intro ⟨e, r⟩ hx
  cases b with
  | trigger_message u info text session_key p =>
    obtain ⟨h', hrule⟩ := (follows_trigger u info text session_key p).ends h _ hx
    cases hrule with
    | channel hrule => cases hrule <;> rfl
    | send => rfl
    | answer => rfl
    | apology => rfl
  | handle_proactive user_id text p =>
    obtain ⟨h', hrule⟩ := (follows_proactive user_id text p).ends h _ hx
    cases hrule with
    | channel hrule => cases hrule <;> rfl
    | send => rfl

/-- Answered as sent, a request has asked for its coroutine once, and otherwise for none. -/
theorem code_ends {job : Job} (h : Program.Ends (code registered repr s mapping job) tr a) :
    (a.sent = true ∧ ∃ b, Orders tr job b ∧
      tr.filterMap (fun x => spawned x.1) = [.background b]) ∨
    a.sent = false ∧ tr.filterMap (fun x => spawned x.1) = [] := by
  cases job with
  | trigger x_api_token req =>
    rcases guarded_ends h with h | ⟨rfl, hsent⟩
    · obtain ⟨request_id, tr', rfl, hid⟩ := Program.ends_ask.mp h
      rcases resolve_ends hid with ⟨u, info, tr'', rfl, hrest⟩ | ⟨⟨e, rfl⟩, hsent⟩
      · obtain ⟨x, tail, rfl, hdone⟩ := Program.ends_ask.mp hrest
        obtain ⟨rfl, rfl⟩ := Program.ends_done.mp hdone
        exact .inl ⟨rfl, _, ⟨u, info, by simp [Found], rfl⟩, rfl⟩
      · exact .inr ⟨hsent, rfl⟩
    · exact .inr ⟨hsent, rfl⟩
  | notify x_api_token req =>
    rcases guarded_ends h with h | ⟨rfl, hsent⟩
    · rcases resolve_ends h with ⟨u, info, tr', rfl, hrest⟩ | ⟨⟨e, rfl⟩, hsent⟩
      · obtain ⟨x, tail, rfl, hdone⟩ := Program.ends_ask.mp hrest
        obtain ⟨rfl, rfl⟩ := Program.ends_done.mp hdone
        exact .inl ⟨rfl, _, ⟨u, info, by simp [Found], rfl⟩, rfl⟩
      · exact .inr ⟨hsent, rfl⟩
    · exact .inr ⟨hsent, rfl⟩
  | reload_mappings x_api_token =>
    refine .inr ?_
    rcases guarded_ends h with h | ⟨rfl, hsent⟩
    · cases mapping with
      | false =>
        obtain ⟨rfl, rfl⟩ := Program.ends_done.mp h
        exact ⟨rfl, rfl⟩
      | true =>
        obtain ⟨version, tr', rfl, hdone⟩ := Program.ends_ask.mp h
        cases version with
        | error e =>
          obtain ⟨rfl, rfl⟩ := Program.ends_done.mp hdone
          exact ⟨rfl, rfl⟩
        | ok version =>
          obtain ⟨rfl, rfl⟩ := Program.ends_done.mp hdone
          exact ⟨rfl, rfl⟩
    · exact ⟨hsent, rfl⟩
  | proxy_mm_action r => exact .inr (action_ends h)
  | background b =>
    obtain ⟨tr₁, tr₂, result, rfl, hrun, hdone⟩ := Program.ends_bind.mp h
    obtain ⟨rfl, rfl⟩ := Program.ends_done.mp hdone
    rw [List.append_nil]
    refine .inr ⟨rfl, List.filterMap_eq_nil_iff.mpr fun x hx => ?_⟩
    exact background_spawns hrun x hx

theorem order_once {job : Job} {before : ControlTrace} {e : ControlEffect}
    (h : Rule registered s job before e) (he : (spawned e).isSome = true) :
    ∀ x ∈ before, (spawned x.1).isSome = false := by
  have hrequest : ∀ {e' p order}, RequestRule e' p order before e →
      ∀ x ∈ before, (spawned x.1).isSome = false := by
    intro e' p order hrule x hx
    cases hrule with
    | uuid4 => cases he
    | lookup => cases he
    | order hnone => rw [hnone x hx, Option.isSome_none]
  cases job with
  | trigger x_api_token req => exact hrequest h.2
  | notify x_api_token req => exact hrequest h.2
  | reload_mappings x_api_token =>
    obtain ⟨-, rfl⟩ := h
    cases he
  | proxy_mm_action r =>
    obtain ⟨-, payload, -, rfl⟩ := h
    cases he
  | background b =>
    cases b with
    | trigger_message =>
      cases h with
      | channel hrule => cases hrule <;> cases he
      | send => cases he
      | answer => cases he
      | apology => cases he
    | handle_proactive =>
      cases h with
      | channel hrule => cases hrule <;> cases he
      | send => cases he

/-- Only a coroutine of a trigger tells an instance something, and it does so once. -/
theorem told {job : Job} {before : ControlTrace} {e : ControlEffect}
    (h : Rule registered s job before e) (he : tells e = true) :
    (∀ x ∈ before, tells x.1 = false) ∧ ∃ u info text session_key p c,
      job = .background (.trigger_message u info text session_key p) ∧
      e = .send_message (identity_key p u) info text (session_of session_key p c) ∧
      (c = "" ∨ Own registered before p u c) := by
  cases job with
  | trigger x_api_token req =>
    obtain ⟨-, hrule⟩ := h
    cases hrule <;> cases he
  | notify x_api_token req =>
    obtain ⟨-, hrule⟩ := h
    cases hrule <;> cases he
  | reload_mappings x_api_token =>
    obtain ⟨-, rfl⟩ := h
    cases he
  | proxy_mm_action r =>
    obtain ⟨-, payload, -, rfl⟩ := h
    cases he
  | background b =>
    cases b with
    | trigger_message u info text session_key p =>
      cases h with
      | channel hrule => cases hrule <;> cases he
      | send hnone hc => exact ⟨hnone, u, info, text, session_key, p, _, rfl, rfl, hc⟩
      | answer => cases he
      | apology => cases he
    | handle_proactive =>
      cases h with
      | channel hrule => cases hrule <;> cases he
      | send => cases he

/-- Nothing is done for a request without the secret; a request that is answered as sent has
made the coroutine it asks for, once, and any other has made none; and a coroutine tells the
instance that was found the text of the request, at most once. -/
theorem requests_are_served_once (h : Reachable registered repr s mapping pool)
    (hi : pool[i]? = some t) :
    (t.trace ≠ [] → Permitted s pool t.label) ∧
    (TaskPool.children pool i).length ≤ 1 ∧
    (∀ a, t.left = some (.done a) →
      (a.sent = true ∧ ∃ b, Orders t.trace t.label b ∧
        TaskPool.children pool i = [.background b]) ∨
      a.sent = false ∧ TaskPool.children pool i = []) ∧
    t.trace.countP (fun x => tells x.1) ≤ 1 ∧
    ∀ x ∈ t.trace, tells x.1 = true → ∃ u info text session_key p c,
      t.label = .background (.trigger_message u info text session_key p) ∧
      x.1 = .send_message (identity_key p u) info text (session_of session_key p c) ∧
      (c = "" ∨ Own registered t.trace p u c) := by
  have ht := List.mem_of_getElem? hi
  have hsound := TaskPool.reach_sound h
  have hj := h.justified ht
  have htrace : TaskPool.trace_of pool i = t.trace := by rw [TaskPool.trace_of, hi]; rfl
  rw [hsound.children i, htrace]
  refine ⟨fun hne => ?_, ?_, fun a ha => code_ends (hsound.ends ht ha), ?_, fun x hx he => ?_⟩
  · obtain ⟨x, hx⟩ := List.exists_mem_of_ne_nil _ hne
    exact h.permitted ht hx
  · rw [List.length_filterMap_eq_countP]
    exact hj.once (f := fun e => (spawned e).isSome) fun before e hrule he => order_once hrule he
  · exact hj.once fun before e hrule he => (told hrule he).1
  · obtain ⟨before, after, hsplit⟩ := List.append_of_mem hx
    obtain ⟨-, u, info, text, session_key, p, c, hlabel, hsend, hc⟩ :=
      told (hj before x after hsplit) he
    refine ⟨u, info, text, session_key, p, c, hlabel, hsend, hc.imp_right fun ho => ?_⟩
    rw [hsplit]
    exact ho.append _

/-! A trigger that is answered in the user's chat -/

def sample_settings : ControlSettings := { api_token := "secret" }

def sample_request : TriggerRequest := { external_user_id := "alice", text := "report" }

def sample_instance : InstanceInfo :=
  ⟨"ws://one:1", ⟨"device", "public", "private", "token", "gateway"⟩⟩

def sample_world : (e : ControlEffect) → e.Answer
  | .uuid4 => "id"
  | .get_instance_by_external_id .. => .ok ("7", sample_instance)
  | .reload_cache_version => .ok 1
  | .proxy_post .. => .error ()
  | .user_channel _ => none
  | .get_channel .. => .ok (some "chat")
  | .get_or_create_dm_channel .. => .ok "dm"
  | .send_reply .. => .ok "post"
  | .send_message .. => .ok ("done", [])
  | .remember_channel .. => .ok ()
  | .fire_and_forget _ | .set_user_channel .. => ()

def sample_acts : List (TaskPool.Act ControlEffect.Answer Job) :=
  .start (.trigger "secret" sample_request) ::
    ([0, 0, 0, 1, 1, 1, 1, 1].map fun i => .exchange i sample_world)

def sample_pool : Pool :=
  (exec (TaskPool.step (code ["mattermost"] id sample_settings true) spawned) []
    sample_acts).getD []

theorem sample_reachable : Reachable ["mattermost"] id sample_settings true sample_pool := by
  have hrun : exec (TaskPool.step (code ["mattermost"] id sample_settings true) spawned) []
      sample_acts = some sample_pool := by
    rw [sample_pool]
    exact Option.eq_some_of_isSome (by decide +kernel)
  refine Reach.exec (.start rfl) (meets_of_forall (fun a ha pool => ?_) _) hrun
  rcases List.mem_cons.mp ha with rfl | ha
  · trivial
  · obtain ⟨i, -, rfl⟩ := List.mem_map.mp ha
    trivial

/-- The exchanges of the coroutine before it replies. -/
def sample_trace : ControlTrace :=
  [⟨.user_channel "mattermost:7", none⟩, ⟨.get_channel "mattermost" "7", .ok (some "chat")⟩,
    ⟨.set_user_channel "mattermost:7" "chat", ()⟩,
    ⟨.send_message "mattermost:7" sample_instance "report" "mattermost:chan:chat",
      .ok ("done", [])⟩]

theorem replies_reach_their_user_sample : ∃ b, Ordered sample_settings sample_pool b ∧
    Own ["mattermost"] sample_trace (recipient b).1 (recipient b).2 "chat" ∧
      Says b sample_trace "done" := by
  obtain ⟨t, ht, htrace⟩ : ∃ t ∈ sample_pool, t.trace = sample_trace ++
      ⟨.send_reply "mattermost" "chat" "done", .ok "post"⟩ :: [] :=
    ⟨_, List.mem_cons_of_mem _ List.mem_cons_self, rfl⟩
  obtain ⟨b, -, hordered, -, hown, -, hsays⟩ :=
    replies_reach_their_user sample_reachable ht htrace
  exact ⟨b, hordered, hown, hsays⟩

theorem requests_are_served_once_sample :
    ∃ b, TaskPool.children sample_pool 0 = [.background b] := by
  obtain ⟨t, hi, hleft⟩ : ∃ t, sample_pool[0]? = some t ∧ t.left = some (.done (.triggered "id")) :=
    ⟨_, rfl, rfl⟩
  obtain ⟨-, -, hends, -⟩ := requests_are_served_once sample_reachable hi
  rcases hends _ hleft with ⟨-, b, -, hchildren⟩ | ⟨hsent, -⟩
  · exact ⟨b, hchildren⟩
  · cases hsent

end ControlPlane

end ClawMux
