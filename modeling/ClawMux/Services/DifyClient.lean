import ClawMux.Lib.Json
import ClawMux.Lib.Transition

namespace ClawMux
set_option autoImplicit true
open Lib Lib.Text

/-! `DifyClient` -/

/-- The body of `POST /chat-messages`. -/
structure DifyPayload where
  query : String
  inputs : List (String × Json) := []
  response_mode : String := "streaming"
  user : String
  conversation_id : Json

/-- `"".join(parts)`, which fails on a part that is no string. -/
def join_parts (parts : List Json) : Option String :=
  (parts.mapM Json.string).map String.join

/-- The lines of the event stream; `none` when an event has no `get`. `loads` is `json.loads`. -/
def stream_lines (loads : String → Option Json) :
    List String → List Json → Json → Option (String × Json)
  | [], answer_parts, conversation_id =>
    (join_parts answer_parts).map fun answer => (answer, conversation_id)
  | line :: lines, answer_parts, conversation_id =>
    let raw := strip (dropLen line "data:")
    if startsWith line "data:" = false ∨ raw = "" ∨ raw = "[DONE]" then
      stream_lines loads lines answer_parts conversation_id
    else
      match loads raw with
      | none => stream_lines loads lines answer_parts conversation_id
      | some (.obj event) =>
        let event_type := (Json.get event "event" (.str "")).string
        let found := Json.get event "conversation_id" .null
        let conversation_id :=
          if !conversation_id.truthy && found.truthy then found else conversation_id
        if event_type = some "message" ∨ event_type = some "agent_message" then
          let chunk := Json.get event "answer" (.str "")
          stream_lines loads lines
            (if chunk.truthy then answer_parts ++ [chunk] else answer_parts) conversation_id
        else if event_type = some "message_end" then
          (join_parts answer_parts).map fun answer => (answer, conversation_id)
        else if event_type = some "error" then some ("", conversation_id)
        else stream_lines loads lines answer_parts conversation_id
      | some _ => none

/-- `_stream_chat`, on the status and the lines of the response. -/
def stream_chat (loads : String → Option Json) (status_code : Nat) (lines : List String) :
    Option (String × Json) :=
  if status_code ≠ 200 then some ("", .str "") else stream_lines loads lines [] (.str "")

/-! Fallback messages -/

inductive DifyPhase
  | placeholder
  | asked (conversation_id : Json)
  | ended

/-- A call of `_handle_dify_fallback`. -/
structure DifyMessage where
  replica : Nat
  provider : String
  user_id : String
  text : String
  phase : DifyPhase

def DifyMessage.identity (m : DifyMessage) : String × String := (m.provider, m.user_id)

/-- What goes to Dify and comes back, for the identity whose message it is. -/
inductive Exchange
  | sent (identity : String × String) (payload : DifyPayload)
  | returned (identity : String × String) (conversation_id : Json)

/-- The processes with their `_conversation_cache`; `writers` remembers which provider's message
stored an entry. -/
structure DifySystem where
  conversation_cache : Nat → String → Option Json := fun _ _ => none
  writers : Nat → String → String := fun _ _ => ""
  messages : Nat → Option DifyMessage := fun _ => none
  log : List Exchange := []

namespace DifySystem

inductive Act
  | event (h replica : Nat) (provider user_id text : String)
  | chat (h : Nat)
  | response (h status_code : Nat) (lines : List String)
  | failed (h : Nat)
  | expire (replica : Nat) (user_id : String)

/-- `_conversation_cache.get(user_id, "")` -/
def get (s : DifySystem) (replica : Nat) (user_id : String) : Json :=
  (s.conversation_cache replica user_id).getD (.str "")

def put (s : DifySystem) (m : DifyMessage) (conversation_id : Json) : DifySystem :=
  { s with
    conversation_cache := Function.update s.conversation_cache m.replica
      (Function.update (s.conversation_cache m.replica) m.user_id (some conversation_id))
    writers := Function.update s.writers m.replica
      (Function.update (s.writers m.replica) m.user_id m.provider)
    log := s.log ++ [.returned m.identity conversation_id] }

def send (s : DifySystem) (identity : String × String) (payload : DifyPayload) : DifySystem :=
  { s with log := s.log ++ [.sent identity payload] }

def move (s : DifySystem) (h : Nat) (m : DifyMessage) (phase : DifyPhase) : DifySystem :=
  { s with messages := Function.update s.messages h (some { m with phase := phase }) }

def step (loads : String → Option Json) (s : DifySystem) : Act → Option DifySystem
  | .event h r provider user_id text =>
    match s.messages h with
    | none => some (s.move h ⟨r, provider, user_id, text, .placeholder⟩ .placeholder)
    | some _ => none
  | .chat h =>
    match s.messages h with
    | some ⟨r, provider, user_id, text, .placeholder⟩ =>
      let conversation_id := s.get r user_id
      let payload : DifyPayload :=
        { query := text, user := user_id, conversation_id := conversation_id }
      some ((s.send (provider, user_id) payload).move h ⟨r, provider, user_id, text, .placeholder⟩
        (.asked conversation_id))
    | _ => none
  | .response h status_code lines =>
    match s.messages h with
    | some ⟨r, provider, user_id, text, .asked conversation_id⟩ =>
      let m : DifyMessage := ⟨r, provider, user_id, text, .asked conversation_id⟩
      match stream_chat loads status_code lines with
      | some (_, new_conv_id) =>
        if new_conv_id.truthy then some ((s.put m new_conv_id).move h m .ended)
        else some (s.move h m .ended)
      | none => some (s.move h m .ended)
    | _ => none
  -- a timeout or an HTTP error, also in the middle of the stream
  | .failed h =>
    match s.messages h with
    | some ⟨r, provider, user_id, text, .asked conversation_id⟩ =>
      some (s.move h ⟨r, provider, user_id, text, .asked conversation_id⟩ .ended)
    | _ => none
  -- an entry leaves the `TTLCache` when its time is over or another one needs its place
  | .expire r user_id =>
    some { s with
      conversation_cache := Function.update s.conversation_cache r
        (Function.update (s.conversation_cache r) user_id none) }

def Initial (s : DifySystem) : Prop :=
  (∀ r u, s.conversation_cache r u = none) ∧ (∀ h, s.messages h = none) ∧ s.log = []

def Exchange.id : Exchange → Json
  | .sent _ payload => payload.conversation_id
  | .returned _ conversation_id => conversation_id

/-- Dify continues the conversation it was asked for, or begins one with a new id. -/
def NewIds (loads : String → Option Json) (s : DifySystem) (act : Act) : Prop :=
  ∀ h status_code lines, act = .response h status_code lines →
    ∀ m conversation_id, s.messages h = some m → m.phase = .asked conversation_id →
      ∀ answer new_conv_id, stream_chat loads status_code lines = some (answer, new_conv_id) →
        new_conv_id.truthy = true →
        new_conv_id = conversation_id ∨ ∀ e ∈ s.log, Exchange.id e ≠ new_conv_id

/-- When a message goes to Dify, an entry that its process has for the user id was stored by a
message from the same provider. -/
def SameProvider (s : DifySystem) (act : Act) : Prop :=
  ∀ h, act = .chat h → ∀ m, s.messages h = some m →
    ∀ c, s.conversation_cache m.replica m.user_id = some c →
      s.writers m.replica m.user_id = m.provider

/-- Every conversation that is continued began with a message of the same identity, and no two
identities continue the same one. -/
structure Unshared (s : DifySystem) : Prop where
  own : ∀ before after i payload, s.log = before ++ .sent i payload :: after →
    payload.conversation_id = .str "" ∨ .returned i payload.conversation_id ∈ before
  apart : ∀ i j payload payload', .sent i payload ∈ s.log → .sent j payload' ∈ s.log → i ≠ j →
    payload.conversation_id = payload'.conversation_id → payload.conversation_id = .str ""

/-- Every id that is held came back for a message of its identity, and for no other one. -/
structure Inv (s : DifySystem) : Prop where
  cached : ∀ r u c, s.conversation_cache r u = some c → .returned (s.writers r u, u) c ∈ s.log
  asked : ∀ h m, s.messages h = some m → ∀ c, m.phase = .asked c →
    c = .str "" ∨ .returned m.identity c ∈ s.log
  owner : ∀ i j c, .returned i c ∈ s.log → .returned j c ∈ s.log → i = j
  own : ∀ before after i payload, s.log = before ++ .sent i payload :: after →
    payload.conversation_id = .str "" ∨ .returned i payload.conversation_id ∈ before

theorem inv_initial {s : DifySystem} (h : Initial s) : Inv s := by
  obtain ⟨hc, hm, hl⟩ := h
  constructor
  · intro r u c he
    rw [hc] at he
    cases he
  · intro i m he
    rw [hm] at he
    cases he
  · intro i j c he
    rw [hl] at he
    cases he
  · intro before after i payload he
    rw [hl] at he
    cases before <;> cases he

/-- Another phase of a message, and a cache with fewer entries. -/
theorem Inv.moved {s s' : DifySystem} (h : Inv s) (hl : s'.log = s.log)
    (hc : ∀ r u c, s'.conversation_cache r u = some c →
      s.conversation_cache r u = some c ∧ s'.writers r u = s.writers r u)
    (hm : ∀ i m, s'.messages i = some m → ∀ c, m.phase = .asked c →
      c = .str "" ∨ .returned m.identity c ∈ s.log) : Inv s' := by
  constructor
  · intro r u c he
    obtain ⟨hold, hw⟩ := hc r u c he
    rw [hl, hw]
    exact h.cached r u c hold
  · rw [hl]
    exact hm
  · rw [hl]
    exact h.owner
  · rw [hl]
    exact h.own

/-- Nothing is held for a message that does not wait for an answer. -/
theorem Inv.move {s : DifySystem} (h : Inv s) (hp : ∀ c, phase ≠ .asked c) (m : DifyMessage)
    (i : Nat) : Inv (s.move i m phase) := by
  apply h.moved
  · rfl
  · exact fun r u c he => ⟨he, rfl⟩
  · exact forall_update_some h.asked fun c he => absurd he (hp c)

theorem append_sent {log before after : List Exchange} {i : String × String}
    (hl : log ++ [e] = before ++ .sent i payload :: after) :
    (∃ rest, log = before ++ .sent i payload :: rest) ∨ log = before ∧ e = .sent i payload := by
  rcases List.eq_nil_or_concat after with rfl | ⟨rest, last, rfl⟩
  · obtain ⟨hb, he⟩ := List.append_inj' hl rfl
    exact .inr ⟨hb, (List.cons.inj he).1⟩
  · rw [List.concat_eq_append, ← List.cons_append, ← List.append_assoc] at hl
    exact .inl ⟨rest, (List.append_inj' hl rfl).1⟩

theorem Inv.chat {s : DifySystem} (h : Inv s) (hm : s.messages i = some ⟨r, p, u, text, phase⟩)
    (hc : SameProvider s (.chat i)) (hs : step loads s (.chat i) = some s') : Inv s' := by
  have hown : s.get r u = .str "" ∨ .returned (p, u) (s.get r u) ∈ s.log := by
    rw [DifySystem.get]
    cases hcache : s.conversation_cache r u with
    | none => exact .inl rfl
    | some c =>
      have hw := hc i rfl _ hm c hcache
      have hret := h.cached r u c hcache
      simp only at hw
      rw [hw] at hret
      exact .inr hret
  simp only [step] at hs
  split at hs
  · rename_i r' p' u' text' hm'
    cases hm.symm.trans hm'
    cases hs
    constructor
    · intro r u c he
      exact List.mem_append_left _ (h.cached r u c he)
    · apply forall_update_some
      · intro j m hj c he
        exact (h.asked j m hj c he).imp_right (List.mem_append_left _)
      · intro c he
        cases he
        exact hown.imp_right (List.mem_append_left _)
    · intro j k c hj hk
      simp only [DifySystem.move, DifySystem.send, List.mem_append, List.mem_singleton,
        reduceCtorEq, or_false] at hj hk
      exact h.owner j k c hj hk
    · intro before after j payload he
      rcases append_sent he with ⟨rest, hrest⟩ | ⟨hb, hsent⟩
      · exact h.own before rest j payload hrest
      · cases hsent
        rw [← hb]
        exact hown
  · cases hs

theorem Inv.put {s : DifySystem} (h : Inv s) (hm : s.messages i = some m)
    (hp : m.phase = .asked c) (ht : new_conv_id.truthy = true)
    (hnew : new_conv_id = c ∨ ∀ e ∈ s.log, Exchange.id e ≠ new_conv_id) :
    Inv (s.put m new_conv_id) := by
  have hfirst : ∀ j, .returned j new_conv_id ∈ s.log → j = m.identity := by
    intro j hj
    rcases hnew with rfl | hnew
    · rcases h.asked i m hm new_conv_id hp with rfl | hret
      · cases ht
      · exact h.owner j m.identity new_conv_id hj hret
    · exact absurd rfl (hnew _ hj)
  constructor
  · intro r u d he
    by_cases hr : r = m.replica
    · subst hr
      by_cases hu : u = m.user_id
      · subst hu
        simp only [DifySystem.put, Function.update_self] at he ⊢
        cases he
        exact List.mem_append_right _ (List.mem_singleton_self _)
      · simp only [DifySystem.put, Function.update_self, Function.update_of_ne hu] at he ⊢
        exact List.mem_append_left _ (h.cached _ u d he)
    · simp only [DifySystem.put, Function.update_of_ne hr] at he ⊢
      exact List.mem_append_left _ (h.cached r u d he)
  · intro j x hx d he
    exact (h.asked j x hx d he).imp_right (List.mem_append_left _)
  · intro j k d hj hk
    simp only [DifySystem.put, List.mem_append, List.mem_singleton,
      Exchange.returned.injEq] at hj hk
    rcases hj with hj | ⟨rfl, rfl⟩
    · rcases hk with hk | ⟨rfl, rfl⟩
      · exact h.owner j k d hj hk
      · exact hfirst j hj
    · rcases hk with hk | ⟨rfl, -⟩
      · exact (hfirst k hk).symm
      · rfl
  · intro before after j payload he
    rcases append_sent he with ⟨rest, hrest⟩ | ⟨-, hsent⟩
    · exact h.own before rest j payload hrest
    · cases hsent

theorem step_inv {s s' : DifySystem} (h : Inv s) (hn : NewIds loads s act)
    (hc : SameProvider s act) (hs : step loads s act = some s') : Inv s' := by
  cases act with
  | event i r p u text =>
    simp only [step] at hs
    split at hs
    · cases hs
      exact h.move (by simp) _ i
    · cases hs
  | chat i =>
    cases hm : s.messages i with
    | none =>
      simp only [step, hm, reduceCtorEq] at hs
    | some m => exact h.chat hm hc hs
  | response i status_code lines =>
    simp only [step] at hs
    split at hs
    · rename_i r p u text c hm
      split at hs
      · rename_i answer new_conv_id hchat
        split at hs
        · rename_i ht
          cases hs
          have hput := h.put hm rfl ht (hn i _ _ rfl _ c hm rfl answer _ hchat ht)
          exact hput.move (by simp) _ i
        · cases hs
          exact h.move (by simp) _ i
      · cases hs
        exact h.move (by simp) _ i
    · cases hs
  | failed i =>
    simp only [step] at hs
    split at hs
    · cases hs
      exact h.move (by simp) _ i
    · cases hs
  | expire r u =>
    cases hs
    apply h.moved
    · rfl
    · intro q v c he
      refine ⟨?_, rfl⟩
      by_cases hq : q = r
      · subst hq
        by_cases hv : v = u
        · subst hv
          simp only [Function.update_self, reduceCtorEq] at he
        · simp only [Function.update_self, Function.update_of_ne hv] at he
          exact he
      · simp only [Function.update_of_ne hq] at he
        exact he
    · exact h.asked

theorem Inv.unshared {s : DifySystem} (h : Inv s) : Unshared s := by
  refine ⟨h.own, ?_⟩
  intro i j payload payload' hi hj hne he
  obtain ⟨before, after, hl⟩ := List.append_of_mem hi
  obtain ⟨before', after', hl'⟩ := List.append_of_mem hj
  rcases h.own before after i payload hl with hempty | hret
  · exact hempty
  rcases h.own before' after' j payload' hl' with hempty | hret'
  · exact he.trans hempty
  have hmem : .returned i payload.conversation_id ∈ s.log := hl ▸ List.mem_append_left _ hret
  have hmem' : .returned j payload'.conversation_id ∈ s.log := hl' ▸ List.mem_append_left _ hret'
  exact absurd (h.owner i j _ hmem (he ▸ hmem')) hne

/-- Conversations stay apart in every run in which no message finds an entry that a message from
another provider stored. -/
theorem conversations_unshared {loads : String → Option Json} {s : DifySystem}
    (h : Reach (step loads) (fun s a => NewIds loads s a ∧ SameProvider s a) Initial s) :
    Unshared s :=
  (h.invariant (fun _ => inv_initial) fun _ _ _ hi hc hs => step_inv hi hc.1 hc.2 hs).unshared

/-- An answer whose id is new because no id is known yet. -/
theorem newIds_first {s : DifySystem} (h : ∀ e ∈ s.log, Exchange.id e = .str "") :
    NewIds loads s act := by
  intro i status_code lines _ m c _ _ answer new_conv_id _ ht
  refine .inr fun e he hid => ?_
  rw [h e he] at hid
  subst hid
  cases ht

def answer_text : String :=
  "\x7b\"event\":\"message_end\",\"conversation_id\":\"c1\"\x7d"

def answer_event : Json :=
  .obj [("event", .str "message_end"), ("conversation_id", .str "c1")]

def loads (raw : String) : Option Json := if raw = answer_text then some answer_event else none

/-- A first message of Telegram user 7, which begins a conversation. -/
def first : List Act :=
  [.event 0 0 "telegram" "7" "my pin is 1234", .chat 0, .response 0 200 ["data: " ++ answer_text]]

def second (provider : String) : List Act := [.event 1 0 provider "7" "what is my pin?", .chat 1]

def second_payload : DifyPayload := ⟨"what is my pin?", [], "streaming", "7", .str "c1"⟩

def began : List Exchange :=
  [.sent ("telegram", "7") ⟨"my pin is 1234", [], "streaming", "7", .str ""⟩,
    .returned ("telegram", "7") (.str "c1")]

theorem initial : Initial {} := ⟨fun _ _ => rfl, fun _ => rfl, rfl⟩

theorem newIds_second (provider : String) :
    Meets (step loads) (NewIds loads) {} (first ++ second provider) := by
  refine ⟨?_, ?_, newIds_first ?_, ?_, ?_, trivial⟩
  · intro _ _ _ h
    cases h
  · intro _ _ _ h
    cases h
  · intro e he
    rw [List.mem_singleton.mp he]
    rfl
  · intro _ _ _ h
    cases h
  · intro _ _ _ h
    cases h

theorem sameProvider_second : Meets (step loads) SameProvider {} (first ++ second "telegram") := by
  refine ⟨?_, ?_, ?_, ?_, ?_, trivial⟩
  · intro _ h
    cases h
  · intro _ h m hm c hc
    cases h
    cases hm
    cases hc
  · intro _ h
    cases h
  · intro _ h
    cases h
  · intro _ h m hm c hc
    cases h
    cases hm
    rfl

theorem conversations_unshared_second : ∃ s,
    exec (step loads) {} (first ++ second "telegram") = some s ∧
      s.log = began ++ [.sent ("telegram", "7") second_payload] ∧ Unshared s := by
  refine ⟨_, rfl, rfl, ?_⟩
  exact conversations_unshared
    ((Reach.start initial).exec ((newIds_second "telegram").and sameProvider_second) rfl)

/-- Bitrix user 7 writes next. -/
theorem not_conversations_unshared : ∃ s, Reach (step loads) (NewIds loads) Initial s ∧
    s.log = began ++ [.sent ("bitrix", "7") second_payload] ∧ ¬ Unshared s := by
  obtain ⟨s, hs, hl⟩ : ∃ s, exec (step loads) {} (first ++ second "bitrix") = some s ∧
      s.log = began ++ [.sent ("bitrix", "7") second_payload] := ⟨_, rfl, rfl⟩
  refine ⟨s, (Reach.start initial).exec (newIds_second "bitrix") hs, hl, fun h => ?_⟩
  rcases h.own _ _ _ _ hl with he | hret
  · simp [second_payload] at he
  · simp [began, second_payload] at hret

end DifySystem

end ClawMux
