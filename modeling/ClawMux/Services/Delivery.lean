import ClawMux.Services.RequestWindow

namespace ClawMux
set_option autoImplicit true
open Lib

/-- The id of a gateway run; a frame without one has the empty id. -/
def is_run_id : Key → Bool
  | .null => false
  | .num n => n ≠ 0
  | .str s => s ≠ ""

def Origin.is_run (run_id : Key) : Origin → Bool
  | .run r => r = run_id
  | .res _ => false

/-- The user gets the answer of the run. -/
def Output.delivers (run_id : Key) : Output → Bool
  | .streamed _ _ _ => false
  | .proactive _ origin => origin.any (Origin.is_run run_id)
  | .returned _ reply => reply.origin.any (Origin.is_run run_id)

/-- Where the answer of a run can be: with the user, in the future that `send_message` awaits, or
in the buffer of a msg_id. -/
inductive Place
  | output (i : Nat)
  | future
  | buffer (msg_id : String)

namespace OpenClawClient

variable {cfg : ClientConfig} {s s' : OpenClawClient}

def At (s : OpenClawClient) (run_id : Key) : Place → Prop
  | .output i => ∃ o, s.outputs[i]? = some o ∧ o.delivers run_id = true
  | .future => ∃ c reply, s.holder = some c ∧ s.future c.msg_id = some (.result reply) ∧
      reply.origin.any (Origin.is_run run_id) = true
  | .buffer k => ∃ msg ∈ s.aggregator.buffers k, msg.run_id = run_id ∧ msg.text ≠ ""

/-- The answer of every run reaches the user at most once. -/
def AtMostOnce (s : OpenClawClient) : Prop :=
  ∀ r, is_run_id r = true → ∀ i j, s.At r (.output i) → s.At r (.output j) → i = j

/-- The answer of every run is in one place at most. -/
def Single (s : OpenClawClient) : Prop :=
  ∀ r, is_run_id r = true → ∀ p q, s.At r p → s.At r q → p = q

/-- A final of the run with a text is buffered under `k`. -/
def HoldsText (s : OpenClawClient) (run_id : Key) (k : String) : Prop :=
  ∃ msg ∈ s.aggregator.buffers k, msg.run_id = run_id ∧ msg.text ≠ ""

/-- The request in progress takes what is aggregated under `k`. -/
def awaits (s : OpenClawClient) (k : String) : Bool :=
  s.live = some k && s.timed_out_msg_id ≠ some k

/-- The run whose answer a frame or a timer hands out, and the request it goes to. -/
def takes (cfg : ClientConfig) (s : OpenClawClient) : Act → Option (Key × Option String)
  | .frame parsed =>
    match GatewayFrame.view parsed, s.active_msg_id, s.live with
    | .lifecycle_error run_id _, some _, some m => some (run_id, some m)
    | _, _, _ => none
  | .debounce k =>
    match select_best cfg.py cfg.claw_min_valid_text_len (s.aggregator.buffers k) with
    | .ok (some msg) =>
      if s.awaits k then some (msg.run_id, some k)
      else if cfg.on_proactive then some (msg.run_id, none)
      else none
    | _ => none
  | .fallback i =>
    match s.fallbacks[i]? with
    | some f => if s.live = some f.msg_id then some (f.run_id, some f.msg_id) else none
    | none => none
  | _ => none

/-- The request that ends without the text it may have been given. -/
def abandons (s : OpenClawClient) : Act → Option String
  | .sent => if s.pending_future = none then s.holder.map (·.msg_id) else none
  | .send_failed | .timeout | .cancel => s.holder.map (·.msg_id)
  | _ => none

/-- When the timer of a step is due. -/
def timer_due (s : OpenClawClient) : Act → Option Nat
  | .debounce m => s.aggregator.tasks m
  | .fallback i => s.fallbacks[i]?.map (·.due)
  | .timeout => s.holder.bind (·.deadline)
  | _ => none

/-- No timer is due before `t`. -/
structure Earliest (s : OpenClawClient) (t : Nat) : Prop where
  debounce : ∀ m due, s.aggregator.tasks m = some due → t ≤ due
  fallback : ∀ f ∈ s.fallbacks, t ≤ f.due
  timeout : ∀ m deadline, s.holder = some ⟨m, some deadline⟩ → t ≤ deadline
  cleanup : ∀ x ∈ s.cleanups, t ≤ x.1

/-- The event loop takes its timers in the order in which they are due, however late it comes to
them. What `call_later` calls runs at once, and a sleeper that is due goes on right after. -/
def InOrder (s : OpenClawClient) : Act → Prop
  | .cleanup i => ∀ x ∈ s.cleanups[i]?, ∀ y ∈ s.cleanups, x.1 ≤ y.1
  | a => ∀ t ∈ s.timer_due a, s.Earliest t

/-- A text comes for a run only while the run has none: a final when there are only finals under
its own msg_id, and an error or a fallback that resolves the request when there is nothing. -/
def Vacant (s : OpenClawClient) : Act → Prop
  | .frame parsed =>
    match GatewayFrame.view parsed with
    | .chat run_id state text seq payload =>
      ∀ msg ∈ s.final_message run_id state text seq payload, msg.text ≠ "" →
        is_run_id run_id = true → ∀ p, s.At run_id p → p = .buffer msg.msg_id
    | .lifecycle_error run_id _ =>
      s.live ≠ none → is_run_id run_id = true → ∀ p, ¬ s.At run_id p
    | _ => True
  | .fallback i =>
    ∀ f ∈ s.fallbacks[i]?, s.live = some f.msg_id → is_run_id f.run_id = true →
      ∀ p, ¬ s.At f.run_id p
  | _ => True

theorem Single.mono (h : s.Single) (hm : ∀ r p, s'.At r p → s.At r p) : s'.Single :=
  fun r hr p q hp hq => h r hr p q (hm r p hp) (hm r q hq)

/-- The answer of a run that is nowhere else comes to a place. -/
theorem Single.add (h : s.Single) (dst : Place) (hm : ∀ r, is_run_id r = true → ∀ p, s'.At r p →
    s.At r p ∨ p = dst ∧ ∀ q, s.At r q → q = dst) : s'.Single := by
  intro r hr p q hp hq
  rcases hm r hr p hp with hp | ⟨rfl, hall⟩
  · rcases hm r hr q hq with hq | ⟨rfl, hall⟩
    · exact h r hr p q hp hq
    · exact hall p hp
  · rcases hm r hr q hq with hq | ⟨rfl, -⟩
    · exact (hall q hq).symm
    · rfl

/-- The answers in one place move to another, or are dropped. -/
theorem Single.move (h : s.Single) (src dst : Place) (hm : ∀ r p, s'.At r p →
    s.At r p ∧ p ≠ src ∨ p = dst ∧ s.At r src) : s'.Single := by
  intro r hr p q hp hq
  rcases hm r p hp with ⟨hp, hps⟩ | ⟨rfl, hp⟩
  · rcases hm r q hq with ⟨hq, -⟩ | ⟨rfl, hq⟩
    · exact h r hr p q hp hq
    · exact absurd (h r hr p src hp hq) hps
  · rcases hm r q hq with ⟨hq, hqs⟩ | ⟨rfl, -⟩
    · exact absurd (h r hr q src hq hp) hqs
    · rfl

theorem at_of_eq (ho : s'.outputs = s.outputs) (hh : s'.holder = s.holder)
    (hf : s'.future = s.future) (hb : s'.aggregator.buffers = s.aggregator.buffers) (r : Key)
    (p : Place) (h : s'.At r p) : s.At r p := by
  cases p with
  | output i =>
    rw [At, ho] at h
    exact h
  | future =>
    rw [At, hh, hf] at h
    exact h
  | buffer k =>
    rw [At, hb] at h
    exact h

theorem at_output (h : (s.output o).At r p) :
    s.At r p ∨ p = .output s.outputs.length ∧ o.delivers r = true := by
  cases p with
  | output i =>
    obtain ⟨x, hx, hd⟩ := h
    simp only [output, List.getElem?_append] at hx
    split at hx
    · exact .inl ⟨x, hx, hd⟩
    · rename_i hi
      obtain ⟨hlt, he⟩ := List.getElem?_eq_some_iff.mp hx
      simp only [List.length_singleton] at hlt
      obtain rfl : i = s.outputs.length := by omega
      simp only [Nat.sub_self, List.getElem_cons_zero] at he
      exact .inr ⟨rfl, he ▸ hd⟩
  | future => exact .inl h
  | buffer k => exact .inl h

theorem at_stream (h : (s.stream run_id text).At r p) : s.At r p := by
  unfold stream at h
  split at h
  · exact h
  · rcases at_output h with h | ⟨-, hd⟩
    · exact h
    · cases hd

theorem at_proactive (h : (s.proactive cfg text origin).At r p) :
    s.At r p ∨ p = .output s.outputs.length ∧ cfg.on_proactive = true ∧
      origin.any (Origin.is_run r) = true := by
  unfold proactive at h
  split at h
  · rename_i hon
    exact (at_output h).imp_right fun hp => ⟨hp.1, hon, hp.2⟩
  · exact .inl h

theorem at_resolve (h : (s.resolve m x).At r p) :
    s.At r p ∨ p = .future ∧ ∃ reply, x = .result reply ∧
      reply.origin.any (Origin.is_run r) = true := by
  cases p with
  | output i => exact .inl h
  | future =>
    obtain ⟨c, reply, hc, hf, ho⟩ := h
    rcases s.resolve_future m c.msg_id x with he | ⟨-, -, he⟩
    · exact .inl ⟨c, reply, hc, he.symm.trans hf, ho⟩
    · exact .inr ⟨rfl, reply, Option.some.inj (he.symm.trans hf), ho⟩
  | buffer k => exact .inl h

theorem at_finish (h : s.finish.At r p) : s.At r p ∧ p ≠ .future := by
  cases p with
  | output i => exact ⟨h, fun he => by cases he⟩
  | future =>
    obtain ⟨_, _, hc, -⟩ := h
    cases hc
  | buffer k => exact ⟨h, fun he => by cases he⟩

theorem at_pop (h : { s with aggregator := s.aggregator.pop k }.At r p) :
    s.At r p ∧ p ≠ .buffer k := by
  cases p with
  | output i => exact ⟨h, fun he => by cases he⟩
  | future => exact ⟨h, fun he => by cases he⟩
  | buffer j =>
    obtain ⟨msg, hmsg, hr⟩ := h
    by_cases hj : j = k
    · subst hj
      simp [ClawAggregator.pop] at hmsg
    · simp only [ClawAggregator.pop, Function.update_of_ne hj] at hmsg
      refine ⟨⟨msg, hmsg, hr⟩, ?_⟩
      rintro ⟨⟩
      exact hj rfl

theorem is_run_eq (h : (some (Origin.run a)).any (Origin.is_run r) = true) : a = r :=
  of_decide_eq_true h

/-- Where a frame brings an answer of the run. -/
inductive Comes (s : OpenClawClient) (r : Key) : GatewayFrame → Place → Prop
  | error : s.active_msg_id = some k → s.live = some m →
      Comes s r (.lifecycle_error r error) .future
  | final : s.final_message r state text seq payload = some msg → msg.text ≠ "" →
      Comes s r (.chat r state text seq payload) (.buffer msg.msg_id)

theorem Comes.unique (h : s.Comes r f p) (h' : s.Comes r f q) : p = q := by
  cases h with
  | error => cases h' with | error => rfl
  | final hmsg =>
    cases h' with
    | final hmsg' =>
      cases hmsg.symm.trans hmsg'
      rfl

theorem at_handle {f : GatewayFrame} (h : (s.handle cfg f).At r p) : s.At r p ∨ s.Comes r f p := by
  cases f with
  | ignored => exact .inl h
  | rejected i error =>
    simp only [handle, chat_send_rejected] at h
    split at h
    · exact .inl (at_of_eq rfl rfl rfl rfl r p h)
    · rename_i m hm
      have hof := at_of_eq (s := s.resolve m _) rfl rfl rfl rfl r p h
      rcases at_resolve hof with h | ⟨-, _, ⟨⟩, ho⟩
      · exact .inl h
      · cases ho
  | assistant run_id text =>
    simp only [handle, assistant] at h
    have hold := at_stream h
    exact .inl (at_of_eq rfl rfl rfl rfl r p hold)
  | lifecycle_error run_id error =>
    simp only [handle, lifecycle_error] at h
    split at h
    · rename_i ha hl
      rcases at_resolve h with h | ⟨rfl, _, ⟨⟩, ho⟩
      · exact .inl h
      · obtain rfl := is_run_eq ho
        exact .inr (.error ha hl)
    · exact .inl h
  | lifecycle_end run_id =>
    simp only [handle, lifecycle_end] at h
    split at h
    · exact .inl (at_of_eq rfl rfl rfl rfl r p h)
    · exact .inl h
  | chat run_id state text seq payload =>
    simp only [handle, OpenClawClient.chat] at h
    split at h
    · exact .inl (at_stream h)
    · split at h
      · exact .inl h
      · rename_i msg hmsg
        cases p with
        | output i => exact .inl h
        | future => exact .inl h
        | buffer k =>
          obtain ⟨x, hx, hxr, hxt⟩ := h
          rcases add_event_buffers s.aggregator cfg.claw_debounce_ms s.now msg k with he | ⟨hk, he⟩
          · exact .inl ⟨x, he ▸ hx, hxr, hxt⟩
          · rcases List.mem_append.mp (he ▸ hx) with hx | hx
            · exact .inl ⟨x, hx, hxr, hxt⟩
            · obtain rfl := List.mem_singleton.mp hx
              subst hk
              rw [(final_message_id hmsg).2] at hxr
              subst hxr
              exact .inr (.final hmsg hxt)
  | cron summary =>
    rcases at_proactive h with h | ⟨-, -, ho⟩
    · exact .inl h
    · cases ho

theorem single_handle (h : s.Single) (hc : s.Vacant (.frame parsed)) :
    (s.handle cfg (GatewayFrame.view parsed)).Single := by
  simp only [Vacant] at hc
  generalize GatewayFrame.view parsed = f at hc ⊢
  have halone : ∀ {r p q}, is_run_id r = true → s.Comes r f p → s.At r q → p = q := by
    intro r p q hr hp hq
    cases hp with
    | error ha hl => exact absurd hq (hc (by rw [hl]; exact fun he => by cases he) hr q)
    | final hmsg ht => exact (hc _ hmsg ht hr q hq).symm
  intro r hr p q hp hq
  rcases at_handle hp with hp | hp
  · rcases at_handle hq with hq | hq
    · exact h r hr p q hp hq
    · exact (halone hr hq hp).symm
  · rcases at_handle hq with hq | hq
    · exact halone hr hp hq
    · exact hp.unique hq

theorem at_unsolicited (h : (route.unsolicited cfg s msg).At r p) :
    s.At r p ∨ p = .output s.outputs.length ∧ cfg.on_proactive = true ∧ msg.run_id = r := by
  have ht : ∀ {x}, { s with timed_out_msg_id := x }.At r p → s.At r p :=
    fun hx => at_of_eq rfl rfl rfl rfl r p hx
  unfold route.unsolicited at h
  dsimp only at h
  split at h
  · split at h
    · exact .inl (ht h)
    · exact .inl h
  · rcases at_proactive h with h | ⟨rfl, hon, ho⟩
    · split at h
      · exact .inl (ht h)
      · exact .inl h
    · refine .inr ⟨?_, hon, is_run_eq ho⟩
      split <;> rfl

/-- The timer of a buffer moves the answer of one run out of it, and drops the others. -/
theorem at_finalize (hw : s.Wf) (h : (s.finalize cfg k).At r p) :
    s.At r p ∧ p ≠ .buffer k ∨ s.At r (.buffer k) ∧
      (p = .future ∧ s.takes cfg (.debounce k) = some (r, some k) ∨
        p = .output s.outputs.length ∧ s.takes cfg (.debounce k) = some (r, none)) := by
  rw [finalize] at h
  split at h
  · rename_i msg hmsg
    obtain ⟨hmem, htext⟩ := select_best_mem hmsg
    have hid : msg.msg_id = k := hw.keyed k msg hmem
    have hsrc : s.At msg.run_id (.buffer k) := ⟨msg, hmem, rfl, htext⟩
    have hpush : s.awaits k = false →
        (route.unsolicited cfg { s with aggregator := s.aggregator.pop k } msg).At r p →
        s.At r p ∧ p ≠ .buffer k ∨ s.At r (.buffer k) ∧
          (p = .future ∧ s.takes cfg (.debounce k) = some (r, some k) ∨
            p = .output s.outputs.length ∧ s.takes cfg (.debounce k) = some (r, none)) := by
      intro haw h
      rcases at_unsolicited h with h | ⟨rfl, hon, rfl⟩
      · exact .inl (at_pop h)
      · refine .inr ⟨hsrc, .inr ⟨rfl, ?_⟩⟩
        simp only [takes, hmsg, haw, hon, if_true, Bool.false_eq_true, if_false]
    have hlive : live { s with aggregator := s.aggregator.pop k } = s.live := rfl
    unfold route at h
    rw [hlive, hid] at h
    split at h
    · rename_i m hl
      split at h
      · rename_i hroute
        obtain rfl : m = k := hw.live_msg_id hl hroute.1
        have haw : s.awaits m = true := by
          rw [awaits, hl, Bool.and_eq_true, decide_eq_true_eq, decide_eq_true_eq]
          exact ⟨rfl, hroute.1 ▸ hroute.2⟩
        rcases at_resolve h with h | ⟨rfl, _, ⟨⟩, ho⟩
        · exact .inl (at_pop h)
        · obtain rfl := is_run_eq ho
          refine .inr ⟨hsrc, .inl ⟨rfl, ?_⟩⟩
          simp only [takes, hmsg, haw, if_true]
      · rename_i hroute
        refine hpush (Bool.eq_false_iff.mpr fun haw => hroute ?_) h
        rw [awaits, Bool.and_eq_true, decide_eq_true_eq, decide_eq_true_eq] at haw
        obtain ⟨hk, ht⟩ := haw
        have hpend : s.pending_future_msg_id = some k := hw.pending.trans (live_eq_some.mp hk).1
        exact ⟨hpend, hpend ▸ ht⟩
    · rename_i hl
      refine hpush ?_ h
      rw [awaits, hl]
      rfl
  · exact .inl (at_pop h)

theorem single_finalize (hw : s.Wf) (h : s.Single) : (s.finalize cfg k).Single := by
  intro r hr p q hp hq
  rcases at_finalize hw hp with ⟨hp, hpk⟩ | ⟨hp, hpd⟩
  · rcases at_finalize hw hq with ⟨hq, -⟩ | ⟨hq, -⟩
    · exact h r hr p q hp hq
    · exact absurd (h r hr p _ hp hq) hpk
  · rcases at_finalize hw hq with ⟨hq, hqk⟩ | ⟨hq, hqd⟩
    · exact absurd (h r hr q _ hq hp) hqk
    · rcases hpd with ⟨rfl, ht⟩ | ⟨rfl, ht⟩
      · rcases hqd with ⟨rfl, -⟩ | ⟨-, ht'⟩
        · rfl
        · cases ht.symm.trans ht'
      · rcases hqd with ⟨-, ht'⟩ | ⟨rfl, -⟩
        · cases ht.symm.trans ht'
        · rfl

theorem at_disconnected (h : s.disconnected.At r p) : s.At r p := by
  unfold disconnected at h
  dsimp only at h
  split at h
  · exact at_of_eq rfl rfl rfl rfl r p h
  · rcases at_resolve h with h | ⟨-, _, he, -⟩
    · exact at_of_eq rfl rfl rfl rfl r p h
    · cases he

theorem at_fallback (hw : s.Wf)
    (h : (delayed_fallback { s with fallbacks := s.fallbacks.eraseIdx i } f).At r p) :
    s.At r p ∨ p = .future ∧ f.run_id = r ∧ s.live = some f.msg_id := by
  unfold delayed_fallback at h
  split at h
  · rename_i m hl
    split at h
    · rename_i hid
      obtain rfl : m = f.msg_id := hw.live_msg_id hl hid
      rcases at_resolve h with h | ⟨rfl, _, ⟨⟩, ho⟩
      · exact .inl (at_of_eq rfl rfl rfl rfl r p h)
      · exact .inr ⟨rfl, is_run_eq ho, hl⟩
    · exact .inl (at_of_eq rfl rfl rfl rfl r p h)
  · exact .inl (at_of_eq rfl rfl rfl rfl r p h)

theorem single_fallback (hw : s.Wf) (h : s.Single) (hc : s.Vacant (.fallback i))
    (hf : s.fallbacks[i]? = some f) :
    (delayed_fallback { s with fallbacks := s.fallbacks.eraseIdx i } f).Single := by
  refine h.add .future fun r hr p hp => ?_
  rcases at_fallback hw hp with hp | ⟨rfl, rfl, hl⟩
  · exact .inl hp
  · exact .inr ⟨rfl, fun q hq => absurd hq (hc f hf hl hr q)⟩

theorem single_step (hw : s.Wf) (h : s.Single) (hc : s.Vacant a) (hs : s.step cfg a = some s') :
    s'.Single := by
  have hclosed : { s with aggregator := {} }.Single := by
    refine h.mono fun r p hp => ?_
    cases p with
    | output i => exact hp
    | future => exact hp
    | buffer k =>
      obtain ⟨msg, hmsg, -⟩ := hp
      cases hmsg
  cases steps_of_step hs with
  | tick => exact h.mono (at_of_eq rfl rfl rfl rfl)
  | send hh hf hm =>
    refine h.mono fun r p hp => ?_
    cases p with
    | output i => exact hp
    | future =>
      obtain ⟨c, reply, hh, hf, -⟩ := hp
      cases hh
      have hx := (Function.update_self ..).symm.trans hf
      cases hx
    | buffer k => exact hp
  | @sent m hh hp =>
    refine h.mono fun r p hp => ?_
    cases p with
    | output i => exact hp
    | future =>
      obtain ⟨c, reply, hc, hf, ho⟩ := hp
      cases hc
      exact ⟨⟨m, none⟩, reply, hh, hf, ho⟩
    | buffer k => exact hp
  | shield_raised | send_failed | raised | cancel => exact h.mono fun r p hp => (at_finish hp).1
  | @returned m d reply hh hf =>
    refine h.move .future (.output s.outputs.length) fun r p hp => ?_
    rcases at_output hp with hp | ⟨rfl, hd⟩
    · exact .inl (at_finish hp)
    · exact .inr ⟨rfl, ⟨m, some d⟩, reply, hh, hf, hd⟩
  | timeout hh hd =>
    refine h.mono fun r p hp => ?_
    rcases at_output hp with hp | ⟨-, hd⟩
    · exact at_of_eq rfl rfl rfl rfl r p (at_finish hp).1
    · cases hd
  | frame => exact single_handle h hc
  | debounce => exact single_finalize hw h
  | fallback hf hd => exact single_fallback hw h hc hf
  | cleanup => exact h.mono (at_of_eq rfl rfl rfl rfl)
  | disconnect => exact h.mono fun _ _ hp => at_disconnected hp
  | close => exact hclosed.mono (at_of_eq rfl rfl rfl rfl)
  | listen | socket_lost | ws_close => exact h.mono (at_of_eq rfl rfl rfl rfl)

end OpenClawClient

/-- A client with the runs whose answers have been handed out, each with the request it went to
unless that was none. -/
structure Deliveries where
  client : OpenClawClient := {}
  taken : List (Key × Option String) := []

namespace Deliveries
open OpenClawClient

variable {cfg : ClientConfig} {s s' : Deliveries} {c : OpenClawClient}

/-- A request that ends without its text gives the answer back. -/
def kept (s : Deliveries) (a : Act) : List (Key × Option String) :=
  match s.client.abandons a with
  | none => s.taken
  | some m => s.taken.filter fun x => x.2 ≠ some m

def step (cfg : ClientConfig) (s : Deliveries) (a : Act) : Option Deliveries :=
  (s.client.step cfg a).map fun c =>
    { client := c, taken := s.kept a ++ (takes cfg s.client a).toList }

def Initial (s : Deliveries) : Prop := ∃ begun, s = { client := { begun := begun } }

/-- Nothing of the run has been handed out. -/
def Unused (s : Deliveries) (run_id : Key) : Prop := ∀ x ∈ s.taken, x.1 ≠ run_id

/-- A text comes for a run only while none of its texts has been handed out: a final while its
finals are buffered under its own msg_id only, and an error that meets a pending request, or a
fallback that fires for one, while none of its finals is buffered. -/
def Once (s : Deliveries) : Act → Prop
  | .frame parsed =>
    match GatewayFrame.view parsed with
    | .chat run_id state text seq payload =>
      ∀ msg ∈ s.client.final_message run_id state text seq payload, msg.text ≠ "" →
        is_run_id run_id = true →
          s.Unused run_id ∧ ∀ k, s.client.HoldsText run_id k → k = msg.msg_id
    | .lifecycle_error run_id _ =>
      s.client.live ≠ none → is_run_id run_id = true →
        s.Unused run_id ∧ ∀ k, ¬ s.client.HoldsText run_id k
    | _ => True
  | .fallback i =>
    ∀ f ∈ s.client.fallbacks[i]?, s.client.live = some f.msg_id → is_run_id f.run_id = true →
      s.Unused f.run_id ∧ ∀ k, ¬ s.client.HoldsText f.run_id k
  | _ => True

/-- Every answer that is in the future of the request in progress, or with the user, is on
record. -/
structure Recorded (s : Deliveries) : Prop where
  used : ∀ x ∈ s.taken, ∀ m, x.2 = some m → s.client.future m ≠ none
  waiting : ∀ r c, s.client.At r .future → s.client.holder = some c → (r, some c.msg_id) ∈ s.taken
  given : ∀ r i, s.client.At r (.output i) → ∃ x ∈ s.taken, x.1 = r ∧
    ∀ c, s.client.holder = some c → x.2 ≠ some c.msg_id

/-- Where nothing of a run has been handed out, its texts are in the buffers. -/
theorem Recorded.buffered (h : s.Recorded) (hr : s.Unused r) (hp : s.client.At r p) :
    ∃ k, p = .buffer k ∧ s.client.HoldsText r k := by
  cases p with
  | output i =>
    obtain ⟨x, hx, he, -⟩ := h.given r i hp
    exact absurd he (hr x hx)
  | future =>
    obtain ⟨c, reply, hc, -⟩ := id hp
    exact absurd rfl (hr _ (h.waiting r c hp hc))
  | buffer k => exact ⟨k, rfl, hp⟩

theorem Once.vacant (hc : s.Once a) (h : s.Recorded) : s.client.Vacant a := by
  cases a with
  | frame parsed =>
    simp only [Once, Vacant] at hc ⊢
    generalize GatewayFrame.view parsed = f at hc ⊢
    cases f with
    | chat run_id state text seq payload =>
      intro msg hmsg ht hr p hp
      obtain ⟨hunused, hown⟩ := hc msg hmsg ht hr
      obtain ⟨k, rfl, hk⟩ := h.buffered hunused hp
      rw [hown k hk]
    | lifecycle_error run_id error =>
      intro hl hr p hp
      obtain ⟨hunused, hnone⟩ := hc hl hr
      obtain ⟨k, -, hk⟩ := h.buffered hunused hp
      exact hnone k hk
    | _ => trivial
  | fallback i =>
    intro f hf hl hr p hp
    obtain ⟨hunused, hnone⟩ := hc f hf hl hr
    obtain ⟨k, -, hk⟩ := h.buffered hunused hp
    exact hnone k hk
  | _ => trivial

/-- A step that keeps the call: what comes to its future or to the user is taken from a run. -/
theorem Recorded.carry (h : s.Recorded) {t : Option (Key × Option String)}
    (hh : c.holder = s.client.holder) (hr : Retained s.client c)
    (hu : ∀ r m, t = some (r, some m) → s.client.future m ≠ none)
    (hfut : ∀ r, c.At r .future → s.client.At r .future ∨
      ∀ x, s.client.holder = some x → t = some (r, some x.msg_id))
    (hout : ∀ r i, c.At r (.output i) → s.client.At r (.output i) ∨ t = some (r, none)) :
    Recorded { client := c, taken := s.taken ++ t.toList } where
  used x hx m hm := by
    rcases List.mem_append.mp hx with hx | hx
    · exact hr.future m (h.used x hx m hm)
    · obtain rfl := Option.mem_toList.mp hx
      obtain ⟨r, y⟩ := x
      cases hm
      exact hr.future m (hu r m rfl)
  waiting r x hat hx := by
    rw [hh] at hx
    rcases hfut r hat with hold | hnew
    · exact List.mem_append_left _ (h.waiting r x hold hx)
    · exact List.mem_append_right _ (Option.mem_toList.mpr (hnew x hx))
  given r i hat := by
    rcases hout r i hat with hold | hnew
    · obtain ⟨x, hx, hxr, hne⟩ := h.given r i hold
      exact ⟨x, List.mem_append_left _ hx, hxr, fun y hy => hne y (hh ▸ hy)⟩
    · exact ⟨(r, none), List.mem_append_right _ (Option.mem_toList.mpr hnew), rfl,
        fun _ _ he => by cases he⟩

/-- A step that hands out nothing. -/
theorem Recorded.quiet (h : s.Recorded) (hh : c.holder = s.client.holder)
    (hr : Retained s.client c) (hat : ∀ r p, c.At r p → s.client.At r p ∨ ∃ k, p = .buffer k) :
    Recorded { client := c, taken := s.taken } := by
  have hcarry := h.carry (t := none) hh hr (fun _ _ he => by cases he)
    (fun r hp => (hat r _ hp).imp_right fun ⟨k, he⟩ => by cases he)
    fun r i hp => (hat r _ hp).imp_right fun ⟨k, he⟩ => by cases he
  rwa [Option.toList_none, List.append_nil] at hcarry

/-- A text of the run resolves the pending future. -/
theorem Recorded.resolved (h : s.Recorded) (hw : s.client.Wf) (hl : s.client.live = some m)
    (hh : c.holder = s.client.holder) (hr : Retained s.client c)
    (hat : ∀ r p, c.At r p → s.client.At r p ∨ p = .future ∧ run_id = r) :
    Recorded { client := c, taken := s.taken ++ [(run_id, some m)] } := by
  obtain ⟨d, hd⟩ := hw.request m (live_eq_some.mp hl).1
  refine h.carry (t := some (run_id, some m)) hh hr ?_ ?_ ?_
  · rintro r k he
    cases he
    exact future_of_live hl
  · intro r hp
    rcases hat r _ hp with hp | ⟨-, rfl⟩
    · exact .inl hp
    · refine .inr fun x hx => ?_
      cases hd.symm.trans hx
      rfl
  · intro r i hp
    rcases hat r _ hp with hp | ⟨he, -⟩
    · exact .inl hp
    · cases he

theorem recorded_frame (h : s.Recorded) (hw : s.client.Wf) :
    Recorded {
      client := s.client.dispatch cfg parsed
      taken := s.taken ++ (takes cfg s.client (.frame parsed)).toList } := by
  have hh : (s.client.handle cfg (GatewayFrame.view parsed)).holder = s.client.holder :=
    (handled_frame _).holder
  have hr : Retained s.client (s.client.handle cfg (GatewayFrame.view parsed)) :=
    retained_handle ..
  have hat : ∀ {r p}, (s.client.handle cfg (GatewayFrame.view parsed)).At r p → _ := at_handle
  simp only [takes, dispatch]
  generalize GatewayFrame.view parsed = f at hh hr hat ⊢
  split
  · rename_i run_id error k m ha hl
    refine h.resolved hw hl hh hr fun r p hp => (hat hp).imp_right fun hcomes => ?_
    cases hcomes with
    | error => exact ⟨rfl, rfl⟩
  · rename_i hnot
    rw [Option.toList_none, List.append_nil]
    refine h.quiet hh hr fun r p hp => (hat hp).imp_right fun hcomes => ?_
    cases hcomes with
    | error ha hl => exact (hnot _ _ _ _ rfl ha hl).elim
    | final => exact ⟨_, rfl⟩

theorem takes_live {c : OpenClawClient} (h : c.takes cfg (.debounce k) = some (r, some m)) :
    c.live = some m := by
  simp only [takes] at h
  split at h
  · split at h
    · rename_i haw
      cases h
      rw [awaits, Bool.and_eq_true, decide_eq_true_eq] at haw
      exact haw.1
    · split at h
      · cases h
      · cases h
  · cases h

theorem recorded_debounce (h : s.Recorded) (hw : s.client.Wf) :
    Recorded {
      client := s.client.finalize cfg k
      taken := s.taken ++ (takes cfg s.client (.debounce k)).toList } := by
  refine h.carry handled_finalize.holder (retained_finalize _)
    (fun r m ht => future_of_live (takes_live ht)) ?_ ?_
  · intro r hp
    rcases at_finalize hw hp with ⟨hp, -⟩ | ⟨-, ⟨-, ht⟩ | ⟨he, -⟩⟩
    · exact .inl hp
    · refine .inr fun x hx => ?_
      obtain ⟨d, hd⟩ := hw.request k (live_eq_some.mp (takes_live ht)).1
      cases hd.symm.trans hx
      exact ht
    · cases he
  · intro r i hp
    rcases at_finalize hw hp with ⟨hp, -⟩ | ⟨-, ⟨he, -⟩ | ⟨-, ht⟩⟩
    · exact .inl hp
    · cases he
    · exact .inr ht

theorem recorded_fallback (h : s.Recorded) (hw : s.client.Wf)
    (hf : s.client.fallbacks[i]? = some f) :
    Recorded {
      client := delayed_fallback
        { s.client with fallbacks := s.client.fallbacks.eraseIdx i } f
      taken := s.taken ++ (takes cfg s.client (.fallback i)).toList } := by
  have hh : (delayed_fallback
      { s.client with fallbacks := s.client.fallbacks.eraseIdx i } f).holder = s.client.holder :=
    handled_fallback.holder
  have hr : Retained s.client (delayed_fallback
      { s.client with fallbacks := s.client.fallbacks.eraseIdx i } f) := by
    apply Retained.trans _ (retained_fallback _)
    exact .same rfl rfl rfl
  simp only [takes, hf]
  split
  · rename_i hl
    exact h.resolved hw hl hh hr fun r p hp => (at_fallback hw hp).imp_right fun hp =>
      ⟨hp.1, hp.2.1⟩
  · rename_i hl
    rw [Option.toList_none, List.append_nil]
    exact h.quiet hh hr fun r p hp => (at_fallback hw hp).imp_right fun hp =>
      absurd hp.2.2 hl

/-- The end of a call that returns no text of a run. -/
theorem Recorded.ended (h : s.Recorded) (hc : s.client.holder = some x)
    (ha : s.client.abandons a = some x.msg_id) (ht : s.client.takes cfg a = none)
    (hh : c.holder = none) (hf : c.future = s.client.future)
    (hat : ∀ r i, c.At r (.output i) → s.client.At r (.output i)) :
    Recorded { client := c, taken := s.kept a ++ (takes cfg s.client a).toList } := by
  rw [kept, ha, ht, Option.toList_none, List.append_nil]
  refine ⟨?_, fun r y hp hy => (by cases hh.symm.trans hy), ?_⟩
  · intro y hy m hm
    dsimp only
    rw [hf]
    exact h.used y (List.mem_of_mem_filter hy) m hm
  · intro r i hp
    obtain ⟨y, hy, hr, hne⟩ := h.given r i (hat r i hp)
    exact ⟨y, List.mem_filter.mpr ⟨hy, decide_eq_true (hne x hc)⟩, hr,
      fun z hz => by cases hh.symm.trans hz⟩

/-- The end of a call whose request has been given nothing, or which returns it. -/
theorem Recorded.returned (h : s.Recorded) (hh : c.holder = none)
    (hf : c.future = s.client.future)
    (hat : ∀ r i, c.At r (.output i) → s.client.At r (.output i) ∨ s.client.At r .future) :
    Recorded { client := c, taken := s.taken } where
  used y hy m hm := by
    dsimp only
    rw [hf]
    exact h.used y hy m hm
  waiting r y hp hy := by
    cases hh.symm.trans hy
  given r i hp := by
    rcases hat r i hp with hp | hp
    · obtain ⟨y, hy, hr, -⟩ := h.given r i hp
      exact ⟨y, hy, hr, fun z hz => by cases hh.symm.trans hz⟩
    · obtain ⟨x, reply, hx, -⟩ := id hp
      exact ⟨_, h.waiting r x hp hx, rfl, fun z hz => by cases hh.symm.trans hz⟩

theorem recorded_step (h : s.Recorded) (hw : s.client.Wf) (hs : s.step cfg a = some s') :
    s'.Recorded := by
  rw [step] at hs
  obtain ⟨c, hc, rfl⟩ := Option.map_eq_some_iff.mp hs
  have hsame : ∀ {c : OpenClawClient}, Recorded { client := c, taken := s.taken } →
      Recorded { client := c, taken := s.taken ++ [] } := by
    intro c hr
    rwa [List.append_nil]
  have hquiet : ∀ {c : OpenClawClient}, c.holder = s.client.holder → Retained s.client c →
      (∀ r p, c.At r p → s.client.At r p) → Recorded { client := c, taken := s.taken ++ [] } :=
    fun hh hr hat => hsame (h.quiet hh hr fun r p hp => .inl (hat r p hp))
  cases steps_of_step hc with
  | tick | cleanup | listen | socket_lost | ws_close =>
    exact hquiet rfl (.same rfl rfl rfl) fun r p hp => at_of_eq rfl rfl rfl rfl r p hp
  | close =>
    refine hquiet rfl (.same rfl rfl rfl) fun r p hp => ?_
    cases p with
    | output i => exact hp
    | future => exact hp
    | buffer k =>
      obtain ⟨msg, hmsg, -⟩ := hp
      cases hmsg
  | disconnect =>
    exact hquiet (handled_disconnected _).1.holder (retained_disconnected _) fun r p hp =>
      at_disconnected hp
  | frame => exact recorded_frame h hw
  | debounce => exact recorded_debounce h hw
  | fallback hf hd => exact recorded_fallback h hw hf
  | @send m on_stream hh hf hm =>
    refine hsame ⟨fun x hx k hk => defined_update (h.used x hx k hk), ?_, ?_⟩
    · rintro r _ ⟨c, reply, hc, hres, -⟩ ⟨⟩
      cases hc
      have hx := (Function.update_self ..).symm.trans hres
      cases hx
    · intro r i hp
      obtain ⟨x, hx, hr, -⟩ := h.given r i hp
      refine ⟨x, hx, hr, ?_⟩
      rintro _ ⟨⟩ he
      exact h.used x hx m he hf
  | @sent m hh hp =>
    have hnone : s.client.abandons .sent = none := by rw [abandons, if_neg hp]
    rw [kept, hnone]
    refine hsame ⟨h.used, ?_, ?_⟩
    · rintro r _ ⟨c, reply, hc, hres, ho⟩ ⟨⟩
      cases hc
      exact h.waiting r ⟨m, none⟩ ⟨⟨m, none⟩, reply, hh, hres, ho⟩ hh
    · intro r i hat
      obtain ⟨x, hx, hr, hne⟩ := h.given r i hat
      refine ⟨x, hx, hr, ?_⟩
      rintro _ ⟨⟩
      exact hne ⟨m, none⟩ hh
  | shield_raised hh hp =>
    refine h.ended hh ?_ rfl rfl rfl fun r i hat => (at_finish hat).1
    rw [abandons, if_pos hp, hh]
    rfl
  | send_failed hh | cancel hh =>
    refine h.ended hh ?_ rfl rfl rfl fun r i hat => (at_finish hat).1
    rw [abandons, hh]
    rfl
  | timeout hh hd =>
    refine h.ended hh ?_ rfl rfl rfl fun r i hat => ?_
    · rw [abandons, hh]
      rfl
    · rcases at_output hat with hat | ⟨-, hd⟩
      · exact at_of_eq rfl rfl rfl rfl r _ (at_finish hat).1
      · cases hd
  | @returned m d reply hh hf =>
    refine hsame (h.returned rfl rfl fun r i hat => ?_)
    rcases at_output hat with hat | ⟨-, hd⟩
    · exact .inl (at_finish hat).1
    · exact .inr ⟨⟨m, some d⟩, reply, hh, hf, hd⟩
  | raised hh hf => exact hsame (h.returned rfl rfl fun r i hat => .inl (at_finish hat).1)

/-- In every run whose timers fire in order and in which a text comes for a run only while none of
its texts has been handed out, the answer of each run reaches the user at most once. -/
theorem delivered_at_most_once
    (h : Reach (step cfg) (fun s a => s.client.InOrder a ∧ s.Once a) Initial s) :
    s.client.AtMostOnce := by
  have hinv : s.client.Wf ∧ s.client.Single ∧ s.Recorded := by
    refine h.invariant (I := fun s => s.client.Wf ∧ s.client.Single ∧ s.Recorded) ?_ ?_
    · rintro s ⟨begun, rfl⟩
      have hnone : ∀ {r p}, ¬ ({ begun := begun } : OpenClawClient).At r p := by
        intro r p hp
        cases p with
        | output i =>
          obtain ⟨o, ho, -⟩ := hp
          cases ho
        | future =>
          obtain ⟨_, _, hh, -⟩ := hp
          cases hh
        | buffer k =>
          obtain ⟨_, hm, -⟩ := hp
          cases hm
      refine ⟨wf_initial ⟨begun, rfl⟩, fun r _ p q hp => absurd hp hnone, ?_⟩
      exact ⟨(fun x hx => by cases hx), fun r c hp => absurd hp hnone,
        fun r i hp => absurd hp hnone⟩
    · rintro s a s' ⟨hw, hone, hrec⟩ hc hs
      have hstep : s.client.step cfg a = some s'.client := by
        rw [step] at hs
        obtain ⟨c, hclient, rfl⟩ := Option.map_eq_some_iff.mp hs
        exact hclient
      exact ⟨wf_step hw hstep, single_step hw hone (hc.2.vacant hrec) hstep,
        recorded_step hrec hw hs⟩
  intro r hr i j hi hj
  exact Place.output.inj (hinv.2.1 r hr _ _ hi hj)

/-- The final comes 200 ms after the end of the run, so that its debounce is over before the
fallback is due. -/
def in_time : List Act :=
  [.send "a" false, .sent, .frame (assistant_frame "r" "hello there"),
    .frame (lifecycle_frame "r" "end"), .tick 200, .frame (final_frame "r" 2 "hello ther"),
    .tick 150, .debounce "a", .resume, .tick 100, .fallback 0]

theorem sole_debounce {k m : String} {t d due : Nat} (ht : t ≤ d)
    (h : Function.update (fun _ => none) k (some d) m = some due) : t ≤ due := by
  by_cases hm : m = k
  · subst hm
    rw [Function.update_self] at h
    exact Option.some.inj h ▸ ht
  · rw [Function.update_of_ne hm] at h
    cases h

theorem no_debounce {k m : String} {x : Option Nat} {due : Nat}
    (h : Function.update (Function.update (fun _ => none) k x) k none m = some due) : False := by
  rw [Function.update_idem] at h
  by_cases hm : m = k
  · subst hm
    rw [Function.update_self] at h
    cases h
  · rw [Function.update_of_ne hm] at h
    cases h

theorem meets_in_time :
    Meets (step {}) (fun s a => s.client.InOrder a ∧ s.Once a) {} in_time := by
  have hidle : ∀ {P : Nat → Prop}, ∀ t ∈ (none : Option Nat), P t := fun t ht => by cases ht
  refine ⟨⟨hidle, trivial⟩, ⟨hidle, trivial⟩, ⟨hidle, trivial⟩, ⟨hidle, trivial⟩,
    ⟨hidle, trivial⟩, ⟨hidle, ?_⟩, ⟨hidle, trivial⟩, ⟨?_, trivial⟩, ⟨hidle, trivial⟩,
    ⟨hidle, trivial⟩, ⟨?_, ?_⟩, trivial⟩
  · intro msg _ _ _
    refine ⟨fun x hx => (by cases hx), ?_⟩
    rintro k ⟨x, hx, -⟩
    cases hx
  · rintro _ ⟨⟩
    refine ⟨fun m due h => sole_debounce (Nat.le_refl _) h, by decide, ?_, by decide⟩
    rintro m d ⟨⟩
    decide
  · rintro _ ⟨⟩
    refine ⟨fun m due h => absurd h no_debounce, by decide, ?_, by decide⟩
    intro m d hh
    cases hh
  · intro f _ hl
    cases hl

theorem delivered_at_most_once_in_time : ∃ s, exec (step {}) {} in_time = some s ∧
    s.client.outputs.map (Output.delivers (.str "r")) = [true] ∧ s.client.AtMostOnce := by
  have h : ((exec (step {}) {} in_time).any fun s =>
      s.client.outputs.map (Output.delivers (.str "r")) = [true]) = true := by decide
  obtain ⟨s, hs, ha⟩ := (Option.any_eq_true _ _).mp h
  have hi : Initial {} := ⟨true, rfl⟩
  have hr := (Reach.start hi).exec meets_in_time hs
  exact ⟨s, hs, of_decide_eq_true ha, delivered_at_most_once hr⟩

theorem at_output_of_delivers {c : OpenClawClient} (h : c.outputs.map (Output.delivers r) = l)
    (hi : l[i]? = some true) : c.At r (.output i) := by
  rw [← h, List.getElem?_map, Option.map_eq_some_iff] at hi
  exact hi

/-- The final comes after the fallback has fired. -/
def late_final : List Act :=
  [.send "a" false, .sent, .frame (assistant_frame "r" "hello there"),
    .frame (lifecycle_frame "r" "end"), .tick 450, .fallback 0, .resume,
    .frame (final_frame "r" 2 "hello ther"), .tick 150, .debounce "proactive"]

theorem meets_late_final :
    Meets (step {}) (fun s a => s.client.InOrder a) {} late_final := by
  have hidle : ∀ {P : Nat → Prop}, ∀ t ∈ (none : Option Nat), P t := fun t ht => by cases ht
  refine ⟨hidle, hidle, hidle, hidle, hidle, ?_, hidle, hidle, hidle, ?_, trivial⟩
  · rintro _ ⟨⟩
    refine ⟨fun m due h => (by cases h), by decide, ?_, by decide⟩
    rintro m d ⟨⟩
    decide
  · rintro _ ⟨⟩
    refine ⟨fun m due h => sole_debounce (Nat.le_refl _) h, by decide, ?_, by decide⟩
    intro m d hh
    cases hh

theorem not_delivered_at_most_once :
    ∃ s, Reach (step {}) (fun s a => s.client.InOrder a) Initial s ∧ ¬ s.client.AtMostOnce := by
  have h : ((exec (step {}) {} late_final).any fun s =>
      s.client.outputs.map (Output.delivers (.str "r")) = [true, true]) = true := by decide
  obtain ⟨s, hs, ha⟩ := (Option.any_eq_true _ _).mp h
  have hi : Initial {} := ⟨true, rfl⟩
  have hd := of_decide_eq_true ha
  refine ⟨s, (Reach.start hi).exec meets_late_final hs, fun hm => ?_⟩
  have hij := hm (.str "r") (by decide) 0 1 (at_output_of_delivers hd rfl)
    (at_output_of_delivers hd rfl)
  cases hij

end Deliveries

end ClawMux
