import ClawMux.Services.RequestState

namespace ClawMux
set_option autoImplicit true
open Lib

namespace OpenClawClient

variable {cfg : ClientConfig} {s s' s'' : OpenClawClient}

/-- Whether the client says that it is connected, and whether its listen loop runs. -/
def link (s : OpenClawClient) : Bool × Bool := (s.connected, s.listening)

/-- What a frame or a timer does to the request in progress: it may resolve the pending future, and
drops it only when it is done. -/
structure Handled (s s' : OpenClawClient) : Prop where
  holder : s'.holder = s.holder
  opened : s'.opened = s.opened
  link : s'.link = s.link
  clashes : s'.clashes = s.clashes
  pending : ∀ k, s'.future k = some .pending → s.future k = some .pending
  owned : ∀ k, s'.future k = some .pending → s.pending_future = some k → s'.pending_future = some k

theorem Handled.same (hh : s'.holder = s.holder) (ho : s'.opened = s.opened)
    (hn : s'.link = s.link) (hc : s'.clashes = s.clashes) (hf : s'.future = s.future)
    (hp : s'.pending_future = s.pending_future) : Handled s s' :=
  ⟨hh, ho, hn, hc, fun _ hk => hf ▸ hk, fun _ _ hk => hp.trans hk⟩

theorem Handled.connected (h : Handled s s') : s'.connected = s.connected :=
  congrArg Prod.fst h.link

theorem Handled.listening (h : Handled s s') : s'.listening = s.listening :=
  congrArg Prod.snd h.link

theorem Handled.refl (s : OpenClawClient) : Handled s s := .same rfl rfl rfl rfl rfl rfl

theorem Handled.trans (h : Handled s s') (h' : Handled s' s'') : Handled s s'' where
  holder := h'.holder.trans h.holder
  opened := h'.opened.trans h.opened
  link := h'.link.trans h.link
  clashes := h'.clashes.trans h.clashes
  pending k hk := h.pending k (h'.pending k hk)
  owned k hk hp := h'.owned k hk (h.owned k (h'.pending k hk) hp)

theorem handled_output (s : OpenClawClient) (o : Output) : Handled s (s.output o) :=
  .same rfl rfl rfl rfl rfl rfl

theorem handled_stream (s : OpenClawClient) : Handled s (s.stream run_id text) := by
  rw [OpenClawClient.stream]
  split
  · exact .refl s
  · exact s.handled_output _

theorem handled_proactive (s : OpenClawClient) : Handled s (s.proactive cfg text origin) := by
  rw [OpenClawClient.proactive]
  split
  · exact s.handled_output _
  · exact .refl s

theorem resolve_live (h : s.live = some m) : (s.resolve m x).future m = some x := by
  simp only [resolve, is_pending_iff.mpr (live_eq_some.mp h).2, if_true]
  exact Function.update_self ..

theorem resolve_clashes (h : s.live = some m) : (s.resolve m x).clashes = s.clashes := by
  simp only [resolve, is_pending_iff.mpr (live_eq_some.mp h).2, if_true]

theorem resolve_pending (hk : (s.resolve m x).future k = some .pending) :
    s.future k = some .pending := by
  rcases s.resolve_future m k x with he | ⟨rfl, hm, -⟩
  · exact he.symm.trans hk
  · exact hm

theorem handled_resolve (h : s.live = some m) : Handled s (s.resolve m x) :=
  ⟨rfl, rfl, rfl, resolve_clashes h, fun _ hk => resolve_pending hk, fun _ _ hp => hp⟩

theorem handled_rejected {id : Json} : Handled s (s.chat_send_rejected cfg id error) := by
  rw [chat_send_rejected]
  split
  · rename_i hl
    refine ⟨rfl, rfl, rfl, rfl, fun _ hk => hk, ?_⟩
    intro k hk hp
    have hlive : s.live = some k := live_eq_some.mpr ⟨hp, hk⟩
    rw [hl] at hlive
    cases hlive
  · rename_i m hl
    refine ⟨rfl, rfl, rfl, ?_, fun _ hk => resolve_pending hk, ?_⟩
    · exact resolve_clashes (x := .result
        { text := .str ("[Error: " ++ error.format cfg.py ++ "]"), origin := some (.res id) }) hl
    intro k hk hp
    cases (live_eq_some.mp hl).1.symm.trans hp
    have hdone := (resolve_live hl).symm.trans hk
    cases hdone

theorem handled_lifecycle_end : Handled s (s.lifecycle_end run_id) := by
  rw [lifecycle_end]
  split
  · exact .same rfl rfl rfl rfl rfl rfl
  · exact .refl s

theorem handled_chat : Handled s (s.chat cfg run_id state text seq payload) := by
  rw [OpenClawClient.chat]
  split
  · exact s.handled_stream
  · split
    · exact .refl s
    · exact .same rfl rfl rfl rfl rfl rfl

theorem handled_frame (f : GatewayFrame) : Handled s (s.handle cfg f) := by
  cases f with
  | ignored => exact .refl s
  | rejected id error => exact handled_rejected
  | assistant run_id text =>
    apply Handled.trans _ (handled_stream _)
    exact .same rfl rfl rfl rfl rfl rfl
  | lifecycle_error run_id error =>
    simp only [handle, lifecycle_error]
    split
    · rename_i hl
      exact handled_resolve hl
    · exact .refl s
  | lifecycle_end run_id => exact handled_lifecycle_end
  | chat run_id state text seq payload => exact handled_chat
  | cron summary => exact s.handled_proactive

theorem handled_unsolicited (msg : ClawMessage) : Handled s (route.unsolicited cfg s msg) := by
  have hclear : Handled s
      (if s.timed_out_msg_id = some msg.msg_id then { s with timed_out_msg_id := none }
        else s) := by
    split
    · exact .same rfl rfl rfl rfl rfl rfl
    · exact .refl s
  rw [route.unsolicited]
  split
  · exact hclear
  · exact hclear.trans (handled_proactive _)

theorem handled_route : Handled s (s.route cfg msg rivals) := by
  rw [OpenClawClient.route]
  split
  · rename_i hl
    split
    · exact handled_resolve hl
    · exact handled_unsolicited msg
  · exact handled_unsolicited msg

theorem handled_finalize : Handled s (s.finalize cfg m) := by
  have hpop : Handled s { s with aggregator := s.aggregator.pop m } := .same rfl rfl rfl rfl rfl rfl
  simp only [finalize]
  split
  · exact hpop.trans handled_route
  · exact hpop

theorem handled_fallback : Handled s (s.delayed_fallback f) := by
  rw [delayed_fallback]
  split
  · rename_i hl
    split
    · exact handled_resolve hl
    · exact .refl s
  · exact .refl s

/-- The end of the listen loop leaves no pending future of its own. -/
theorem handled_disconnected (s : OpenClawClient) :
    Handled { s with connected := false, listening := false } s.disconnected ∧
      ∀ k, s.pending_future = some k → s.disconnected.future k ≠ some .pending := by
  have hcut : Handled { s with connected := false, listening := false }
      { s with connected := false, listening := false, agent_texts := fun _ => none } :=
    .same rfl rfl rfl rfl rfl rfl
  rw [disconnected]
  split
  · rename_i hl
    refine ⟨hcut, fun k hp hk => ?_⟩
    have hlive : live { s with
        connected := false, listening := false, agent_texts := fun _ => none } = some k :=
      live_eq_some.mpr ⟨hp, hk⟩
    rw [hl] at hlive
    cases hlive
  · rename_i m hl
    refine ⟨hcut.trans (handled_resolve hl), fun k hp hk => ?_⟩
    cases hp.symm.trans (live_eq_some.mp hl).1
    have hdone := (resolve_live hl).symm.trans hk
    cases hdone

/-- The call that holds the lock waits for the pending future, and for none that the end of the
listen loop has left behind. -/
structure Attended (s : OpenClawClient) : Prop where
  owned : ∀ c, s.holder = some c → s.future c.msg_id = some .pending →
    s.pending_future = some c.msg_id
  cut : s.listening = false → s.opened = true → ∀ c, s.holder = some c →
    s.future c.msg_id ≠ some .pending
  waiting : s.listening = false → ∀ m d, s.holder = some ⟨m, some d⟩ → s.future m ≠ some .pending

theorem Attended.handled (h : s.Attended) (e : Handled s s') : s'.Attended where
  owned c hh hp := e.owned _ hp (h.owned c (e.holder ▸ hh) (e.pending _ hp))
  cut hcut ho c hh hp :=
    h.cut (e.listening.symm.trans hcut) (e.opened.symm.trans ho) c (e.holder ▸ hh) (e.pending _ hp)
  waiting hcut m d hh hp := h.waiting (e.listening.symm.trans hcut) m d (e.holder ▸ hh)
    (e.pending _ hp)

theorem Attended.finish (s : OpenClawClient) : s.finish.Attended :=
  ⟨(fun _ hh => by cases hh), (fun _ _ _ hh => by cases hh), (fun _ _ _ hh => by cases hh)⟩

theorem Attended.disconnected (h : s.Attended) : s.disconnected.Attended := by
  obtain ⟨e, hdone⟩ := s.handled_disconnected
  have hleft : ∀ c, s.disconnected.holder = some c →
      s.disconnected.future c.msg_id ≠ some .pending := fun c hh hp =>
    hdone c.msg_id (h.owned c (e.holder ▸ hh) (e.pending _ hp)) hp
  exact ⟨fun c hh hp => absurd hp (hleft c hh), fun _ _ c hh => hleft c hh,
    fun _ m d hh => hleft ⟨m, some d⟩ hh⟩

/-- `ws.send` raises when it is called on a closed socket. -/
def SendRaises (s : OpenClawClient) : Act → Prop
  | .sent => s.opened = true
  | _ => True

/-- No request is sent after the end of the listen loop while the socket is still open, and none is
pending when the client is closed before the first step of the loop. -/
def SentInTime (s : OpenClawClient) : Act → Prop
  | .send _ _ => s.listening = true ∨ s.socket_open = false
  | .close => s.begun = true ∨ s.live = none
  | _ => True

theorem step_clashes (hs : s.step cfg a = some s') : s'.clashes = s.clashes := by
  cases steps_of_step hs with
  | frame hc => exact (handled_frame _).clashes
  | debounce ht hd => exact handled_finalize.clashes
  | fallback hf hd => exact handled_fallback.clashes
  | disconnect hl hc => exact (handled_disconnected _).1.clashes
  | _ => rfl

theorem step_attended (h : s.Attended) (hc : s.SendRaises a ∧ s.SentInTime a)
    (hs : s.step cfg a = some s') :
    s'.Attended := by
  cases steps_of_step hs with
  | tick => exact h.handled (.same rfl rfl rfl rfl rfl rfl)
  | send hh hf hm =>
    refine ⟨?_, ?_, ?_⟩
    · rintro _ ⟨⟩ _
      rfl
    · rintro (hcut : s.listening = false) (ho : s.socket_open = true)
      rcases hc.2 with hl | hshut
      · cases hcut.symm.trans hl
      · cases hshut.symm.trans ho
    · rintro _ _ _ ⟨⟩
  | @sent m hh hp =>
    refine ⟨?_, ?_, ?_⟩
    · rintro _ ⟨⟩ hm
      exact h.owned ⟨m, none⟩ hh hm
    · rintro hcut ho _ ⟨⟩
      exact h.cut hcut ho ⟨m, none⟩ hh
    · rintro hcut _ _ ⟨⟩
      exact h.cut hcut hc.1 ⟨m, none⟩ hh
  | shield_raised hh hp | send_failed hh | cancel hh | raised hh hf => exact .finish _
  | returned hh hf | timeout hh hd => exact (Attended.finish _).handled (handled_output _ _)
  | frame hc => exact h.handled (handled_frame _)
  | debounce ht hd => exact h.handled handled_finalize
  | fallback hf hd =>
    apply Attended.handled _ handled_fallback
    exact h.handled (.same rfl rfl rfl rfl rfl rfl)
  | cleanup hc hd => exact h.handled (.same rfl rfl rfl rfl rfl rfl)
  | disconnect hl hc => exact h.disconnected
  | listen | socket_lost | ws_close => exact h.handled (.same rfl rfl rfl rfl rfl rfl)
  | close =>
    rcases hc.2 with hbegun | hnone
    · have hl : (s.listening && s.begun) = false → s.listening = false := by
        rw [hbegun, Bool.and_true]
        exact id
      exact ⟨h.owned, fun hcut => h.cut (hl hcut), fun hcut => h.waiting (hl hcut)⟩
    · have hdone : ∀ c, s.holder = some c → s.future c.msg_id ≠ some .pending := by
        intro c hh hp
        cases hnone.symm.trans (live_eq_some.mpr ⟨h.owned c hh hp, hp⟩)
      exact ⟨h.owned, fun _ _ => hdone, fun _ m d hh => hdone ⟨m, some d⟩ hh⟩

/-- A message aggregated under one msg_id resolves no future but its own. -/
theorem finalize_future (h : s.Wf) (hk : k ≠ m) : (s.finalize cfg m).future k = s.future k := by
  have hpop : { s with aggregator := s.aggregator.pop m }.Wf :=
    h.same ⟨rfl, rfl, rfl, rfl, rfl, rfl, pop_buffers _ m, rfl⟩
  simp only [finalize]
  split
  · rename_i msg hmsg
    have hid : msg.msg_id = m := h.keyed m msg (select_best_mem hmsg).1
    rw [OpenClawClient.route]
    split
    · rename_i n hl
      split
      · rename_i hroute
        have hn : n = m := by
          have hp := (live_eq_some.mp hl).1
          rw [← hpop.pending, hroute.1, hid] at hp
          exact (Option.some.inj hp).symm
        rcases resolve_future { s with aggregator := s.aggregator.pop m } n k _ with he | ⟨he, -⟩
        · exact he
        · exact absurd (he.trans hn) hk
      · exact congrFun (same_unsolicited _ msg).future k
    · exact congrFun (same_unsolicited _ msg).future k
  · rfl

/-- The fields of the pending request agree and are empty while no call holds the lock, no future is
resolved twice, and what is aggregated for a request resolves no other one. -/
structure RequestState (cfg : ClientConfig) (s : OpenClawClient) : Prop where
  active : s.active_msg_id = s.pending_future_msg_id
  none_pending : s.active_msg_id = none ↔ s.pending_future = none
  own : ∀ m, s.pending_future = some m → s.pending_future_msg_id = some m
  idle : s.holder = none →
    s.active_msg_id = none ∧ s.pending_future_msg_id = none ∧ s.pending_future = none
  once : s.clashes = []
  routed : ∀ m s', s.step cfg (.debounce m) = some s' → ∀ k, k ≠ m → s'.future k = s.future k

theorem Wf.request_state (h : s.Wf) (hc : s.clashes = []) : s.RequestState cfg := by
  have hidle : s.holder = none → s.pending_future = none := by
    intro hh
    cases hp : s.pending_future with
    | none => rfl
    | some m =>
      obtain ⟨d, hd⟩ := h.request m hp
      rw [hh] at hd
      cases hd
  refine ⟨h.active.trans h.pending.symm, ?_, fun m hm => h.pending.trans hm, ?_, hc, ?_⟩
  · rw [h.active]
  · intro hh
    exact ⟨h.active.trans (hidle hh), h.pending.trans (hidle hh), hidle hh⟩
  · intro m s' hs k hk
    cases steps_of_step hs with
    | debounce ht hd => exact finalize_future h hk

/-- No call waits for a future that the listen loop, which has ended, has left unresolved. -/
def Unblocked (s : OpenClawClient) : Prop :=
  s.listening = false → ∀ m deadline, s.holder = some ⟨m, some deadline⟩ →
    s.future m ≠ some .pending

/-- In every state; and when `ws.send` raises on a closed socket and every request is sent in time,
no call is left waiting after the listen loop has ended. -/
theorem request_state_reach (h : Reach (step cfg) Any Initial s) : s.RequestState cfg ∧
    (Reach (step cfg) (fun s a => s.SendRaises a ∧ s.SentInTime a) Initial s → s.Unblocked) := by
  constructor
  · apply (wf_reach h).request_state
    apply h.invariant (I := fun s => s.clashes = [])
    · rintro _ ⟨begun, rfl⟩
      rfl
    · intro s a s' hi _ hs
      rw [step_clashes hs, hi]
  · intro hr
    have ha : s.Attended := by
      apply hr.invariant
      · rintro _ ⟨begun, rfl⟩
        exact Attended.finish { begun := begun }
      · exact fun _ _ _ hi hc hs => step_attended hi hc hs
    exact ha.waiting

/-- A request that waits while the client is closed. -/
def closed_early : List Act := [.send "a" false, .sent, .close, .disconnect]

theorem request_state_reach_closed : ∃ s, exec (step {}) {} closed_early = some s ∧
    s.listening = false ∧ s.holder = some ⟨"a", some 300000⟩ ∧ s.RequestState {} ∧
      s.Unblocked := by
  have h : ((exec (step {}) {} closed_early).any fun s =>
      s.listening = false ∧ s.holder.map (·.deadline) = some (some 300000) ∧
        s.holder.map (·.msg_id) = some "a") = true := by decide
  obtain ⟨s, hs, hval⟩ := (Option.any_eq_true _ _).mp h
  obtain ⟨hcut, hdeadline, hid⟩ := of_decide_eq_true hval
  have hi : Initial {} := ⟨true, rfl⟩
  have hm : Meets (step {}) (fun s a => s.SendRaises a ∧ s.SentInTime a) {} closed_early :=
    ⟨⟨trivial, .inl rfl⟩, ⟨rfl, trivial⟩, ⟨trivial, .inl rfl⟩, ⟨trivial, trivial⟩, trivial⟩
  have hr : Reach (step {}) Any Initial s := reach_of_exec hi hs
  obtain ⟨hstate, hwait⟩ := request_state_reach hr
  refine ⟨s, hs, hcut, ?_, hstate, hwait ((Reach.start hi).exec hm hs)⟩
  obtain ⟨⟨m, d⟩, hc, hm⟩ := Option.map_eq_some_iff.mp hid
  rw [hc] at hdeadline ⊢
  cases hm
  cases hdeadline
  rfl

/-- The answer of the first request has come when `close()` cancels the listen loop. The second one
gets the lock and sends after the end of the loop and before the socket is closed. -/
def stranded : List Act :=
  [.send "a" false, .sent, .frame (.obj [("type", .str "res"), ("ok", .bool false)]), .close,
    .resume, .disconnect, .send "b" false, .sent, .ws_close]

theorem not_request_state_reach : ∃ s, Reach (step {}) SendRaises Initial s ∧
    s.socket_open = false ∧ ¬ s.Unblocked := by
  have h : ((exec (step {}) {} stranded).any fun s =>
      s.listening = false ∧ s.socket_open = false ∧ s.is_pending "b" = true ∧
        s.holder.any fun c => c.msg_id = "b" ∧ c.deadline = some 300000) = true := by decide
  obtain ⟨s, hs, hval⟩ := (Option.any_eq_true _ _).mp h
  obtain ⟨hcut, hshut, hpending, hholder⟩ := of_decide_eq_true hval
  obtain ⟨⟨m, d⟩, hc, hcall⟩ := (Option.any_eq_true _ _).mp hholder
  obtain ⟨rfl, rfl⟩ := of_decide_eq_true hcall
  have hi : Initial {} := ⟨true, rfl⟩
  have hm : Meets (step {}) SendRaises {} stranded :=
    ⟨trivial, rfl, trivial, trivial, trivial, trivial, trivial, rfl, trivial, trivial⟩
  refine ⟨s, (Reach.start hi).exec hm hs, hshut, fun hfree => ?_⟩
  exact hfree hcut "b" 300000 hc (is_pending_iff.mp hpending)

end OpenClawClient

end ClawMux
