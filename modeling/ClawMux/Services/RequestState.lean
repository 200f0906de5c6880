import ClawMux.Services.OpenClawClient

namespace ClawMux
set_option autoImplicit true
open Lib

namespace OpenClawClient

variable {cfg : ClientConfig} {s s' : OpenClawClient}

/-- All that a step can do, and in which state. -/
inductive Steps (cfg : ClientConfig) (s : OpenClawClient) : Act → OpenClawClient → Prop
  | tick : Steps cfg s (.tick ms) { s with now := s.now + ms }
  | send (hh : s.holder = none) (hf : s.future m = none) (hm : m ≠ "proactive") :
    Steps cfg s (.send m on_stream) { s with
      holder := some ⟨m, none⟩
      active_msg_id := some m
      pending_future := some m
      pending_future_msg_id := some m
      active_on_stream := if on_stream then some m else none
      future := Function.update s.future m (some .pending)
      opened := s.socket_open }
  | shield_raised (hh : s.holder = some ⟨m, none⟩) (hp : s.pending_future = none) :
    Steps cfg s .sent s.finish
  | sent (hh : s.holder = some ⟨m, none⟩) (hp : s.pending_future ≠ none) :
    Steps cfg s .sent
      { s with holder := some ⟨m, some (s.now + cfg.openclaw_receive_timeout)⟩ }
  | send_failed (hh : s.holder = some ⟨m, none⟩) : Steps cfg s .send_failed s.finish
  | returned (hh : s.holder = some ⟨m, some deadline⟩) (hf : s.future m = some (.result reply)) :
    Steps cfg s .resume (s.finish.output (.returned m reply))
  | raised (hh : s.holder = some ⟨m, some deadline⟩) (hf : s.future m = some .failed) :
    Steps cfg s .resume s.finish
  | timeout (hh : s.holder = some ⟨m, some deadline⟩) (hd : deadline ≤ s.now) :
    Steps cfg s .timeout ({ s with timed_out_msg_id := some m }.finish.output
      (.returned m { text := .str timeout_text }))
  | cancel (hh : s.holder = some c) : Steps cfg s .cancel s.finish
  | frame (hc : s.connected = true) : Steps cfg s (.frame parsed) (s.dispatch cfg parsed)
  | debounce (ht : s.aggregator.tasks m = some due) (hd : due ≤ s.now) :
    Steps cfg s (.debounce m) (s.finalize cfg m)
  | fallback (hf : s.fallbacks[i]? = some f) (hd : f.due ≤ s.now) :
    Steps cfg s (.fallback i) (delayed_fallback { s with fallbacks := s.fallbacks.eraseIdx i } f)
  | cleanup (hc : s.cleanups[i]? = some (due, run_id)) (hd : due ≤ s.now) :
    Steps cfg s (.cleanup i) { s with
      cleanups := s.cleanups.eraseIdx i
      agent_texts := Function.update s.agent_texts run_id none }
  | listen : Steps cfg s .listen { s with begun := true }
  | socket_lost : Steps cfg s .socket_lost { s with socket_open := false }
  | disconnect (hl : s.listening = true) (hc : s.connected = false ∨ s.socket_open = false) :
    Steps cfg s .disconnect s.disconnected
  | close : Steps cfg s .close { s with
      connected := false
      listening := s.listening && s.begun
      closing := true
      aggregator := {}
      agent_texts := fun _ => none }
  | ws_close (hc : s.closing = true) (hl : s.listening = false) :
    Steps cfg s .ws_close { s with socket_open := false }

theorem steps_of_step (hs : s.step cfg a = some s') : s.Steps cfg a s' := by
  cases a with
  | tick ms =>
    cases hs
    exact .tick
  | send m on_stream =>
    simp only [step] at hs
    split at hs
    · rename_i hh hf
      split at hs
      · cases hs
      · rename_i hm
        cases hs
        exact .send hh hf hm
    · cases hs
  | sent =>
    simp only [step] at hs
    split at hs
    · rename_i hh
      split at hs
      · rename_i hp
        cases hs
        exact .shield_raised hh hp
      · rename_i hp
        cases hs
        exact .sent hh hp
    · cases hs
  | send_failed =>
    simp only [step] at hs
    split at hs
    · rename_i hh
      cases hs
      exact .send_failed hh
    · cases hs
  | resume =>
    simp only [step] at hs
    split at hs
    · rename_i hh
      split at hs
      · rename_i hf
        cases hs
        exact .returned hh hf
      · rename_i hf
        cases hs
        exact .raised hh hf
      · cases hs
    · cases hs
  | timeout =>
    simp only [step] at hs
    split at hs
    · rename_i hh
      split at hs
      · rename_i hd
        cases hs
        exact .timeout hh hd
      · cases hs
    · cases hs
  | cancel =>
    simp only [step] at hs
    split at hs
    · rename_i hh
      cases hs
      exact .cancel hh
    · cases hs
  | frame parsed =>
    simp only [step] at hs
    split at hs
    · rename_i hc
      cases hs
      exact .frame (Bool.and_eq_true_iff.mp hc).1
    · cases hs
  | debounce m =>
    simp only [step] at hs
    split at hs
    · rename_i ht
      split at hs
      · rename_i hd
        cases hs
        exact .debounce ht hd
      · cases hs
    · cases hs
  | fallback i =>
    simp only [step] at hs
    split at hs
    · rename_i hf
      split at hs
      · rename_i hd
        cases hs
        exact .fallback hf hd
      · cases hs
    · cases hs
  | cleanup i =>
    simp only [step] at hs
    split at hs
    · rename_i hc
      split at hs
      · rename_i hd
        cases hs
        exact .cleanup hc hd
      · cases hs
    · cases hs
  | listen =>
    simp only [step] at hs
    split at hs
    · cases hs
      exact .listen
    · cases hs
  | socket_lost =>
    cases hs
    exact .socket_lost
  | disconnect =>
    simp only [step] at hs
    split at hs
    · rename_i hc
      cases hs
      obtain ⟨hl, hc⟩ := Bool.and_eq_true_iff.mp hc
      rw [Bool.not_eq_true', Bool.and_eq_false_iff] at hc
      exact .disconnect (Bool.and_eq_true_iff.mp hl).1 hc
    · cases hs
  | close =>
    cases hs
    exact .close
  | ws_close =>
    simp only [step] at hs
    split at hs
    · rename_i hc
      cases hs
      obtain ⟨hc, hl⟩ := Bool.and_eq_true_iff.mp hc
      exact .ws_close hc ((Bool.not_eq_true' _).mp hl)
    · cases hs

/-- The three fields of the pending request agree and belong to the holder of `_send_lock`, and
whatever is kept for a request is kept for one that has been sent. -/
structure Wf (s : OpenClawClient) : Prop where
  active : s.active_msg_id = s.pending_future
  pending : s.pending_future_msg_id = s.pending_future
  request : ∀ m, s.pending_future = some m → ∃ d, s.holder = some ⟨m, d⟩
  stream : ∀ m, s.active_on_stream = some m → ∃ d, s.holder = some ⟨m, d⟩
  held : ∀ c, s.holder = some c → s.future c.msg_id ≠ none
  unused : s.future "proactive" = none
  keyed : ∀ k, ∀ msg ∈ s.aggregator.buffers k, msg.msg_id = k
  buffers : ∀ k, s.aggregator.buffers k ≠ [] → k ≠ "proactive" → s.future k ≠ none
  fallbacks : ∀ f ∈ s.fallbacks, s.future f.msg_id ≠ none

theorem live_eq_some :
    s.live = some m ↔ s.pending_future = some m ∧ s.future m = some .pending := by
  unfold live
  cases hp : s.pending_future with
  | none => simp
  | some n =>
    simp only [Option.some.injEq]
    constructor
    · intro h
      split at h
      · rename_i hf
        cases h
        exact ⟨rfl, hf⟩
      · cases h
    · rintro ⟨rfl, hf⟩
      simp only [hf]

theorem Wf.live_msg_id (hw : s.Wf) (hl : s.live = some m)
    (hid : s.pending_future_msg_id = some k) : m = k := by
  rw [hw.pending] at hid
  exact Option.some.inj ((live_eq_some.mp hl).1.symm.trans hid)

theorem is_pending_iff : s.is_pending m = true ↔ s.future m = some .pending := by
  rw [is_pending]
  split
  · rename_i h
    exact ⟨fun _ => h, fun _ => rfl⟩
  · rename_i h
    exact ⟨(fun he => by cases he), fun he => absurd he h⟩

/-- Only a pending future is resolved. -/
theorem resolve_future (s : OpenClawClient) (m k : String) (x : Future) :
    (s.resolve m x).future k = s.future k ∨
      k = m ∧ s.future m = some .pending ∧ (s.resolve m x).future k = some x := by
  simp only [resolve]
  split
  · rename_i hp
    by_cases he : k = m
    · subst he
      exact .inr ⟨rfl, is_pending_iff.mp hp, Function.update_self ..⟩
    · exact .inl (Function.update_of_ne he ..)
  · exact .inl rfl

/-- The fields that `Wf` is about. -/
structure SameRequest (s s' : OpenClawClient) : Prop where
  active : s'.active_msg_id = s.active_msg_id
  pending : s'.pending_future = s.pending_future
  pending_msg : s'.pending_future_msg_id = s.pending_future_msg_id
  stream : s'.active_on_stream = s.active_on_stream
  holder : s'.holder = s.holder
  future : s'.future = s.future
  buffers : ∀ k, s'.aggregator.buffers k = s.aggregator.buffers k ∨ s'.aggregator.buffers k = []
  fallbacks : s'.fallbacks = s.fallbacks

theorem Wf.same (h : s.Wf) (e : SameRequest s s') : s'.Wf where
  active := by rw [e.active, e.pending, h.active]
  pending := by rw [e.pending_msg, e.pending, h.pending]
  request := by
    rw [e.pending, e.holder]
    exact h.request
  stream := by
    rw [e.stream, e.holder]
    exact h.stream
  held := by
    rw [e.holder, e.future]
    exact h.held
  unused := by
    rw [e.future]
    exact h.unused
  keyed k msg hmsg := by
    rcases e.buffers k with he | he
    · exact h.keyed k msg (he ▸ hmsg)
    · rw [he] at hmsg
      cases hmsg
  buffers := by
    rw [e.future]
    intro k hk
    rcases e.buffers k with he | he
    · exact h.buffers k (he ▸ hk)
    · exact absurd he hk
  fallbacks := by
    rw [e.fallbacks, e.future]
    exact h.fallbacks

theorem same_output (s : OpenClawClient) (o : Output) : SameRequest s (s.output o) :=
  ⟨rfl, rfl, rfl, rfl, rfl, rfl, fun _ => .inl rfl, rfl⟩

theorem same_stream (s : OpenClawClient) : SameRequest s (s.stream run_id text) := by
  unfold OpenClawClient.stream
  split
  · exact ⟨rfl, rfl, rfl, rfl, rfl, rfl, fun _ => .inl rfl, rfl⟩
  · exact s.same_output _

theorem same_proactive (s : OpenClawClient) : SameRequest s (s.proactive cfg text origin) := by
  unfold OpenClawClient.proactive
  split
  · exact s.same_output _
  · exact ⟨rfl, rfl, rfl, rfl, rfl, rfl, fun _ => .inl rfl, rfl⟩

theorem same_unsolicited (s : OpenClawClient) (msg : ClawMessage) :
    SameRequest s (route.unsolicited cfg s msg) := by
  unfold route.unsolicited OpenClawClient.proactive
  dsimp only
  split <;> split <;>
    first
    | exact ⟨rfl, rfl, rfl, rfl, rfl, rfl, fun _ => .inl rfl, rfl⟩
    | (split <;> exact ⟨rfl, rfl, rfl, rfl, rfl, rfl, fun _ => .inl rfl, rfl⟩)

theorem Wf.ne_proactive (h : s.Wf) (hm : s.future m ≠ none) : m ≠ "proactive" := by
  rintro rfl
  exact hm h.unused

theorem defined_update {x : Future} (hk : s.future k ≠ none) :
    Function.update s.future m (some x) k ≠ none := by
  by_cases he : k = m
  · subst he
    simp
  · rwa [Function.update_of_ne he]

theorem defined_resolve {x : Future} (hk : s.future k ≠ none) :
    (s.resolve m x).future k ≠ none := by
  rcases s.resolve_future m k x with he | ⟨-, -, he⟩
  · rwa [he]
  · rw [he]
    exact fun h => by cases h

theorem Wf.resolve (h : s.Wf) (hm : s.future m ≠ none) : (s.resolve m x).Wf where
  active := h.active
  pending := h.pending
  request := h.request
  stream := h.stream
  held c hc := defined_resolve (h.held c hc)
  unused := by
    rcases s.resolve_future m "proactive" x with he | ⟨rfl, -, -⟩
    · rw [he, h.unused]
    · exact absurd h.unused hm
  keyed := h.keyed
  buffers k hk hp := defined_resolve (h.buffers k hk hp)
  fallbacks f hf := defined_resolve (h.fallbacks f hf)

theorem Wf.finish (h : s.Wf) : s.finish.Wf where
  active := rfl
  pending := rfl
  request _ hm := by cases hm
  stream _ hm := by cases hm
  held _ hc := by cases hc
  unused := h.unused
  keyed := h.keyed
  buffers := h.buffers
  fallbacks := h.fallbacks

theorem future_of_live (h : s.live = some m) : s.future m ≠ none := by
  rw [(live_eq_some.mp h).2]
  exact fun he => by cases he

theorem wf_chat_send_rejected {id : Json} (h : s.Wf) : (s.chat_send_rejected cfg id error).Wf := by
  have hdrop : ∀ {t : OpenClawClient}, t.Wf →
      { t with active_msg_id := none, pending_future := none, pending_future_msg_id := none }.Wf :=
    fun ht => ⟨rfl, rfl, (fun _ hm => by cases hm), ht.stream, ht.held, ht.unused, ht.keyed,
      ht.buffers, ht.fallbacks⟩
  unfold chat_send_rejected
  split
  · exact hdrop h
  · rename_i m hm
    exact hdrop (h.resolve (future_of_live hm))

theorem wf_lifecycle_end (h : s.Wf) : (s.lifecycle_end run_id).Wf := by
  unfold lifecycle_end
  split
  · rename_i m text n ha ht hl
    have hm : m = n := by
      have hp := (live_eq_some.mp hl).1
      rw [← h.active, ha] at hp
      exact Option.some.inj hp
    subst hm
    refine ⟨h.active, h.pending, h.request, h.stream, h.held, h.unused, h.keyed, h.buffers, ?_⟩
    intro f hf
    rcases List.mem_append.mp hf with hf | hf
    · exact h.fallbacks f hf
    · rw [List.mem_singleton.mp hf]
      exact future_of_live hl
  · exact h

theorem final_message_id (h : s.final_message run_id state text seq payload = some msg) :
    msg.msg_id = s.active_msg_id.getD "proactive" ∧ msg.run_id = run_id := by
  unfold final_message at h
  split at h
  · obtain ⟨_, -, rfl⟩ := Option.map_eq_some_iff.mp h
    exact ⟨rfl, rfl⟩
  · cases h

theorem add_event_buffers (a : ClawAggregator) (ms t : Nat) (msg : ClawMessage) (k : String) :
    (a.add_event ms t msg).buffers k = a.buffers k ∨
      k = msg.msg_id ∧ (a.add_event ms t msg).buffers k = a.buffers k ++ [msg] := by
  unfold ClawAggregator.add_event
  split
  · by_cases hk : k = msg.msg_id
    · subst hk
      exact .inr ⟨rfl, Function.update_self ..⟩
    · exact .inl (Function.update_of_ne hk ..)
  · exact .inl rfl

theorem Wf.future_active (h : s.Wf) (ha : s.active_msg_id = some m) : s.future m ≠ none := by
  obtain ⟨d, hd⟩ := h.request m (h.active ▸ ha)
  exact h.held _ hd

theorem wf_chat (h : s.Wf) : (s.chat cfg run_id state text seq payload).Wf := by
  unfold OpenClawClient.chat
  split
  · exact h.same s.same_stream
  · split
    · exact h
    · rename_i msg hmsg
      refine ⟨h.active, h.pending, h.request, h.stream, h.held, h.unused, ?_, ?_, h.fallbacks⟩
      · intro k x hx
        rcases add_event_buffers s.aggregator cfg.claw_debounce_ms s.now msg k with he | ⟨hk, he⟩
        · exact h.keyed k x (he ▸ hx)
        · rcases List.mem_append.mp (he ▸ hx) with hx | hx
          · exact h.keyed k x hx
          · rw [List.mem_singleton.mp hx, hk]
      intro k hk hp
      rcases add_event_buffers s.aggregator cfg.claw_debounce_ms s.now msg k with he | ⟨rfl, -⟩
      · exact h.buffers k (he ▸ hk) hp
      · rw [(final_message_id hmsg).1] at hp ⊢
        cases ha : s.active_msg_id with
        | none =>
          rw [ha] at hp
          exact absurd rfl hp
        | some m => exact h.future_active ha

theorem wf_handle (h : s.Wf) (f : GatewayFrame) : (s.handle cfg f).Wf := by
  cases f with
  | ignored => exact h
  | rejected id error => exact wf_chat_send_rejected h
  | assistant run_id text =>
    have hkept : { s with
        agent_texts := Function.update s.agent_texts run_id (some text) }.Wf :=
      h.same ⟨rfl, rfl, rfl, rfl, rfl, rfl, fun _ => .inl rfl, rfl⟩
    exact hkept.same (same_stream _)
  | lifecycle_error run_id error =>
    simp only [handle, lifecycle_error]
    split
    · rename_i hl
      exact h.resolve (future_of_live hl)
    · exact h
  | lifecycle_end run_id => exact wf_lifecycle_end h
  | chat run_id state text seq payload => exact wf_chat h
  | cron summary => exact h.same s.same_proactive

theorem wf_route (h : s.Wf) : (s.route cfg msg rivals).Wf := by
  unfold OpenClawClient.route
  split
  · rename_i hl
    split
    · exact h.resolve (future_of_live hl)
    · exact h.same (same_unsolicited s msg)
  · exact h.same (same_unsolicited s msg)

theorem pop_buffers (a : ClawAggregator) (m k : String) :
    (a.pop m).buffers k = a.buffers k ∨ (a.pop m).buffers k = [] := by
  by_cases hk : k = m
  · subst hk
    exact .inr (Function.update_self ..)
  · exact .inl (Function.update_of_ne hk ..)

theorem wf_finalize (h : s.Wf) : (s.finalize cfg m).Wf := by
  have hpop : { s with aggregator := s.aggregator.pop m }.Wf :=
    h.same ⟨rfl, rfl, rfl, rfl, rfl, rfl, pop_buffers _ m, rfl⟩
  simp only [finalize]
  split
  · exact wf_route hpop
  · exact hpop

theorem wf_delayed_fallback (h : s.Wf) : (s.delayed_fallback f).Wf := by
  unfold delayed_fallback
  split
  · rename_i hl
    split
    · exact h.resolve (future_of_live hl)
    · exact h
  · exact h

theorem wf_disconnected (h : s.Wf) : s.disconnected.Wf := by
  have hcut : { s with connected := false, listening := false, agent_texts := fun _ => none }.Wf :=
    h.same ⟨rfl, rfl, rfl, rfl, rfl, rfl, fun _ => .inl rfl, rfl⟩
  unfold disconnected
  dsimp only
  split
  · exact hcut
  · rename_i hl
    exact hcut.resolve (future_of_live hl)

theorem wf_step (h : s.Wf) (hs : s.step cfg a = some s') : s'.Wf := by
  cases steps_of_step hs with
  | tick => exact h.same ⟨rfl, rfl, rfl, rfl, rfl, rfl, fun _ => .inl rfl, rfl⟩
  | @send m on_stream hh hf hm =>
    have hdef : ∀ k, s.future k ≠ none →
        Function.update s.future m (some .pending) k ≠ none := fun k hk => defined_update hk
    refine ⟨rfl, rfl, ?_, ?_, ?_, ?_, h.keyed, ?_, ?_⟩
    · rintro _ ⟨⟩
      exact ⟨none, rfl⟩
    · intro k hk
      dsimp only at hk
      split at hk
      · cases hk
        exact ⟨none, rfl⟩
      · cases hk
    · rintro _ ⟨⟩
      simp
    · dsimp only
      rw [Function.update_of_ne (Ne.symm hm)]
      exact h.unused
    · exact fun k hk hne => hdef k (h.buffers k hk hne)
    · exact fun f hm => hdef _ (h.fallbacks f hm)
  | shield_raised hh hp | send_failed hh | cancel hh | raised hh hf => exact h.finish
  | @sent m hh hp =>
    refine ⟨h.active, h.pending, ?_, ?_, ?_, h.unused, h.keyed, h.buffers, h.fallbacks⟩
    · intro k hk
      obtain ⟨d, hd⟩ := h.request k hk
      rw [hh] at hd
      cases hd
      exact ⟨_, rfl⟩
    · intro k hk
      obtain ⟨d, hd⟩ := h.stream k hk
      rw [hh] at hd
      cases hd
      exact ⟨_, rfl⟩
    · rintro _ ⟨⟩
      exact h.held ⟨m, none⟩ hh
  | returned hh hf => exact h.finish.same (same_output _ _)
  | timeout hh hd =>
    have ht : ∀ m, { s with timed_out_msg_id := m }.Wf := fun m =>
      h.same ⟨rfl, rfl, rfl, rfl, rfl, rfl, fun _ => .inl rfl, rfl⟩
    exact (ht _).finish.same (same_output _ _)
  | frame hc => exact wf_handle h _
  | debounce ht hd => exact wf_finalize h
  | fallback hf hd =>
    apply wf_delayed_fallback
    exact ⟨h.active, h.pending, h.request, h.stream, h.held, h.unused, h.keyed, h.buffers,
      fun f hf => h.fallbacks f (List.mem_of_mem_eraseIdx hf)⟩
  | cleanup hc hd => exact h.same ⟨rfl, rfl, rfl, rfl, rfl, rfl, fun _ => .inl rfl, rfl⟩
  | disconnect hl hc => exact wf_disconnected h
  | close => exact h.same ⟨rfl, rfl, rfl, rfl, rfl, rfl, fun _ => .inr rfl, rfl⟩
  | listen | socket_lost | ws_close =>
    exact h.same ⟨rfl, rfl, rfl, rfl, rfl, rfl, fun _ => .inl rfl, rfl⟩

theorem wf_initial (h : Initial s) : s.Wf := by
  obtain ⟨begun, rfl⟩ := h
  exact ⟨rfl, rfl, (fun _ hm => by cases hm), (fun _ hm => by cases hm),
    (fun _ hc => by cases hc), rfl, (fun _ _ hm => by cases hm),
    (fun _ hk => absurd rfl hk), (fun _ hf => by cases hf)⟩

/-- The request state is consistent in every reachable state. -/
theorem wf_reach {C : OpenClawClient → Act → Prop} (h : Reach (step cfg) C Initial s) : s.Wf :=
  h.invariant (fun _ hi => wf_initial hi) fun _ _ _ hw _ hs => wf_step hw hs

end OpenClawClient

end ClawMux
