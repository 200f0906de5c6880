import ClawMux.Services.Finals
import ClawMux.Services.RequestInvariant

namespace ClawMux
set_option autoImplicit true
open Lib Lib.Text

namespace OpenClawClient

variable {cfg : ClientConfig} {c c' c'' : OpenClawClient}

/-- A request that timed out was sent and is no longer pending. -/
structure TimedOut (c : OpenClawClient) : Prop where
  sent : ∀ k, c.timed_out_msg_id = some k → c.future k ≠ none
  ended : ∀ k, c.timed_out_msg_id = some k → c.pending_future ≠ some k

/-- No request is added and none times out. -/
structure Retained (c c' : OpenClawClient) : Prop where
  timed : ∀ k, c'.timed_out_msg_id = some k → c.timed_out_msg_id = some k
  future : ∀ k, c.future k ≠ none → c'.future k ≠ none
  pending : ∀ k, c'.pending_future = some k → c.pending_future = some k

theorem TimedOut.retained (h : c.TimedOut) (e : Retained c c') : c'.TimedOut :=
  ⟨fun k hk => e.future k (h.sent k (e.timed k hk)),
    fun k hk he => h.ended k (e.timed k hk) (e.pending k he)⟩

theorem Retained.trans (h : Retained c c') (h' : Retained c' c'') : Retained c c'' :=
  ⟨fun k hk => h.timed k (h'.timed k hk), fun k hk => h'.future k (h.future k hk),
    fun k hk => h.pending k (h'.pending k hk)⟩

theorem Retained.same (ht : c'.timed_out_msg_id = c.timed_out_msg_id) (hf : c'.future = c.future)
    (hp : c'.pending_future = c.pending_future) : Retained c c' :=
  ⟨fun _ hk => ht ▸ hk, fun _ hk => hf ▸ hk, fun _ hk => hp ▸ hk⟩

theorem retained_resolve (c : OpenClawClient) : Retained c (c.resolve m x) :=
  ⟨fun _ hk => hk, fun _ hk => defined_resolve hk, fun _ hk => hk⟩

theorem retained_stream (c : OpenClawClient) : Retained c (c.stream run_id text) := by
  rw [OpenClawClient.stream]
  split
  · exact .same rfl rfl rfl
  · exact .same rfl rfl rfl

theorem retained_proactive (c : OpenClawClient) : Retained c (c.proactive cfg text origin) := by
  rw [OpenClawClient.proactive]
  split
  · exact .same rfl rfl rfl
  · exact .same rfl rfl rfl

theorem retained_handle (c : OpenClawClient) (f : GatewayFrame) : Retained c (c.handle cfg f) := by
  cases f with
  | ignored => exact .same rfl rfl rfl
  | rejected id error =>
    simp only [handle, chat_send_rejected]
    split
    · exact ⟨fun _ hk => hk, fun _ hk => hk, fun _ hk => by cases hk⟩
    · exact ⟨fun _ hk => hk, fun _ hk => defined_resolve hk, fun _ hk => by cases hk⟩
  | assistant run_id text =>
    apply Retained.trans _ (retained_stream _)
    exact .same rfl rfl rfl
  | lifecycle_error run_id error =>
    simp only [handle, lifecycle_error]
    split
    · exact retained_resolve c
    · exact .same rfl rfl rfl
  | lifecycle_end run_id =>
    simp only [handle, lifecycle_end]
    split
    · exact .same rfl rfl rfl
    · exact .same rfl rfl rfl
  | chat run_id state text seq payload =>
    simp only [handle, OpenClawClient.chat]
    split
    · exact retained_stream c
    · split
      · exact .same rfl rfl rfl
      · exact .same rfl rfl rfl
  | cron summary => exact retained_proactive c

theorem retained_route (c : OpenClawClient) : Retained c (c.route cfg msg rivals) := by
  have hun : Retained c (route.unsolicited cfg c msg) := by
    have hclear : Retained c (if c.timed_out_msg_id = some msg.msg_id then
        { c with timed_out_msg_id := none } else c) := by
      split
      · exact ⟨(fun _ hk => by cases hk), fun _ hk => hk, fun _ hk => hk⟩
      · exact .same rfl rfl rfl
    rw [route.unsolicited]
    split
    · exact hclear
    · exact hclear.trans (retained_proactive _)
  rw [OpenClawClient.route]
  split
  · split
    · exact retained_resolve c
    · exact hun
  · exact hun

theorem retained_finalize (c : OpenClawClient) : Retained c (c.finalize cfg m) := by
  rw [finalize]
  split
  · apply Retained.trans _ (retained_route _)
    exact .same rfl rfl rfl
  · exact .same rfl rfl rfl

theorem retained_fallback (c : OpenClawClient) : Retained c (c.delayed_fallback f) := by
  rw [delayed_fallback]
  split
  · split
    · exact retained_resolve c
    · exact .same rfl rfl rfl
  · exact .same rfl rfl rfl

theorem retained_disconnected (c : OpenClawClient) : Retained c c.disconnected := by
  rw [disconnected]
  split
  · exact .same rfl rfl rfl
  · apply Retained.trans _ (retained_resolve _)
    exact .same rfl rfl rfl

theorem retained_finish (c : OpenClawClient) : Retained c c.finish :=
  ⟨fun _ hk => hk, fun _ hk => hk, fun _ hk => by cases hk⟩

theorem step_timed_out (h : c.TimedOut) (hw : c.Wf) (hs : c.step cfg a = some c') :
    c'.TimedOut := by
  cases steps_of_step hs with
  | tick | sent _ _ | cleanup _ _ | listen | socket_lost | close | ws_close _ _ =>
    exact h.retained (.same rfl rfl rfl)
  | @send m on_stream hh hf hm =>
    refine ⟨fun k hk => defined_update (h.sent k hk), fun k hk he => ?_⟩
    cases he
    exact h.sent m hk hf
  | shield_raised _ _ | send_failed _ | raised _ _ | cancel _ =>
    exact h.retained (retained_finish c)
  | returned _ _ => exact h.retained ((retained_finish c).trans (.same rfl rfl rfl))
  | @timeout m deadline hh hd =>
    refine ⟨?_, fun _ _ he => by cases he⟩
    rintro _ ⟨⟩
    exact hw.held _ hh
  | frame _ => exact h.retained (retained_handle c _)
  | debounce _ _ => exact h.retained (retained_finalize c)
  | fallback _ _ =>
    apply TimedOut.retained _ (retained_fallback _)
    exact h.retained (.same rfl rfl rfl)
  | disconnect _ _ => exact h.retained (retained_disconnected c)

/-- The buffers hold finals under their own msg_id, each with a running timer. -/
structure Buffered (cfg : ClientConfig) (c : OpenClawClient) : Prop where
  keyed : Finals.Keyed c
  timed : ∀ k, c.aggregator.buffers k ≠ [] → ∃ due,
    c.aggregator.tasks k = some due ∧ due ≤ c.now + cfg.claw_debounce_ms

theorem Buffered.same (h : c.Buffered cfg) (hn : c.now ≤ c'.now)
    (ha : c'.aggregator = c.aggregator) : c'.Buffered cfg := by
  refine ⟨?_, ?_⟩
  · rw [Finals.Keyed, ha]
    exact h.keyed
  · rw [ha]
    intro k hk
    obtain ⟨due, hd, hle⟩ := h.timed k hk
    exact ⟨due, hd, by omega⟩

theorem add_buffers (a : ClawAggregator) (ms t : Nat) (hf : is_final msg = true) (k : String) :
    (a.add_event ms t msg).buffers k =
      if k = msg.msg_id then a.buffers k ++ [msg] else a.buffers k := by
  rw [ClawAggregator.add_event, if_pos hf]
  dsimp only
  split
  · rename_i hk
    rw [hk, Function.update_self]
  · rename_i hk
    rw [Function.update_of_ne hk]

theorem Buffered.add (h : c.Buffered cfg) (hf : is_final msg = true) (hn : c'.now = c.now)
    (ha : c'.aggregator = c.aggregator.add_event cfg.claw_debounce_ms c.now msg) :
    c'.Buffered cfg := by
  refine ⟨?_, ?_⟩
  · intro k x hx
    rw [ha, add_buffers _ _ _ hf] at hx
    split at hx
    · rename_i hk
      rcases List.mem_append.mp hx with hx | hx
      · exact h.keyed k x hx
      · rw [List.mem_singleton.mp hx]
        exact ⟨hf, hk.symm⟩
    · exact h.keyed k x hx
  · intro k hk
    rw [ha, ClawAggregator.add_event, if_pos hf] at hk ⊢
    dsimp only at hk ⊢
    by_cases he : k = msg.msg_id
    · subst he
      exact ⟨_, Function.update_self .., by omega⟩
    · rw [Function.update_of_ne he] at hk ⊢
      obtain ⟨due, hd, hle⟩ := h.timed k hk
      exact ⟨due, hd, by omega⟩

theorem Buffered.pop (h : c.Buffered cfg) (hn : c'.now = c.now)
    (ha : c'.aggregator = c.aggregator.pop m) : c'.Buffered cfg := by
  refine ⟨?_, ?_⟩
  · intro k x hx
    rw [ha] at hx
    rcases pop_buffers c.aggregator m k with he | he
    · exact h.keyed k x (he ▸ hx)
    · rw [he] at hx
      cases hx
  · intro k hk
    rw [ha] at hk ⊢
    have hne : k ≠ m := by
      rintro rfl
      exact hk (Function.update_self ..)
    rw [ClawAggregator.pop] at hk ⊢
    dsimp only at hk ⊢
    rw [Function.update_of_ne hne] at hk ⊢
    obtain ⟨due, hd, hle⟩ := h.timed k hk
    exact ⟨due, hd, by omega⟩

theorem accepts_final (h : Finals.accepts c a = some msg) :
    is_final msg = true ∧ msg.msg_id = c.active_msg_id.getD "proactive" := by
  cases a with
  | frame parsed =>
    rw [Finals.accepts] at h
    split at h
    · exact ⟨Finals.final_message_final h, (final_message_id h).1⟩
    · cases h
  | _ => cases h

theorem step_buffered (h : c.Buffered cfg) (hs : c.step cfg a = some c') : c'.Buffered cfg := by
  have hagg := Finals.step_aggregator hs
  cases a with
  | frame parsed =>
    obtain ⟨hn, ha⟩ := hagg
    cases hm : Finals.accepts c (.frame parsed) with
    | none =>
      rw [hm] at ha
      exact h.same (Nat.le_of_eq hn.symm) ha
    | some msg =>
      rw [hm] at ha
      exact h.add (accepts_final hm).1 hn ha
  | debounce k => exact h.pop hagg.1 hagg.2
  | close =>
    have hnil : ∀ k, c'.aggregator.buffers k = [] := by
      intro k
      rw [hagg]
    refine ⟨fun k x hx => ?_, fun k hk => absurd (hnil k) hk⟩
    rw [hnil] at hx
    cases hx
  | _ => exact h.same hagg.1 hagg.2

/-- What holds of a client in every state. -/
structure Steady (cfg : ClientConfig) (c : OpenClawClient) : Prop where
  wf : c.Wf
  timed_out : c.TimedOut
  buffered : c.Buffered cfg

theorem step_steady (h : c.Steady cfg) (hs : c.step cfg a = some c') : c'.Steady cfg :=
  ⟨wf_step h.wf hs, step_timed_out h.timed_out h.wf hs, step_buffered h.buffered hs⟩

theorem steady_initial (h : Initial c) : c.Steady cfg := by
  refine ⟨wf_initial h, ?_, ?_⟩
  all_goals obtain ⟨begun, rfl⟩ := h
  · exact ⟨(fun _ hk => by cases hk), fun _ hk => by cases hk⟩
  · exact ⟨(fun _ _ hx => by cases hx), fun _ hk => absurd rfl hk⟩

theorem steady_reach (h : Reach (step cfg) Any Initial c) : c.Steady cfg :=
  h.invariant (fun _ => steady_initial) fun _ _ _ hi _ hs => step_steady hi hs

/-- The request is in progress on an open connection. -/
structure Waits (cfg : ClientConfig) (m : String) (c : OpenClawClient) : Prop where
  steady : c.Steady cfg
  live : c.live = some m
  connected : c.connected = true

theorem Waits.active (h : c.Waits cfg m) : c.active_msg_id = some m :=
  h.steady.wf.active.trans (live_eq_some.mp h.live).1

/-- A rejection or an error of the run answers the request by itself. -/
def decides : GatewayFrame → Prop
  | .rejected _ _ => True
  | .lifecycle_error _ _ => True
  | _ => False

/-- The steps that do not end the request. -/
def Undecided (m : String) (c : OpenClawClient) : Act → Prop
  | .frame parsed => ¬ decides (GatewayFrame.view parsed)
  | .fallback i => ∀ f, c.fallbacks[i]? = some f → f.msg_id ≠ m
  | .debounce k => k ≠ m
  | .tick _ | .send _ _ | .sent | .cleanup _ | .listen | .socket_lost | .ws_close => True
  | .send_failed | .resume | .timeout | .cancel | .disconnect | .close => False

theorem handle_future (hd : ¬ decides f) : (c.handle cfg f).future = c.future := by
  cases f with
  | ignored => rfl
  | rejected id error => exact absurd trivial hd
  | assistant run_id text => exact (same_stream _).future
  | lifecycle_error run_id error => exact absurd trivial hd
  | lifecycle_end run_id =>
    simp only [handle, lifecycle_end]
    split
    · rfl
    · rfl
  | chat run_id state text seq payload =>
    simp only [handle, OpenClawClient.chat]
    split
    · exact (same_stream _).future
    · split
      · rfl
      · rfl
  | cron summary => exact (same_proactive _).future

/-- A fallback of another request does nothing. -/
theorem delayed_fallback_other (h : c.Wf) (hl : c.live = some m) (hf : f.msg_id ≠ m) :
    c.delayed_fallback f = c := by
  rw [delayed_fallback, hl]
  dsimp only
  rw [h.pending, (live_eq_some.mp hl).1, if_neg]
  exact fun he => hf (Option.some.inj he).symm

theorem waits_step (h : c.Waits cfg m) (hu : c.Undecided m a) (hs : c.step cfg a = some c') :
    c'.Waits cfg m := by
  obtain ⟨hp, hf⟩ := live_eq_some.mp h.live
  have hsteady : c'.Steady cfg := step_steady h.steady hs
  -- what handles the step keeps the future of the request if it leaves it pending
  have hkept : Handled c c' → c'.future m = some .pending → c'.Waits cfg m := fun e hm =>
    ⟨hsteady, live_eq_some.mpr ⟨e.owned m hm hp, hm⟩, e.connected.trans h.connected⟩
  obtain ⟨d, hd⟩ := h.steady.wf.request m hp
  cases steps_of_step hs with
  | tick | cleanup _ _ | listen | socket_lost | ws_close _ _ =>
    exact ⟨hsteady, h.live, h.connected⟩
  | send hh _ _ =>
    rw [hh] at hd
    cases hd
  | shield_raised _ hn =>
    rw [hn] at hp
    cases hp
  | sent _ _ => exact ⟨hsteady, h.live, h.connected⟩
  | frame _ => exact hkept (handled_frame _) ((congrFun (handle_future hu) m).trans hf)
  | debounce _ _ =>
    exact hkept handled_finalize ((finalize_future h.steady.wf (Ne.symm hu)).trans hf)
  | @fallback i f hi _ =>
    have hwf : { c with fallbacks := c.fallbacks.eraseIdx i }.Wf :=
      ⟨h.steady.wf.active, h.steady.wf.pending, h.steady.wf.request, h.steady.wf.stream,
        h.steady.wf.held, h.steady.wf.unused, h.steady.wf.keyed, h.steady.wf.buffers,
        fun f hm => h.steady.wf.fallbacks f (List.mem_of_mem_eraseIdx hm)⟩
    have he : { c with fallbacks := c.fallbacks.eraseIdx i }.delayed_fallback f =
        { c with fallbacks := c.fallbacks.eraseIdx i } :=
      delayed_fallback_other hwf h.live (hu f hi)
    rw [he] at hsteady ⊢
    exact ⟨hsteady, h.live, h.connected⟩
  | _ => exact absurd hu fun hu => hu

/-- What is buffered for the request grows by the finals that are accepted. -/
theorem buffers_step (h : c.Waits cfg m) (hu : c.Undecided m a) (hs : c.step cfg a = some c') :
    c'.aggregator.buffers m = c.aggregator.buffers m ++ (Finals.accepts c a).toList := by
  have hagg := Finals.step_aggregator hs
  cases a with
  | frame parsed =>
    rw [hagg.2]
    cases ha : Finals.accepts c (.frame parsed) with
    | none => exact (List.append_nil _).symm
    | some msg =>
      obtain ⟨hf, hid⟩ := accepts_final ha
      rw [h.active] at hid
      exact (add_buffers _ _ _ hf m).trans (if_pos hid.symm)
  | debounce k =>
    rw [hagg.2]
    exact (Function.update_of_ne (Ne.symm hu) ..).trans (List.append_nil _).symm
  | tick ms | send k b | sent | cleanup i | fallback i | listen | socket_lost | ws_close =>
    rw [hagg.2]
    exact (List.append_nil _).symm
  | _ => exact absurd hu fun hu => hu

/-- The message that is selected answers the request. -/
theorem finalize_answers (h : c.Waits cfg m)
    (hsel : select_best cfg.py cfg.claw_min_valid_text_len (c.aggregator.buffers m) =
      .ok (some best)) :
    (c.finalize cfg m).connected = true ∧
      ∃ reply, (c.finalize cfg m).future m = some (.result reply) ∧
        reply.text = .str best.text ∧ reply.media_paths = best.media_paths := by
  obtain ⟨hp, hf⟩ := live_eq_some.mp h.live
  have hid : best.msg_id = m := h.steady.wf.keyed m best (select_best_mem hsel).1
  have htimed : c.timed_out_msg_id ≠ some m := fun he => h.steady.timed_out.ended m he hp
  have hlive : live { c with aggregator := c.aggregator.pop m } = some m := h.live
  refine ⟨handled_finalize.connected.trans h.connected, ?_⟩
  simp only [finalize, hsel, OpenClawClient.route, hlive]
  rw [if_pos]
  · exact ⟨_, resolve_live hlive, rfl, rfl⟩
  · rw [h.steady.wf.pending, hp, hid]
    exact ⟨rfl, htimed⟩

/-- The request stays pending when none is selected. -/
theorem finalize_silent (h : c.Waits cfg m)
    (hsel : ∀ best, select_best cfg.py cfg.claw_min_valid_text_len (c.aggregator.buffers m) ≠
      .ok (some best)) :
    (c.finalize cfg m).future m = some .pending := by
  rw [finalize]
  split
  · rename_i best hbest
    exact absurd hbest (hsel best)
  · exact (live_eq_some.mp h.live).2

end OpenClawClient

/-- A client with what is recorded of the finals that arrive for a request before its debounce
window closes. -/
structure RequestWindow where
  client : OpenClawClient
  finals : List ClawMessage := []
  closed : Bool := false

namespace RequestWindow
open OpenClawClient (Act)

/-- The call or the connection ends. -/
def ends : Act → Bool
  | .send_failed | .resume | .timeout | .cancel | .disconnect | .close => true
  | _ => false

def closes (m : String) : Act → Bool
  | .debounce k => k = m
  | _ => false

def step (cfg : ClientConfig) (m : String) (record : OpenClawClient → Act → Option ClawMessage)
    (s : RequestWindow) (a : Act) : Option RequestWindow :=
  if s.closed || ends a then none
  else
    match s.client.step cfg a with
    | some c =>
      some {
        client := c
        finals := s.finals ++ (record s.client a).toList
        closed := closes m a }
    | none => none

/-- A reachable client on which the request is pending and has nothing buffered yet. -/
structure Initial (cfg : ClientConfig) (m : String) (s : RequestWindow) : Prop where
  client : Reach (OpenClawClient.step cfg) Any OpenClawClient.Initial s.client
  live : s.client.live = some m
  connected : s.client.connected = true
  buffers : s.client.aggregator.buffers m = []
  finals : s.finals = []
  closed : s.closed = false

variable {cfg : ClientConfig} {s s' : RequestWindow}
  {record : OpenClawClient → Act → Option ClawMessage}

theorem Initial.waits (h : Initial cfg m s) : s.client.Waits cfg m :=
  ⟨OpenClawClient.steady_reach h.client, h.live, h.connected⟩

/-- The window is open before a step, and only its own timer closes it. -/
theorem step_cases (hs : s.step cfg m record a = some s') : s.closed = false ∧ ends a = false ∧
    ∃ c, s.client.step cfg a = some c ∧
      s' = ⟨c, s.finals ++ (record s.client a).toList, closes m a⟩ := by
  rw [step] at hs
  split at hs
  · cases hs
  · rename_i hopen
    obtain ⟨hclosed, hends⟩ := Bool.or_eq_false_iff.mp (Bool.eq_false_iff.mpr hopen)
    split at hs
    · rename_i c hc
      cases hs
      exact ⟨hclosed, hends, c, hc, rfl⟩
    · cases hs

theorem closes_eq (h : closes m a = true) : a = .debounce m := by
  cases a with
  | debounce k => rw [of_decide_eq_true h]
  | _ => cases h

/-- A request that has been sent. -/
def asked : OpenClawClient where
  active_msg_id := some "a"
  pending_future := some "a"
  pending_future_msg_id := some "a"
  holder := some ⟨"a", some 300000⟩
  future := Function.update (fun _ => none) "a" (some .pending)
  opened := true

theorem initial_asked : Initial {} "a" { client := asked } := by
  have hs : exec (OpenClawClient.step {}) {} [.send "a" false, .sent] = some asked := rfl
  exact ⟨reach_of_exec ⟨true, rfl⟩ hs, rfl, rfl, rfl, rfl, rfl⟩

end RequestWindow

end ClawMux
