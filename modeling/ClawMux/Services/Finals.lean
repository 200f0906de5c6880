import ClawMux.Services.Correlation

namespace ClawMux
set_option autoImplicit true
open Lib Lib.Text

def nonblank (m : ClawMessage) : Bool := strip m.text ≠ ""

/-- The non-blank finals of one msg_id. -/
def nonblank_of (k : String) (m : ClawMessage) : Bool := m.msg_id = k && nonblank m

/-- Every message that could be selected is blank when none is. -/
theorem select_best_none {py : Dynamics} (h : select_best py n messages = .ok none)
    (hm : m ∈ messages) (hf : is_final m = true) : nonblank m = false := by
  have hmap : ∀ {x : Except Unit ClawMessage}, x.map some ≠ .ok none := by
    intro x hx
    cases x <;> cases hx
  simp only [select_best] at h
  split at h
  · exact absurd h hmap
  · split at h
    · exact absurd h hmap
    · rename_i hl
      have hout : m ∉ (messages.filter is_final).filter
          fun m => m.text ≠ "" && strip m.text ≠ "" := by
        rw [hl]
        exact List.not_mem_nil
      have hfin : m ∈ messages.filter is_final := List.mem_filter.mpr ⟨hm, hf⟩
      cases hb : nonblank m with
      | false => rfl
      | true =>
        have hne : m.text ≠ "" := by
          rintro he
          rw [nonblank, he] at hb
          exact absurd hb (by decide)
        refine absurd (List.mem_filter.mpr ⟨hfin, ?_⟩) hout
        simp only [Bool.and_eq_true, decide_eq_true_eq]
        exact ⟨hne, of_decide_eq_true hb⟩

/-- The callers of `client.close()`. -/
inductive Closer
  | send_message
  | get_or_create
  | guardian
  | close_connection
  | close_all
  deriving DecidableEq

/-- A client with the finals that its aggregator accepted, and the finals that were routed, each
with the buffer it was selected from. -/
structure Finals where
  client : OpenClawClient := {}
  accepted : List ClawMessage := []
  routed : List (ClawMessage × List ClawMessage) := []
  shutting_down : Bool := false

namespace Finals
open OpenClawClient (final_frame)

variable (cfg : ClientConfig)

/-- The final that a frame hands to `add_event`. -/
def accepts (s : OpenClawClient) : OpenClawClient.Act → Option ClawMessage
  | .frame parsed =>
    match GatewayFrame.view parsed with
    | .chat run_id state text seq payload => s.final_message run_id state text seq payload
    | _ => none
  | _ => none

/-- The final that a debounce timer hands to `_route_aggregated_message`. -/
def routes (s : OpenClawClient) : OpenClawClient.Act → Option (ClawMessage × List ClawMessage)
  | .debounce k =>
    match select_best cfg.py cfg.claw_min_valid_text_len (s.aggregator.buffers k) with
    | .ok (some msg) => some (msg, s.aggregator.buffers k)
    | _ => none
  | _ => none

inductive Act
  | client (a : OpenClawClient.Act)
  | close (caller : Closer)

def step (s : Finals) : Act → Option Finals
  | .client .close => none
  | .client a =>
    match s.client.step cfg a with
    | some c =>
      some { s with
        client := c
        accepted := s.accepted ++ (accepts s.client a).toList
        routed := s.routed ++ (routes cfg s.client a).toList }
    | none => none
  | .close caller =>
    match s.client.step cfg .close with
    | some c =>
      some { s with client := c, shutting_down := s.shutting_down || caller = .close_all }
    | none => none

def Initial (s : Finals) : Prop := ∃ begun, s = { client := { begun := begun } }

/-- Every accepted final that is not blank is in a buffer with a running timer, or in one from
which the best final was routed. -/
structure Accounted (s : Finals) : Prop where
  whole : ∀ k, s.accepted.filter (nonblank_of k) =
    (s.routed.flatMap (·.2)).filter (nonblank_of k) ++
      (s.client.aggregator.buffers k).filter nonblank
  superseded : ∀ r ∈ s.routed,
    select_best cfg.py cfg.claw_min_valid_text_len r.2 = .ok (some r.1) ∧
      ∀ m ∈ r.2, m.msg_id = r.1.msg_id
  timed : ∀ k, s.client.aggregator.buffers k ≠ [] → ∃ due,
    s.client.aggregator.tasks k = some due ∧ due ≤ s.client.now + cfg.claw_debounce_ms

def Kept (s : Finals) : Prop := s.shutting_down = true ∨ s.Accounted cfg

/-- A client is closed only while nothing that is not blank is buffered, and `max` can compare
the finals of a buffer whose timer fires. -/
def Settled (s : Finals) : Act → Prop
  | .close caller =>
    caller ≠ .close_all → ∀ k, ∀ m ∈ s.client.aggregator.buffers k, nonblank m = false
  | .client (.debounce k) =>
    select_best cfg.py cfg.claw_min_valid_text_len (s.client.aggregator.buffers k) ≠ .error ()
  | .client _ => True

variable {cfg : ClientConfig} {c c' : OpenClawClient} {s s' : Finals}

/-- The buffers hold finals under their own msg_id. -/
def Keyed (c : OpenClawClient) : Prop :=
  ∀ k, ∀ m ∈ c.aggregator.buffers k, is_final m = true ∧ m.msg_id = k

theorem final_message_final {payload : List (String × Json)}
    (h : c.final_message run_id state text seq payload = some m) : is_final m = true := by
  rw [OpenClawClient.final_message] at h
  split at h
  · rename_i hs
    obtain ⟨t, -, rfl⟩ := Option.map_eq_some_iff.mp h
    exact decide_eq_true hs
  · cases h

theorem whole_not_streamed {payload : List (String × Json)}
    (h : c.final_message run_id state text seq payload = some m) :
    OpenClawClient.is_partial state = false := by
  rw [OpenClawClient.final_message] at h
  split at h
  · rename_i hs
    rw [OpenClawClient.is_partial, hs]
    decide
  · cases h

theorem stream_aggregator (c : OpenClawClient) (r : Key) (t : Json) :
    (c.stream r t).aggregator = c.aggregator ∧ (c.stream r t).now = c.now := by
  rw [OpenClawClient.stream]
  split <;> exact ⟨rfl, rfl⟩

theorem proactive_aggregator (c : OpenClawClient) (t : Json) (o : Option Origin) :
    (c.proactive cfg t o).aggregator = c.aggregator ∧ (c.proactive cfg t o).now = c.now := by
  rw [OpenClawClient.proactive]
  split <;> exact ⟨rfl, rfl⟩

/-- A chat event changes the aggregator by the final it brings. -/
theorem chat_aggregator {payload : List (String × Json)} :
    (c.chat cfg run_id state text seq payload).aggregator =
      (match c.final_message run_id state text seq payload with
        | some m => c.aggregator.add_event cfg.claw_debounce_ms c.now m
        | none => c.aggregator) ∧
      (c.chat cfg run_id state text seq payload).now = c.now := by
  rw [OpenClawClient.chat]
  cases hm : c.final_message run_id state text seq payload with
  | none =>
    split
    · exact stream_aggregator ..
    · exact ⟨rfl, rfl⟩
  | some m =>
    rw [whole_not_streamed hm]
    exact ⟨rfl, rfl⟩

theorem handle_aggregator (c : OpenClawClient) (parsed : Json) :
    (c.dispatch cfg parsed).aggregator =
      (match accepts c (.frame parsed) with
        | some m => c.aggregator.add_event cfg.claw_debounce_ms c.now m
        | none => c.aggregator) ∧
      (c.dispatch cfg parsed).now = c.now := by
  rw [OpenClawClient.dispatch, accepts]
  cases GatewayFrame.view parsed with
  | ignored => exact ⟨rfl, rfl⟩
  | rejected id error =>
    simp only [OpenClawClient.handle, OpenClawClient.chat_send_rejected]
    split <;> exact ⟨rfl, rfl⟩
  | assistant r t => exact stream_aggregator ..
  | lifecycle_error r e =>
    simp only [OpenClawClient.handle, OpenClawClient.lifecycle_error]
    split <;> exact ⟨rfl, rfl⟩
  | lifecycle_end r =>
    simp only [OpenClawClient.handle, OpenClawClient.lifecycle_end]
    split <;> exact ⟨rfl, rfl⟩
  | chat r state text seq payload => exact chat_aggregator
  | cron summary => exact proactive_aggregator ..

theorem route_aggregator (c : OpenClawClient) (m : ClawMessage) (rivals : List Origin) :
    (c.route cfg m rivals).aggregator = c.aggregator ∧ (c.route cfg m rivals).now = c.now := by
  have hun : (OpenClawClient.route.unsolicited cfg c m).aggregator = c.aggregator ∧
      (OpenClawClient.route.unsolicited cfg c m).now = c.now := by
    rw [OpenClawClient.route.unsolicited]
    by_cases ht : c.timed_out_msg_id = some m.msg_id
    · simp only [if_pos ht]
      split
      · exact ⟨rfl, rfl⟩
      · exact proactive_aggregator ..
    · simp only [if_neg ht]
      split
      · exact ⟨rfl, rfl⟩
      · exact proactive_aggregator ..
  rw [OpenClawClient.route]
  split
  · split
    · exact ⟨rfl, rfl⟩
    · exact hun
  · exact hun

theorem finalize_aggregator (c : OpenClawClient) (k : String) :
    (c.finalize cfg k).aggregator = c.aggregator.pop k ∧ (c.finalize cfg k).now = c.now := by
  rw [OpenClawClient.finalize]
  split
  · exact route_aggregator ..
  · exact ⟨rfl, rfl⟩

/-- What a step does to the buffers and their timers. -/
theorem step_aggregator (hs : c.step cfg a = some c') :
    match a with
    | .frame parsed => c'.now = c.now ∧ c'.aggregator =
        match accepts c (.frame parsed) with
        | some m => c.aggregator.add_event cfg.claw_debounce_ms c.now m
        | none => c.aggregator
    | .debounce k => c'.now = c.now ∧ c'.aggregator = c.aggregator.pop k
    | .close => c'.aggregator = {}
    | _ => c.now ≤ c'.now ∧ c'.aggregator = c.aggregator := by
  cases OpenClawClient.steps_of_step hs with
  | @frame parsed hc => exact (handle_aggregator c parsed).symm
  | @debounce k due ht hd => exact (finalize_aggregator c k).symm
  | close => rfl
  | tick => exact ⟨Nat.le_add_right .., rfl⟩
  | disconnect =>
    simp only [OpenClawClient.disconnected]
    split <;> exact ⟨Nat.le_refl _, rfl⟩
  | fallback hf hd =>
    simp only [OpenClawClient.delayed_fallback]
    split
    · split <;> exact ⟨Nat.le_refl _, rfl⟩
    · exact ⟨Nat.le_refl _, rfl⟩
  | send | shield_raised | sent | send_failed | returned | raised | timeout | cancel | cleanup
  | listen | socket_lost | ws_close =>
    exact ⟨Nat.le_refl _, rfl⟩

theorem filter_of {l : List ClawMessage} (h : ∀ m ∈ l, m.msg_id = k) :
    l.filter (nonblank_of k) = l.filter nonblank := by
  apply List.filter_congr
  intro m hm
  simp only [nonblank_of, h m hm, decide_true, Bool.true_and]

theorem filter_of_ne {l : List ClawMessage} (h : ∀ m ∈ l, m.msg_id = k) (hk : j ≠ k) :
    l.filter (nonblank_of j) = [] := by
  rw [List.filter_eq_nil_iff]
  intro m hm
  rw [nonblank_of, h m hm, decide_eq_false (Ne.symm hk), Bool.false_and]
  exact Bool.false_ne_true

structure Inv (cfg : ClientConfig) (s : Finals) : Prop where
  keyed : Keyed s.client
  accounted : s.Accounted cfg

theorem Inv.same (h : s.Inv cfg) (hn : s.client.now ≤ c.now)
    (ha : c.aggregator = s.client.aggregator) : Inv cfg { s with client := c } := by
  refine ⟨?_, ?_, h.accounted.superseded, ?_⟩
  · rw [Keyed, ha]
    exact h.keyed
  · dsimp only
    rw [ha]
    exact h.accounted.whole
  · dsimp only
    rw [ha]
    intro k hk
    obtain ⟨due, hd, hle⟩ := h.accounted.timed k hk
    exact ⟨due, hd, by omega⟩

/-- A final is accepted. -/
theorem Inv.add (h : s.Inv cfg) (hf : is_final m = true) (hn : c.now = s.client.now)
    (ha : c.aggregator = s.client.aggregator.add_event cfg.claw_debounce_ms s.client.now m) :
    Inv cfg { s with client := c, accepted := s.accepted ++ [m] } := by
  have hbuf : ∀ k, c.aggregator.buffers k = s.client.aggregator.buffers k ++
      if k = m.msg_id then [m] else [] := by
    intro k
    rw [ha, ClawAggregator.add_event, if_pos hf]
    dsimp only
    split
    · rename_i hk
      rw [hk, Function.update_self]
    · rename_i hk
      rw [Function.update_of_ne hk, List.append_nil]
  refine ⟨?_, ?_, h.accounted.superseded, ?_⟩
  · intro k x hx
    rw [hbuf] at hx
    rcases List.mem_append.mp hx with hx | hx
    · exact h.keyed k x hx
    · split at hx
      · rename_i hk
        rw [List.mem_singleton.mp hx]
        exact ⟨hf, hk.symm⟩
      · cases hx
  · intro k
    have hone : [m].filter (nonblank_of k) =
        (if k = m.msg_id then [m] else []).filter nonblank := by
      split
      · rename_i hk
        apply filter_of
        intro x hx
        rw [List.mem_singleton.mp hx, hk]
      · rename_i hk
        apply filter_of_ne (k := m.msg_id) _ hk
        intro x hx
        rw [List.mem_singleton.mp hx]
    dsimp only
    rw [hbuf, List.filter_append, List.filter_append, h.accounted.whole k, hone, List.append_assoc]
  · intro k hk
    dsimp only at hk ⊢
    rw [ha, ClawAggregator.add_event, if_pos hf] at hk ⊢
    by_cases he : k = m.msg_id
    · subst he
      exact ⟨_, Function.update_self .., by omega⟩
    · dsimp only at hk ⊢
      rw [Function.update_of_ne he] at hk ⊢
      obtain ⟨due, hd, hle⟩ := h.accounted.timed k hk
      exact ⟨due, hd, by omega⟩

/-- A buffer whose timer has fired is taken out. -/
theorem Inv.pop (h : s.Inv cfg) (hn : c.now = s.client.now)
    (ha : c.aggregator = s.client.aggregator.pop k)
    (hr : r.flatMap (·.2) = s.client.aggregator.buffers k ∨
      r = [] ∧ (s.client.aggregator.buffers k).filter nonblank = [])
    (hsel : ∀ x ∈ r, select_best cfg.py cfg.claw_min_valid_text_len x.2 = .ok (some x.1) ∧
      ∀ m ∈ x.2, m.msg_id = x.1.msg_id) :
    Inv cfg { s with client := c, routed := s.routed ++ r } := by
  have hkey : ∀ m ∈ s.client.aggregator.buffers k, m.msg_id = k := fun m hm => (h.keyed k m hm).2
  have hself : c.aggregator.buffers k = [] := by
    rw [ha]
    exact Function.update_self ..
  have hother : ∀ j, j ≠ k → c.aggregator.buffers j = s.client.aggregator.buffers j := by
    intro j hj
    rw [ha]
    exact Function.update_of_ne hj ..
  refine ⟨?_, ?_, ?_, ?_⟩
  · intro j x hx
    by_cases hj : j = k
    · subst hj
      rw [hself] at hx
      cases hx
    · rw [hother j hj] at hx
      exact h.keyed j x hx
  · intro j
    dsimp only
    rw [List.flatMap_append, List.filter_append, h.accounted.whole j]
    by_cases hj : j = k
    · subst hj
      rw [hself, List.filter_nil, List.append_nil]
      rcases hr with hr | ⟨rfl, hb⟩
      · rw [hr, filter_of hkey]
      · rw [hb, List.flatMap_nil, List.filter_nil]
    · have hnone : (r.flatMap (·.2)).filter (nonblank_of j) = [] := by
        rcases hr with hr | ⟨rfl, -⟩
        · rw [hr, filter_of_ne hkey hj]
        · rfl
      rw [hnone, List.append_nil, hother j hj]
  · intro x hx
    rcases List.mem_append.mp hx with hx | hx
    · exact h.accounted.superseded x hx
    · exact hsel x hx
  · intro j hne
    by_cases hj : j = k
    · subst hj
      exact absurd hself hne
    · dsimp only at hne ⊢
      rw [hother j hj] at hne
      obtain ⟨due, hd, hle⟩ := h.accounted.timed j hne
      refine ⟨due, ?_, by omega⟩
      rw [ha]
      exact (Function.update_of_ne hj ..).trans hd

theorem Inv.fire (h : s.Inv cfg) (hn : c.now = s.client.now)
    (ha : c.aggregator = s.client.aggregator.pop k)
    (hok : select_best cfg.py cfg.claw_min_valid_text_len (s.client.aggregator.buffers k) ≠
      .error ()) :
    Inv cfg { s with
      client := c
      routed := s.routed ++ (routes cfg s.client (.debounce k)).toList } := by
  rw [routes]
  cases hsel : select_best cfg.py cfg.claw_min_valid_text_len (s.client.aggregator.buffers k) with
  | error e => exact absurd hsel hok
  | ok best =>
    cases best with
    | none =>
      refine h.pop hn ha (.inr ⟨rfl, ?_⟩) fun _ hx => by cases hx
      rw [List.filter_eq_nil_iff]
      intro m hm
      rw [select_best_none hsel hm (h.keyed k m hm).1]
      exact Bool.false_ne_true
    | some best =>
      refine h.pop hn ha (.inl (List.append_nil _)) fun x hx => ?_
      obtain rfl := List.mem_singleton.mp hx
      refine ⟨hsel, fun m hm => ?_⟩
      rw [(h.keyed k m hm).2, (h.keyed k best (select_best_mem hsel).1).2]

/-- After `close_all` has begun nothing is promised. -/
def Sound (cfg : ClientConfig) (s : Finals) : Prop := s.shutting_down = true ∨ s.Inv cfg

theorem Inv.closed (h : s.Inv cfg) (ha : c.aggregator = {})
    (hb : ∀ k, ∀ m ∈ s.client.aggregator.buffers k, nonblank m = false) :
    Inv cfg { s with client := c } := by
  refine ⟨?_, ?_, h.accounted.superseded, ?_⟩
  · intro k m hm
    rw [ha] at hm
    cases hm
  · intro k
    have hnil : (s.client.aggregator.buffers k).filter nonblank = [] := by
      rw [List.filter_eq_nil_iff]
      intro m hm
      rw [hb k m hm]
      exact Bool.false_ne_true
    dsimp only
    rw [h.accounted.whole k, hnil, ha, List.filter_nil]
  · intro k hk
    dsimp only at hk
    rw [ha] at hk
    exact absurd rfl hk

theorem Inv.client (h : s.Inv cfg) (hc : Settled cfg s (.client a)) (hne : a ≠ .close)
    (hs : s.client.step cfg a = some c) :
    Inv cfg { s with
      client := c
      accepted := s.accepted ++ (accepts s.client a).toList
      routed := s.routed ++ (routes cfg s.client a).toList } := by
  have hagg := step_aggregator hs
  cases a with
  | frame parsed =>
    obtain ⟨hn, ha⟩ := hagg
    cases hm : accepts s.client (.frame parsed) with
    | none =>
      rw [hm] at ha
      simp only [routes, Option.toList_none, List.append_nil]
      exact h.same (Nat.le_of_eq hn.symm) ha
    | some m =>
      rw [hm] at ha
      simp only [routes, Option.toList_none, Option.toList_some, List.append_nil]
      refine h.add ?_ hn ha
      simp only [accepts] at hm
      split at hm
      · exact final_message_final hm
      · cases hm
  | debounce k =>
    simp only [accepts, Option.toList_none, List.append_nil]
    exact h.fire hagg.1 hagg.2 hc
  | close => exact absurd rfl hne
  | _ =>
    simp only [accepts, routes, Option.toList_none, List.append_nil]
    exact h.same hagg.1 hagg.2

theorem step_sound (h : s.Sound cfg) (hc : Settled cfg s a) (hs : s.step cfg a = some s') :
    s'.Sound cfg := by
  cases a with
  | client a =>
    have hne : a ≠ .close := by
      rintro rfl
      cases hs
    have hs : (match s.client.step cfg a with
        | some c => some { s with
            client := c
            accepted := s.accepted ++ (accepts s.client a).toList
            routed := s.routed ++ (routes cfg s.client a).toList }
        | none => none) = some s' := by
      cases a <;> first | exact hs | exact absurd rfl hne
    split at hs
    · rename_i c hstep
      cases hs
      rcases h with h | h
      · exact .inl h
      · exact .inr (h.client hc hne hstep)
    · cases hs
  | close caller =>
    simp only [step] at hs
    split at hs
    · rename_i c hstep
      cases hs
      rcases h with h | h
      · exact .inl (by rw [h, Bool.true_or])
      · by_cases hall : caller = .close_all
        · exact .inl (by rw [decide_eq_true hall, Bool.or_true])
        · have hi := h.closed (step_aggregator hstep) (hc hall)
          exact .inr ⟨hi.keyed, hi.accounted.whole, hi.accounted.superseded, hi.accounted.timed⟩
    · cases hs

/-- As long as no client is closed while an answer is buffered. -/
theorem finals_kept (h : Reach (step cfg) (Settled cfg) Initial s) : s.Kept cfg := by
  have hs : s.Sound cfg := by
    refine h.invariant (fun s hi => ?_) fun _ _ _ hi hc hs => step_sound hi hc hs
    obtain ⟨begun, rfl⟩ := hi
    refine .inr ⟨(fun _ _ hm => by cases hm), fun _ => rfl, (fun _ hr => by cases hr), ?_⟩
    exact fun _ hk => absurd rfl hk
  exact hs.imp_right Inv.accounted

/-- A request whose answer is on its way when the connection drops. -/
def dropped : List Act :=
  [.client (.send "a" false), .client .sent, .client (.frame (final_frame "r" 1 "the answer")),
    .client .socket_lost, .client .disconnect, .client .resume]

/-- The debounce timer fires before the client is closed. -/
def routed_in_time : List Act :=
  dropped ++ [.client (.tick 150), .client (.debounce "a"), .close .send_message]

theorem meets_routed_in_time : Meets (step {}) (Settled {}) {} routed_in_time := by
  refine ⟨trivial, trivial, trivial, trivial, trivial, trivial, trivial, ?_, ?_, trivial⟩
  · intro h
    cases h
  · intro _ k m hm
    change m ∈ Function.update (Function.update (fun _ => []) "a" _) "a" [] k at hm
    by_cases hk : k = "a"
    · rw [hk, Function.update_self] at hm
      cases hm
    · rw [Function.update_of_ne hk, Function.update_of_ne hk] at hm
      cases hm

theorem finals_kept_in_time : ∃ s, exec (step {}) {} routed_in_time = some s ∧
    s.routed.map (·.1.text) = ["the answer"] ∧ s.Kept {} := by
  have h : ((exec (step {}) {} routed_in_time).any fun s =>
      s.routed.map (·.1.text) = ["the answer"]) = true := by decide
  obtain ⟨s, hs, hr⟩ := (Option.any_eq_true _ _).mp h
  have hi : Initial {} := ⟨true, rfl⟩
  exact ⟨s, hs, of_decide_eq_true hr, finals_kept ((Reach.start hi).exec meets_routed_in_time hs)⟩

/-- `send_message` closes the client in order to retry, and the gateway does not answer again. -/
theorem not_finals_kept : ∃ s, Reach (step {}) Any Initial s ∧ ¬ s.Kept {} := by
  have h : ((exec (step {}) {} (dropped ++ [.close .send_message])).any fun s =>
      s.shutting_down = false ∧ (s.accepted.filter (nonblank_of "a")).length = 1 ∧
        s.routed.length = 0 ∧ (s.client.aggregator.buffers "a").length = 0) = true := by decide
  obtain ⟨s, hs, hf⟩ := (Option.any_eq_true _ _).mp h
  obtain ⟨hdown, hacc, hrout, hbuf⟩ := of_decide_eq_true hf
  refine ⟨s, reach_of_exec ⟨true, rfl⟩ hs, ?_⟩
  rintro (hk | hk)
  · rw [hdown] at hk
    cases hk
  · have hw := hk.whole "a"
    rw [List.eq_nil_of_length_eq_zero hrout, List.eq_nil_of_length_eq_zero hbuf] at hw
    rw [hw] at hacc
    cases hacc

end Finals

end ClawMux
