import Mathlib.Logic.Relation
import ClawMux.Lib.Transition
import ClawMux.Utils.SelectBest

namespace ClawMux
set_option autoImplicit true
open Lib Lib.Text

/-! The debounce tasks -/

/-- Where a `_finalize_later` task stands; a cancelled one ends when it runs next. -/
inductive TimerPhase
  | created
  | sleeping (due : Nat)
  | cancelled
  | ended
  deriving DecidableEq, Repr

structure Timer where
  msg_id : String
  phase : TimerPhase
  deriving DecidableEq, Repr

def Timer.live (t : Timer) : Bool :=
  match t.phase with
  | .created | .sleeping _ => true
  | .cancelled | .ended => false

/-- The timer has at least until then to run. -/
def Timer.Until (t : Timer) (now debounce_ms due : Nat) : Prop :=
  match t.phase with
  | .created => due ≤ now + debounce_ms
  | .sleeping d => due ≤ d
  | .cancelled | .ended => True

/-- The finals of one debounce window, and what `on_final` was called with when it closed. -/
structure Burst where
  msg_id : String
  messages : List ClawMessage
  calls : List ClawMessage

/-- The aggregator with the tasks it has made; `_tasks` holds their numbers. -/
structure AggregatorTasks where
  now : Nat := 0
  buffers : String → List ClawMessage := fun _ => []
  tasks : String → Option Nat := fun _ => none
  timers : Nat → Option Timer := fun _ => none
  next : Nat := 0
  received : List ClawMessage := []
  bursts : List Burst := []

namespace AggregatorTasks

variable (py : Dynamics) (claw_min_valid_text_len debounce_ms : Nat)

def set_phase (s : AggregatorTasks) (i : Nat) (m : String) (p : TimerPhase) : AggregatorTasks :=
  { s with timers := Function.update s.timers i (some ⟨m, p⟩) }

/-- `task.cancel()`; it also reaches a task whose sleep is over, as long as that has not run on. -/
def cancel (s : AggregatorTasks) (e : Nat) : AggregatorTasks :=
  match s.timers e with
  | some t => if t.live then s.set_phase e t.msg_id .cancelled else s
  | none => s

def cancel_existing (s : AggregatorTasks) (msg_id : String) : AggregatorTasks :=
  match s.tasks msg_id with
  | some e => s.cancel e
  | none => s

def add_event (s : AggregatorTasks) (msg : ClawMessage) : AggregatorTasks :=
  if is_final msg then
    let s := { s with
      buffers := Function.update s.buffers msg.msg_id (s.buffers msg.msg_id ++ [msg])
      received := s.received ++ [msg] }.cancel_existing msg.msg_id
    { s with
      tasks := Function.update s.tasks msg.msg_id (some s.next)
      timers := Function.update s.timers s.next (some ⟨msg.msg_id, .created⟩)
      next := s.next + 1 }
  else s

/-- `_finalize_later` once its sleep is over. -/
def finalize (s : AggregatorTasks) (i : Nat) (msg_id : String) : AggregatorTasks :=
  let messages := s.buffers msg_id
  let s := { s with
    buffers := Function.update s.buffers msg_id []
    tasks := Function.update s.tasks msg_id none }.set_phase i msg_id .ended
  if messages.isEmpty then s
  else
    match select_best py claw_min_valid_text_len messages with
    | .ok final_msg => { s with bursts := s.bursts ++ [⟨msg_id, messages, final_msg.toList⟩] }
    | .error () => { s with bursts := s.bursts ++ [⟨msg_id, messages, []⟩] }

inductive Act
  | tick (ms : Nat)
  | add_event (msg : ClawMessage)
  | start (i : Nat)
  | wake (i : Nat)

def step (s : AggregatorTasks) : Act → Option AggregatorTasks
  | .tick ms => some { s with now := s.now + ms }
  | .add_event msg => some (s.add_event msg)
  | .start i =>
    match s.timers i with
    | some ⟨m, .created⟩ => some (s.set_phase i m (.sleeping (s.now + debounce_ms)))
    | _ => none
  | .wake i =>
    match s.timers i with
    | some ⟨m, .sleeping due⟩ =>
      if due ≤ s.now then some (s.finalize py claw_min_valid_text_len i m) else none
    | some ⟨m, .cancelled⟩ => some (s.set_phase i m .ended)
    | _ => none

def Initial (s : AggregatorTasks) : Prop := s = {}

/-- The finals have integer seqs. -/
def Integral (_ : AggregatorTasks) : Act → Prop
  | .add_event msg => is_final msg = true → msg.Numbered
  | _ => True

/-- Timer `i` is live and belongs to the msg_id. -/
def LiveTimer (s : AggregatorTasks) (m : String) (i : Nat) : Prop :=
  ∃ t, s.timers i = some t ∧ t.msg_id = m ∧ t.live = true

/-- What `on_final` has been called with for a burst that is over. -/
structure Decided (b : Burst) : Prop where
  finals : ∀ x ∈ b.messages, is_final x = true
  numbered : ∀ x ∈ b.messages, x.Numbered
  selected : ∃ final_msg, select_best py claw_min_valid_text_len b.messages = .ok final_msg ∧
    b.calls = final_msg.toList

/-- The live tasks are those in `_tasks`, and every final is in a burst or in its buffer. -/
structure Inv (s : AggregatorTasks) : Prop where
  fresh : ∀ i, s.next ≤ i → s.timers i = none
  known : ∀ m i, s.tasks m = some i → s.LiveTimer m i
  live : ∀ m i, s.LiveTimer m i → s.tasks m = some i
  timed : ∀ m, s.buffers m ≠ [] ↔ s.tasks m ≠ none
  keyed : ∀ m, ∀ x ∈ s.buffers m, x.msg_id = m ∧ is_final x = true ∧ x.Numbered
  accounts : ∀ m, s.received.filter (·.msg_id = m) =
    (s.bursts.filter (·.msg_id = m)).flatMap (·.messages) ++ s.buffers m
  decided : ∀ b ∈ s.bursts, Decided py claw_min_valid_text_len b

variable {py claw_min_valid_text_len debounce_ms} {s s' : AggregatorTasks}

theorem liveTimer_set_phase : (s.set_phase i k p).LiveTimer m j ↔
    if j = i then k = m ∧ (Timer.mk k p).live = true else s.LiveTimer m j := by
  rw [LiveTimer, set_phase]
  by_cases hj : j = i
  · subst hj
    simp only [Function.update_self, Option.some.injEq, if_true]
    constructor
    · rintro ⟨t, rfl, hm, hl⟩
      exact ⟨hm, hl⟩
    · rintro ⟨hm, hl⟩
      exact ⟨_, rfl, hm, hl⟩
  · simp only [Function.update_of_ne hj, if_neg hj]
    exact Iff.rfl

/-- Cancelling the task of a msg_id leaves the live tasks of the others, and none for itself. -/
theorem liveTimer_cancel_existing (known : ∀ m i, s.tasks m = some i → s.LiveTimer m i)
    (live : ∀ m i, s.LiveTimer m i → s.tasks m = some i) :
    (s.cancel_existing k).LiveTimer m i ↔ s.LiveTimer m i ∧ m ≠ k := by
  rw [AggregatorTasks.cancel_existing]
  cases he : s.tasks k with
  | none =>
    refine ⟨fun hl => ⟨hl, ?_⟩, fun hl => hl.1⟩
    rintro rfl
    rw [live _ _ hl] at he
    cases he
  | some e =>
    obtain ⟨t, ht, rfl, hl⟩ := known k e he
    simp only [cancel, ht, hl, if_true]
    rw [liveTimer_set_phase]
    by_cases hi : i = e
    · subst hi
      rw [if_pos rfl]
      constructor
      · rintro ⟨-, hl'⟩
        cases hl'
      · rintro ⟨⟨t', ht', rfl, -⟩, hne⟩
        cases ht.symm.trans ht'
        exact absurd rfl hne
    · rw [if_neg hi]
      refine ⟨fun hm => ⟨hm, ?_⟩, fun hm => hm.1⟩
      rintro rfl
      have hie := live _ _ hm
      rw [he] at hie
      exact hi (Option.some.inj hie).symm

theorem Inv.set_phase (h : s.Inv py n) (ht : s.timers i = some t)
    (hp : (Timer.mk t.msg_id p).live = t.live) : (s.set_phase i t.msg_id p).Inv py n := by
  have hlive : ∀ m j, (s.set_phase i t.msg_id p).LiveTimer m j ↔ s.LiveTimer m j := by
    intro m j
    rw [liveTimer_set_phase]
    by_cases hj : j = i
    · subst hj
      rw [if_pos rfl, hp]
      constructor
      · rintro ⟨rfl, hl⟩
        exact ⟨t, ht, rfl, hl⟩
      · rintro ⟨t', ht', rfl, hl⟩
        cases ht.symm.trans ht'
        exact ⟨rfl, hl⟩
    · rw [if_neg hj]
  refine ⟨?_, fun m j hm => (hlive m j).mpr (h.known m j hm),
    fun m j hm => h.live m j ((hlive m j).mp hm), h.timed, h.keyed, h.accounts, h.decided⟩
  intro j hj
  have hne : j ≠ i := by
    rintro rfl
    rw [h.fresh j hj] at ht
    cases ht
  exact (Function.update_of_ne hne ..).trans (h.fresh j hj)

theorem cancel_existing_frame (s : AggregatorTasks) (k : String) :
    (s.cancel_existing k).buffers = s.buffers ∧ (s.cancel_existing k).tasks = s.tasks ∧
      (s.cancel_existing k).next = s.next ∧ (s.cancel_existing k).received = s.received ∧
      (s.cancel_existing k).bursts = s.bursts ∧ (s.cancel_existing k).now = s.now := by
  rw [AggregatorTasks.cancel_existing]
  split
  · rw [AggregatorTasks.cancel]
    split
    · split
      · exact ⟨rfl, rfl, rfl, rfl, rfl, rfl⟩
      · exact ⟨rfl, rfl, rfl, rfl, rfl, rfl⟩
    · exact ⟨rfl, rfl, rfl, rfl, rfl, rfl⟩
  · exact ⟨rfl, rfl, rfl, rfl, rfl, rfl⟩

theorem cancel_existing_fresh (h : s.timers i = none) : (s.cancel_existing k).timers i = none := by
  rw [AggregatorTasks.cancel_existing]
  split
  · rename_i e he
    rw [AggregatorTasks.cancel]
    split
    · rename_i t ht
      split
      · have hne : i ≠ e := by
          rintro rfl
          rw [h] at ht
          cases ht
        exact (Function.update_of_ne hne ..).trans h
      · exact h
    · exact h
  · exact h

/-- The final is buffered, and a new task takes the place of the one that is cancelled. -/
theorem Inv.renew {r : AggregatorTasks} (h : s.Inv py n) (hf : is_final msg = true)
    (hm : msg.Numbered)
    (hbuf : r.buffers =
      Function.update s.buffers msg.msg_id (s.buffers msg.msg_id ++ [msg]))
    (htasks : r.tasks = s.tasks) (hnext : r.next = s.next)
    (hrec : r.received = s.received ++ [msg]) (hbursts : r.bursts = s.bursts)
    (hfresh : ∀ i, s.next ≤ i → r.timers i = none)
    (hold : ∀ m i, r.LiveTimer m i ↔ s.LiveTimer m i ∧ m ≠ msg.msg_id) :
    Inv py n { r with
      tasks := Function.update r.tasks msg.msg_id (some r.next)
      timers := Function.update r.timers r.next (some ⟨msg.msg_id, .created⟩)
      next := r.next + 1 } := by
  have hlive : ∀ m i, LiveTimer { r with
      tasks := Function.update r.tasks msg.msg_id (some r.next)
      timers := Function.update r.timers r.next (some ⟨msg.msg_id, .created⟩)
      next := r.next + 1 } m i ↔
      if i = s.next then msg.msg_id = m else s.LiveTimer m i ∧ m ≠ msg.msg_id := by
    intro m i
    have hset : LiveTimer { r with
        tasks := Function.update r.tasks msg.msg_id (some r.next)
        timers := Function.update r.timers r.next (some ⟨msg.msg_id, .created⟩)
        next := r.next + 1 } m i ↔ _ := liveTimer_set_phase (s := r)
    rw [hset, hold, hnext]
    simp only [Timer.live, and_true]
  have hnot : ∀ m, ¬ s.LiveTimer m s.next := by
    rintro m ⟨t, ht, -⟩
    rw [h.fresh s.next (Nat.le_refl _)] at ht
    cases ht
  refine ⟨?_, ?_, ?_, ?_, ?_, ?_, hbursts ▸ h.decided⟩
  · intro i hi
    have hle : s.next + 1 ≤ i := hnext ▸ hi
    have hne : i ≠ r.next := by omega
    exact (Function.update_of_ne hne ..).trans (hfresh i (by omega))
  · intro m i hi
    dsimp only at hi
    rw [hlive]
    by_cases hk : m = msg.msg_id
    · subst hk
      rw [Function.update_self, hnext] at hi
      rw [if_pos (Option.some.inj hi).symm]
    · rw [Function.update_of_ne hk, htasks] at hi
      have hl := h.known m i hi
      have hne : i ≠ s.next := by
        rintro rfl
        exact hnot m hl
      rw [if_neg hne]
      exact ⟨hl, hk⟩
  · intro m i hi
    rw [hlive] at hi
    dsimp only
    by_cases hne : i = s.next
    · rw [if_pos hne] at hi
      rw [← hi, Function.update_self, hnext, hne]
    · rw [if_neg hne] at hi
      rw [Function.update_of_ne hi.2, htasks]
      exact h.live m i hi.1
  · intro m
    dsimp only
    rw [hbuf, htasks]
    by_cases hk : m = msg.msg_id
    · subst hk
      rw [Function.update_self, Function.update_self]
      exact iff_of_true (List.append_ne_nil_of_right_ne_nil _ (List.cons_ne_nil _ _))
        (Option.some_ne_none _)
    · rw [Function.update_of_ne hk, Function.update_of_ne hk]
      exact h.timed m
  · intro m x hx
    dsimp only at hx
    rw [hbuf] at hx
    by_cases hk : m = msg.msg_id
    · subst hk
      rw [Function.update_self] at hx
      rcases List.mem_append.mp hx with hx | hx
      · exact h.keyed _ x hx
      · rw [List.mem_singleton.mp hx]
        exact ⟨rfl, hf, hm⟩
    · rw [Function.update_of_ne hk] at hx
      exact h.keyed m x hx
  · intro m
    dsimp only
    rw [hrec, hbursts, hbuf, List.filter_append, h.accounts m]
    by_cases hk : m = msg.msg_id
    · subst hk
      rw [Function.update_self, List.filter_cons_of_pos (by simp), List.filter_nil,
        List.append_assoc]
    · rw [Function.update_of_ne hk, List.filter_cons_of_neg (by simpa using Ne.symm hk),
        List.filter_nil, List.append_nil]

/-- A final opens or prolongs the window of its msg_id. -/
theorem Inv.add_event (h : s.Inv py n) (hm : is_final msg = true → msg.Numbered) :
    (s.add_event msg).Inv py n := by
  rw [AggregatorTasks.add_event]
  by_cases hf : is_final msg = true
  · rw [if_pos hf]
    obtain ⟨hbuf, htasks, hnext, hrec, hbursts, -⟩ := cancel_existing_frame { s with
      buffers := Function.update s.buffers msg.msg_id (s.buffers msg.msg_id ++ [msg])
      received := s.received ++ [msg] } msg.msg_id
    apply h.renew hf (hm hf) hbuf htasks hnext hrec hbursts
    · exact fun i hi => cancel_existing_fresh (h.fresh i hi)
    · exact fun m i => liveTimer_cancel_existing h.known h.live
  · rw [if_neg hf]
    exact h

/-- A window closes: what is buffered becomes a burst. -/
theorem Inv.close (h : s.Inv py n) (hi : s.LiveTimer m i) (hb : Decided py n b)
    (hbm : b.msg_id = m) (hms : b.messages = s.buffers m) : Inv py n { s with
      buffers := Function.update s.buffers m []
      tasks := Function.update s.tasks m none
      timers := Function.update s.timers i (some ⟨m, .ended⟩)
      bursts := s.bursts ++ [b] } := by
  have hlive : ∀ k j, LiveTimer { s with
      buffers := Function.update s.buffers m []
      tasks := Function.update s.tasks m none
      timers := Function.update s.timers i (some ⟨m, .ended⟩)
      bursts := s.bursts ++ [b] } k j ↔ s.LiveTimer k j ∧ k ≠ m := by
    intro k j
    have hset : LiveTimer { s with
        buffers := Function.update s.buffers m []
        tasks := Function.update s.tasks m none
        timers := Function.update s.timers i (some ⟨m, .ended⟩)
        bursts := s.bursts ++ [b] } k j ↔ _ := liveTimer_set_phase (s := s)
    rw [hset]
    by_cases hj : j = i
    · subst hj
      rw [if_pos rfl]
      constructor
      · rintro ⟨-, hl⟩
        cases hl
      · rintro ⟨⟨t, ht, rfl, -⟩, hne⟩
        obtain ⟨t', ht', rfl, -⟩ := hi
        cases ht.symm.trans ht'
        exact absurd rfl hne
    · rw [if_neg hj]
      refine ⟨fun hl => ⟨hl, ?_⟩, fun hl => hl.1⟩
      rintro rfl
      exact hj (Option.some.inj ((h.live _ _ hl).symm.trans (h.live _ _ hi)))
  refine ⟨?_, ?_, ?_, ?_, ?_, ?_, ?_⟩
  · intro j hj
    have hne : j ≠ i := by
      rintro rfl
      obtain ⟨t, ht, -⟩ := hi
      rw [h.fresh j hj] at ht
      cases ht
    exact (Function.update_of_ne hne ..).trans (h.fresh j hj)
  · intro k j hj
    dsimp only at hj
    by_cases hk : k = m
    · subst hk
      rw [Function.update_self] at hj
      cases hj
    · rw [Function.update_of_ne hk] at hj
      exact (hlive k j).mpr ⟨h.known k j hj, hk⟩
  · intro k j hj
    obtain ⟨hl, hk⟩ := (hlive k j).mp hj
    exact (Function.update_of_ne hk ..).trans (h.live k j hl)
  · intro k
    dsimp only
    by_cases hk : k = m
    · subst hk
      rw [Function.update_self, Function.update_self]
      exact iff_of_false (fun hne => hne rfl) fun hne => hne rfl
    · rw [Function.update_of_ne hk, Function.update_of_ne hk]
      exact h.timed k
  · intro k x hx
    dsimp only at hx
    by_cases hk : k = m
    · subst hk
      rw [Function.update_self] at hx
      cases hx
    · rw [Function.update_of_ne hk] at hx
      exact h.keyed k x hx
  · intro k
    dsimp only
    rw [h.accounts k, List.filter_append, List.flatMap_append]
    by_cases hk : k = m
    · subst hk
      rw [Function.update_self, List.filter_cons_of_pos (by simpa using hbm), List.filter_nil,
        List.flatMap_singleton, hms, List.append_nil]
    · have hbk : b.msg_id ≠ k := fun he => hk (he.symm.trans hbm)
      rw [Function.update_of_ne hk, List.filter_cons_of_neg (by simpa using hbk), List.filter_nil,
        List.flatMap_nil, List.append_nil]
  · intro x hx
    rcases List.mem_append.mp hx with hx | hx
    · exact h.decided x hx
    · exact List.mem_singleton.mp hx ▸ hb

theorem select_best_ok (py : Dynamics) (n : Nat) {messages : List ClawMessage}
    (hf : ∀ m ∈ messages, is_final m = true) (hn : ∀ m ∈ messages, m.Numbered) :
    ∃ final_msg, select_best py n messages = .ok final_msg := by
  rcases select_best_spec py n hf fun m hm => (hn m hm.1).number with ⟨best, hb, -⟩ | ⟨hb, -⟩
  · exact ⟨_, hb⟩
  · exact ⟨_, hb⟩

theorem Inv.finalize (h : s.Inv py n) (hi : s.LiveTimer m i) : (s.finalize py n i m).Inv py n := by
  have hbuf : s.buffers m ≠ [] := (h.timed m).mpr (by simp [h.live m i hi])
  obtain ⟨final_msg, hsel⟩ := select_best_ok py n
    (fun x hx => (h.keyed m x hx).2.1) fun x hx => (h.keyed m x hx).2.2
  have hclose := h.close hi (b := ⟨m, s.buffers m, final_msg.toList⟩)
    ⟨fun x hx => (h.keyed m x hx).2.1, fun x hx => (h.keyed m x hx).2.2, final_msg, hsel, rfl⟩
    rfl rfl
  have hempty : (s.buffers m).isEmpty = false := by simpa using hbuf
  rw [AggregatorTasks.finalize]
  simp only [hempty, hsel]
  exact hclose

theorem step_inv (h : s.Inv py n) (hc : s.Integral a) (hs : s.step py n debounce_ms a = some s') :
    s'.Inv py n := by
  cases a with
  | tick ms =>
    cases hs
    exact ⟨h.fresh, h.known, h.live, h.timed, h.keyed, h.accounts, h.decided⟩
  | add_event msg =>
    cases hs
    exact h.add_event hc
  | start i =>
    simp only [step] at hs
    split at hs
    · rename_i ht
      cases hs
      exact h.set_phase ht rfl
    · cases hs
  | wake i =>
    simp only [step] at hs
    split at hs
    · rename_i ht
      split at hs
      · cases hs
        exact h.finalize ⟨_, ht, rfl, rfl⟩
      · cases hs
    · rename_i ht
      cases hs
      exact h.set_phase ht rfl
    · cases hs

theorem inv_initial (h : Initial s) : s.Inv py n := by
  rw [Initial] at h
  subst h
  refine ⟨fun _ _ => rfl, ?_, ?_, ?_, ?_, fun _ => rfl, ?_⟩
  · exact fun _ _ h => by cases h
  · rintro m i ⟨t, ht, -⟩
    cases ht
  · exact fun m => iff_of_false (fun h => h rfl) fun h => h rfl
  · exact fun _ _ h => by cases h
  · exact fun _ h => by cases h

theorem inv_reach (h : Reach (step py n debounce_ms) Integral Initial s) : s.Inv py n :=
  h.invariant (fun _ => inv_initial) fun _ _ _ hi hc hs => step_inv hi hc hs

theorem finalize_bursts (hbuf : (s.buffers m).isEmpty = false)
    (hsel : select_best py n (s.buffers m) = .ok final_msg) :
    (s.finalize py n i m).bursts = s.bursts ++ [⟨m, s.buffers m, final_msg.toList⟩] := by
  rw [AggregatorTasks.finalize]
  simp only [hbuf, hsel]
  rfl

/-- The task that is live closes its window by itself, as soon as it gets to run. -/
theorem Inv.closes (h : s.Inv py n) (hi : s.LiveTimer m i) :
    ∃ as s' calls, exec (step py n debounce_ms) s as = some s' ∧
      s'.bursts = s.bursts ++ [⟨m, s.buffers m, calls⟩] := by
  have hbuf : (s.buffers m).isEmpty = false := by
    simpa using (h.timed m).mpr (by simp [h.live m i hi])
  obtain ⟨final_msg, hsel⟩ := select_best_ok py n
    (fun x hx => (h.keyed m x hx).2.1) fun x hx => (h.keyed m x hx).2.2
  obtain ⟨⟨k, p⟩, ht, hk, hl⟩ := hi
  dsimp only at hk
  subst hk
  cases p with
  | created =>
    have hrun : exec (step py n debounce_ms) s [.start i, .tick debounce_ms, .wake i] =
        some (AggregatorTasks.finalize py n { s.set_phase i k (.sleeping (s.now + debounce_ms)) with
          now := s.now + debounce_ms } i k) := by
      simp only [exec, step, ht, AggregatorTasks.set_phase, Function.update_self, Nat.le_refl,
        if_true]
    exact ⟨_, _, _, hrun, finalize_bursts hbuf hsel⟩
  | sleeping due =>
    have hrun : exec (step py n debounce_ms) s [.tick due, .wake i] =
        some (AggregatorTasks.finalize py n { s with now := s.now + due } i k) := by
      simp only [exec, step, ht, Nat.le_add_left, if_true]
    exact ⟨_, _, _, hrun, finalize_bursts hbuf hsel⟩
  | cancelled => cases hl
  | ended => cases hl

theorem Decided.called (h : Decided py n b) (hx : x ∈ b.messages) (hb : ¬ x.Blank) :
    ∃ best, b.calls = [best] ∧ Best n b.messages best := by
  obtain ⟨final_msg, hsel, hcalls⟩ := h.selected
  rcases select_best_spec py n h.finals fun m hm => (h.numbered m hm.1).number with
    ⟨best, hbest, hB⟩ | ⟨-, hnone⟩
  · cases hsel.symm.trans hbest
    exact ⟨best, hcalls, hB⟩
  · have hinvalid : ∀ y ∈ b.messages, ¬ y.Valid n := fun y hy hv => hnone y ⟨hy, .inl hv⟩
    exact absurd ⟨hx, .inr ⟨hinvalid, hb⟩⟩ (hnone x)

theorem Decided.silent (h : Decided py n b)
    (hlen : 0 < n ∨ ∀ x ∈ b.messages, strip x.text = x.text)
    (hb : ∀ x ∈ b.messages, x.Blank) : b.calls = [] := by
  obtain ⟨final_msg, hsel, hcalls⟩ := h.selected
  rcases select_best_spec py n h.finals fun m hm => (h.numbered m hm.1).number with
    ⟨best, hbest, ⟨hm, hv | ⟨-, hblank⟩⟩, -⟩ | ⟨hnone, -⟩
  · exact absurd hv ((hb best hm).invalid (hlen.imp_right fun hs => hs best hm))
  · exact absurd (hb best hm) hblank
  · cases hsel.symm.trans hnone
    exact hcalls

theorem Decided.order (h : Decided py n b) (h' : Decided py n b')
    (hd : (b.messages.map ClawMessage.rank).Nodup) (hp : b.messages.Perm b'.messages) :
    b'.calls = b.calls := by
  obtain ⟨final_msg, hsel, hcalls⟩ := h.selected
  obtain ⟨final_msg', hsel', hcalls'⟩ := h'.selected
  rw [select_best_perm h.finals h.numbered hd hp, hsel] at hsel'
  cases hsel'
  rw [hcalls, hcalls']

variable (py claw_min_valid_text_len debounce_ms) in
/-- What has become of the finals that were added. -/
structure Aggregated (s : AggregatorTasks) : Prop where
  timer : ∀ m, s.buffers m ≠ [] → ∃! i, s.LiveTimer m i
  closes : ∀ m i, s.LiveTimer m i → ∃ as s' calls,
    exec (step py claw_min_valid_text_len debounce_ms) s as = some s' ∧
      s'.bursts = s.bursts ++ [⟨m, s.buffers m, calls⟩]
  lossless : ∀ m, s.received.filter (·.msg_id = m) =
    (s.bursts.filter (·.msg_id = m)).flatMap (·.messages) ++ s.buffers m
  called : ∀ b ∈ s.bursts, ∀ x ∈ b.messages, ¬ x.Blank →
    ∃ best, b.calls = [best] ∧ Best claw_min_valid_text_len b.messages best
  silent : ∀ b ∈ s.bursts,
    0 < claw_min_valid_text_len ∨ (∀ x ∈ b.messages, strip x.text = x.text) →
      (∀ x ∈ b.messages, x.Blank) → b.calls = []
  order : ∀ s', Reach (step py claw_min_valid_text_len debounce_ms) Integral Initial s' →
    ∀ b ∈ s.bursts, ∀ b' ∈ s'.bursts, (b.messages.map ClawMessage.rank).Nodup →
      b.messages.Perm b'.messages → b'.calls = b.calls

/-- Every order of finals, timers and the tasks that are cancelled late. -/
theorem debounce (h : Reach (step py n debounce_ms) Integral Initial s) :
    s.Aggregated py n debounce_ms := by
  have hinv := inv_reach h
  refine ⟨?_, fun m i => hinv.closes, hinv.accounts, ?_, ?_, ?_⟩
  · intro m hm
    obtain ⟨i, hi⟩ := Option.ne_none_iff_exists'.mp ((hinv.timed m).mp hm)
    refine ⟨i, hinv.known m i hi, ?_⟩
    intro j hj
    exact Option.some.inj ((hinv.live m j hj).symm.trans hi)
  · exact fun b hb x hx => (hinv.decided b hb).called hx
  · exact fun b hb => (hinv.decided b hb).silent
  · exact fun s' h' b hb b' hb' => (hinv.decided b hb).order ((inv_reach h').decided b' hb')

/-- A final that is overtaken in its window, whose timer is cancelled before it starts. -/
def overtaken : List Act :=
  [.add_event ⟨"a", .num 2, "Thinking", .str "final", [], .str "r"⟩,
    .add_event ⟨"a", .num 1, "Ok.", .str "final", [], .str "r"⟩, .wake 0, .start 1, .tick 150,
    .wake 1]

theorem debounce_overtaken : ∃ s, exec (step {} 5 150) {} overtaken = some s ∧
    s.bursts.map (·.calls.map (·.text)) = [["Thinking"]] ∧ s.Aggregated {} 5 150 := by
  have h : ((exec (step {} 5 150) {} overtaken).any fun s =>
      s.bursts.map (·.calls.map (·.text)) = [["Thinking"]]) = true := by decide
  obtain ⟨s, hs, hcalls⟩ := (Option.any_eq_true _ _).mp h
  have hi : Initial {} := rfl
  have hm : Meets (step {} 5 150) Integral {} overtaken :=
    ⟨fun _ => ⟨2, rfl⟩, fun _ => ⟨1, rfl⟩, trivial, trivial, trivial, trivial, trivial⟩
  exact ⟨s, hs, of_decide_eq_true hcalls, debounce ((Reach.start hi).exec hm hs)⟩

/-! The buffers of the client are an abstraction of these -/

/-- The same buffers, with one deadline for each task, which the task does not undercut. -/
structure Refines (debounce_ms : Nat) (s : AggregatorTasks) (a : ClawAggregator) : Prop where
  buffers : a.buffers = s.buffers
  tasks : ∀ m, a.tasks m = none ↔ s.tasks m = none
  due : ∀ m due i t, a.tasks m = some due → s.tasks m = some i → s.timers i = some t →
    t.Until s.now debounce_ms due

/-- What the client's model does at a step of the tasks. -/
inductive Abstract (debounce_ms : Nat) (s : AggregatorTasks) (a : ClawAggregator) :
    Act → ClawAggregator → Prop
  | stay : Abstract debounce_ms s a act a
  | add_event : Abstract debounce_ms s a (.add_event msg) (a.add_event debounce_ms s.now msg)
  | pop : a.tasks m = some due → due ≤ s.now → Abstract debounce_ms s a (.wake i) (a.pop m)

theorem cancel_existing_other (known : ∀ m i, s.tasks m = some i → s.LiveTimer m i)
    (hi : s.timers i = some t) (hm : t.msg_id ≠ k) : (s.cancel_existing k).timers i = some t := by
  rw [AggregatorTasks.cancel_existing]
  split
  · rename_i e he
    obtain ⟨t', ht', rfl, hl⟩ := known k e he
    simp only [cancel, ht', hl, if_true]
    have hne : i ≠ e := by
      rintro rfl
      cases hi.symm.trans ht'
      exact hm rfl
    exact (Function.update_of_ne hne ..).trans hi
  · exact hi

theorem finalize_frame (py : Dynamics) (n i : Nat) (m : String) (s : AggregatorTasks) :
    (s.finalize py n i m).buffers = Function.update s.buffers m [] ∧
    (s.finalize py n i m).tasks = Function.update s.tasks m none ∧
    (s.finalize py n i m).timers = Function.update s.timers i (some ⟨m, .ended⟩) ∧
    (s.finalize py n i m).now = s.now := by
  rw [AggregatorTasks.finalize]
  split
  · exact ⟨rfl, rfl, rfl, rfl⟩
  · split
    · exact ⟨rfl, rfl, rfl, rfl⟩
    · exact ⟨rfl, rfl, rfl, rfl⟩

theorem Refines.renew {r : AggregatorTasks} {msg : ClawMessage} (hR : s.Refines debounce_ms a)
    (hbuf : r.buffers = Function.update s.buffers msg.msg_id (s.buffers msg.msg_id ++ [msg]))
    (htasks : r.tasks = Function.update s.tasks msg.msg_id (some e))
    (hnow : r.now = s.now) (he : r.timers e = some ⟨msg.msg_id, .created⟩)
    (hother : ∀ m i t, m ≠ msg.msg_id → s.tasks m = some i → r.timers i = some t →
      s.timers i = some t)
    (hf : is_final msg = true) :
    r.Refines debounce_ms (a.add_event debounce_ms s.now msg) := by
  rw [ClawAggregator.add_event, if_pos hf]
  refine ⟨?_, ?_, ?_⟩
  · rw [hbuf, hR.buffers]
  · intro m
    dsimp only
    rw [htasks]
    by_cases hk : m = msg.msg_id
    · subst hk
      rw [Function.update_self, Function.update_self]
      exact iff_of_false (Option.some_ne_none _) (Option.some_ne_none _)
    · rw [Function.update_of_ne hk, Function.update_of_ne hk]
      exact hR.tasks m
  · intro m due i t hdue hi ht
    dsimp only at hdue
    rw [htasks] at hi
    rw [hnow]
    by_cases hk : m = msg.msg_id
    · subst hk
      rw [Function.update_self] at hdue hi
      cases hdue
      cases hi
      cases ht.symm.trans he
      exact Nat.le_refl _
    · rw [Function.update_of_ne hk] at hdue hi
      exact hR.due m due i t hdue hi (hother m i t hk hi ht)

theorem Refines.finalize (hR : s.Refines debounce_ms a) :
    (s.finalize py n i m).Refines debounce_ms (a.pop m) := by
  obtain ⟨hbuf, htasks, htimers, hnow⟩ := finalize_frame py n i m s
  refine ⟨?_, ?_, ?_⟩
  · rw [ClawAggregator.pop, hbuf, hR.buffers]
  · intro k
    rw [ClawAggregator.pop, htasks]
    by_cases hk : k = m
    · subst hk
      simp only [Function.update_self]
    · simp only [Function.update_of_ne hk]
      exact hR.tasks k
  · intro k due j t hdue hj ht
    rw [ClawAggregator.pop] at hdue
    rw [htasks] at hj
    rw [htimers] at ht
    rw [hnow]
    by_cases hk : k = m
    · subst hk
      simp only [Function.update_self] at hj
      cases hj
    · simp only [Function.update_of_ne hk] at hdue hj
      by_cases hji : j = i
      · subst hji
        cases (Function.update_self ..).symm.trans ht
        trivial
      · exact hR.due k due j t hdue hj ((Function.update_of_ne hji ..).symm.trans ht)

/-- Each step of the tasks is one of the client's model, or none. -/
theorem step_refines (h : s.Inv py n) (hR : s.Refines debounce_ms a)
    (hs : s.step py n debounce_ms act = some s') :
    ∃ a', Abstract debounce_ms s a act a' ∧ s'.Refines debounce_ms a' := by
  cases act with
  | tick ms =>
    cases hs
    refine ⟨a, .stay, hR.buffers, hR.tasks, ?_⟩
    intro m due i t hdue hi ht
    have hu := hR.due m due i t hdue hi ht
    rw [Timer.Until] at hu ⊢
    split at hu
    · exact Nat.le_trans hu (Nat.add_le_add_right (Nat.le_add_right _ _) _)
    · exact hu
    · trivial
    · trivial
  | add_event msg =>
    cases hs
    rw [AggregatorTasks.add_event]
    by_cases hf : is_final msg = true
    · rw [if_pos hf]
      obtain ⟨hbuf, htasks, hnext, -, -, hnow⟩ := cancel_existing_frame { s with
        buffers := Function.update s.buffers msg.msg_id (s.buffers msg.msg_id ++ [msg])
        received := s.received ++ [msg] } msg.msg_id
      refine ⟨_, .add_event, hR.renew hbuf ?_ hnow (Function.update_self ..) ?_ hf⟩
      · dsimp only
        rw [htasks]
      · intro m i t hk hi ht
        obtain ⟨t', ht', rfl, hl⟩ := h.known m i hi
        have hne : i ≠ s.next := by
          rintro rfl
          rw [h.fresh _ (Nat.le_refl _)] at ht'
          cases ht'
        dsimp only at ht
        rw [hnext, Function.update_of_ne hne] at ht
        have hold : ({ s with
            buffers := Function.update s.buffers msg.msg_id (s.buffers msg.msg_id ++ [msg])
            received := s.received ++ [msg] }.cancel_existing msg.msg_id).timers i = some t' :=
          cancel_existing_other h.known ht' hk
        cases ht.symm.trans hold
        exact ht'
    · rw [if_neg hf]
      exact ⟨a, .stay, hR⟩
  | start i =>
    simp only [step] at hs
    split at hs
    · rename_i m ht
      cases hs
      refine ⟨a, .stay, hR.buffers, hR.tasks, ?_⟩
      intro k due j t hdue hj hjt
      by_cases hji : j = i
      · subst hji
        have hu := hR.due k due j _ hdue hj ht
        cases (Function.update_self ..).symm.trans hjt
        exact hu
      · exact hR.due k due j t hdue hj ((Function.update_of_ne hji ..).symm.trans hjt)
    · cases hs
  | wake i =>
    simp only [step] at hs
    split at hs
    · rename_i m d ht
      split at hs
      · rename_i hd
        cases hs
        have hi := h.live m i ⟨_, ht, rfl, rfl⟩
        have hsome : a.tasks m ≠ none := fun hn => by simp [(hR.tasks m).mp hn] at hi
        obtain ⟨due, hdue⟩ := Option.ne_none_iff_exists'.mp hsome
        have hu : due ≤ d := hR.due m due i _ hdue hi ht
        exact ⟨_, .pop hdue (Nat.le_trans hu hd), hR.finalize⟩
      · cases hs
    · rename_i m ht
      cases hs
      refine ⟨a, .stay, hR.buffers, hR.tasks, ?_⟩
      intro k due j t hdue hj hjt
      by_cases hji : j = i
      · subst hji
        cases (Function.update_self ..).symm.trans hjt
        trivial
      · exact hR.due k due j t hdue hj ((Function.update_of_ne hji ..).symm.trans hjt)
    · cases hs

theorem refines_reach (h : Reach (step py n debounce_ms) Integral Initial s) :
    ∃ a, Relation.ReflTransGen (fun a a' => ∃ s act, Abstract debounce_ms s a act a') {} a ∧
      s.Refines debounce_ms a := by
  induction h with
  | start hi =>
    rw [Initial] at hi
    subst hi
    exact ⟨{}, .refl, rfl, fun _ => Iff.rfl, fun _ _ _ _ h => by cases h⟩
  | next hr hc hs ih =>
    obtain ⟨a, ha, hR⟩ := ih
    obtain ⟨a', hstep, hR'⟩ := step_refines (inv_reach hr) hR hs
    exact ⟨a', ha.tail ⟨_, _, hstep⟩, hR'⟩

end AggregatorTasks

end ClawMux
