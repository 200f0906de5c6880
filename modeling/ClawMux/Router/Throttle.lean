import Mathlib.Data.List.Forall2
import ClawMux.Router.StreamUpdater

namespace ClawMux
set_option autoImplicit true
open Lib Lib.Text

/-- An updater in time: the texts that `on_stream` was called with, in order, and which of these
calls has begun an edit when. -/
structure Timed where
  streaming : Streaming := {}
  clock : Int
  calls : List String := []
  starts : List (Nat × Int) := []

inductive TimedAct
  | tick (d : Nat)
  | call (text : String)
  | grant (t : Nat)
  | finish (t : Nat)

namespace Timed

variable (u : StreamUpdater) (final_edit : Edit)

/-- What the call has done; an edit begins when it is issued. -/
def log (s : Timed) (t : Nat) (streaming : Streaming) : Timed :=
  { s with
    streaming := streaming
    starts := s.starts ++
      if s.streaming.issued.length < streaming.issued.length then [(t, s.clock)] else [] }

def call (s : Timed) (text : String) : Option Streaming :=
  exec (Streaming.step u final_edit) s.streaming
    [.spawn s.calls.length text, .start s.calls.length s.clock]

def step (s : Timed) : TimedAct → Option Timed
  | .tick d => some { s with clock := s.clock + d }
  | .call text => (s.call u final_edit text).map fun streaming =>
    { s.log s.calls.length streaming with calls := s.calls ++ [text] }
  | .grant t => (s.streaming.step u final_edit (.grant t)).map (s.log t)
  | .finish t => (s.streaming.step u final_edit (.finish t)).map (s.log t)

def Initial (s : Timed) : Prop := ∃ clock, s = { clock := clock }

/-- A call that has waited for the lock does not edit, unless it has waited for no time. -/
def prompt (s : Timed) : TimedAct → Bool
  | .grant t =>
    match s.streaming.task t with
    | some (.waiting _ now) => s.streaming.throttled u now || now = s.clock
    | _ => true
  | _ => true

structure Throttled (s : Timed) : Prop where
  apart : s.starts.Pairwise fun a b => a.2 + u.interval ≤ b.2
  in_order : s.starts.Pairwise fun a b => a.1 < b.1
  texts : List.Forall₂ (fun a e => ∃ text, s.calls[a.1]? = some text ∧ e = u.edit text)
    s.starts s.streaming.issued

end Timed

/-! What a step does -/

namespace Streaming
variable {u : StreamUpdater} {final_edit : Edit} {s s' : Streaming}

theorem enter_open (t : Nat) (text : String) (h : s.throttled u now = false) :
    (s.enter u t text now).issued = s.issued ++ [u.edit text] ∧
      (s.enter u t text now).last_update = now ∧ (s.enter u t text now).lock = s.lock := by
  rw [enter, h, if_neg Bool.false_ne_true]
  exact ⟨rfl, rfl, rfl⟩

theorem enter_throttled (t : Nat) (text : String) (h : s.throttled u now = true) :
    (s.enter u t text now).issued = s.issued ∧
      (s.enter u t text now).last_update = s.last_update ∧
      (s.enter u t text now).lock = s.lock.release := by
  rw [enter, h, if_pos rfl]
  exact ⟨rfl, rfl, rfl⟩

theorem set_self (s : Streaming) : (s.set t x).task t = some x := Function.update_self ..

theorem set_waits (hx : ∀ text now, x ≠ .waiting text now)
    (h : (s.set t x).task t' = some (.waiting text now)) :
    s.task t' = some (.waiting text now) := by
  by_cases ht : t' = t
  · rw [ht] at h
    exact absurd (Option.some.inj ((set_self s).symm.trans h)) (hx text now)
  · exact (Function.update_of_ne ht ..).symm.trans h

theorem enter_waits (h : (s.enter u t text now).task t' = some (.waiting text' now')) :
    s.task t' = some (.waiting text' now') := by
  rw [enter] at h
  split at h
  · exact set_waits (fun _ _ he => by cases he) h
  · exact set_waits (fun _ _ he => by cases he) h

end Streaming

namespace Timed
variable {u : StreamUpdater} {final_edit : Edit} {s s' : Timed}

def Waits (s : Timed) (t : Nat) (text : String) (now : Int) : Prop :=
  s.streaming.task t = some (.waiting text now)

/-- No edit begins; a call may be made, and the first of those that wait may go away. -/
structure Quiet (s s' : Timed) : Prop where
  calls : s.calls <+: s'.calls
  starts : s'.starts = s.starts
  clock : s.clock ≤ s'.clock
  issued : s'.streaming.issued = s.streaming.issued
  last_update : s'.streaming.last_update = s.streaming.last_update
  waiters : s'.streaming.lock.waiters <:+ s.streaming.lock.waiters
  waits : ∀ t text now, s'.Waits t text now → s.Waits t text now

/-- A call joins those that wait. -/
structure Queued (s s' : Timed) (text : String) : Prop where
  calls : s'.calls = s.calls ++ [text]
  starts : s'.starts = s.starts
  clock : s'.clock = s.clock
  issued : s'.streaming.issued = s.streaming.issued
  last_update : s'.streaming.last_update = s.streaming.last_update
  waiters : s'.streaming.lock.waiters = s.streaming.lock.waiters ++ [s.calls.length]
  waits : ∀ t text' now, s'.Waits t text' now →
    s.Waits t text' now ∨ t = s.calls.length ∧ text' = text

/-- A call begins its edit, by the time that it has read. -/
structure Edited (u : StreamUpdater) (s s' : Timed) (t : Nat) (text : String) (now : Int) :
    Prop where
  starts : s'.starts = s.starts ++ [(t, s.clock)]
  clock : s'.clock = s.clock
  issued : s'.streaming.issued = s.streaming.issued ++ [u.edit text]
  last_update : s'.streaming.last_update = now
  open_window : s.streaming.throttled u now = false
  waits : ∀ t text' now, s'.Waits t text' now → s.Waits t text' now

inductive Next (u : StreamUpdater) (s s' : Timed) : TimedAct → Prop
  | quiet {a : TimedAct} : Quiet s s' → Next u s s' a
  | queued (text : String) : Queued s s' text → Next u s s' (.call text)
  | at_once (text : String) : Edited u s s' s.calls.length text s.clock →
      s'.calls = s.calls ++ [text] → s'.streaming.lock.waiters = [] → Next u s s' (.call text)
  | late (t : Nat) (text : String) (now : Int) : Edited u s s' t text now → s.Waits t text now →
      s'.calls = s.calls → s.streaming.lock.waiters = t :: s'.streaming.lock.waiters →
      Next u s s' (.grant t)

theorem log_same {x : Streaming} (h : x.issued = s.streaming.issued) :
    (s.log t x).starts = s.starts := by
  simp [log, h]

theorem log_more {x : Streaming} (h : x.issued = s.streaming.issued ++ [e]) :
    (s.log t x).starts = s.starts ++ [(t, s.clock)] := by
  simp [log, h]

theorem call_next (hs : s.step u final_edit (.call text) = some s') : Next u s s' (.call text) := by
  obtain ⟨x, hcall, rfl⟩ := Option.map_eq_some_iff.mp hs
  obtain ⟨s₁, hspawn, hcall⟩ := exec_cons.mp hcall
  obtain ⟨s₂, hstart, hcall⟩ := exec_cons.mp hcall
  cases hcall
  cases Streaming.step_changes hspawn with
  | spawn t text hf =>
    have hself : (s.streaming.set s.calls.length (.created text)).task s.calls.length =
        some (.created text) := Streaming.set_self s.streaming
    have hcreated : ∀ {t text' now}, (s.streaming.set s.calls.length (.created text)).task t =
        some (.waiting text' now) → s.Waits t text' now := fun h =>
      Streaming.set_waits (fun _ _ he => by cases he) h
    have hdone : ∀ {y : Streaming}, y.task = (s.streaming.set s.calls.length (.created text)).task →
        ∀ t text' now, (y.set s.calls.length .done).task t = some (.waiting text' now) →
          s.Waits t text' now := fun hy t text' now h =>
      hcreated (hy ▸ Streaming.set_waits (fun _ _ he => by cases he) h)
    cases Streaming.step_changes hstart with
    | skips t text' now ht hb =>
      exact .quiet ⟨List.prefix_append .., log_same rfl, Int.le_refl s.clock, rfl, rfl,
        List.suffix_rfl, hdone rfl⟩
    | throttles t text' now ht hb =>
      exact .quiet ⟨List.prefix_append .., log_same rfl, Int.le_refl s.clock, rfl, rfl,
        List.suffix_rfl, hdone rfl⟩
    | enters t text' now ht hb hopen hfree =>
      cases hself.symm.trans ht
      have hopen : s.streaming.throttled u s.clock = false := hopen
      obtain ⟨hissued, hstamp, hlock⟩ := Streaming.enter_open (s := { s.streaming.set
        s.calls.length (.created text) with lock := s.streaming.lock.take s.calls.length })
          s.calls.length text hopen
      refine .at_once text ⟨log_more hissued, rfl, hissued, hstamp, hopen, ?_⟩ rfl ?_
      · intro t text' now hwaits
        exact hcreated (Streaming.enter_waits (s := { s.streaming.set s.calls.length
          (.created text) with lock := s.streaming.lock.take s.calls.length }) hwaits)
      · exact (congrArg FifoLock.waiters hlock).trans ((FifoLock.free_iff _).mp hfree).2
    | waits t text' now ht hb =>
      cases hself.symm.trans ht
      refine .queued text ⟨rfl, log_same rfl, rfl, rfl, rfl, rfl, ?_⟩
      intro t text' now hwaits
      by_cases ht : t = s.calls.length
      · subst ht
        cases (Function.update_self ..).symm.trans hwaits
        exact .inr ⟨rfl, rfl⟩
      · exact .inl (hcreated ((Function.update_of_ne ht ..).symm.trans hwaits))

theorem grant_next (hs : s.step u final_edit (.grant t) = some s') : Next u s s' (.grant t) := by
  obtain ⟨x, hgrant, rfl⟩ := Option.map_eq_some_iff.mp hs
  cases Streaming.step_changes hgrant with
  | grants t text now lock htask hlock =>
    obtain ⟨-, hwaiters, -⟩ := FifoLock.grant_some hlock
    have hwaits : ∀ t' text' now',
        ({ s.streaming with lock := lock }.enter u t text now).task t' =
          some (.waiting text' now') → s.Waits t' text' now' := fun _ _ _ h =>
      Streaming.enter_waits (s := { s.streaming with lock := lock }) h
    cases hopen : s.streaming.throttled u now with
    | true =>
      obtain ⟨hissued, hstamp, hrelease⟩ := Streaming.enter_throttled
        (s := { s.streaming with lock := lock }) t text hopen
      refine .quiet ⟨List.prefix_rfl, log_same hissued, Int.le_refl s.clock, hissued, hstamp,
        ⟨[t], ?_⟩, hwaits⟩
      rw [hwaiters, ← FifoLock.release_waiters lock]
      exact congrArg (t :: ·) (congrArg FifoLock.waiters hrelease)
    | false =>
      obtain ⟨hissued, hstamp, hkept⟩ := Streaming.enter_open
        (s := { s.streaming with lock := lock }) t text hopen
      refine .late t text now ⟨log_more hissued, rfl, hissued, hstamp, hopen,
        hwaits⟩ htask rfl ?_
      rw [hwaiters]
      exact congrArg (t :: ·) (congrArg FifoLock.waiters hkept).symm

theorem step_next (hs : s.step u final_edit a = some s') : Next u s s' a := by
  cases a with
  | tick d =>
    cases hs
    have hclock : s.clock ≤ s.clock + (d : Int) := by omega
    exact .quiet ⟨List.prefix_rfl, rfl, hclock, rfl, rfl, List.suffix_rfl, fun _ _ _ h => h⟩
  | call text => exact call_next hs
  | grant t => exact grant_next hs
  | finish t =>
    obtain ⟨x, hfinish, rfl⟩ := Option.map_eq_some_iff.mp hs
    cases Streaming.step_changes hfinish with
    | finishes t text b ht =>
      refine .quiet ⟨List.prefix_rfl, log_same rfl, Int.le_refl s.clock, rfl, rfl,
        List.suffix_rfl, ?_⟩
      exact fun _ _ _ hwaits => Streaming.set_waits (fun _ _ he => by cases he) hwaits

/-- The calls that have edited come before those that wait, and the waiting calls are in order. -/
structure Ordered (s : Timed) : Prop where
  starts : ∀ a ∈ s.starts, a.1 < s.calls.length ∧ ∀ t ∈ s.streaming.lock.waiters, a.1 < t
  waiters : ∀ t ∈ s.streaming.lock.waiters, t < s.calls.length
  sorted : s.streaming.lock.waiters.Pairwise (· < ·)
  in_order : s.starts.Pairwise fun a b => a.1 < b.1

theorem Ordered.next (h : s.Ordered) (hn : Next u s s' a) : s'.Ordered := by
  cases hn with
  | quiet hq =>
    have hlen := hq.calls.length_le
    have hw := hq.waiters.subset
    constructor
    case starts =>
      intro a ha
      obtain ⟨hlt, hbefore⟩ := h.starts a (hq.starts ▸ ha)
      exact ⟨by omega, fun t ht => hbefore t (hw ht)⟩
    case waiters => exact fun t ht => (h.waiters t (hw ht)).trans_le hlen
    case sorted => exact h.sorted.sublist hq.waiters.sublist
    case in_order => exact hq.starts ▸ h.in_order
  | queued text hq =>
    have hlen : s'.calls.length = s.calls.length + 1 := by
      rw [hq.calls, List.length_append, List.length_singleton]
    constructor
    case starts =>
      intro a ha
      obtain ⟨hlt, hbefore⟩ := h.starts a (hq.starts ▸ ha)
      refine ⟨by omega, ?_⟩
      intro t ht
      rcases List.mem_append.mp (hq.waiters ▸ ht) with ht | ht
      · exact hbefore t ht
      · exact List.mem_singleton.mp ht ▸ hlt
    case waiters =>
      intro t ht
      rcases List.mem_append.mp (hq.waiters ▸ ht) with ht | ht
      · exact (h.waiters t ht).trans (by omega)
      · rw [List.mem_singleton.mp ht]
        omega
    case sorted =>
      rw [hq.waiters, List.pairwise_append]
      refine ⟨h.sorted, List.pairwise_singleton .., ?_⟩
      intro t ht n hn
      exact List.mem_singleton.mp hn ▸ h.waiters t ht
    case in_order => exact hq.starts ▸ h.in_order
  | at_once text he hcalls hnone =>
    have hlen : s'.calls.length = s.calls.length + 1 := by
      rw [hcalls, List.length_append, List.length_singleton]
    constructor
    case starts =>
      intro a ha
      rw [hnone]
      refine ⟨?_, fun t ht => by cases ht⟩
      rcases List.mem_append.mp (he.starts ▸ ha) with ha | ha
      · have hlt := (h.starts a ha).1
        omega
      · rw [List.mem_singleton.mp ha]
        omega
    case waiters =>
      rw [hnone]
      exact fun t ht => by cases ht
    case sorted =>
      rw [hnone]
      exact .nil
    case in_order =>
      rw [he.starts, List.pairwise_append]
      refine ⟨h.in_order, List.pairwise_singleton .., ?_⟩
      intro a ha b hb
      exact List.mem_singleton.mp hb ▸ (h.starts a ha).1
  | late t text now he _ hcalls hfirst =>
    have hmem : t ∈ s.streaming.lock.waiters := hfirst ▸ List.mem_cons_self
    have hsorted := h.sorted
    rw [hfirst, List.pairwise_cons] at hsorted
    have hrest : ∀ t' ∈ s'.streaming.lock.waiters, t' ∈ s.streaming.lock.waiters :=
      fun t' ht => hfirst ▸ List.mem_cons_of_mem _ ht
    constructor
    case starts =>
      intro a ha
      rcases List.mem_append.mp (he.starts ▸ ha) with ha | ha
      · obtain ⟨hlt, hbefore⟩ := h.starts a ha
        exact ⟨hcalls ▸ hlt, fun t' ht => hbefore t' (hrest t' ht)⟩
      · rw [List.mem_singleton.mp ha, hcalls]
        exact ⟨h.waiters t hmem, hsorted.1⟩
    case waiters => exact fun t' ht => hcalls ▸ h.waiters t' (hrest t' ht)
    case sorted => exact hsorted.2
    case in_order =>
      rw [he.starts, List.pairwise_append]
      refine ⟨h.in_order, List.pairwise_singleton .., ?_⟩
      intro a ha b hb
      exact List.mem_singleton.mp hb ▸ (h.starts a ha).2 t hmem

/-- What a call is about is known until it edits. -/
structure Labelled (u : StreamUpdater) (s : Timed) : Prop where
  waits : ∀ t text now, s.Waits t text now → s.calls[t]? = some text
  texts : List.Forall₂ (fun a e => ∃ text, s.calls[a.1]? = some text ∧ e = u.edit text)
    s.starts s.streaming.issued

theorem getElem?_prefix {xs ys : List String} {n : Nat} {x : String} (h : xs <+: ys)
    (hx : xs[n]? = some x) : ys[n]? = some x := by
  obtain ⟨more, rfl⟩ := h
  obtain ⟨hlt, -⟩ := List.getElem?_eq_some_iff.mp hx
  rw [List.getElem?_append_left hlt]
  exact hx

theorem Labelled.next (h : s.Labelled u) (hn : Next u s s' a) : s'.Labelled u := by
  have htexts : ∀ {calls : List String}, s.calls <+: calls → List.Forall₂ (fun a e => ∃ text,
      calls[a.1]? = some text ∧ e = u.edit text) s.starts s.streaming.issued := by
    intro calls hpre
    apply h.texts.imp
    rintro a e ⟨text, htext, he⟩
    exact ⟨text, getElem?_prefix hpre htext, he⟩
  have hedit : ∀ {t text now}, s.calls <+: s'.calls → s'.calls[t]? = some text →
      Edited u s s' t text now → s'.Labelled u := by
    intro t text now hpre htext he
    refine ⟨?_, ?_⟩
    · exact fun t' text' now' hw =>
        getElem?_prefix hpre (h.waits t' text' now' (he.waits _ _ _ hw))
    rw [he.starts, he.issued]
    exact List.rel_append (htexts hpre) (.cons ⟨text, htext, rfl⟩ .nil)
  cases hn with
  | quiet hq =>
    refine ⟨fun t text now hw =>
      getElem?_prefix hq.calls (h.waits t text now (hq.waits _ _ _ hw)), ?_⟩
    rw [hq.starts, hq.issued]
    exact htexts hq.calls
  | queued text hq =>
    have hpre : s.calls <+: s'.calls := hq.calls ▸ List.prefix_append ..
    refine ⟨fun t text' now hw => ?_, ?_⟩
    · rcases hq.waits t text' now hw with hw | ⟨rfl, rfl⟩
      · exact getElem?_prefix hpre (h.waits t text' now hw)
      · rw [hq.calls]
        exact List.getElem?_concat_length
    · rw [hq.starts, hq.issued]
      exact htexts hpre
  | at_once text he hcalls _ =>
    refine hedit (hcalls ▸ List.prefix_append ..) ?_ he
    rw [hcalls]
    exact List.getElem?_concat_length
  | late t text now he hw hcalls _ =>
    exact hedit (hcalls ▸ List.prefix_rfl) (hcalls ▸ h.waits t text now hw) he

/-- The stamp is no older than the last edit. -/
structure Stamped (u : StreamUpdater) (s : Timed) : Prop where
  past : ∀ a ∈ s.starts, a.2 ≤ s.clock
  stamp : ∀ a ∈ s.starts, a.2 ≤ s.streaming.last_update
  apart : s.starts.Pairwise fun a b => a.2 + u.interval ≤ b.2

/-- An edit begins at the time that it is stamped with. -/
theorem Stamped.edited (h : s.Stamped u) (he : Edited u s s' t text s.clock) : s'.Stamped u := by
  have hopen : ¬ s.clock - s.streaming.last_update < u.interval := of_decide_eq_false he.open_window
  have hpast : ∀ a ∈ s'.starts, a.2 ≤ s.clock := by
    intro a ha
    rcases List.mem_append.mp (he.starts ▸ ha) with ha | ha
    · exact h.past a ha
    · obtain rfl := List.mem_singleton.mp ha
      exact Int.le_refl _
  refine ⟨he.clock ▸ hpast, he.last_update ▸ hpast, ?_⟩
  rw [he.starts, List.pairwise_append]
  refine ⟨h.apart, List.pairwise_singleton .., ?_⟩
  intro a ha b hb
  have hstamp := h.stamp a ha
  rw [List.mem_singleton.mp hb]
  dsimp only
  omega

theorem Stamped.unchanged (h : s.Stamped u) (hstarts : s'.starts = s.starts)
    (hclock : s.clock ≤ s'.clock) (hstamp : s'.streaming.last_update = s.streaming.last_update) :
    s'.Stamped u where
  past a ha := Int.le_trans (h.past a (hstarts ▸ ha)) hclock
  stamp a ha := hstamp ▸ h.stamp a (hstarts ▸ ha)
  apart := hstarts ▸ h.apart

theorem Stamped.next (h : s.Stamped u) (hp : s.prompt u a = true) (hn : Next u s s' a) :
    s'.Stamped u := by
  cases hn with
  | quiet hq => exact h.unchanged hq.starts hq.clock hq.last_update
  | queued text hq => exact h.unchanged hq.starts (Int.le_of_eq hq.clock.symm) hq.last_update
  | at_once text he _ _ => exact h.edited he
  | late t text now he hw _ _ =>
    have hwaiting : s.streaming.task t = some (.waiting text now) := hw
    rw [prompt, hwaiting] at hp
    dsimp only at hp
    rw [he.open_window, Bool.false_or] at hp
    exact h.edited (of_decide_eq_true hp ▸ he)

theorem reach_inv (h : Reach (step u final_edit) (fun s a => s.prompt u a = true) Initial s) :
    s.Ordered ∧ s.Labelled u ∧ s.Stamped u := by
  refine h.invariant (I := fun s => s.Ordered ∧ s.Labelled u ∧ s.Stamped u) ?_ ?_
  · rintro s ⟨clock, rfl⟩
    refine ⟨⟨?_, ?_, .nil, .nil⟩, ⟨?_, .nil⟩, ⟨?_, ?_, .nil⟩⟩
    · exact fun a ha => by cases ha
    · exact fun t ht => by cases ht
    · exact fun t text now hw => by cases hw
    · exact fun a ha => by cases ha
    · exact fun a ha => by cases ha
  · rintro s a s' ⟨hordered, hlabelled, hstamped⟩ hp hs
    have hn := step_next hs
    exact ⟨hordered.next hn, hlabelled.next hn, hstamped.next hp hn⟩

end Timed

/-- In every run in which no call edits by a time that it read before it waited. -/
theorem stream_updates_throttled {u : StreamUpdater} {final_edit : Edit} {s : Timed}
    (h : Reach (Timed.step u final_edit) (fun s a => s.prompt u a = true) Timed.Initial s) :
    s.Throttled u := by
  obtain ⟨hordered, hlabelled, hstamped⟩ := Timed.reach_inv h
  exact ⟨hstamped.apart, hordered.in_order, hlabelled.texts⟩

namespace Timed

/-- The second and the third call wait for the first edit. The second one edits as soon as that has
ended, and the window is closed again when the third gets the lock. -/
def throttled_run : List TimedAct :=
  [.call "a", .tick 900, .call "b", .call "c", .finish 0, .grant 1, .tick 200, .finish 1, .grant 2,
    .tick 900, .call "d"]

/-- The second call waits for a slow edit; the third comes right after its edit. -/
def slow_edit : List TimedAct :=
  [.call "a", .tick 1000, .call "b", .tick 9000, .finish 0, .grant 1, .tick 50, .finish 1,
    .tick 50, .call "c"]

end Timed

theorem stream_updates_throttled_run : ∃ s : Timed, s.Throttled Streaming.updater ∧
    s.starts = [(0, 5000), (1, 5900), (3, 7000)] := by
  have hread : (exec (Timed.step Streaming.updater Streaming.answer_edit) { clock := 5000 }
      Timed.throttled_run).map Timed.starts = some [(0, 5000), (1, 5900), (3, 7000)] := by decide
  have hmeets : Meets (Timed.step Streaming.updater Streaming.answer_edit)
      (fun s a => s.prompt Streaming.updater a = true) { clock := 5000 } Timed.throttled_run := by
    decide
  obtain ⟨s, hs, hval⟩ := Option.map_eq_some_iff.mp hread
  have hinit : Timed.Initial { clock := 5000 } := ⟨5000, rfl⟩
  exact ⟨s, stream_updates_throttled ((Reach.start hinit).exec hmeets hs), hval⟩

/-- Two edits 100 milliseconds apart. -/
theorem not_stream_updates_throttled : ∃ s, Reach (Timed.step Streaming.updater
    Streaming.answer_edit) Any Timed.Initial s ∧ ¬ s.Throttled Streaming.updater := by
  have hread : (exec (Timed.step Streaming.updater Streaming.answer_edit) { clock := 5000 }
      Timed.slow_edit).map Timed.starts = some [(0, 5000), (1, 15000), (2, 15100)] := by decide
  obtain ⟨s, hs, hval⟩ := Option.map_eq_some_iff.mp hread
  have hinit : Timed.Initial { clock := 5000 } := ⟨5000, rfl⟩
  refine ⟨s, reach_of_exec hinit hs, fun h => ?_⟩
  have hapart := h.apart
  rw [hval] at hapart
  revert hapart
  decide

end ClawMux
