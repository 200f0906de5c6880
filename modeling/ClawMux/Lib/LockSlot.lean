import ClawMux.Lib.FifoLock
import Mathlib.Logic.Function.Basic

namespace Lib
set_option autoImplicit true

/-- A dictionary entry for a lock: the lock objects made so far and the one the entry names. -/
structure LockSlot (τ : Type) where
  heap : Nat → FifoLock τ := fun _ => {}
  next : Nat := 0
  slot : Option Nat := none

theorem update_of_eq [DecidableEq α] {f : α → β} (h : f a = b) : Function.update f a b = f :=
  h ▸ Function.update_eq_self a f

namespace LockSlot

/-- The lock that the entry names, made anew when there is none. -/
def get (s : LockSlot τ) : LockSlot τ × Nat :=
  match s.slot with
  | some l => (s, l)
  | none =>
    (⟨Function.update s.heap s.next {}, s.next + 1, some s.next⟩, s.next)

def pop (s : LockSlot τ) : LockSlot τ := { s with slot := none }

def put (s : LockSlot τ) (l : Nat) (x : FifoLock τ) : LockSlot τ :=
  { s with heap := Function.update s.heap l x }

def take (s : LockSlot τ) (l : Nat) (t : τ) : LockSlot τ := s.put l ((s.heap l).take t)

def enqueue (s : LockSlot τ) (l : Nat) (t : τ) : LockSlot τ := s.put l ((s.heap l).enqueue t)

def release (s : LockSlot τ) (l : Nat) : LockSlot τ := s.put l (s.heap l).release

def withdraw [DecidableEq τ] (s : LockSlot τ) (l : Nat) (t : τ) : LockSlot τ :=
  s.put l ((s.heap l).withdraw t)

def grant [DecidableEq τ] (s : LockSlot τ) (l : Nat) (t : τ) : Option (LockSlot τ) :=
  ((s.heap l).grant t).map (s.put l)

/-- The lock that a task holds or waits for. -/
def Uses (holds waits : τ → Option Nat) (t : τ) (l : Nat) : Prop :=
  holds t = some l ∨ waits t = some l

/-- The queues agree with what the tasks do, and all tasks use one lock, the one of the entry
unless that has been popped. -/
structure Ok (s : LockSlot τ) (holds waits : τ → Option Nat) : Prop where
  holder : ∀ l t, (s.heap l).holder = some t ↔ holds t = some l
  waiter : ∀ l t, t ∈ (s.heap l).waiters ↔ waits t = some l
  nodup : ∀ l, (s.heap l).waiters.Nodup
  one : ∀ t l t' l', Uses holds waits t l → Uses holds waits t' l' → l = l'
  slot : ∀ l t l', s.slot = some l → Uses holds waits t l' → l' = l

variable {s : LockSlot τ} {holds waits : τ → Option Nat}

theorem Ok.exclusive (h : s.Ok holds waits) (ht : holds t = some l) (hu : holds u = some m) :
    t = u := by
  have hl := h.one t l u m (.inl ht) (.inl hu)
  have hm := (h.holder m u).mpr hu
  rw [← hl, (h.holder l t).mpr ht] at hm
  exact Option.some.inj hm

theorem Ok.pop (h : s.Ok holds waits) : s.pop.Ok holds waits :=
  ⟨h.holder, h.waiter, h.nodup, h.one, fun _ _ _ he => by cases he⟩

/-- A lock may be made only while no task uses an earlier one. -/
theorem Ok.get (h : s.Ok holds waits)
    (hc : s.slot = none → ∀ t l, ¬ Uses holds waits t l) :
    s.get.1.Ok holds waits ∧ s.get.1.slot = some s.get.2 := by
  rw [LockSlot.get]
  split
  · rename_i l hs
    exact ⟨h, hs⟩
  · rename_i hs
    have hn := hc hs
    refine ⟨⟨?_, ?_, ?_, h.one, fun _ t l' _ hu => (hn t l' hu).elim⟩, rfl⟩
    · intro l t
      by_cases hl : l = s.next
      · subst hl
        simp only [Function.update_self, reduceCtorEq, false_iff]
        exact fun hu => hn t _ (.inl hu)
      · simp only [Function.update_of_ne hl]
        exact h.holder l t
    · intro l t
      by_cases hl : l = s.next
      · subst hl
        simp only [Function.update_self, List.not_mem_nil, false_iff]
        exact fun hu => hn t _ (.inr hu)
      · simp only [Function.update_of_ne hl]
        exact h.waiter l t
    · intro l
      by_cases hl : l = s.next
      · subst hl
        simp only [Function.update_self, List.nodup_nil]
      · simp only [Function.update_of_ne hl]
        exact h.nodup l

section Tasks
variable [DecidableEq τ]

theorem uses_update {x y : Option Nat}
    (h : Uses (Function.update holds t x) (Function.update waits t y) u l) :
    (u = t ∧ (x = some l ∨ y = some l)) ∨ (u ≠ t ∧ Uses holds waits u l) := by
  by_cases hu : u = t
  · subst hu
    rw [Uses, Function.update_self, Function.update_self] at h
    exact .inl ⟨rfl, h⟩
  · rw [Uses, Function.update_of_ne hu, Function.update_of_ne hu] at h
    exact .inr ⟨hu, h⟩

/-- The task `t` goes over to holding `x` and waiting for `y` by a change of lock `l` alone. -/
theorem Ok.move (h : s.Ok holds waits) (q : FifoLock τ) (x y : Option Nat)
    (hold : ∀ m, Uses holds waits t m → m = l)
    (hx : ∀ m, x = some m ∨ y = some m → m = l ∧
      (Uses holds waits t m ∨ s.slot = some m))
    (hself : q.holder = some t ↔ x = some l) (hwself : t ∈ q.waiters ↔ y = some l)
    (hq : q.waiters.Nodup) (hother : ∀ u, u ≠ t → (q.holder = some u ↔ (s.heap l).holder = some u))
    (hwother : ∀ u, u ≠ t → (u ∈ q.waiters ↔ u ∈ (s.heap l).waiters)) :
    (s.put l q).Ok (Function.update holds t x) (Function.update waits t y) := by
  have hsame : ∀ u m, Uses (Function.update holds t x) (Function.update waits t y) u m →
      Uses holds waits u m ∨ s.slot = some m := by
    intro u m hu
    rcases uses_update hu with ⟨rfl, hm⟩ | ⟨-, hm⟩
    · exact (hx m hm).2
    · exact .inl hm
  refine ⟨?_, ?_, ?_, ?_, ?_⟩
  · intro m u
    by_cases hu : u = t
    · subst hu
      rw [Function.update_self]
      by_cases hm : m = l
      · subst hm
        simp only [put, Function.update_self, hself]
      · simp only [put, Function.update_of_ne hm]
        rw [h.holder]
        exact ⟨fun he => (hm (hold m (.inl he))).elim, fun he => (hm (hx m (.inl he)).1).elim⟩
    · rw [Function.update_of_ne hu, ← h.holder]
      by_cases hm : m = l
      · subst hm
        simp only [put, Function.update_self, hother u hu]
      · simp only [put, Function.update_of_ne hm]
  · intro m u
    by_cases hu : u = t
    · subst hu
      rw [Function.update_self]
      by_cases hm : m = l
      · subst hm
        simp only [put, Function.update_self, hwself]
      · simp only [put, Function.update_of_ne hm]
        rw [h.waiter]
        exact ⟨fun he => (hm (hold m (.inr he))).elim, fun he => (hm (hx m (.inr he)).1).elim⟩
    · rw [Function.update_of_ne hu, ← h.waiter]
      by_cases hm : m = l
      · subst hm
        simp only [put, Function.update_self, hwother u hu]
      · simp only [put, Function.update_of_ne hm]
  · intro m
    by_cases hm : m = l
    · subst hm
      simpa only [put, Function.update_self] using hq
    · simpa only [put, Function.update_of_ne hm] using h.nodup m
  · intro u m v n hu hv
    rcases hsame u m hu with hu | hu <;> rcases hsame v n hv with hv | hv
    · exact h.one u m v n hu hv
    · exact h.slot n u m hv hu
    · exact (h.slot m v n hu hv).symm
    · exact Option.some.inj (hu.symm.trans hv)
  · intro m u n hm hu
    rcases hsame u n hu with hu | hu
    · exact h.slot m u n hm hu
    · exact Option.some.inj (hu.symm.trans hm)

theorem Ok.take (h : s.Ok holds waits) (hs : s.slot = some l) (hf : (s.heap l).holder = none)
    (ht : ∀ m, ¬ Uses holds waits t m) :
    (s.take l t).Ok (Function.update holds t (some l)) (Function.update waits t none) := by
  refine h.move _ _ _ (fun m hm => (ht m hm).elim) ?_ (by simp) ?_ (h.nodup l) ?_ (by simp)
  · rintro m (hm | hm)
    · cases hm
      exact ⟨rfl, .inr hs⟩
    · cases hm
  · simp only [FifoLock.take_waiters, reduceCtorEq, iff_false]
    exact fun hm => ht l (.inr ((h.waiter l t).mp hm))
  · intro u hu
    simp only [FifoLock.take_holder, Option.some.injEq, hf, reduceCtorEq, iff_false]
    exact fun he => hu he.symm

theorem Ok.enqueue (h : s.Ok holds waits) (hs : s.slot = some l)
    (ht : ∀ m, ¬ Uses holds waits t m) :
    (s.enqueue l t).Ok (Function.update holds t none) (Function.update waits t (some l)) := by
  have hn : t ∉ (s.heap l).waiters := fun hm => ht l (.inr ((h.waiter l t).mp hm))
  refine h.move _ _ _ (fun m hm => (ht m hm).elim) ?_ ?_ (by simp) ?_ (by simp) ?_
  · rintro m (hm | hm)
    · cases hm
    · cases hm
      exact ⟨rfl, .inr hs⟩
  · simp only [FifoLock.enqueue_holder, reduceCtorEq, iff_false]
    exact fun hm => ht l (.inl ((h.holder l t).mp hm))
  · refine List.nodup_append.mpr ⟨h.nodup l, by simp, ?_⟩
    intro a ha b hb he
    rw [List.mem_singleton.mp hb] at he
    exact hn (he ▸ ha)
  · intro u hu
    simp [hu]

theorem Ok.release (h : s.Ok holds waits) (ht : holds t = some l) (hw : waits t = none) :
    (s.release l).Ok (Function.update holds t none) (Function.update waits t none) := by
  have hl : (s.heap l).holder = some t := (h.holder l t).mpr ht
  refine h.move _ _ _ ?_ (by simp) (by simp) ?_ (h.nodup l) ?_ (by simp)
  · intro m hm
    exact h.one t m t l hm (.inl ht)
  · simp only [FifoLock.release_waiters, reduceCtorEq, iff_false]
    intro hm
    rw [(h.waiter l t).mp hm] at hw
    cases hw
  · intro u hu
    simp only [FifoLock.release_holder, reduceCtorEq, hl, Option.some.injEq, false_iff]
    exact fun he => hu he.symm

theorem Ok.withdraw (h : s.Ok holds waits) (ht : waits t = some l) (hh : holds t = none) :
    (s.withdraw l t).Ok (Function.update holds t none) (Function.update waits t none) := by
  refine h.move _ _ _ ?_ (by simp) ?_ ?_ ((h.nodup l).filter _) (by simp) ?_
  · intro m hm
    exact h.one t m t l hm (.inr ht)
  · simp only [FifoLock.withdraw_holder, reduceCtorEq, iff_false]
    intro hm
    rw [(h.holder l t).mp hm] at hh
    cases hh
  · simp [FifoLock.mem_withdraw]
  · intro u hu
    simp [FifoLock.mem_withdraw, hu]

theorem Ok.grant (h : s.Ok holds waits) (hg : s.grant l t = some s') :
    s'.Ok (Function.update holds t (some l)) (Function.update waits t none) := by
  obtain ⟨q, hq, rfl⟩ := Option.map_eq_some_iff.mp hg
  obtain ⟨hfree, hw, ht⟩ := FifoLock.grant_some hq
  have hwt : waits t = some l := (h.waiter l t).mp (hw ▸ List.mem_cons_self)
  have hn : t ∉ q.waiters ∧ q.waiters.Nodup := List.nodup_cons.mp (hw ▸ h.nodup l)
  refine h.move q _ _ (fun m hm => h.one t m t l hm (.inr hwt)) ?_ ?_ ?_ hn.2 ?_ ?_
  · rintro m (hm | hm)
    · cases hm
      exact ⟨rfl, .inl (.inr hwt)⟩
    · cases hm
  · simp [ht]
  · simp [hn.1]
  · intro u hu
    simp only [ht, Option.some.injEq, hfree, reduceCtorEq, iff_false]
    exact fun he => hu he.symm
  · intro u hu
    simp [hw, hu]

end Tasks

end LockSlot

end Lib
