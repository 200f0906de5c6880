import Mathlib.Data.List.Basic

namespace Lib
set_option autoImplicit true

/-- A fair lock: the task that holds it and the tasks queued for it, first come first served. -/
structure FifoLock (τ : Type) where
  holder : Option τ := none
  waiters : List τ := []
  deriving DecidableEq, Repr

namespace FifoLock

/-- A newcomer takes the lock at once only when nobody holds it or queues for it. -/
def free (l : FifoLock τ) : Bool := l.holder.isNone && l.waiters.isEmpty

def enqueue (l : FifoLock τ) (t : τ) : FifoLock τ := { l with waiters := l.waiters ++ [t] }

def take (l : FifoLock τ) (t : τ) : FifoLock τ := { l with holder := some t }

def release (l : FifoLock τ) : FifoLock τ := { l with holder := none }

/-- The first waiter of a released lock becomes its holder. -/
def grant [DecidableEq τ] (l : FifoLock τ) (t : τ) : Option (FifoLock τ) :=
  match l.holder, l.waiters with
  | none, w :: ws => if w = t then some ⟨some t, ws⟩ else none
  | _, _ => none

/-- A waiter that gives up leaves the queue. -/
def withdraw [DecidableEq τ] (l : FifoLock τ) (t : τ) : FifoLock τ :=
  { l with waiters := l.waiters.filter (· ≠ t) }

@[simp] theorem enqueue_holder (l : FifoLock τ) (t : τ) : (l.enqueue t).holder = l.holder := rfl

@[simp] theorem enqueue_waiters (l : FifoLock τ) (t : τ) :
    (l.enqueue t).waiters = l.waiters ++ [t] := rfl

@[simp] theorem take_holder (l : FifoLock τ) (t : τ) : (l.take t).holder = some t := rfl

@[simp] theorem take_waiters (l : FifoLock τ) (t : τ) : (l.take t).waiters = l.waiters := rfl

@[simp] theorem release_holder (l : FifoLock τ) : l.release.holder = none := rfl

@[simp] theorem release_waiters (l : FifoLock τ) : l.release.waiters = l.waiters := rfl

@[simp] theorem withdraw_holder [DecidableEq τ] (l : FifoLock τ) (t : τ) :
    (l.withdraw t).holder = l.holder := rfl

theorem mem_withdraw [DecidableEq τ] (l : FifoLock τ) (t u : τ) :
    u ∈ (l.withdraw t).waiters ↔ u ∈ l.waiters ∧ u ≠ t := by
  simp [withdraw]

theorem free_iff (l : FifoLock τ) : l.free = true ↔ l.holder = none ∧ l.waiters = [] := by
  simp [free]

theorem grant_some [DecidableEq τ] {l l' : FifoLock τ} (h : l.grant t = some l') :
    l.holder = none ∧ l.waiters = t :: l'.waiters ∧ l'.holder = some t := by
  rw [grant] at h
  split at h
  · rename_i w ws hh hw
    split at h
    · rename_i he
      cases h
      exact ⟨hh, by rw [hw, he], rfl⟩
    · cases h
  · cases h

end FifoLock

end Lib
