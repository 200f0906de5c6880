import Mathlib.Data.List.Induction
import ClawMux.Lib.Program

namespace Lib

variable {E : Type} {R : E → Type} {α : Type}

namespace Program

/-- What is left of a program after some exchanges. -/
inductive Reaches : Program E R α → List (Sigma R) → Program E R α → Prop
  | refl (p : Program E R α) : Reaches p [] p
  | snoc {p : Program E R α} {tr : List (Sigma R)} {e : E} {next : R e → Program E R α} (r : R e) :
      Reaches p tr (.ask e next) → Reaches p (tr ++ [⟨e, r⟩]) (next r)

theorem Reaches.ends {p q : Program E R α} {tr rest : List (Sigma R)} {a : α}
    (h : Reaches p tr q) (hq : Ends q rest a) : Ends p (tr ++ rest) a := by
  induction h generalizing rest with
  | refl => exact hq
  | snoc r _ ih =>
    rw [List.append_assoc]
    exact ih (.ask r hq)

end Program

/-- Programs that take turns, and what they have asked so far. -/
structure Interleaved (E : Type) (R : E → Type) (α : Type) where
  tasks : Nat → Program E R α
  log : List (Nat × Sigma R) := []

/-- The answers of the world may depend on everything that happened before. -/
abbrev Env (E : Type) (R : E → Type) := List (Nat × Sigma R) → Nat → (e : E) → R e

namespace Interleaved

variable {env : Env E R} {st : Interleaved E R α}

/-- One exchange of the task `i`. -/
def turn (env : Env E R) (st : Interleaved E R α) (i : Nat) : Interleaved E R α :=
  match st.tasks i with
  | .done _ => st
  | .ask e next =>
    let r := env st.log i e
    ⟨Function.update st.tasks i (next r), st.log ++ [(i, ⟨e, r⟩)]⟩

def run (env : Env E R) (tasks : Nat → Program E R α) (schedule : List Nat) : Interleaved E R α :=
  schedule.foldl (turn env) ⟨tasks, []⟩

/-- The exchanges of one task. -/
def own (i : Nat) (log : List (Nat × Sigma R)) : List (Sigma R) :=
  log.filterMap fun x => if x.1 = i then some x.2 else none

theorem own_snoc (i j : Nat) (x : Sigma R) (log : List (Nat × Sigma R)) :
    own i (log ++ [(j, x)]) = if j = i then own i log ++ [x] else own i log := by
  rw [own, List.filterMap_append]
  split
  · rename_i h
    simp [own, h]
  · rename_i h
    simp [own, h]

theorem own_mono {i : Nat} {log log' : List (Nat × Sigma R)} (h : log <+: log') :
    own i log <+: own i log' := by
  obtain ⟨rest, rfl⟩ := h
  exact ⟨own i rest, (List.filterMap_append ..).symm⟩

theorem run_snoc (tasks : Nat → Program E R α) (schedule : List Nat) (i : Nat) :
    run env tasks (schedule ++ [i]) = turn env (run env tasks schedule) i :=
  List.foldl_append ..

theorem turn_log (i : Nat) : st.log <+: (turn env st i).log := by
  rw [turn]
  split
  · exact List.prefix_rfl
  · exact List.prefix_append ..

theorem mem_own {i : Nat} {x : Sigma R} {log : List (Nat × Sigma R)} (h : x ∈ own i log) :
    (i, x) ∈ log := by
  obtain ⟨y, hy, hx⟩ := List.mem_filterMap.mp h
  split at hx
  · rename_i hi
    cases hx
    exact hi ▸ hy
  · cases hx

/-- Every answer in the log is one of the world. -/
theorem run_answers {tasks : Nat → Program E R α} {schedule : List Nat} {i : Nat} {e : E} {r : R e}
    (h : (i, ⟨e, r⟩) ∈ (run env tasks schedule).log) : ∃ log, r = env log i e := by
  induction schedule using List.reverseRecOn with
  | nil => cases h
  | append_singleton schedule j ih =>
    rw [run_snoc, turn] at h
    split at h
    · exact ih h
    · rcases List.mem_append.mp h with h | h
      · exact ih h
      · cases List.mem_singleton.mp h
        exact ⟨_, rfl⟩

/-- Two tasks at their ends, or with the same request, after which they are related again as long
as their exchanges are good. -/
def Locked (good : Nat → List (Sigma R) → Prop)
    (rel : Nat → List (Sigma R) → Program E R α → Program E R α → Prop) : Prop :=
  ∀ i tr p q, rel i tr p q → (∃ a b, p = .done a ∧ q = .done b) ∨
    ∃ e next next', p = .ask e next ∧ q = .ask e next' ∧
      ∀ r, good i (tr ++ [⟨e, r⟩]) → rel i (tr ++ [⟨e, r⟩]) (next r) (next' r)

variable {good : Nat → List (Sigma R) → Prop}
  {rel : Nat → List (Sigma R) → Program E R α → Program E R α → Prop}

/-- What the two runs have in common at any time. -/
structure Alongside (rel : Nat → List (Sigma R) → Program E R α → Program E R α → Prop)
    (st st' : Interleaved E R α) : Prop where
  log : st.log = st'.log
  tasks : ∀ i, rel i (own i st.log) (st.tasks i) (st'.tasks i)

theorem Alongside.turn {st' : Interleaved E R α} (h : Alongside rel st st')
    (hlock : Locked good rel) (i : Nat)
    (hgood : ∀ tr, tr <+: own i (turn env st i).log → tr <+: own i (turn env st' i).log →
      good i tr) : Alongside rel (turn env st i) (turn env st' i) := by
  rcases hlock i _ _ _ (h.tasks i) with ⟨a, b, hp, hq⟩ | ⟨e, next, next', hp, hq, hnext⟩
  · have ht : Interleaved.turn env st i = st := by simp only [Interleaved.turn, hp]
    have ht' : Interleaved.turn env st' i = st' := by simp only [Interleaved.turn, hq]
    rw [ht, ht']
    exact h
  · simp only [Interleaved.turn, hp, hq, ← h.log] at hgood ⊢
    constructor
    · rfl
    · intro j
      simp only [own_snoc] at hgood ⊢
      by_cases hj : i = j
      · subst hj
        simp only [if_true, Function.update_self] at hgood ⊢
        exact hnext _ (hgood _ List.prefix_rfl List.prefix_rfl)
      · simp only [if_neg hj, Function.update_of_ne (Ne.symm hj)]
        exact h.tasks j

/-- Related families of tasks make the same exchanges in the same world. -/
theorem run_alongside {tasks tasks' : Nat → Program E R α} (hlock : Locked good rel)
    (h : ∀ i, rel i [] (tasks i) (tasks' i)) (schedule : List Nat)
    (hgood : ∀ i tr, tr <+: own i (run env tasks schedule).log →
      tr <+: own i (run env tasks' schedule).log → good i tr) :
    Alongside rel (run env tasks schedule) (run env tasks' schedule) := by
  induction schedule using List.reverseRecOn with
  | nil => exact ⟨rfl, h⟩
  | append_singleton schedule i ih =>
    simp only [run_snoc] at hgood ⊢
    have hearlier := ih fun j tr htr htr' => hgood j tr
      (htr.trans (own_mono (turn_log i))) (htr'.trans (own_mono (turn_log i)))
    exact hearlier.turn hlock i fun tr htr htr' => hgood i tr htr htr'

end Interleaved

end Lib
