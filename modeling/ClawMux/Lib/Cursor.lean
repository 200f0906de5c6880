import Mathlib.Data.List.Infix
import Mathlib.Data.List.Pairwise
import Mathlib.Tactic.Ring

namespace Lib.Cursor

variable {α : Type*} {id : α → Int} {log batch done : List α} {u v : α} {c₀ c : Int}

/-- The ids of a log ascend. -/
def Ascending (id : α → Int) (log : List α) : Prop := log.Pairwise fun u v => id u < id v

/-- What a reader at the cursor has not seen yet. -/
def pending (id : α → Int) (c : Int) (log : List α) : List α := log.filter fun u => c < id u

/-- What a reader has seen on its way from one cursor to another. -/
def passed (id : α → Int) (c₀ c : Int) (log : List α) : List α :=
  log.filter fun u => c₀ < id u && id u ≤ c

/-- The cursor after the updates of a batch. -/
def advance (id : α → Int) (c : Int) : List α → Int
  | [] => c
  | u :: batch => advance id (id u) batch

theorem Ascending.sublist (h : Ascending id log) (hs : batch.Sublist log) : Ascending id batch :=
  List.Pairwise.sublist hs h

theorem Ascending.append (h : Ascending id log) (hu : ∀ v ∈ log, id v < id u) :
    Ascending id (log ++ [u]) := by
  refine List.pairwise_append.mpr ⟨h, List.pairwise_singleton _ _, ?_⟩
  intro v hv w hw
  rw [List.mem_singleton] at hw
  exact hw ▸ hu v hv

theorem mem_passed : u ∈ passed id c₀ c log ↔ u ∈ log ∧ c₀ < id u ∧ id u ≤ c := by
  simp only [passed, List.mem_filter, Bool.and_eq_true, decide_eq_true_eq]

theorem mem_pending : u ∈ pending id c log ↔ u ∈ log ∧ c < id u := by
  simp only [pending, List.mem_filter, decide_eq_true_eq]

theorem pending_append : pending id c (log ++ [u]) =
    pending id c log ++ if c < id u then [u] else [] := by
  rw [pending, List.filter_append, ← pending]
  congr 1
  by_cases h : c < id u
  · simp [h]
  · simp [h]

/-- An update that arrives is either past the cursor or not past the start. -/
theorem passed_append (hu : c < id u ∨ id u ≤ c₀) :
    passed id c₀ c (log ++ [u]) = passed id c₀ c log := by
  rw [passed, List.filter_append, List.filter_cons_of_neg, List.filter_nil, List.append_nil, passed]
  rw [Bool.and_eq_true, decide_eq_true_eq, decide_eq_true_eq]
  omega

/-- Filtering the pending updates by a later cursor. -/
theorem pending_pending {c' : Int} (hc : c ≤ c') :
    pending id c' (pending id c log) = pending id c' log := by
  rw [pending, pending, List.filter_filter, pending]
  refine List.filter_congr ?_
  intro u _
  by_cases h : c' < id u
  · simp [h, show c < id u by omega]
  · simp [h]

theorem pending_eq_self (h : ∀ u ∈ log, c < id u) : pending id c log = log :=
  List.filter_eq_self.mpr fun u hu => decide_eq_true (h u hu)

/-- Reading the first of the pending updates. -/
theorem pending_head (h : Ascending id log) (hp : pending id c log = u :: batch) :
    pending id (id u) log = batch := by
  have hu : c < id u := (mem_pending.mp (hp ▸ List.mem_cons_self)).2
  have hasc : Ascending id (u :: batch) := hp ▸ h.sublist List.filter_sublist
  have hlt := (List.pairwise_cons.mp hasc).1
  rw [← pending_pending (le_of_lt hu), hp, pending, List.filter_cons_of_neg (by simp)]
  exact pending_eq_self hlt

theorem passed_eq_nil (h : ∀ u ∈ log, c < id u) : passed id c₀ c log = [] := by
  refine List.filter_eq_nil_iff.mpr ?_
  intro u hu hin
  rw [Bool.and_eq_true, decide_eq_true_eq, decide_eq_true_eq] at hin
  have := h u hu
  omega

/-- An ascending log falls into what is passed and what is pending. -/
theorem passed_pending (h : Ascending id log) (hc : c₀ ≤ c) :
    passed id c₀ c log ++ pending id c log = pending id c₀ log := by
  induction log with
  | nil => rfl
  | cons v log ih =>
    obtain ⟨hlt, htail⟩ := List.pairwise_cons.mp h
    have ih := ih htail
    by_cases hv : c < id v
    · have hlater : ∀ u ∈ v :: log, c < id u := by
        intro u hu
        rcases List.mem_cons.mp hu with rfl | hu
        · exact hv
        · exact hv.trans (hlt u hu)
      have hall : ∀ u ∈ v :: log, c₀ < id u := fun u hu => lt_of_le_of_lt hc (hlater u hu)
      rw [passed_eq_nil hlater, pending_eq_self hlater, pending_eq_self hall, List.nil_append]
    · have hle : id v ≤ c := by omega
      by_cases hs : c₀ < id v
      · simpa [passed, pending, hv, hs, hle] using ih
      · simpa [passed, pending, hv, hs] using ih

theorem le_advance (h : Ascending id log) (hb : done <+: pending id c log) :
    c ≤ advance id c done := by
  induction done generalizing c with
  | nil => exact le_refl c
  | cons u done ih =>
    obtain ⟨rest, hrest⟩ := hb
    have hu := (mem_pending.mp (hrest ▸ List.mem_cons_self : u ∈ pending id c log)).2
    have hnext := pending_head h hrest.symm
    have := ih ⟨rest, hnext.symm⟩
    rw [advance]
    omega

/-- Reading a prefix of the pending updates leaves the rest of them pending. -/
theorem pending_advance (h : Ascending id log) (hb : done <+: pending id c log) :
    done ++ pending id (advance id c done) log = pending id c log := by
  induction done generalizing c with
  | nil => rfl
  | cons u done ih =>
    obtain ⟨rest, hrest⟩ := hb
    have hnext : pending id (id u) log = done ++ rest := pending_head h hrest.symm
    rw [advance, List.cons_append, ih ⟨rest, hnext.symm⟩, hnext, ← hrest, List.cons_append]

theorem passed_advance (h : Ascending id log) (hc : c₀ ≤ c) (hb : done <+: pending id c log) :
    passed id c₀ (advance id c done) log = passed id c₀ c log ++ done := by
  have hle := le_advance h hb
  have hall : passed id c₀ (advance id c done) log ++ pending id (advance id c done) log =
      (passed id c₀ c log ++ done) ++ pending id (advance id c done) log := by
    rw [passed_pending h (by omega), List.append_assoc, pending_advance h hb, passed_pending h hc]
  exact List.append_cancel_right hall

theorem advance_append (xs ys : List α) :
    advance id c (xs ++ ys) = advance id (advance id c xs) ys := by
  induction xs generalizing c with
  | nil => rfl
  | cons u xs ih => exact ih

/-- The cursor stays, or stands at the last update read. -/
theorem advance_mem (done : List α) :
    advance id c done = c ∨ ∃ u ∈ done, id u = advance id c done := by
  induction done generalizing c with
  | nil => exact .inl rfl
  | cons u done ih =>
    rw [advance]
    rcases ih (c := id u) with h | ⟨v, hv, h⟩
    · exact .inr ⟨u, List.mem_cons_self, h.symm⟩
    · exact .inr ⟨v, List.mem_cons_of_mem u hv, h⟩

/-! How long an update waits -/

/-- The number of pending updates up to `u`. -/
def waiting (id : α → Int) (c : Int) (log : List α) (u : α) : Nat :=
  (pending id c log).countP fun v => id v ≤ id u

theorem waiting_pos (hu : u ∈ pending id c log) : 0 < waiting id c log u :=
  List.countP_pos_iff.mpr ⟨u, hu, decide_eq_true (le_refl _)⟩

theorem waiting_append (hv : id u < id v) : waiting id c (log ++ [v]) u = waiting id c log u := by
  rw [waiting, pending_append, List.countP_append, ← waiting]
  by_cases h : c < id v
  · simp [h, hv]
  · simp [h]

/-- A batch that is not empty starts with the update that has waited longest. -/
theorem waiting_advance (h : Ascending id log) (hb : done <+: pending id c log) (hne : done ≠ [])
    (hu : u ∈ pending id c log) : waiting id (advance id c done) log u < waiting id c log u := by
  have hsplit := pending_advance h hb
  have hasc : Ascending id (pending id c log) := h.sublist List.filter_sublist
  have hsum : waiting id c log u =
      done.countP (fun v => id v ≤ id u) + waiting id (advance id c done) log u := by
    rw [waiting, waiting, ← List.countP_append, hsplit]
  have hfirst : 0 < done.countP fun v => id v ≤ id u := by
    cases done with
    | nil => exact absurd rfl hne
    | cons v done =>
      refine List.countP_pos_iff.mpr ⟨v, List.mem_cons_self, decide_eq_true ?_⟩
      rw [← hsplit, List.cons_append] at hu hasc
      rcases List.mem_cons.mp hu with rfl | hu
      · exact le_refl _
      · exact le_of_lt ((List.pairwise_cons.mp hasc).1 u hu)
  omega

end Lib.Cursor
