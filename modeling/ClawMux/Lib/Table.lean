import Mathlib.Data.List.Nodup

namespace Lib

variable {α κ : Type*}

/-- `INSERT … ON CONFLICT … DO UPDATE`: the row that conflicts with the new one takes it in. -/
def upsert (conflicts : α → Bool) (merge : α → α) (new : α) (rows : List α) : List α :=
  if rows.any conflicts then rows.map fun r => if conflicts r then merge r else r
  else rows ++ [new]

variable {conflicts : α → Bool} {merge : α → α} {new x : α} {rows : List α}

theorem mem_upsert : x ∈ upsert conflicts merge new rows ↔
    x ∈ rows ∧ conflicts x = false ∨ (∃ r ∈ rows, conflicts r = true ∧ x = merge r) ∨
      x = new ∧ ∀ r ∈ rows, conflicts r = false := by
  rw [upsert]
  split
  · rename_i hany
    obtain ⟨c, hc, hconflicts⟩ := List.any_eq_true.mp hany
    constructor
    · intro hx
      obtain ⟨r, hr, rfl⟩ := List.mem_map.mp hx
      split
      · exact .inr (.inl ⟨r, hr, ‹_›, rfl⟩)
      · exact .inl ⟨hr, Bool.eq_false_iff.mpr ‹_›⟩
    · rintro (⟨hx, hfree⟩ | ⟨r, hr, hconflict, rfl⟩ | ⟨-, hfree⟩)
      · exact List.mem_map.mpr ⟨x, hx, if_neg (Bool.eq_false_iff.mp hfree)⟩
      · exact List.mem_map.mpr ⟨r, hr, if_pos hconflict⟩
      · cases (hfree c hc).symm.trans hconflicts
  · rename_i hany
    have hfree : ∀ r ∈ rows, conflicts r = false := by
      intro r hr
      rw [Bool.eq_false_iff]
      exact fun hconflict => hany (List.any_eq_true.mpr ⟨r, hr, hconflict⟩)
    rw [List.mem_append, List.mem_singleton]
    constructor
    · rintro (hx | rfl)
      · exact .inl ⟨hx, hfree x hx⟩
      · exact .inr (.inr ⟨rfl, hfree⟩)
    · rintro (⟨hx, -⟩ | ⟨r, hr, hconflict, -⟩ | ⟨rfl, -⟩)
      · exact .inl hx
      · cases (hfree r hr).symm.trans hconflict
      · exact .inr rfl

/-- A unique column stays unique when at most one row conflicts and no other has its new value. -/
theorem nodup_upsert {column : α → Option κ} (hrows : (rows.filterMap column).Nodup)
    (hone : rows.Pairwise fun a b => ¬ (conflicts a = true ∧ conflicts b = true))
    (hmerge : ∀ r ∈ rows, conflicts r = true → column (merge r) = column new)
    (hfree : ∀ r ∈ rows, conflicts r = false → ∀ k, column r = some k → column new ≠ some k) :
    ((upsert conflicts merge new rows).filterMap column).Nodup := by
  have hpairs := List.pairwise_filterMap.mp hrows
  rw [List.Nodup, List.pairwise_filterMap, upsert]
  split
  · rw [List.pairwise_map]
    apply (hpairs.and hone).imp_of_mem
    intro a b ha hb ⟨hne, hnot⟩ k hk k' hk'
    by_cases hca : conflicts a = true
    · have hcb : conflicts b = false := Bool.eq_false_iff.mpr fun hcb => hnot ⟨hca, hcb⟩
      rw [if_pos hca, hmerge a ha hca] at hk
      rw [if_neg (Bool.eq_false_iff.mp hcb)] at hk'
      rintro rfl
      exact hfree b hb hcb k hk' hk
    · rw [if_neg hca] at hk
      by_cases hcb : conflicts b = true
      · rw [if_pos hcb, hmerge b hb hcb] at hk'
        rintro rfl
        exact hfree a ha (Bool.eq_false_iff.mpr hca) k hk hk'
      · rw [if_neg hcb] at hk'
        exact hne k hk k' hk'
  · rename_i hany
    rw [List.pairwise_append]
    refine ⟨hpairs, List.pairwise_singleton .., fun a ha b hb k hk k' hk' => ?_⟩
    rw [List.mem_singleton.mp hb] at hk'
    rintro rfl
    refine hfree a ha (Bool.eq_false_iff.mpr fun hc => ?_) k hk hk'
    exact hany (List.any_eq_true.mpr ⟨a, ha, hc⟩)

theorem nodup_upsert_key {key : α → κ} (hrows : (rows.map key).Nodup)
    (hone : rows.Pairwise fun a b => ¬ (conflicts a = true ∧ conflicts b = true))
    (hmerge : ∀ r ∈ rows, conflicts r = true → key (merge r) = key new)
    (hfree : ∀ r ∈ rows, conflicts r = false → key new ≠ key r) :
    ((upsert conflicts merge new rows).map key).Nodup := by
  rw [← List.filterMap_eq_map'] at hrows ⊢
  apply nodup_upsert hrows hone
  · exact fun r hr hc => congrArg some (hmerge r hr hc)
  · exact fun r hr hc k hk he => hfree r hr hc (Option.some.inj (he.trans hk.symm))

/-- At most one row conflicts when all that do have one key. -/
theorem one_conflict {key : α → κ} (hrows : (rows.map key).Nodup)
    (hkey : ∀ a b, conflicts a = true → conflicts b = true → key a = key b) :
    rows.Pairwise fun a b => ¬ (conflicts a = true ∧ conflicts b = true) := by
  apply (List.pairwise_map.mp hrows).imp
  intro a b hne ⟨ha, hb⟩
  exact hne (hkey a b ha hb)

end Lib
