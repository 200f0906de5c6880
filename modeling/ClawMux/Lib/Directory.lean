import Mathlib.Data.List.Nodup
import Mathlib.Logic.Basic

namespace Lib

variable {π ν υ ι : Type*}

/-- Users by their names at the providers, and the seat that each of them has. -/
@[ext] structure Directory (π ν υ ι : Type*) where
  owner : π × ν → Option υ
  assigned : υ → Option ι
  one_name : ∀ {p v w u}, owner (p, v) = some u → owner (p, w) = some u → v = w
  one_user : ∀ {u w i}, assigned u = some i → assigned w = some i → u = w

namespace Directory

/-- The seat of the user with a name. -/
def resolve (d : Directory π ν υ ι) (key : π × ν) : Option ι := (d.owner key).bind d.assigned

/-- Two directories with the same pairs are one. -/
theorem ext_pairs {d e : Directory π ν υ ι}
    (howner : ∀ q x w, d.owner (q, x) = some w ↔ e.owner (q, x) = some w)
    (hassigned : ∀ w j, d.assigned w = some j ↔ e.assigned w = some j) : d = e := by
  apply Directory.ext
  · funext ⟨q, x⟩
    exact Option.ext (howner q x)
  · funext w
    exact Option.ext (hassigned w)

theorem resolve_eq_some {d : Directory π ν υ ι} {key : π × ν} {j : ι} :
    d.resolve key = some j ↔ ∃ w, d.owner key = some w ∧ d.assigned w = some j :=
  Option.bind_eq_some_iff

variable {d : Directory π ν υ ι} {u w : υ} {p q : π} {v x : ν} {i j : ι}

section
variable [DecidableEq π] [DecidableEq ν] [DecidableEq υ]

/-- The user takes a name from whoever has it, and gives up its former name at the provider. -/
def enroll (d : Directory π ν υ ι) (u : υ) (p : π) (v : ν) : Directory π ν υ ι where
  owner key :=
    if key = (p, v) then some u
    else if key.1 = p ∧ d.owner key = some u then none
    else d.owner key
  assigned := d.assigned
  one_name := by
    intro q x y w hx hy
    dsimp only at hx hy
    split at hx
    · rename_i hkx
      cases hkx
      cases hx
      split at hy
      · rename_i hky
        cases hky
        rfl
      · split at hy
        · cases hy
        · rename_i hnot
          exact absurd ⟨rfl, hy⟩ hnot
    · split at hx
      · cases hx
      · rename_i hnot
        split at hy
        · rename_i hky
          cases hky
          cases hy
          exact absurd ⟨rfl, hx⟩ hnot
        · split at hy
          · cases hy
          · exact d.one_name hx hy
  one_user := d.one_user

theorem enroll_owner : (d.enroll u p v).owner (q, x) = some w ↔
    (q, x) = (p, v) ∧ w = u ∨ (q, x) ≠ (p, v) ∧ ¬ (q = p ∧ w = u) ∧ d.owner (q, x) = some w := by
  rw [enroll]
  dsimp only
  split
  · rename_i hk
    simp only [hk, Option.some.injEq, true_and, ne_eq, not_true, false_and, or_false]
    exact eq_comm
  · rename_i hk
    simp only [hk, false_and, ne_eq, not_false_eq_true, true_and, false_or]
    split
    · rename_i hold
      simp only [reduceCtorEq, false_iff, not_and]
      intro hnot hw
      exact hnot hold.1 (Option.some.inj (hw.symm.trans hold.2))
    · rename_i hold
      constructor
      · exact fun hw => ⟨fun hpw => hold ⟨hpw.1, hpw.2 ▸ hw⟩, hw⟩
      · exact fun h => h.2

end

section
variable [DecidableEq υ] [DecidableEq ι]

/-- The user takes a seat from whoever has it. -/
def seat (d : Directory π ν υ ι) (u : υ) (i : ι) : Directory π ν υ ι where
  owner := d.owner
  assigned w := if w = u then some i else if d.assigned w = some i then none else d.assigned w
  one_name := d.one_name
  one_user := by
    intro x y j hx hy
    split at hx
    · rename_i hxu
      cases hx
      split at hy
      · rename_i hyu
        exact hxu.trans hyu.symm
      · split at hy
        · cases hy
        · rename_i hnot
          exact absurd hy hnot
    · split at hx
      · cases hx
      · rename_i hnot
        split at hy
        · cases hy
          exact absurd hx hnot
        · split at hy
          · cases hy
          · exact d.one_user hx hy

theorem seat_assigned : (d.seat u i).assigned w = some j ↔
    w = u ∧ j = i ∨ w ≠ u ∧ j ≠ i ∧ d.assigned w = some j := by
  rw [seat]
  dsimp only
  split
  · rename_i hw
    simp only [hw, Option.some.injEq, true_and, ne_eq, not_true, false_and, or_false]
    exact eq_comm
  · rename_i hw
    simp only [hw, false_and, ne_eq, not_false_eq_true, true_and, false_or]
    split
    · rename_i hold
      rw [hold]
      simp only [reduceCtorEq, Option.some.injEq, false_iff, not_and]
      exact fun hne he => hne he.symm
    · rename_i hold
      constructor
      · exact fun hj => ⟨fun he => hold (he ▸ hj), hj⟩
      · exact fun h => h.2

end

variable [DecidableEq π] [DecidableEq ν] [DecidableEq υ] [DecidableEq ι]

/-- Names of other users with other seats are found as before. -/
theorem resolve_others (hne : (q, x) ≠ (p, v)) (how : d.owner (q, x) = some w) (hw : w ≠ u)
    (hi : d.assigned w ≠ some i) :
    ((d.enroll u p v).seat u i).resolve (q, x) = d.resolve (q, x) := by
  have howner : ((d.enroll u p v).seat u i).owner (q, x) = some w :=
    enroll_owner.mpr (.inr ⟨hne, fun h => hw h.2, how⟩)
  apply Option.ext
  intro j
  rw [resolve, resolve, howner, how, Option.bind_some, Option.bind_some, seat_assigned]
  constructor
  · rintro (⟨he, -⟩ | ⟨-, -, hj⟩)
    · exact absurd he hw
    · exact hj
  · exact fun hj => .inr ⟨hw, fun he => hi (he ▸ hj), hj⟩

end Directory

end Lib
