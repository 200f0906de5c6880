import Mathlib.Data.List.Basic

namespace Lib

variable {S V : Type*} {version : S → Nat} {read : S → Option V} {history : List S}
  {s a b : S} {i j n tag : Nat} {value : V}

/-- Committed states of a store, oldest first, with versions that grow at every commit. -/
def Increasing (version : S → Nat) (history : List S) : Prop :=
  history.Pairwise (version · < version ·)

theorem Increasing.append (h : Increasing version history)
    (hs : ∀ a ∈ history, version a < version s) : Increasing version (history ++ [s]) := by
  refine List.pairwise_append.mpr ⟨h, List.pairwise_singleton _ _, ?_⟩
  intro a ha b hb
  rw [List.mem_singleton] at hb
  subst b
  exact hs a ha

theorem Increasing.index_eq (h : Increasing version history) (hi : history[i]? = some a)
    (hj : history[j]? = some b) (hv : version a = version b) : i = j := by
  obtain ⟨hil, hi⟩ := List.getElem?_eq_some_iff.mp hi
  obtain ⟨hjl, hj⟩ := List.getElem?_eq_some_iff.mp hj
  rw [Increasing, List.pairwise_iff_getElem] at h
  rcases Nat.lt_trichotomy i j with hlt | he | hlt
  · have := h i j hil hjl hlt
    rw [hi, hj] at this
    omega
  · exact he
  · have := h j i hjl hil hlt
    rw [hi, hj] at this
    omega

theorem getElem?_append_of_some (h : history[i]? = some a) (later : List S) :
    (history ++ later)[i]? = some a := by
  obtain ⟨hi, he⟩ := List.getElem?_eq_some_iff.mp h
  rw [List.getElem?_append_left hi, List.getElem?_eq_getElem hi, he]

/-- A cached value tagged with a version that is not newer than the state it was read from. -/
def Sound (version : S → Nat) (read : S → Option V) (history : List S)
    (tag : Nat) (value : V) : Prop :=
  ∃ (i j : Nat) (a b : S), i ≤ j ∧ history[i]? = some a ∧ history[j]? = some b ∧
    version a = tag ∧ read b = some value

theorem Sound.append (h : Sound version read history tag value) (later : List S) :
    Sound version read (history ++ later) tag value := by
  obtain ⟨i, j, a, b, hij, ha, hb, ht, hv⟩ := h
  exact ⟨i, j, a, b, hij, getElem?_append_of_some ha later,
    getElem?_append_of_some hb later, ht, hv⟩

/-- A hit under the version of state `n` was read from state `n` or from a later one. -/
theorem Sound.hit (h : Sound version read history tag value) (hi : Increasing version history)
    (hn : history[n]? = some s) (hv : version s = tag) :
    ∃ (j : Nat) (b : S), n ≤ j ∧ history[j]? = some b ∧ read b = some value := by
  obtain ⟨i, j, a, b, hij, ha, hb, ht, hr⟩ := h
  have he : i = n := hi.index_eq ha hn (ht.trans hv.symm)
  subst he
  exact ⟨j, b, hij, hb, hr⟩

/-! Stores that may commit without a new version -/

section Settled
variable {R : Type*} {look : S → R} {r : R}

/-- Versions that no commit lowers. -/
def Rising (version : S → Nat) (history : List S) : Prop :=
  history.Pairwise (version · ≤ version ·)

theorem Increasing.rising (h : Increasing version history) : Rising version history :=
  List.Pairwise.imp Nat.le_of_lt h

theorem Rising.append (h : Rising version history) (hs : ∀ a ∈ history, version a ≤ version s) :
    Rising version (history ++ [s]) := by
  apply List.pairwise_append.mpr
  refine ⟨h, List.pairwise_singleton _ _, ?_⟩
  intro a ha b hb
  rw [List.mem_singleton.mp hb]
  exact hs a ha

theorem Rising.le (h : Rising version history) (hij : i ≤ j) (hi : history[i]? = some a)
    (hj : history[j]? = some b) : version a ≤ version b := by
  obtain ⟨hil, rfl⟩ := List.getElem?_eq_some_iff.mp hi
  obtain ⟨hjl, rfl⟩ := List.getElem?_eq_some_iff.mp hj
  rcases Nat.lt_or_eq_of_le hij with hlt | rfl
  · rw [Rising, List.pairwise_iff_getElem] at h
    exact h i j hil hjl hlt
  · exact Nat.le_refl _

/-- From state `n` on every state of version `tag` answers `r`. -/
def Settled (version : S → Nat) (look : S → R) (history : List S) (n tag : Nat) (r : R) : Prop :=
  ∀ m s, n ≤ m → history[m]? = some s → version s = tag → look s = r

theorem Settled.append (h : Settled version look history n tag r)
    (hs : version s = tag → look s = r) : Settled version look (history ++ [s]) n tag r := by
  intro m c hn hm hc
  rcases Nat.lt_or_ge m history.length with hl | hl
  · rw [List.getElem?_append_left hl] at hm
    exact h m c hn hm hc
  · obtain ⟨hlt, rfl⟩ := List.getElem?_eq_some_iff.mp hm
    have hlast : (history ++ [s])[m] = s := by
      rw [List.getElem_append_right hl, List.getElem_singleton]
    rw [hlast] at hc ⊢
    exact hs hc

/-- A value read from some state, which no later state of its version contradicts. -/
def Backed (version : S → Nat) (look : S → R) (history : List S) (tag : Nat) (r : R) : Prop :=
  (∃ a ∈ history, version a = tag) ∧
    ∃ j b, history[j]? = some b ∧ look b = r ∧ Settled version look history j tag r

theorem Backed.append (h : Backed version look history tag r)
    (hs : version s = tag → look s = r) : Backed version look (history ++ [s]) tag r := by
  obtain ⟨⟨a, ha, ht⟩, j, b, hb, hr, hset⟩ := h
  exact ⟨⟨a, List.mem_append_left _ ha, ht⟩, j, b, getElem?_append_of_some hb [s], hr,
    hset.append hs⟩

/-- A hit under the version of state `n` is the answer of state `n` or of a later one. -/
theorem Backed.hit (h : Backed version look history tag r) (hn : history[n]? = some s)
    (hv : version s = tag) : ∃ (j : Nat) (b : S), n ≤ j ∧ history[j]? = some b ∧ look b = r := by
  obtain ⟨-, j, b, hb, hr, hset⟩ := h
  rcases Nat.le_total n j with hle | hle
  · exact ⟨j, b, hle, hb, hr⟩
  · exact ⟨n, s, Nat.le_refl n, hn, hset n s hle hn hv⟩

end Settled

end Lib
