import Mathlib.Data.Finset.Card
import Mathlib.Data.List.Nodup

namespace Lib

variable {κ ν : Type*} {cap : Nat}

/-- An ordered dictionary that forgets its oldest entry when it is over its bound; the last entry is
the one used last. -/
structure LruMap (κ ν : Type*) (cap : Nat) where
  entries : List (κ × ν)
  nodup : (entries.map Prod.fst).Nodup
  bounded : entries.length ≤ cap

/-- What is done to one: `d[k] = v` and `d.move_to_end(k)`, or `d.get(k)` and the same. -/
inductive LruUse (κ ν : Type*)
  | put (k : κ) (v : ν)
  | touch (k : κ)

def LruUse.key : LruUse κ ν → κ
  | put k _ => k
  | touch k => k

def LruUse.puts : LruUse κ ν → Option κ
  | put k _ => some k
  | touch _ => none

namespace LruMap

def empty : LruMap κ ν cap := ⟨[], .nil, Nat.zero_le _⟩

section
variable [DecidableEq κ]

/-- The entries of the other keys. -/
def others (k : κ) (es : List (κ × ν)) : List (κ × ν) := es.filter fun e => e.1 ≠ k

theorem nodup_moved {es : List (κ × ν)} (h : (es.map Prod.fst).Nodup) (k : κ) (v : ν) :
    ((others k es ++ [(k, v)]).map Prod.fst).Nodup := by
  rw [List.map_append, List.nodup_append]
  refine ⟨h.sublist (List.filter_sublist.map _), List.nodup_singleton k, ?_⟩
  intro a ha b hb
  obtain ⟨e, he, rfl⟩ := List.mem_map.mp ha
  rw [List.map_singleton, List.mem_singleton] at hb
  subst hb
  exact of_decide_eq_true (List.mem_filter.mp he).2

/-- `d[k] = v`, `d.move_to_end(k)`, and `d.popitem(last=False)` while it is too long. -/
def put (m : LruMap κ ν cap) (k : κ) (v : ν) : LruMap κ ν cap where
  entries :=
    (others k m.entries ++ [(k, v)]).drop ((others k m.entries ++ [(k, v)]).length - cap)
  nodup := (nodup_moved m.nodup k v).sublist ((List.drop_sublist ..).map _)
  bounded := by
    rw [List.length_drop]
    omega

def lookup (m : LruMap κ ν cap) (k : κ) : Option ν := m.entries.lookup k

theorem length_others_lt {es : List (κ × ν)} {k : κ} {v : ν} (h : es.lookup k = some v) :
    (others k es).length < es.length := by
  obtain ⟨l₁, l₂, rfl, -⟩ := List.lookup_eq_some_iff.mp h
  apply List.length_filter_lt_length_iff_exists.mpr
  exact ⟨(k, v), by simp, by simp⟩

/-- `d.get(k)`, and `d.move_to_end(k)` when there is one. -/
def touch (m : LruMap κ ν cap) (k : κ) : LruMap κ ν cap :=
  match h : m.lookup k with
  | none => m
  | some v => {
      entries := others k m.entries ++ [(k, v)]
      nodup := nodup_moved m.nodup k v
      bounded := by
        have := length_others_lt h
        have := m.bounded
        rw [List.length_append, List.length_singleton]
        omega }

def use (m : LruMap κ ν cap) : LruUse κ ν → LruMap κ ν cap
  | .put k v => m.put k v
  | .touch k => m.touch k

/-- A whole history of uses. -/
def uses (m : LruMap κ ν cap) (us : List (LruUse κ ν)) : LruMap κ ν cap := us.foldl use m

theorem uses_append (m : LruMap κ ν cap) (us us' : List (LruUse κ ν)) :
    m.uses (us ++ us') = (m.uses us).uses us' :=
  List.foldl_append

theorem put_entries (m : LruMap κ ν cap) (k : κ) (v : ν) : (m.put k v).entries =
    (others k m.entries ++ [(k, v)]).drop ((others k m.entries).length + 1 - cap) := by
  simp only [put, List.length_append, List.length_singleton]

theorem others_around {j k : κ} (hj : j ≠ k) (older newer : List (κ × ν)) (v : ν) :
    others j (older ++ (k, v) :: newer) = others j older ++ (k, v) :: others j newer := by
  have hk : decide (k ≠ j) = true := decide_eq_true (Ne.symm hj)
  simp only [others, List.filter_append, List.filter_cons, hk, if_true]

end

/-! The entries after the one of a key are of the keys that were used since -/

def keys (es : List (κ × ν)) : List κ := es.map Prod.fst

/-- The key has the value `v`, with the entries after its own. -/
def Holds (m : LruMap κ ν cap) (k : κ) (v : ν) (newer : List (κ × ν)) : Prop :=
  ∃ older, m.entries = older ++ (k, v) :: newer

variable {m : LruMap κ ν cap} {k j : κ} {v w : ν} {newer : List (κ × ν)} {u : LruUse κ ν}
  {us : List (LruUse κ ν)}

theorem Holds.not_mem (h : m.Holds k v newer) : k ∉ keys newer := by
  obtain ⟨older, he⟩ := h
  have hn := m.nodup
  rw [he, List.map_append, List.map_cons] at hn
  exact (List.nodup_cons.mp hn.of_append_right).1

theorem Holds.nodup (h : m.Holds k v newer) : (keys newer).Nodup := by
  obtain ⟨older, he⟩ := h
  have hn := m.nodup
  rw [he, List.map_append, List.map_cons] at hn
  exact (List.nodup_cons.mp hn.of_append_right).2

theorem Holds.length (h : m.Holds k v newer) : newer.length < cap := by
  obtain ⟨older, he⟩ := h
  have hb := m.bounded
  rw [he, List.length_append, List.length_cons] at hb
  omega

variable [DecidableEq κ]

theorem lookup_eq_some : m.lookup k = some v ↔ ∃ newer, m.Holds k v newer := by
  rw [lookup, List.lookup_eq_some_iff]
  constructor
  · rintro ⟨older, newer, he, -⟩
    exact ⟨newer, older, he⟩
  · rintro ⟨newer, older, he⟩
    refine ⟨older, newer, he, fun e hm => ?_⟩
    have hn := m.nodup
    rw [he, List.map_append, List.map_cons] at hn
    have hne := List.disjoint_of_nodup_append hn (List.mem_map_of_mem hm)
    exact bne_iff_ne.mpr fun hk => hne (hk ▸ List.mem_cons_self)

theorem lookup_eq_none : m.lookup k = none ↔ k ∉ keys m.entries := by
  rw [lookup, List.lookup_eq_none_iff, keys, List.mem_map]
  constructor
  · rintro h ⟨e, he, rfl⟩
    exact absurd (h e he) (by simp)
  · intro h e he
    exact bne_iff_ne.mpr fun hk => h ⟨e, he, hk.symm⟩

theorem mem_keys_moved {es : List (κ × ν)} :
    j ∈ keys (others k es ++ [(k, v)]) ↔ j ∈ keys es ∨ j = k := by
  simp only [keys, others, List.map_append, List.map_singleton, List.mem_append, List.mem_map,
    List.mem_filter, decide_eq_true_eq, List.mem_singleton]
  constructor
  · rintro (⟨e, ⟨he, -⟩, rfl⟩ | rfl)
    · exact .inl ⟨e, he, rfl⟩
    · exact .inr rfl
  · rintro (⟨e, he, rfl⟩ | rfl)
    · by_cases hk : e.1 = k
      · exact .inr hk
      · exact .inl ⟨e, ⟨he, hk⟩, rfl⟩
    · exact .inr rfl

/-- How another key's use changes what was used since this one: it is still there, or it was the
oldest of a full dictionary. -/
inductive Aged (m' : LruMap κ ν cap) (k : κ) (v : ν) (newer : List (κ × ν)) (u : LruUse κ ν) : Prop
  | kept (newer' : List (κ × ν)) (holds : m'.Holds k v newer')
      (since : ∀ j ∈ keys newer', j ∈ keys newer ∨ j = u.key) (grows : keys newer ⊆ keys newer')
      (stored : u.puts ≠ none → u.key ∈ keys newer')
  | dropped (full : m'.entries.length = cap)
      (since : ∀ j ∈ keys m'.entries, j ∈ keys newer ∨ j = u.key)

theorem Holds.put (h : m.Holds k v newer) (hj : j ≠ k) :
    Aged (m.put j w) k v newer (.put j w) := by
  obtain ⟨older, he⟩ := h
  have hlen : (others j m.entries).length ≤ cap := (List.length_filter_le ..).trans m.bounded
  have hentries := put_entries m j w
  rw [he, others_around hj, List.length_append, List.length_cons] at hlen hentries
  rw [List.append_assoc, List.cons_append] at hentries
  by_cases hroom : (others j older).length + ((others j newer).length + 1) + 1 - cap ≤
      (others j older).length
  · rw [List.drop_append_of_le_length hroom] at hentries
    refine .kept (others j newer ++ [(j, w)]) ⟨_, hentries⟩ ?_ ?_ ?_
    · exact fun i hi => mem_keys_moved.mp hi
    · exact fun i hi => mem_keys_moved.mpr (.inl hi)
    · exact fun _ => mem_keys_moved.mpr (.inr rfl)
  · have hold : others j older = [] := List.eq_nil_of_length_eq_zero (by omega)
    have hone : (others j older).length + ((others j newer).length + 1) + 1 - cap = 1 := by omega
    rw [hone, hold] at hentries
    rw [hold] at hlen hroom
    rw [List.nil_append, List.drop_one, List.tail_cons] at hentries
    refine .dropped ?_ ?_
    · rw [hentries, List.length_append, List.length_singleton]
      simp only [List.length_nil] at hlen hroom
      omega
    · rw [hentries]
      exact fun i hi => mem_keys_moved.mp hi

theorem Holds.touch (h : m.Holds k v newer) (hj : j ≠ k) :
    Aged (m.touch j) k v newer (.touch j) := by
  rw [LruMap.touch]
  split
  · exact .kept newer h (fun i hi => .inl hi) (List.Subset.refl _) fun hp => absurd rfl hp
  · rename_i w _
    obtain ⟨older, he⟩ := h
    refine .kept (others j newer ++ [(j, w)]) ⟨others j older, ?_⟩ ?_ ?_ ?_
    · simp only [he, others_around hj, List.append_assoc, List.cons_append]
    · exact fun i hi => mem_keys_moved.mp hi
    · exact fun i hi => mem_keys_moved.mpr (.inl hi)
    · exact fun _ => mem_keys_moved.mpr (.inr rfl)

theorem Holds.use (h : m.Holds k v newer) (hu : u.key ≠ k) : Aged (m.use u) k v newer u := by
  cases u with
  | put j w => exact h.put hu
  | touch j => exact h.touch hu

theorem Holds.touch_self (h : m.Holds k v newer) : (m.touch k).Holds k v [] := by
  have hv := lookup_eq_some.mpr ⟨newer, h⟩
  rw [LruMap.touch]
  split
  · rename_i hn
    cases hv.symm.trans hn
  · rename_i w hw
    cases hv.symm.trans hw
    exact ⟨_, rfl⟩

theorem holds_put (m : LruMap κ ν cap) (k : κ) (v : ν) (hcap : 0 < cap) :
    (m.put k v).Holds k v [] := by
  have hlen : (others k m.entries).length ≤ cap := (List.length_filter_le ..).trans m.bounded
  refine ⟨(others k m.entries).drop ((others k m.entries).length + 1 - cap), ?_⟩
  rw [put_entries, List.drop_append_of_le_length (by omega)]

theorem lookup_use_none (h : m.lookup k = none) (hu : u.key ≠ k) : (m.use u).lookup k = none := by
  rw [lookup_eq_none] at h ⊢
  cases u with
  | put j w =>
    intro hk
    have hmem := List.map_subset Prod.fst (List.drop_subset _ _) hk
    exact (mem_keys_moved.mp hmem).elim h fun he => hu he.symm
  | touch j =>
    rw [use, touch]
    split
    · exact h
    · exact fun hk => (mem_keys_moved.mp hk).elim h fun he => hu he.symm

theorem mem_put {e : κ × ν} (h : e ∈ (m.put k v).entries) : e ∈ m.entries ∨ e = (k, v) := by
  rcases List.mem_append.mp (List.drop_subset _ _ h) with h | h
  · exact .inl (List.mem_of_mem_filter h)
  · exact .inr (List.mem_singleton.mp h)

theorem mem_touch {e : κ × ν} (h : e ∈ (m.touch k).entries) : e ∈ m.entries := by
  rw [LruMap.touch] at h
  split at h
  · exact h
  · rename_i v hv
    rcases List.mem_append.mp h with h | h
    · exact List.mem_of_mem_filter h
    · obtain ⟨newer, older, he⟩ := lookup_eq_some.mp hv
      rw [List.mem_singleton.mp h, he]
      exact List.mem_append_right _ List.mem_cons_self

/-- The keys other than `k` that a history uses. -/
def used (us : List (LruUse κ ν)) (k : κ) : Finset κ := (us.map LruUse.key).toFinset.erase k

/-- The keys that a history stores. -/
def stored (us : List (LruUse κ ν)) : Finset κ := (us.filterMap LruUse.puts).toFinset

theorem card_keys {S : Finset κ} {es : List (κ × ν)} (hn : (keys es).Nodup)
    (hS : ∀ j ∈ keys es, j ∈ S) : es.length ≤ S.card := by
  have hcard := Finset.card_le_card (s := (keys es).toFinset) (t := S)
    fun j hj => hS j (List.mem_toFinset.mp hj)
  rwa [List.toFinset_card_of_nodup hn, keys, List.length_map] at hcard

theorem Holds.uses {S : Finset κ} (h : m.Holds k v newer) (hnewer : ∀ j ∈ keys newer, j ∈ S)
    (hputs : ∀ u ∈ us, u.puts ≠ some k) (hS : ∀ u ∈ us, u.key ≠ k → u.key ∈ S)
    (hcard : S.card < cap) : (m.uses us).lookup k = some v := by
  induction us generalizing m newer with
  | nil => exact lookup_eq_some.mpr ⟨newer, h⟩
  | cons u us ih =>
    have hputs' : ∀ u ∈ us, u.puts ≠ some k := fun u hu => hputs u (List.mem_cons_of_mem _ hu)
    have hS' : ∀ u ∈ us, u.key ≠ k → u.key ∈ S := fun u hu => hS u (List.mem_cons_of_mem _ hu)
    by_cases hk : u.key = k
    · cases u with
      | put j w => exact absurd (congrArg some hk) (hputs _ List.mem_cons_self)
      | touch j =>
        rw [LruUse.key] at hk
        subst hk
        exact ih h.touch_self (fun i hi => by cases hi) hputs' hS'
    · have hu := hS u List.mem_cons_self hk
      cases h.use hk with
      | kept newer' holds since _ _ =>
        refine ih holds (fun i hi => ?_) hputs' hS'
        rcases since i hi with hi | rfl
        · exact hnewer i hi
        · exact hu
      | dropped full since =>
        have hle := card_keys (S := S) (m.use u).nodup fun i hi => by
          rcases since i hi with hi | rfl
          · exact hnewer i hi
          · exact hu
        omega

/-- A key keeps its value until as many others have been used as there is room for. -/
theorem lookup_uses_put (hcap : 0 < cap) (hputs : ∀ u ∈ us, u.puts ≠ some k)
    (hused : (used us k).card < cap) : ((m.put k v).uses us).lookup k = some v := by
  refine (holds_put m k v hcap).uses (fun i hi => by cases hi) hputs (fun u hu hk => ?_) hused
  exact Finset.mem_erase.mpr ⟨hk, List.mem_toFinset.mpr (List.mem_map_of_mem hu)⟩

/-- What is still there of a key is followed by every key that was stored since its last use. -/
theorem stored_since (hk : ∀ u ∈ us, u.key ≠ k) (h : (m.uses us).lookup k = some v) :
    ∃ newer, (m.uses us).Holds k v newer ∧ ∀ u ∈ us, u.puts ≠ none → u.key ∈ keys newer := by
  induction us using List.reverseRecOn with
  | nil =>
    obtain ⟨newer, hn⟩ := lookup_eq_some.mp h
    exact ⟨newer, hn, fun u hu => by cases hu⟩
  | append_singleton us u ih =>
    have hu := hk u (List.mem_append_right _ List.mem_cons_self)
    rw [uses_append] at h ⊢
    have hbefore : (m.uses us).lookup k = some v := by
      cases hb : (m.uses us).lookup k with
      | none => cases (lookup_use_none hb hu).symm.trans h
      | some x =>
        obtain ⟨newer, hn⟩ := lookup_eq_some.mp hb
        cases hn.use hu with
        | kept newer' holds _ _ _ =>
          exact (lookup_eq_some.mpr ⟨newer', holds⟩).symm.trans h
        | dropped _ since =>
          have hnone : ((m.uses us).use u).lookup k = none :=
            lookup_eq_none.mpr fun hm => (since k hm).elim hn.not_mem fun he => hu he.symm
          cases hnone.symm.trans h
    obtain ⟨newer, hn, hstored⟩ :=
      ih (fun x hx => hk x (List.mem_append_left _ hx)) hbefore
    cases hn.use hu with
    | kept newer' holds _ grows stored =>
      refine ⟨newer', holds, fun x hx hp => ?_⟩
      rcases List.mem_append.mp hx with hx | hx
      · exact grows (hstored x hx hp)
      · cases List.mem_singleton.mp hx
        exact stored hp
    | dropped _ since =>
      have hnone : ((m.uses us).use u).lookup k = none :=
        lookup_eq_none.mpr fun hm => (since k hm).elim hn.not_mem fun he => hu he.symm
      cases hnone.symm.trans h

/-- A key that is not used is forgotten once as many others have been stored as there is room
for. -/
theorem lookup_uses_none (hk : ∀ u ∈ us, u.key ≠ k) (hstored : cap ≤ (stored us).card) :
    (m.uses us).lookup k = none := by
  cases h : (m.uses us).lookup k with
  | none => rfl
  | some v =>
    obtain ⟨newer, hn, hs⟩ := stored_since hk h
    have hsub : stored us ⊆ (keys newer).toFinset := by
      intro j hj
      obtain ⟨u, hu, hp⟩ := List.mem_filterMap.mp (List.mem_toFinset.mp hj)
      cases u with
      | put i w =>
        cases hp
        exact List.mem_toFinset.mpr (hs _ hu nofun)
      | touch i => cases hp
    have hle := Finset.card_le_card hsub
    rw [List.toFinset_card_of_nodup hn.nodup, keys, List.length_map] at hle
    have := hn.length
    omega

end LruMap

end Lib
