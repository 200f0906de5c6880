import ClawMux.Lib.Text

namespace Lib.Text
set_option autoImplicit true

/-- What is found is a non-empty beginning of the text. -/
def Matcher.Sound (m : Matcher) : Prop := ∀ s x rest, m s = some (x, rest) → s = x ++ rest ∧ x ≠ []

/-- No match stands directly behind another one. -/
def Matcher.Separated (m : Matcher) : Prop := ∀ s x rest, m s = some (x, rest) → m rest = none

/-- The leftmost scan over a text, with its hits and what it passes over, up to a rest that is
there from the beginning. -/
inductive Scan (m : Matcher) : List Char → List (List Char) → List Char → List Char → Prop
  | done : Scan m rest [] [] rest
  | pass : m (c :: s) = none → Scan m s hits kept rest → Scan m (c :: s) hits (c :: kept) rest
  | hit : m s = some (x, s') → Scan m s' hits kept rest → Scan m s (x :: hits) kept rest

variable {m : Matcher}

theorem Matcher.Sound.nil (hm : m.Sound) : m [] ≠ some (x, rest) := by
  intro hx
  obtain ⟨he, hne⟩ := hm _ _ _ hx
  exact hne (List.append_eq_nil_iff.mp he.symm).1

namespace Scan

theorem append (h : Scan m s hits kept middle) (h' : Scan m middle hits' kept' rest) :
    Scan m s (hits ++ hits') (kept ++ kept') rest := by
  induction h with
  | done => exact h'
  | pass hc _ ih => exact .pass hc (ih h')
  | hit hx _ ih => exact .hit hx (ih h')

/-- The scan of the code, to the end. -/
theorem all (hm : m.Sound) (fuel : Nat) (s : List Char) (hf : s.length ≤ fuel) :
    Scan m s (findAll m fuel s) (eraseAll m fuel s) [] := by
  induction fuel generalizing s with
  | zero =>
    rw [List.length_eq_zero_iff.mp (Nat.le_zero.mp hf)]
    exact .done
  | succ fuel ih =>
    cases s with
    | nil => exact .done
    | cons c s =>
      rw [findAll, eraseAll]
      cases hx : m (c :: s) with
      | none => exact .pass hx (ih s (Nat.le_of_succ_le_succ hf))
      | some found =>
        obtain ⟨x, rest⟩ := found
        obtain ⟨hs, hne⟩ := hm _ _ _ hx
        have hlen := congrArg List.length hs
        have hpos := List.length_pos_of_ne_nil hne
        rw [List.length_append] at hlen
        exact .hit hx (ih rest (by omega))

/-- There is only one scan to the end. -/
theorem unique (hm : m.Sound) (h : Scan m s hits kept []) (h' : Scan m s hits' kept' []) :
    hits = hits' ∧ kept = kept' := by
  generalize hr : ([] : List Char) = rest at h
  induction h generalizing hits' kept' with
  | done =>
    subst hr
    cases h' with
    | done => exact ⟨rfl, rfl⟩
    | hit hx _ => exact absurd hx hm.nil
  | pass hc h ih =>
    cases h' with
    | pass _ h' =>
      obtain ⟨rfl, rfl⟩ := ih h' hr
      exact ⟨rfl, rfl⟩
    | hit hx _ => cases hc.symm.trans hx
  | hit hx h ih =>
    cases h' with
    | done => exact absurd hx hm.nil
    | pass hc _ => cases hc.symm.trans hx
    | hit hx' h' =>
      cases hx.symm.trans hx'
      obtain ⟨rfl, rfl⟩ := ih h' hr
      exact ⟨rfl, rfl⟩

/-- Before a hit the scan arrives at its place. -/
theorem arrives (h : Scan m s hits kept rest) (hx : x ∈ hits) :
    ∃ hits' kept' v after, Scan m s hits' kept' v ∧ m v = some (x, after) := by
  induction h with
  | done => cases hx
  | pass hc _ ih =>
    obtain ⟨hits', kept', v, after, hs, hv⟩ := ih hx
    exact ⟨hits', _, v, after, .pass hc hs, hv⟩
  | hit hy _ ih =>
    rcases List.mem_cons.mp hx with rfl | hx
    · exact ⟨[], [], _, _, .done, hy⟩
    · obtain ⟨hits', kept', v, after, hs, hv⟩ := ih hx
      exact ⟨_, kept', v, after, .hit hy hs, hv⟩

/-- What is kept can be split, with the text it is kept from. -/
theorem split (h : Scan m s hits kept rest) (hk : kept = left ++ right) :
    ∃ hits' v hits'', Scan m s hits' left v ∧ Scan m v hits'' right rest := by
  induction h generalizing left with
  | done =>
    obtain ⟨rfl, rfl⟩ := List.append_eq_nil_iff.mp hk.symm
    exact ⟨_, _, _, .done, .done⟩
  | pass hc h ih =>
    cases left with
    | nil =>
      rw [List.nil_append] at hk
      subst hk
      exact ⟨_, _, _, .done, .pass hc h⟩
    | cons d left =>
      obtain ⟨rfl, hk'⟩ := List.cons.inj hk
      obtain ⟨hits', v, hits'', hl, hr⟩ := ih hk'
      exact ⟨hits', v, hits'', .pass hc hl, hr⟩
  | hit hx _ ih =>
    obtain ⟨hits', v, hits'', hl, hr⟩ := ih hk
    exact ⟨_, v, hits'', .hit hx hl, hr⟩

/-- The next character that is kept; at most one hit stands before it. -/
theorem next (hm : m.Separated) (h : Scan m s hits (c :: kept) rest) :
    ∃ v hits', m (c :: v) = none ∧ Scan m v hits' kept rest ∧
      (s = c :: v ∨ ∃ x, m s = some (x, c :: v)) := by
  cases h with
  | pass hc h => exact ⟨_, _, hc, h, .inl rfl⟩
  | hit hx h =>
    cases h with
    | pass hc h => exact ⟨_, _, hc, h, .inr ⟨_, hx⟩⟩
    | hit hx' _ => cases (hm _ _ _ hx).symm.trans hx'

/-- The next character that is kept, behind the hits before it. -/
theorem first (h : Scan m s hits (c :: kept) rest) : ∃ hits₁ v hits₂,
    Scan m s hits₁ [] (c :: v) ∧ m (c :: v) = none ∧ Scan m v hits₂ kept rest := by
  generalize hk : c :: kept = kept' at h
  induction h with
  | done => cases hk
  | pass hc h _ =>
    cases hk
    exact ⟨[], _, _, .done, hc, h⟩
  | hit hx _ ih =>
    obtain ⟨hits₁, v, hits₂, hfirst, hnone, hrest⟩ := ih hk
    exact ⟨_, v, hits₂, .hit hx hfirst, hnone, hrest⟩

/-- What is kept stands together in the text, unless a hit comes before its end. -/
theorem run (h : Scan m s hits (w ++ kept) rest) :
    (∃ v hits', s = w ++ v ∧ Scan m v hits' kept rest) ∨
      ∃ w₁ w₂ v x v', w = w₁ ++ w₂ ∧ w₂ ≠ [] ∧ s = w₁ ++ v ∧ m v = some (x, v') := by
  induction w generalizing s hits with
  | nil => exact .inl ⟨s, hits, rfl, h⟩
  | cons c w ih =>
    rw [List.cons_append] at h
    cases h with
    | pass _ h =>
      rcases ih h with ⟨v, hits', rfl, hv⟩ | ⟨w₁, w₂, v, x, v', rfl, hne, rfl, hx⟩
      · exact .inl ⟨v, hits', rfl, hv⟩
      · exact .inr ⟨c :: w₁, w₂, v, x, v', rfl, hne, rfl, hx⟩
    | hit hx h => exact .inr ⟨[], c :: w, s, _, _, rfl, List.cons_ne_nil _ _, rfl, hx⟩

theorem length_le (hm : m.Sound) (h : Scan m s hits kept rest) :
    kept.length + rest.length ≤ s.length := by
  induction h with
  | done => simp
  | pass _ _ ih =>
    rw [List.length_cons, List.length_cons]
    omega
  | hit hx _ ih =>
    obtain ⟨rfl, -⟩ := hm _ _ _ hx
    rw [List.length_append]
    omega

/-- The rest is the end of the text. -/
theorem ends (hm : m.Sound) (h : Scan m s hits kept rest) : ∃ x, s = x ++ rest := by
  induction h with
  | done => exact ⟨[], rfl⟩
  | pass _ _ ih =>
    obtain ⟨x, rfl⟩ := ih
    exact ⟨_ :: x, rfl⟩
  | hit hx _ ih =>
    obtain ⟨rfl, -⟩ := hm _ _ _ hx
    obtain ⟨x', rfl⟩ := ih
    exact ⟨_ ++ x', (List.append_assoc _ _ _).symm⟩

/-- Of two scans of one text the one goes on where the other ends. -/
theorem linear (h : Scan m s hits kept v) (h' : Scan m s hits' kept' v') :
    (∃ hits'' kept'', Scan m v hits'' kept'' v') ∨ ∃ hits'' kept'', Scan m v' hits'' kept'' v := by
  induction h generalizing hits' kept' with
  | done => exact .inl ⟨_, _, h'⟩
  | pass hc h ih =>
    cases h' with
    | done => exact .inr ⟨_, _, .pass hc h⟩
    | pass _ h' => exact ih h'
    | hit hx _ => cases hc.symm.trans hx
  | hit hx h ih =>
    cases h' with
    | done => exact .inr ⟨_, _, .hit hx h⟩
    | pass hc _ => cases hc.symm.trans hx
    | hit hx' h' =>
      cases hx.symm.trans hx'
      exact ih h'

/-- The scan does not arrive inside a match. -/
theorem not_inside (hm : m.Sound) (h : Scan m s hits kept (h₁ ++ v))
    (hx : m (h₁ ++ v) = some (h₁ ++ h₂, y)) (hne₁ : h₁ ≠ []) (hne₂ : h₂ ≠ []) :
    ¬ Scan m s hits' kept' v := by
  intro h'
  have hpos := List.length_pos_of_ne_nil hne₁
  have hy : v.length = h₂.length + y.length := by
    obtain ⟨he, -⟩ := hm _ _ _ hx
    rw [List.append_assoc] at he
    rw [List.append_cancel_left he, List.length_append]
  have hpos₂ := List.length_pos_of_ne_nil hne₂
  rcases h.linear h' with ⟨_, _, hon⟩ | ⟨_, _, hback⟩
  · generalize hs : h₁ ++ v = w at hon hx
    cases hon with
    | done =>
      have hlen := congrArg List.length hs
      rw [List.length_append] at hlen
      omega
    | pass hc _ => cases hc.symm.trans hx
    | hit hx' hon =>
      cases hx.symm.trans hx'
      have hlen := hon.length_le hm
      omega
  · have hlen := hback.length_le hm
    rw [List.length_append] at hlen
    omega

/-- The scan arrives at every place that is not inside a match. -/
theorem reach (hm : m.Sound) (x v : List Char) : (∃ hits kept, Scan m (x ++ v) hits kept v) ∨
    ∃ x' h₁ h₂ y hits kept, x = x' ++ h₁ ∧ v = h₂ ++ y ∧ h₁ ≠ [] ∧ h₂ ≠ [] ∧
      Scan m (x ++ v) hits kept (h₁ ++ v) ∧ m (h₁ ++ v) = some (h₁ ++ h₂, y) := by
  induction hn : x.length using Nat.strong_induction_on generalizing x with
  | _ n ih =>
    cases x with
    | nil => exact .inl ⟨[], [], .done⟩
    | cons c x =>
      cases hc : m (c :: x ++ v) with
      | none =>
        rcases ih x.length (by rw [← hn]; simp) x rfl with ⟨hits, kept, h⟩ |
          ⟨x', h₁, h₂, y, hits, kept, rfl, hv, hne₁, hne₂, h, hx⟩
        · exact .inl ⟨hits, c :: kept, .pass hc h⟩
        · exact .inr ⟨c :: x', h₁, h₂, y, hits, c :: kept, rfl, hv, hne₁, hne₂, .pass hc h, hx⟩
      | some found =>
        obtain ⟨hit, rest⟩ := found
        obtain ⟨hs, hne⟩ := hm _ _ _ hc
        rcases List.append_eq_append_iff.mp hs with ⟨beyond, rfl, hv⟩ | ⟨x₂, hx₂, rfl⟩
        · by_cases hover : beyond = []
          · subst hover
            rw [List.append_nil] at hc
            rw [List.nil_append] at hv
            subst hv
            exact .inl ⟨_, _, .hit hc .done⟩
          · exact .inr ⟨[], c :: x, beyond, rest, [], [], rfl, hv, List.cons_ne_nil _ _, hover,
              .done, hc⟩
        · have hlen := congrArg List.length hx₂
          have hpos := List.length_pos_of_ne_nil hne
          rw [List.length_append] at hlen
          rcases ih x₂.length (by omega) x₂ rfl with ⟨hits, kept, h⟩ |
            ⟨x', h₁, h₂, y, hits, kept, rfl, hv, hne₁, hne₂, h, hx⟩
          · exact .inl ⟨_, _, .hit hc h⟩
          · refine .inr ⟨hit ++ x', h₁, h₂, y, _, _, ?_, hv, hne₁, hne₂, .hit hc h, hx⟩
            rw [hx₂, List.append_assoc]

/-- What no match ends with is kept, where the scan arrives behind it. -/
theorem kept_end {p : Char → Bool} (hm : m.Sound)
    (hlast : ∀ s x rest, m s = some (x, rest) → ∃ init c, x = init ++ [c] ∧ p c = false)
    (hw : ∀ c ∈ w, p c = true) (h : Scan m (x ++ (w ++ v)) hits kept v) :
    ∃ left, kept = left ++ w := by
  generalize hs : x ++ (w ++ v) = s at h
  induction h generalizing x w with
  | done =>
    have hlen := congrArg List.length hs
    rw [List.length_append, List.length_append] at hlen
    have hw : w = [] := List.length_eq_zero_iff.mp (by omega)
    exact ⟨[], hw.symm⟩
  | @pass c s hits kept rest hc h ih =>
    cases x with
    | cons d x =>
      obtain ⟨-, hs⟩ := List.cons.inj hs
      obtain ⟨left, rfl⟩ := ih hw hs
      exact ⟨c :: left, rfl⟩
    | nil =>
      cases w with
      | nil => exact ⟨c :: kept, (List.append_nil _).symm⟩
      | cons d w =>
        have hcons : d :: (w ++ rest) = c :: s := hs
        obtain ⟨rfl, hrest⟩ := List.cons.inj hcons
        obtain ⟨left, rfl⟩ := ih (x := []) (fun c hc => hw c (List.mem_cons_of_mem _ hc)) hrest
        have hlen := h.length_le hm
        rw [← hrest, List.length_append, List.length_append] at hlen
        have hleft : left = [] := List.length_eq_zero_iff.mp (by omega)
        exact ⟨[], by rw [hleft]; rfl⟩
  | @hit s hit s' hits kept rest hx h ih =>
    obtain ⟨rfl, -⟩ := hm _ _ _ hx
    rcases List.append_eq_append_iff.mp hs with ⟨beyond, hover, hrest⟩ | ⟨x₂, rfl, hrest⟩
    · by_cases hne : beyond = []
      · subst hne
        exact ih (x := []) hw hrest
      · obtain ⟨init, c, rfl, hc⟩ := hlast _ _ _ hx
        obtain ⟨beyond, d, rfl⟩ := (List.eq_nil_or_concat' beyond).resolve_left hne
        rw [← List.append_assoc] at hover
        have hd := List.singleton_inj.mp (List.append_inj' hover rfl).2
        have hlen := h.length_le hm
        have hin : beyond ++ [d] <+: w := by
          rcases List.append_eq_append_iff.mp hrest with ⟨z, hz, hz'⟩ | ⟨z, rfl, -⟩
          · rw [hz', List.length_append] at hlen
            have hnil : z = [] := List.length_eq_zero_iff.mp (by omega)
            rw [hz, hnil, List.append_nil]
          · exact List.prefix_append _ _
        have hmem : c ∈ w := hin.subset (by rw [hd]; simp)
        exact absurd ((hw c hmem).symm.trans hc) Bool.noConfusion
    · exact ih hw hrest.symm

end Scan

/-- A match is found where the scan arrives. -/
theorem mem_findAll (hm : m.Sound) : x ∈ findAll m s.length s ↔
    ∃ hits kept v after, Scan m s hits kept v ∧ m v = some (x, after) := by
  have hall := Scan.all hm s.length s (Nat.le_refl _)
  constructor
  · exact hall.arrives
  · rintro ⟨hits, kept, v, after, hs, hv⟩
    have hrest := Scan.all hm after.length after (Nat.le_refl _)
    obtain ⟨he, -⟩ := hall.unique hm (hs.append (.hit hv hrest))
    rw [he]
    exact List.mem_append_right _ List.mem_cons_self

end Lib.Text
