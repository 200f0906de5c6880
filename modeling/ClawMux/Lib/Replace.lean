import Mathlib.Data.List.Infix
import Mathlib.Data.List.Shortlex
import Mathlib.Logic.Relation
import Mathlib.Order.WellFounded

namespace Lib.Replace
set_option autoImplicit true

variable {α : Type} {o : α} {old new : List α} {rules : List (List α × List α)}

/-! Rewriting -/

/-- One occurrence of the left side of a rule becomes its right side. -/
inductive Rewrite {α : Type} (rules : List (List α × List α)) : List α → List α → Prop
  | mk {old new : List α} (x y : List α) : (old, new) ∈ rules →
      Rewrite rules (x ++ old ++ y) (x ++ new ++ y)

theorem Rewrite.append_left (u : List α) (h : Rewrite rules s t) :
    Rewrite rules (u ++ s) (u ++ t) := by
  cases h with
  | mk x y hr =>
    have hstep := Rewrite.mk (u ++ x) y hr
    rwa [List.append_assoc u, List.append_assoc u, List.append_assoc u, List.append_assoc u]
      at hstep

abbrev Rewrites {α : Type} (rules : List (List α × List α)) : List α → List α → Prop :=
  Relation.ReflTransGen (Rewrite rules)

theorem Rewrites.append_left (u : List α) (h : Rewrites rules s t) :
    Rewrites rules (u ++ s) (u ++ t) :=
  Relation.ReflTransGen.lift (u ++ ·) (fun _ _ hs => Rewrite.append_left u hs) _ _ h

theorem rewrite_head (hr : (old, new) ∈ rules) (y : List α) :
    Rewrite rules (old ++ y) (new ++ y) := Rewrite.mk [] y hr

/-! Placeholders begin with a doubled symbol that the texts put in their place do not contain. -/

/-- `{{…}}`, for the symbol `{`. -/
structure Placeholder (o : α) (old : List α) : Prop where
  shape : ∃ c core, old = o :: o :: c :: core ∧ c ≠ o ∧ o ∉ core

def Plain (o : α) (new : List α) : Prop := ¬ [o, o] <:+: new

theorem Placeholder.ne_nil (h : Placeholder o old) : old ≠ [] := by
  obtain ⟨c, core, rfl, -⟩ := h.shape
  exact List.cons_ne_nil _ _

theorem Placeholder.not_prefix_of_ne (h : Placeholder o old) (hc : c ≠ o) (s : List α) :
    ¬ old <+: c :: s := by
  obtain ⟨d, core, rfl, -⟩ := h.shape
  intro hp
  exact hc (List.cons_prefix_cons.mp hp).1.symm

theorem Placeholder.not_prefix_of_single (h : Placeholder o old) (hc : c ≠ o) (s : List α) :
    ¬ old <+: o :: c :: s := by
  obtain ⟨d, core, rfl, -⟩ := h.shape
  intro hp
  exact hc (List.cons_prefix_cons.mp (List.cons_prefix_cons.mp hp).2).1.symm

variable [DecidableEq α]

instance (o : α) (new : List α) : Decidable (Plain o new) := inferInstanceAs (Decidable (¬ _))

/-! Substitution -/

/-- `str.replace(old, new)` for a non-empty `old`; the number counts symbols still to be passed. -/
def replaceFrom (old new : List α) : Nat → List α → List α
  | _, [] => []
  | 0, c :: s =>
    if old.isPrefixOf (c :: s) then new ++ replaceFrom old new (old.length - 1) s
    else c :: replaceFrom old new 0 s
  | n + 1, _ :: s => replaceFrom old new n s

def replaceAll (old new s : List α) : List α := replaceFrom old new 0 s

theorem replaceFrom_skip (u s : List α) :
    replaceFrom old new u.length (u ++ s) = replaceFrom old new 0 s := by
  induction u with
  | nil => rfl
  | cons c u ih => exact ih

@[simp] theorem replaceAll_nil : replaceAll old new [] = [] := rfl

theorem replaceAll_found (hold : old ≠ []) (s : List α) :
    replaceAll old new (old ++ s) = new ++ replaceAll old new s := by
  cases old with
  | nil => exact absurd rfl hold
  | cons c rest =>
    have hp : (c :: rest).isPrefixOf (c :: (rest ++ s)) = true :=
      List.isPrefixOf_iff_prefix.mpr (List.prefix_append _ s)
    rw [replaceAll, List.cons_append, replaceFrom, if_pos hp, List.length_cons,
      Nat.add_sub_cancel, replaceFrom_skip]
    rfl

theorem replaceAll_cons (h : ¬ old <+: c :: s) :
    replaceAll old new (c :: s) = c :: replaceAll old new s := by
  rw [replaceAll, replaceFrom, if_neg]
  · rfl
  · rwa [List.isPrefixOf_iff_prefix]

/-- A text is read off from its left end, one occurrence or one other symbol at a time. -/
theorem scan_induction {P : List α → Prop} (hold : old ≠ []) (nil : P [])
    (found : ∀ s, P s → P (old ++ s)) (cons : ∀ c s, ¬ old <+: c :: s → P s → P (c :: s))
    (s : List α) : P s := by
  induction hn : s.length using Nat.strong_induction_on generalizing s with
  | h n ih =>
    have hpos := List.length_pos_iff.mpr hold
    by_cases hp : old <+: s
    · obtain ⟨rest, rfl⟩ := hp
      rw [List.length_append] at hn
      exact found rest (ih rest.length (by omega) rest rfl)
    · cases s with
      | nil => exact nil
      | cons c s =>
        rw [List.length_cons] at hn
        exact cons c s hp (ih s.length (by omega) s rfl)

theorem replaceAll_eq_self (h : ¬ old <:+: s) : replaceAll old new s = s := by
  induction s with
  | nil => rfl
  | cons c s ih =>
    rw [List.infix_cons_iff, not_or] at h
    rw [replaceAll_cons h.1, ih h.2]

theorem rewrites_replaceAll (hold : old ≠ []) (hr : (old, new) ∈ rules) (s : List α) :
    Rewrites rules s (replaceAll old new s) := by
  induction s using scan_induction hold with
  | nil => exact .refl
  | found s ih =>
    rw [replaceAll_found hold]
    exact .head (rewrite_head hr s) (ih.append_left new)
  | cons c s hp ih =>
    rw [replaceAll_cons hp]
    exact ih.append_left [c]

theorem rewritten_of_occurs (hold : old ≠ []) (hr : (old, new) ∈ rules) {s : List α}
    (h : old <:+: s) : Relation.TransGen (Rewrite rules) s (replaceAll old new s) := by
  induction s using scan_induction hold with
  | nil => exact absurd (List.infix_nil.mp h) hold
  | found s _ =>
    rw [replaceAll_found hold]
    exact .head' (rewrite_head hr s) ((rewrites_replaceAll hold hr s).append_left new)
  | cons c s hp ih =>
    rw [replaceAll_cons hp]
    exact Relation.TransGen.lift ([c] ++ ·) (fun _ _ hs => Rewrite.append_left [c] hs) _ _
      (ih ((List.infix_cons_iff.mp h).resolve_left hp))

theorem Placeholder.replaceAll_append {u : List α} (h : Placeholder o old) (ho : o ∉ u)
    (s : List α) :
    replaceAll old new (u ++ s) = u ++ replaceAll old new s := by
  induction u with
  | nil => rfl
  | cons c u ih =>
    rw [List.mem_cons, not_or] at ho
    rw [List.cons_append, replaceAll_cons (h.not_prefix_of_ne (Ne.symm ho.1) _), ih ho.2,
      List.cons_append]

/-- A proper end of a placeholder cannot begin another one. -/
theorem Placeholder.replaceAll_tail {old' : List α} (h : Placeholder o old)
    (h' : Placeholder o (d :: old'))
    (s : List α) : replaceAll old new (old' ++ s) = old' ++ replaceAll old new s := by
  obtain ⟨c, core, heq, hc, hcore⟩ := h'.shape
  obtain ⟨-, rfl⟩ := List.cons.inj heq
  have ho : o ∉ c :: core := by
    rw [List.mem_cons, not_or]
    exact ⟨Ne.symm hc, hcore⟩
  rw [List.cons_append, List.cons_append, replaceAll_cons (h.not_prefix_of_single hc _),
    ← List.cons_append, h.replaceAll_append ho]
  rfl

theorem Placeholder.replaceAll_suffix (h : Placeholder o old) (hs : b₁ ++ b₂ = old)
    (hb : b₁ ≠ []) (s : List α) :
    replaceAll old new (b₂ ++ s) = b₂ ++ replaceAll old new s := by
  obtain ⟨c, core, rfl, hc, hcore⟩ := h.shape
  match b₁, hb with
  | [d], _ =>
    have hd : d :: b₂ = o :: o :: c :: core := hs
    exact h.replaceAll_tail (hd ▸ h) s
  | d :: e :: b₁, _ =>
    obtain ⟨-, hs⟩ := List.cons.inj hs
    obtain ⟨-, hs⟩ := List.cons.inj hs
    apply h.replaceAll_append
    intro hmem
    have hin : o ∈ c :: core := hs ▸ List.mem_append_right b₁ hmem
    rcases List.mem_cons.mp hin with he | hin
    · exact hc he.symm
    · exact hcore hin

/-- One placeholder is left alone by the replacement of another one. -/
theorem Placeholder.replaceAll_other (h : Placeholder o old) (h' : Placeholder o old')
    (hne : ¬ old <+: old') (hne' : ¬ old' <+: old) (s : List α) :
    replaceAll old new (old' ++ s) = old' ++ replaceAll old new s := by
  have hp : ¬ old <+: old' ++ s := by
    intro hp
    rcases List.prefix_or_prefix_of_prefix hp (List.prefix_append old' s) with hx | hx
    · exact hne hx
    · exact hne' hx
  match old', h'.ne_nil with
  | d :: rest, _ =>
    rw [List.cons_append] at hp ⊢
    rw [replaceAll_cons hp, h.replaceAll_tail h', List.cons_append]

/-- To replace in the second half first and then in the whole is to rewrite further. -/
theorem Placeholder.rewrites_append (h : Placeholder o old) (hr : (old, new) ∈ rules)
    (u v : List α) :
    Rewrites rules (u ++ replaceAll old new v) (replaceAll old new (u ++ v)) := by
  induction hn : u.length using Nat.strong_induction_on generalizing u with
  | h n ih =>
    by_cases hu : u = []
    · subst hu
      exact .refl
    · by_cases hp : old <+: u ++ v
      · rcases List.prefix_or_prefix_of_prefix hp (List.prefix_append u v) with hpu | ⟨b₂, hb⟩
        · obtain ⟨u', rfl⟩ := hpu
          have hpos := List.length_pos_iff.mpr h.ne_nil
          rw [List.length_append] at hn
          have hrest := ih u'.length (by omega) u' rfl
          rw [List.append_assoc, List.append_assoc, replaceAll_found h.ne_nil]
          exact .head (rewrite_head hr _) (hrest.append_left new)
        · obtain ⟨v', rfl⟩ : b₂ <+: v := by
            rw [← hb] at hp
            exact (List.prefix_append_right_inj u).mp hp
          rw [h.replaceAll_suffix hb hu, ← List.append_assoc, ← List.append_assoc, hb,
            replaceAll_found h.ne_nil]
          exact .single (rewrite_head hr _)
      · match u, hu with
        | c :: u, _ =>
          rw [List.length_cons] at hn
          rw [List.cons_append] at hp
          rw [List.cons_append, List.cons_append, replaceAll_cons hp]
          exact (ih u.length (by omega) u rfl).append_left [c]

/-- Replacing one placeholder before another rewrites what the other alone gives, and really does
when there is something to replace. -/
theorem Placeholder.rewrites_commute (h : Placeholder o old) (h' : Placeholder o old')
    (hne : ¬ old <+: old') (hne' : ¬ old' <+: old) (hr : (old, new) ∈ rules)
    (hr' : (old', new') ∈ rules) (s : List α) :
    Rewrites rules (replaceAll old new s) (replaceAll old new (replaceAll old' new' s)) ∧
    (replaceAll old' new' s ≠ s → Relation.TransGen (Rewrite rules) (replaceAll old new s)
      (replaceAll old new (replaceAll old' new' s))) := by
  induction hn : s.length using Nat.strong_induction_on generalizing s with
  | h n ih =>
    have hpos := List.length_pos_iff.mpr h.ne_nil
    have hpos' := List.length_pos_iff.mpr h'.ne_nil
    by_cases hp' : old' <+: s
    · obtain ⟨rest, rfl⟩ := hp'
      rw [List.length_append] at hn
      obtain ⟨hrest, -⟩ := ih rest.length (by omega) rest rfl
      rw [replaceAll_found h'.ne_nil, h.replaceAll_other h' hne hne']
      have hstep := rewrite_head hr' (replaceAll old new rest)
      have hmore := (hrest.append_left new').trans
        (h.rewrites_append hr new' (replaceAll old' new' rest))
      exact ⟨.head hstep hmore, fun _ => .head' hstep hmore⟩
    · by_cases hp : old <+: s
      · obtain ⟨rest, rfl⟩ := hp
        rw [List.length_append] at hn
        obtain ⟨hrest, hstrict⟩ := ih rest.length (by omega) rest rfl
        rw [h'.replaceAll_other h hne' hne, replaceAll_found h.ne_nil, replaceAll_found h.ne_nil]
        refine ⟨hrest.append_left new, fun hd => ?_⟩
        have hd' : replaceAll old' new' rest ≠ rest := fun he => hd (by rw [he])
        exact Relation.TransGen.lift (new ++ ·) (fun _ _ hs => Rewrite.append_left new hs) _ _
          (hstrict hd')
      · match s with
        | [] => exact ⟨.refl, fun hd => absurd rfl hd⟩
        | c :: s =>
          rw [List.length_cons] at hn
          obtain ⟨hrest, hstrict⟩ := ih s.length (by omega) s rfl
          have hmore := h.rewrites_append hr [c] (replaceAll old' new' s)
          rw [replaceAll_cons hp, replaceAll_cons hp']
          refine ⟨(hrest.append_left [c]).trans hmore, fun hd => ?_⟩
          have hd' : replaceAll old' new' s ≠ s := fun he => hd (by rw [he])
          exact (Relation.TransGen.lift ([c] ++ ·) (fun _ _ hs => Rewrite.append_left [c] hs) _ _
            (hstrict hd')).trans_left hmore

/-! Rewriting placeholders by plain texts never comes back to a text. -/

/-- The distances of the doubled symbols from the right end, from right to left. -/
def doubles (o : α) : List α → List Nat
  | [] => []
  | c :: s => doubles o s ++ if c = o ∧ s.head? = some o then [s.length] else []

/-- Fewer doubled symbols, or the first one that differs is further to the right. -/
abbrev Less (o : α) : List α → List α → Prop :=
  InvImage (List.Shortlex (· < ·)) (doubles o)

theorem less_wf (o : α) : WellFounded (Less o) :=
  InvImage.wf _ (List.Shortlex.wf wellFounded_lt)

theorem doubles_append_plain (hw : Plain o w) (y : List α) :
    doubles o (w ++ y) = doubles o y ++
      if w.getLast? = some o ∧ y.head? = some o then [y.length] else [] := by
  induction w with
  | nil => simp
  | cons c w ih =>
    have hw' : Plain o w := fun h => hw (List.infix_cons h)
    cases w with
    | nil =>
      simp only [List.cons_append, doubles, List.nil_append, List.getLast?_singleton,
        Option.some.injEq]
    | cons d w =>
      have hcd : ¬ (c = o ∧ (d :: (w ++ y)).head? = some o) := by
        rintro ⟨rfl, hd⟩
        rw [List.head?_cons, Option.some.injEq] at hd
        subst hd
        exact hw ⟨[], w, rfl⟩
      rw [List.cons_append, List.cons_append, doubles, if_neg hcd, List.append_nil,
        ← List.cons_append, ih hw', List.getLast?_cons_cons]

theorem doubles_placeholder (h : Placeholder o old) (y : List α) :
    ∃ d, doubles o (old ++ y) = doubles o y ++ [d] ∧ y.length < d := by
  obtain ⟨c, core, rfl, hc, hcore⟩ := h.shape
  have hplain : Plain o (c :: core) := by
    intro hin
    have hmem : o ∈ c :: core := hin.subset List.mem_cons_self
    rcases List.mem_cons.mp hmem with he | hmem
    · exact hc he.symm
    · exact hcore hmem
  have hlast : ¬ ((c :: core).getLast? = some o ∧ y.head? = some o) := by
    rintro ⟨hl, -⟩
    have hmem := List.mem_of_getLast? hl
    rcases List.mem_cons.mp hmem with he | hmem
    · exact hc he.symm
    · exact hcore hmem
  have hbody := doubles_append_plain hplain y
  rw [if_neg hlast, List.append_nil] at hbody
  refine ⟨(o :: (c :: core ++ y)).length, ?_, ?_⟩
  · rw [List.cons_append, List.cons_append, doubles, if_pos ⟨rfl, rfl⟩, doubles, if_neg, hbody,
      List.append_nil]
    rintro ⟨-, hd⟩
    exact hc (Option.some.inj hd)
  · simp only [List.length_cons, List.length_append]
    omega

theorem less_head (h : Placeholder o old) (hw : Plain o new) (y : List α) :
    Less o (new ++ y) (old ++ y) := by
  obtain ⟨d, hd, hlt⟩ := doubles_placeholder h y
  rw [Less, InvImage, hd, doubles_append_plain hw]
  split
  · exact List.Shortlex.append_left ((List.shortlex_singleton_iff _ _).mpr hlt) _
  · apply List.Shortlex.of_length_lt
    simp

omit [DecidableEq α] in
theorem lex_append {r : α → α → Prop} {s t : List α} (h : List.Lex r s t)
    (hlen : s.length = t.length) (u v : List α) : List.Lex r (s ++ u) (t ++ v) := by
  induction h with
  | nil => cases hlen
  | cons _ ih => exact .cons (ih (Nat.succ.inj hlen))
  | rel hr => exact .rel hr

/-- A symbol before both texts keeps their order. -/
theorem less_cons {s t : List α} (h : Less o s t) (hh : s.head? = some o → t.head? = some o)
    (c : α) : Less o (c :: s) (c :: t) := by
  rw [Less, InvImage, doubles, doubles]
  by_cases hs : c = o ∧ s.head? = some o
  · rw [if_pos hs, if_pos ⟨hs.1, hh hs.2⟩]
    rcases List.shortlex_def.mp h with hlen | ⟨hlen, hlex⟩
    · apply List.Shortlex.of_length_lt
      simp only [List.length_append, List.length_singleton]
      omega
    · apply List.Shortlex.of_lex
      · simp only [List.length_append, List.length_singleton, hlen]
      · exact lex_append hlex hlen _ _
  · rw [if_neg hs, List.append_nil]
    exact List.Shortlex.append_right _ h

theorem less_append {s t : List α} (h : Less o s t) (hh : s.head? = some o → t.head? = some o)
    (x : List α) : Less o (x ++ s) (x ++ t) := by
  have hboth : Less o (x ++ s) (x ++ t) ∧
      ((x ++ s).head? = some o → (x ++ t).head? = some o) := by
    induction x with
    | nil => exact ⟨h, hh⟩
    | cons c x ih => exact ⟨less_cons ih.1 ih.2 c, fun hc => hc⟩
  exact hboth.1

/-- Every rule puts a plain text in the place of a placeholder. -/
def Templates (o : α) (rules : List (List α × List α)) : Prop :=
  ∀ r ∈ rules, Placeholder o r.1 ∧ Plain o r.2

theorem Rewrite.less (hrules : Templates o rules) (h : Rewrite rules s t) : Less o t s := by
  cases h with
  | mk x y hr =>
    obtain ⟨hp, hw⟩ := hrules _ hr
    rw [List.append_assoc, List.append_assoc]
    apply less_append (less_head hp hw y)
    intro _
    obtain ⟨c, core, heq, -⟩ := hp.shape
    rw [heq]
    rfl

theorem rewritten_ne (hrules : Templates o rules) (h : Relation.TransGen (Rewrite rules) s t) :
    s ≠ t := by
  have hless : Relation.TransGen (Less o) t s := by
    induction h with
    | single hs => exact .single (hs.less hrules)
    | tail _ hs ih => exact .head (hs.less hrules) ih
  rintro rfl
  exact (less_wf o).transGen.irrefl.irrefl s hless

theorem Placeholder.replaceAll_eq_self_iff (h : Placeholder o old) (hw : Plain o new)
    (s : List α) : replaceAll old new s = s ↔ ¬ old <:+: s := by
  constructor
  · intro he hin
    have hrules : Templates o [(old, new)] := by
      intro r hr
      rw [List.mem_singleton.mp hr]
      exact ⟨h, hw⟩
    exact rewritten_ne hrules (rewritten_of_occurs h.ne_nil List.mem_cons_self hin) he.symm
  · exact replaceAll_eq_self

/-- Substituting three placeholders gives what substituting the second one gives only where the
other two have nothing to substitute. -/
theorem replaceAll_chain_iff {pa pb pc wa wb wc : List α} (ha : Placeholder o pa)
    (hb : Placeholder o pb) (hc : Placeholder o pc) (hwa : Plain o wa) (hwb : Plain o wb)
    (hwc : Plain o wc) (hab : ¬ pa <+: pb) (hba : ¬ pb <+: pa) (s : List α) :
    replaceAll pc wc (replaceAll pb wb (replaceAll pa wa s)) = replaceAll pb wb s ↔
      ¬ pa <:+: s ∧ ¬ pc <:+: replaceAll pb wb s := by
  have hrules : Templates o [(pa, wa), (pb, wb), (pc, wc)] := by
    intro r hr
    simp only [List.mem_cons, List.not_mem_nil, or_false] at hr
    rcases hr with rfl | rfl | rfl
    · exact ⟨ha, hwa⟩
    · exact ⟨hb, hwb⟩
    · exact ⟨hc, hwc⟩
  constructor
  · intro he
    have hs : ¬ pa <:+: s := by
      intro hin
      have hmoved : replaceAll pa wa s ≠ s := fun hx =>
        (ha.replaceAll_eq_self_iff hwa s).mp hx hin
      have hma : (pa, wa) ∈ [(pa, wa), (pb, wb), (pc, wc)] := by simp
      have hmb : (pb, wb) ∈ [(pa, wa), (pb, wb), (pc, wc)] := by simp
      have hmc : (pc, wc) ∈ [(pa, wa), (pb, wb), (pc, wc)] := by simp
      have hstep := (hb.rewrites_commute ha hba hab hmb hma s).2 hmoved
      have hlast := rewrites_replaceAll hc.ne_nil hmc (replaceAll pb wb (replaceAll pa wa s))
      exact rewritten_ne hrules (hstep.trans_left hlast) he.symm
    rw [replaceAll_eq_self hs] at he
    exact ⟨hs, (hc.replaceAll_eq_self_iff hwc _).mp he⟩
  · rintro ⟨hs, hc'⟩
    rw [replaceAll_eq_self hs, replaceAll_eq_self hc']

/-! A replacement of its own symbols leaves no occurrence -/

theorem prefix_of_prefix_replaceAll (hold : old ≠ []) (hnew : new ≠ [])
    {u : List α} (hu : ∀ c ∈ u, c ∉ new) {s : List α} (h : u <+: replaceAll old new s) :
    u <+: s := by
  induction s using scan_induction hold generalizing u with
  | nil => exact h
  | found s ih =>
    cases u with
    | nil => exact List.nil_prefix
    | cons c u =>
      obtain ⟨d, new', rfl⟩ := List.exists_cons_of_ne_nil hnew
      rw [replaceAll_found hold, List.cons_append] at h
      have hc := (List.cons_prefix_cons.mp h).1
      exact absurd List.mem_cons_self (hc ▸ hu c List.mem_cons_self)
  | cons c s hp ih =>
    cases u with
    | nil => exact List.nil_prefix
    | cons d u =>
      rw [replaceAll_cons hp] at h
      obtain ⟨rfl, htail⟩ := List.cons_prefix_cons.mp h
      exact List.cons_prefix_cons.mpr
        ⟨rfl, ih (fun c hc => hu c (List.mem_cons_of_mem _ hc)) htail⟩

omit [DecidableEq α] in
theorem infix_of_infix_append (hold : old ≠ []) (hsep : ∀ c ∈ old, c ∉ new) {s : List α}
    (h : old <:+: new ++ s) : old <:+: s := by
  induction new with
  | nil => exact h
  | cons d new ih =>
    rcases List.infix_cons_iff.mp h with hp | hi
    · obtain ⟨c, rest, rfl⟩ := List.exists_cons_of_ne_nil hold
      obtain ⟨rfl, -⟩ := List.cons_prefix_cons.mp hp
      exact absurd List.mem_cons_self (hsep c List.mem_cons_self)
    · exact ih (fun c hc hn => hsep c hc (List.mem_cons_of_mem _ hn)) hi

theorem not_infix_replaceAll (hold : old ≠ []) (hnew : new ≠ []) (hsep : ∀ c ∈ old, c ∉ new)
    (s : List α) : ¬ old <:+: replaceAll old new s := by
  induction s using scan_induction hold with
  | nil => exact fun h => hold (List.eq_nil_of_infix_nil h)
  | found s ih =>
    rw [replaceAll_found hold]
    exact fun h => ih (infix_of_infix_append hold hsep h)
  | cons c s hp ih =>
    intro h
    rw [replaceAll_cons hp] at h
    rcases List.infix_cons_iff.mp h with hprefix | hinfix
    · rw [← replaceAll_cons hp] at hprefix
      exact hp (prefix_of_prefix_replaceAll hold hnew hsep hprefix)
    · exact ih hinfix

end Lib.Replace
