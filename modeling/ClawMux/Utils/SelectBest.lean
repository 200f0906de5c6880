import Mathlib.Data.List.Nodup
import ClawMux.Utils.ClawAggregator

namespace ClawMux
set_option autoImplicit true
open Lib Lib.Text

namespace ClawMessage

/-- The seq is an integer. -/
def Numbered (m : ClawMessage) : Prop := ∃ n : Int, m.seq = .num n

/-- The value of a number. -/
def rank (m : ClawMessage) : Rat := m.seq.number.getD 0

def Valid (min_len : Nat) (m : ClawMessage) : Prop := is_valid_text min_len m.text = true

def Blank (m : ClawMessage) : Prop := strip m.text = ""

theorem Numbered.number {m : ClawMessage} (h : m.Numbered) : m.seq.number ≠ none := by
  obtain ⟨n, hn⟩ := h
  rw [hn]
  exact Option.some_ne_none _

theorem gt_rank {py : Dynamics} {m best : ClawMessage} (hm : m.seq.number ≠ none)
    (hb : best.seq.number ≠ none) :
    m.seq.gt py best.seq = some (decide (best.rank < m.rank)) := by
  obtain ⟨x, hx⟩ := Option.ne_none_iff_exists'.mp hm
  obtain ⟨y, hy⟩ := Option.ne_none_iff_exists'.mp hb
  simp only [Json.gt, rank, hx, hy, Option.getD_some]

/-- A blank text is valid only for a minimal length of 0, and then only when it is not stripped. -/
theorem Blank.invalid {x : ClawMessage} (h : x.Blank)
    (hlen : 0 < n ∨ strip x.text = x.text) : ¬ x.Valid n := by
  rw [Blank] at h
  rw [Valid, is_valid_text]
  by_cases he : x.text = ""
  · rw [if_pos he]
    exact Bool.false_ne_true
  · rcases hlen with hlen | hlen
    · have hshort : ("" : String).length < n := hlen
      rw [if_neg he, h]
      simp only [hshort, if_true]
      exact Bool.false_ne_true
    · exact absurd (hlen.symm.trans h) he

end ClawMessage

/-- On numbers `max` takes one of the greatest. -/
theorem max_seq_spec (py : Dynamics) {m : ClawMessage} {rest : List ClawMessage}
    (h : ∀ x ∈ m :: rest, x.seq.number ≠ none) :
    ∃ best, max_seq py m rest = .ok best ∧ best ∈ m :: rest ∧
      ∀ x ∈ m :: rest, x.rank ≤ best.rank := by
  induction rest generalizing m with
  | nil =>
    refine ⟨m, rfl, List.mem_cons_self, ?_⟩
    intro x hx
    obtain rfl := List.mem_singleton.mp hx
    exact Rat.le_refl
  | cons n rest ih =>
    have hm := h m List.mem_cons_self
    have hn := h n (List.mem_cons_of_mem _ List.mem_cons_self)
    have hrest : ∀ x ∈ rest, x.seq.number ≠ none := fun x hx =>
      h x (List.mem_cons_of_mem _ (List.mem_cons_of_mem _ hx))
    rw [max_seq, ClawMessage.gt_rank hn hm]
    by_cases hlt : m.rank < n.rank
    · obtain ⟨best, hbest, hmem, hmax⟩ := ih (m := n) (List.forall_mem_cons.mpr ⟨hn, hrest⟩)
      rw [decide_eq_true hlt]
      refine ⟨best, hbest, List.mem_cons_of_mem _ hmem, ?_⟩
      intro x hx
      rcases List.mem_cons.mp hx with rfl | hx
      · exact Rat.le_trans (Rat.le_of_lt hlt) (hmax n List.mem_cons_self)
      · exact hmax x hx
    · obtain ⟨best, hbest, hmem, hmax⟩ := ih (m := m) (List.forall_mem_cons.mpr ⟨hm, hrest⟩)
      rw [decide_eq_false hlt]
      refine ⟨best, hbest, ?_, ?_⟩
      · rcases List.mem_cons.mp hmem with rfl | hmem
        · exact List.mem_cons_self
        · exact List.mem_cons_of_mem _ (List.mem_cons_of_mem _ hmem)
      · intro x hx
        rcases List.mem_cons.mp hx with rfl | hx
        · exact hmax _ List.mem_cons_self
        · rcases List.mem_cons.mp hx with rfl | hx
          · exact Rat.le_trans (Rat.not_lt.mp hlt) (hmax m List.mem_cons_self)
          · exact hmax x (List.mem_cons_of_mem _ hx)

/-- What can be selected: the valid messages, or the non-blank ones when none is valid. -/
def Candidate (min_len : Nat) (messages : List ClawMessage) (x : ClawMessage) : Prop :=
  x ∈ messages ∧ (x.Valid min_len ∨ (∀ y ∈ messages, ¬ y.Valid min_len) ∧ ¬ x.Blank)

/-- A candidate of the highest seq. -/
def Best (min_len : Nat) (messages : List ClawMessage) (best : ClawMessage) : Prop :=
  Candidate min_len messages best ∧ ∀ x, Candidate min_len messages x → x.rank ≤ best.rank

theorem not_blank_iff {m : ClawMessage} :
    (decide (m.text ≠ "") && decide (strip m.text ≠ "")) = true ↔ ¬ m.Blank := by
  rw [Bool.and_eq_true, decide_eq_true_iff, decide_eq_true_iff, ClawMessage.Blank]
  constructor
  · exact fun h => h.2
  · refine fun h => ⟨?_, h⟩
    rintro he
    rw [he] at h
    exact h rfl

/-- When the candidates can be compared, the best of them is selected. -/
theorem select_best_spec (py : Dynamics) (min_len : Nat) {messages : List ClawMessage}
    (hf : ∀ m ∈ messages, is_final m = true)
    (hn : ∀ m, Candidate min_len messages m → m.seq.number ≠ none) :
    (∃ best, select_best py min_len messages = .ok (some best) ∧ Best min_len messages best) ∨
      select_best py min_len messages = .ok none ∧ ∀ m, ¬ Candidate min_len messages m := by
  have hfilter : messages.filter is_final = messages := List.filter_eq_self.mpr hf
  simp only [select_best, hfilter]
  split
  · rename_i m rest hl
    have hmem : ∀ x, x ∈ m :: rest ↔ x ∈ messages ∧ x.Valid min_len := by
      intro x
      rw [← hl, List.mem_filter]
      rfl
    have hcand : ∀ x, x ∈ m :: rest ↔ Candidate min_len messages x := by
      intro x
      rw [hmem]
      refine ⟨fun h => ⟨h.1, .inl h.2⟩, fun h => ⟨h.1, h.2.resolve_right ?_⟩⟩
      obtain ⟨hm, hv⟩ := (hmem m).mp List.mem_cons_self
      exact fun hno => hno.1 m hm hv
    obtain ⟨best, hbest, hb, hmax⟩ := max_seq_spec py fun x hx => hn x ((hcand x).mp hx)
    refine .inl ⟨best, by rw [hbest]; rfl, (hcand best).mp hb, ?_⟩
    exact fun x hx => hmax x ((hcand x).mpr hx)
  · rename_i hl
    have hinvalid : ∀ x ∈ messages, ¬ x.Valid min_len := by
      intro x hx hv
      exact List.filter_eq_nil_iff.mp hl x hx hv
    have hcand : ∀ x, Candidate min_len messages x ↔ x ∈ messages ∧ ¬ x.Blank := by
      refine fun x => ⟨fun h => ⟨h.1, ?_⟩, fun h => ⟨h.1, .inr ⟨hinvalid, h.2⟩⟩⟩
      exact (h.2.resolve_left (hinvalid x h.1)).2
    split
    · rename_i m rest hl
      have hmem : ∀ x, x ∈ m :: rest ↔ Candidate min_len messages x := by
        intro x
        rw [← hl, List.mem_filter, not_blank_iff, hcand]
      obtain ⟨best, hbest, hb, hmax⟩ := max_seq_spec py fun x hx => hn x ((hmem x).mp hx)
      refine .inl ⟨best, by rw [hbest]; rfl, (hmem best).mp hb, ?_⟩
      exact fun x hx => hmax x ((hmem x).mpr hx)
    · rename_i hl
      refine .inr ⟨rfl, fun x hx => ?_⟩
      obtain ⟨hm, hblank⟩ := (hcand x).mp hx
      exact List.filter_eq_nil_iff.mp hl x hm (not_blank_iff.mpr hblank)

theorem Candidate.perm (h : Candidate min_len messages x) (hp : messages.Perm others) :
    Candidate min_len others x := by
  obtain ⟨hm, hv | ⟨hno, hb⟩⟩ := h
  · exact ⟨hp.mem_iff.mp hm, .inl hv⟩
  · exact ⟨hp.mem_iff.mp hm, .inr ⟨fun y hy => hno y (hp.mem_iff.mpr hy), hb⟩⟩

theorem Best.perm (h : Best min_len messages best) (hp : messages.Perm others) :
    Best min_len others best :=
  ⟨h.1.perm hp, fun x hx => h.2 x (hx.perm hp.symm)⟩

theorem Best.unique (hd : (messages.map ClawMessage.rank).Nodup) (h : Best min_len messages a)
    (h' : Best min_len messages b) : a = b :=
  List.inj_on_of_nodup_map hd h.1.1 h'.1.1 (Rat.le_antisymm (h'.2 a h.1) (h.2 b h'.1))

theorem exists_candidate {messages : List ClawMessage} (hx : x ∈ messages) (hb : ¬ x.Blank) :
    ∃ y, Candidate min_len messages y := by
  by_cases hv : ∃ y ∈ messages, y.Valid min_len
  · obtain ⟨y, hy, hv⟩ := hv
    exact ⟨y, hy, .inl hv⟩
  · exact ⟨x, hx, .inr ⟨fun y hy hy' => hv ⟨y, hy, hy'⟩, hb⟩⟩

/-- The best message is the best of every part that has it. -/
theorem Best.part {messages others : List ClawMessage} (h : Best min_len messages best)
    (hsub : ∀ x ∈ others, x ∈ messages) (hb : best ∈ others) : Best min_len others best := by
  obtain ⟨⟨-, hcand⟩, hmax⟩ := h
  have hpart : best.Valid min_len ∨ (∀ y ∈ others, ¬ y.Valid min_len) ∧ ¬ best.Blank :=
    hcand.imp_right fun hno => ⟨fun y hy => hno.1 y (hsub y hy), hno.2⟩
  refine ⟨⟨hb, hpart⟩, fun x hx => hmax x ⟨hsub x hx.1, ?_⟩⟩
  rcases hx.2 with hv | ⟨hno, hshown⟩
  · exact .inl hv
  · rcases hcand with hv | ⟨hnone, -⟩
    · exact absurd hv (hno best hb)
    · exact .inr ⟨hnone, hshown⟩

/-- With distinct seqs the choice does not depend on the order of arrival. -/
theorem select_best_perm {messages others : List ClawMessage}
    (hf : ∀ m ∈ messages, is_final m = true) (hn : ∀ m ∈ messages, m.Numbered)
    (hd : (messages.map ClawMessage.rank).Nodup) (hp : messages.Perm others) :
    select_best py min_len others = select_best py min_len messages := by
  have hspec := select_best_spec py min_len (fun m hm => hf m (hp.mem_iff.mpr hm))
    fun m hm => (hn m (hp.mem_iff.mpr hm.1)).number
  rcases select_best_spec py min_len hf fun m hm => (hn m hm.1).number with
    ⟨a, ha, hbest⟩ | ⟨ha, hnone⟩
  · rcases hspec with ⟨b, hb, hbest'⟩ | ⟨hb, hnone⟩
    · rw [ha, hb, hbest.unique hd (hbest'.perm hp.symm)]
    · exact absurd (hbest.1.perm hp) (hnone a)
  · rcases hspec with ⟨b, hb, hbest'⟩ | ⟨hb, -⟩
    · exact absurd (hbest'.1.perm hp.symm) (hnone b)
    · rw [ha, hb]

/-- Who leads after the others have come in order: each is compared with the leader so far. -/
inductive Leads (py : Dynamics) : ClawMessage → List ClawMessage → ClawMessage → Prop
  | last : Leads py best [] best
  | passed : m.seq.gt py best.seq = some false → Leads py best rest leader →
    Leads py best (m :: rest) leader
  | overtaken : m.seq.gt py best.seq = some true → Leads py m rest leader →
    Leads py best (m :: rest) leader

theorem max_seq_iff (py : Dynamics) : max_seq py m rest = .ok best ↔ Leads py m rest best := by
  constructor
  · intro h
    induction rest generalizing m with
    | nil =>
      cases h
      exact .last
    | cons n rest ih =>
      rw [max_seq] at h
      split at h
      · cases h
      · rename_i hgt
        exact .overtaken hgt (ih h)
      · rename_i hgt
        exact .passed hgt (ih h)
  · intro h
    induction h with
    | last => rfl
    | passed hgt _ ih =>
      rw [max_seq, hgt]
      exact ih
    | overtaken hgt _ ih =>
      rw [max_seq, hgt]
      exact ih

/-- The messages that can be selected, in their order. -/
def candidates (min_len : Nat) (messages : List ClawMessage) : List ClawMessage :=
  match messages.filter fun m => is_valid_text min_len m.text with
  | [] => messages.filter fun m => m.text ≠ "" && strip m.text ≠ ""
  | m :: rest => m :: rest

/-- The first of the highest seq among those that can be selected. -/
def Selected (py : Dynamics) (min_len : Nat) (messages : List ClawMessage) (best : ClawMessage) :
    Prop :=
  ∃ first rest, candidates min_len messages = first :: rest ∧ Leads py first rest best

theorem candidates_mem (h : m ∈ candidates min_len messages) : m ∈ messages := by
  rw [candidates] at h
  split at h
  · exact List.mem_of_mem_filter h
  · rename_i hv
    exact List.mem_of_mem_filter (hv ▸ h)

theorem selected_mem {py : Dynamics} (h : Selected py min_len messages best) : best ∈ messages := by
  obtain ⟨first, rest, hc, hleads⟩ := h
  apply candidates_mem
  rw [hc]
  exact max_seq_mem ((max_seq_iff py).mpr hleads)

theorem Selected.unique {py : Dynamics} (h : Selected py min_len messages best)
    (h' : Selected py min_len messages other) : best = other := by
  obtain ⟨first, rest, hc, hleads⟩ := h
  obtain ⟨first', rest', hc', hleads'⟩ := h'
  cases hc.symm.trans hc'
  exact Except.ok.inj (((max_seq_iff py).mpr hleads).symm.trans ((max_seq_iff py).mpr hleads'))

theorem select_best_iff (py : Dynamics) (min_len : Nat) {messages : List ClawMessage}
    (hf : ∀ m ∈ messages, is_final m = true) :
    select_best py min_len messages = .ok (some best) ↔ Selected py min_len messages best := by
  have hfilter : messages.filter is_final = messages := List.filter_eq_self.mpr hf
  have hmap : ∀ {first rest}, (max_seq py first rest).map some = .ok (some best) ↔
      Leads py first rest best := by
    intro first rest
    rw [← max_seq_iff]
    cases max_seq py first rest with
    | error e => exact ⟨(fun h => by cases h), fun h => by cases h⟩
    | ok x =>
      constructor
      · intro h
        cases h
        rfl
      · intro h
        cases h
        rfl
  have hselected : ∀ {first rest}, candidates min_len messages = first :: rest →
      (Selected py min_len messages best ↔ Leads py first rest best) := by
    intro first rest hc
    constructor
    · rintro ⟨first', rest', hc', hleads⟩
      cases hc.symm.trans hc'
      exact hleads
    · exact fun hleads => ⟨first, rest, hc, hleads⟩
  rw [select_best, hfilter]
  cases hv : messages.filter fun m => is_valid_text min_len m.text with
  | cons first rest =>
    have hc : candidates min_len messages = first :: rest := by
      rw [candidates, hv]
    exact hmap.trans (hselected hc).symm
  | nil =>
    have hc : candidates min_len messages =
        messages.filter fun m => m.text ≠ "" && strip m.text ≠ "" := by
      rw [candidates, hv]
    dsimp only
    split
    · rename_i first rest hl
      exact hmap.trans (hselected (hc.trans hl)).symm
    · rename_i hl
      constructor
      · intro h
        cases h
      · rintro ⟨first, rest, hc', -⟩
        cases hl.symm.trans (hc.symm.trans hc')

end ClawMux
