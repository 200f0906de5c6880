import Mathlib.Data.List.Basic
import Mathlib.Logic.Function.Basic

namespace Lib

variable {σ α : Type*} {step : σ → α → Option σ} {C C' : σ → α → Prop} {init : σ → Prop}
  {s s' : σ} {as : List α}

/-- The states a partial step function reaches from `init` by steps that all meet `C`. -/
inductive Reach (step : σ → α → Option σ) (C : σ → α → Prop) (init : σ → Prop) : σ → Prop
  | start {s : σ} : init s → Reach step C init s
  | next {s s' : σ} {a : α} : Reach step C init s → C s a → step s a = some s' →
      Reach step C init s'

/-- The condition met by every step. -/
def Any (_ : σ) (_ : α) : Prop := True

theorem Reach.invariant {I : σ → Prop} (h : Reach step C init s)
    (h₀ : ∀ s, init s → I s)
    (hs : ∀ s a s', I s → C s a → step s a = some s' → I s') : I s := by
  induction h with
  | start hi => exact h₀ _ hi
  | next _ hc ht ih => exact hs _ _ _ ih hc ht

theorem Reach.append (h : Reach step C init s) (h' : Reach step C (· = s) s') :
    Reach step C init s' := by
  induction h' with
  | start he => exact he ▸ h
  | next _ hc ht ih => exact .next ih hc ht

theorem Reach.mono (h : Reach step C init s) (hC : ∀ s a, C s a → C' s a) :
    Reach step C' init s := by
  induction h with
  | start hi => exact .start hi
  | next _ hc ht ih => exact .next ih (hC _ _ hc) ht

/-- Run a schedule of actions; `none` when one of them is not enabled. -/
def exec (step : σ → α → Option σ) : σ → List α → Option σ
  | s, [] => some s
  | s, a :: as =>
    match step s a with
    | some s' => exec step s' as
    | none => none

theorem exec_cons {a : α} : exec step s (a :: as) = some s' ↔
    ∃ t, step s a = some t ∧ exec step t as = some s' := by
  rw [exec]
  cases step s a with
  | none => simp
  | some t => simp

/-- Every step of the schedule meets the condition. -/
def Meets (step : σ → α → Option σ) (C : σ → α → Prop) : σ → List α → Prop
  | _, [] => True
  | s, a :: as => C s a ∧ match step s a with
    | some s' => Meets step C s' as
    | none => True

instance [∀ s a, Decidable (C s a)] : ∀ s as, Decidable (Meets step C s as)
  | _, [] => isTrue trivial
  | s, a :: as =>
    match h : step s a with
    | some s' =>
      have : Decidable (Meets step C s' as) := instDecidableMeets s' as
      decidable_of_iff (C s a ∧ Meets step C s' as) (by rw [Meets, h])
    | none => decidable_of_iff (C s a) (by rw [Meets, h, and_true])

theorem Reach.exec (h : Reach step C init s) (hm : Meets step C s as)
    (he : Lib.exec step s as = some s') : Reach step C init s' := by
  induction as generalizing s with
  | nil =>
    cases he
    exact h
  | cons a as ih =>
    rw [Lib.exec] at he
    rw [Meets] at hm
    cases ht : step s a with
    | none => simp only [ht, reduceCtorEq] at he
    | some t =>
      simp only [ht] at he hm
      exact ih (.next h hm.1 ht) hm.2 he

theorem Meets.and (h : Meets step C s as) (h' : Meets step C' s as) :
    Meets step (fun s a => C s a ∧ C' s a) s as := by
  induction as generalizing s with
  | nil => trivial
  | cons a as ih =>
    rw [Meets] at h h' ⊢
    refine ⟨⟨h.1, h'.1⟩, ?_⟩
    cases ht : step s a with
    | none => trivial
    | some t =>
      simp only [ht] at h h'
      exact ih h.2 h'.2

theorem meets_any (s : σ) (as : List α) : Meets step Any s as := by
  induction as generalizing s with
  | nil => trivial
  | cons a as ih =>
    refine ⟨trivial, ?_⟩
    split
    · exact ih _
    · trivial

theorem meets_of_forall (h : ∀ a ∈ as, ∀ s, C s a) (s : σ) : Meets step C s as := by
  induction as generalizing s with
  | nil => trivial
  | cons a as ih =>
    refine ⟨h a List.mem_cons_self s, ?_⟩
    split
    · exact ih (fun b hb => h b (List.mem_cons_of_mem _ hb)) _
    · trivial

/-- A schedule that runs from an initial state ends in a reachable state. -/
theorem reach_of_exec (hi : init s) (he : exec step s as = some s') :
    Reach step Any init s' :=
  (Reach.start hi).exec (meets_any s as) he

section Update
variable {ι β : Type*} [DecidableEq ι] {f : ι → β} {a : ι} {b : β} {P : β → Prop}

theorem forall_update (h : ∀ i, P (f i)) (hb : P b) (i : ι) : P (Function.update f a b i) :=
  (Function.forall_update_iff f fun _ x => P x).mpr ⟨hb, fun i _ => h i⟩ i

theorem forall_update_some {f : ι → Option β} (h : ∀ i x, f i = some x → P x) (hb : P b) :
    ∀ i x, Function.update f a (some b) i = some x → P x := by
  refine forall_update (P := fun o => ∀ x, o = some x → P x) h ?_
  intro x hx
  exact Option.some.inj hx ▸ hb

end Update

end Lib
