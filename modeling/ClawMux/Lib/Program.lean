import Mathlib.Logic.Function.Basic

namespace Lib

/-- A program that asks its environment, one request after the other. -/
inductive Program (E : Type) (R : E → Type) (α : Type)
  | done (a : α)
  | ask (e : E) (next : R e → Program E R α)

namespace Program

variable {E : Type} {R : E → Type} {α β γ ε : Type}

def perform (e : E) : Program E R (R e) := .ask e .done

def bind : Program E R α → (α → Program E R β) → Program E R β
  | .done a, f => f a
  | .ask e next, f => .ask e fun r => (next r).bind f

/-- Go on with the value of a program that has not failed. -/
def andThen (p : Program E R (Except ε α)) (f : α → Program E R (Except ε β)) :
    Program E R (Except ε β) :=
  p.bind fun x =>
    match x with
    | .ok a => f a
    | .error e => .done (.error e)

/-- The exchanges of one complete run, and its value. -/
inductive Ends : Program E R α → List (Sigma R) → α → Prop
  | done (a : α) : Ends (.done a) [] a
  | ask {e : E} {next : R e → Program E R α} {tr : List (Sigma R)} {a : α} (r : R e) :
      Ends (next r) tr a → Ends (.ask e next) (⟨e, r⟩ :: tr) a

@[simp] theorem ends_done {a b : α} {tr : List (Sigma R)} :
    Ends (.done a : Program E R α) tr b ↔ tr = [] ∧ b = a := by
  constructor
  · intro h
    cases h
    exact ⟨rfl, rfl⟩
  · rintro ⟨rfl, rfl⟩
    exact .done b

theorem ends_ask {e : E} {next : R e → Program E R α} {tr : List (Sigma R)} {a : α} :
    Ends (.ask e next) tr a ↔ ∃ r rest, tr = ⟨e, r⟩ :: rest ∧ Ends (next r) rest a := by
  constructor
  · intro h
    cases h with
    | ask r h => exact ⟨r, _, rfl, h⟩
  · rintro ⟨r, rest, rfl, h⟩
    exact .ask r h

theorem ends_perform {e : E} {tr : List (Sigma R)} {r : R e} :
    Ends (perform e) tr r ↔ tr = [⟨e, r⟩] := by
  rw [perform, ends_ask]
  constructor
  · rintro ⟨q, rest, rfl, h⟩
    cases h
    rfl
  · rintro rfl
    exact ⟨r, [], rfl, .done r⟩

/-- A run of a sequence is a run of its first part and one of the rest. -/
theorem ends_bind {p : Program E R α} {f : α → Program E R β} {tr : List (Sigma R)} {b : β} :
    Ends (p.bind f) tr b ↔ ∃ tr₁ tr₂ a, tr = tr₁ ++ tr₂ ∧ Ends p tr₁ a ∧ Ends (f a) tr₂ b := by
  induction p generalizing tr with
  | done a =>
    constructor
    · exact fun h => ⟨[], tr, a, rfl, .done a, h⟩
    · rintro ⟨tr₁, tr₂, a', rfl, h, h'⟩
      cases h
      exact h'
  | ask e next ih =>
    rw [bind, ends_ask]
    constructor
    · rintro ⟨r, rest, rfl, h⟩
      obtain ⟨tr₁, tr₂, a, rfl, h₁, h₂⟩ := (ih r).mp h
      exact ⟨⟨e, r⟩ :: tr₁, tr₂, a, rfl, .ask r h₁, h₂⟩
    · rintro ⟨tr₁, tr₂, a, rfl, h₁, h₂⟩
      cases h₁ with
      | ask r h₁ => exact ⟨r, _, rfl, (ih r).mpr ⟨_, _, a, rfl, h₁, h₂⟩⟩

/-- The run in a world whose answers may depend on the exchanges before. -/
def run (world : List (Sigma R) → (e : E) → R e) : Program E R α → List (Sigma R) →
    List (Sigma R) × α
  | .done a, tr => (tr, a)
  | .ask e next, tr => run world (next (world tr e)) (tr ++ [⟨e, world tr e⟩])

theorem run_ends (world : List (Sigma R) → (e : E) → R e) (p : Program E R α)
    (tr : List (Sigma R)) :
    ∃ rest, (run world p tr).1 = tr ++ rest ∧ Ends p rest (run world p tr).2 := by
  induction p generalizing tr with
  | done a => exact ⟨[], (List.append_nil tr).symm, .done a⟩
  | ask e next ih =>
    obtain ⟨rest, htr, hends⟩ := ih (world tr e) (tr ++ [⟨e, world tr e⟩])
    refine ⟨⟨e, world tr e⟩ :: rest, ?_, .ask _ hends⟩
    rw [run, htr, List.append_assoc, List.singleton_append]

/-- Every request that the program can make satisfies `P`. -/
def Asks (P : E → Prop) : Program E R α → Prop
  | .done _ => True
  | .ask e next => P e ∧ ∀ r, (next r).Asks P

variable {P Q : E → Prop}

theorem asks_perform {e : E} (h : P e) : (perform e : Program E R (R e)).Asks P :=
  ⟨h, fun _ => trivial⟩

theorem Asks.bind {p : Program E R α} {f : α → Program E R β} (h : p.Asks P)
    (hf : ∀ a, (f a).Asks P) : (p.bind f).Asks P := by
  induction p with
  | done a => exact hf a
  | ask e next ih => exact ⟨h.1, fun r => ih r (h.2 r)⟩

theorem Asks.andThen {p : Program E R (Except ε α)} {f : α → Program E R (Except ε β)}
    (h : p.Asks P) (hf : ∀ a, (f a).Asks P) : (p.andThen f).Asks P := by
  apply h.bind
  intro x
  cases x with
  | ok a => exact hf a
  | error e => trivial

theorem Ends.asks {p : Program E R α} {tr : List (Sigma R)} {a : α} (h : Ends p tr a)
    (hp : p.Asks P) : ∀ x ∈ tr, P x.1 := by
  induction h with
  | done a =>
    intro x hx
    cases hx
  | ask r _ ih =>
    intro x hx
    rcases List.mem_cons.mp hx with rfl | hx
    · exact hp.1
    · exact ih (hp.2 r) x hx

end Program

end Lib
