import ClawMux.Lib.Program

namespace Lib

/-- A program with a state, which an exception leaves as it was when it was raised. -/
def Action (E : Type) (R : E → Type) (σ ε α : Type) : Type := σ → Program E R (Except ε α × σ)

namespace Action

variable {E : Type} {R : E → Type} {σ ε α β : Type}

def pure (a : α) : Action E R σ ε α := fun s => .done (.ok a, s)

def throw (e : ε) : Action E R σ ε α := fun s => .done (.error e, s)

def bind (p : Action E R σ ε α) (f : α → Action E R σ ε β) : Action E R σ ε β := fun s =>
  (p s).bind fun x =>
    match x with
    | (.ok a, s') => f a s'
    | (.error e, s') => .done (.error e, s')

instance : Monad (Action E R σ ε) where
  pure := pure
  bind := bind

def get : Action E R σ ε σ := fun s => .done (.ok s, s)

def modify (f : σ → σ) : Action E R σ ε Unit := fun s => .done (.ok (), f s)

def ask (e : E) : Action E R σ ε (R e) := fun s => .ask e fun r => .done (.ok r, s)

def ofExcept (x : Except ε α) : Action E R σ ε α := fun s => .done (x, s)

def catching (p : Action E R σ ε α) (handle : ε → Action E R σ ε α) : Action E R σ ε α := fun s =>
  (p s).bind fun x =>
    match x with
    | (.ok a, s') => .done (.ok a, s')
    | (.error e, s') => handle e s'

/-- What holds of a state and the exchanges before it. -/
abbrev Assertion (R : E → Type) (σ : Type) : Type := List (Sigma R) → σ → Prop

/-- Every run from `P` ends with a value in `Q`, or with an exception in `X`. -/
def Triple (P : Assertion R σ) (p : Action E R σ ε α) (Q : α → Assertion R σ)
    (X : ε → Assertion R σ) : Prop :=
  ∀ h s tr x s', P h s → Program.Ends (p s) tr (x, s') →
    match x with
    | .ok a => Q a (h ++ tr) s'
    | .error e => X e (h ++ tr) s'

variable {P P' : Assertion R σ} {Q Q' : α → Assertion R σ} {X X' : ε → Assertion R σ}
  {p : Action E R σ ε α}

theorem Triple.conseq (h : Triple P' p Q' X') (hp : ∀ h s, P h s → P' h s)
    (hq : ∀ a h s, Q' a h s → Q a h s) (hx : ∀ e h s, X' e h s → X e h s) : Triple P p Q X := by
  intro hist s tr x s' hs hends
  have hpost := h hist s tr x s' (hp hist s hs) hends
  cases x with
  | ok a => exact hq a _ _ hpost
  | error e => exact hx e _ _ hpost

theorem Triple.weaken (h : Triple P' p Q X) (hp : ∀ h s, P h s → P' h s) : Triple P p Q X :=
  h.conseq hp (fun _ _ _ hq => hq) fun _ _ _ hx => hx

theorem Triple.and (h : Triple P p Q X) (h' : Triple P' p Q' X') :
    Triple (fun hist s => P hist s ∧ P' hist s) p (fun a hist s => Q a hist s ∧ Q' a hist s)
      (fun e hist s => X e hist s ∧ X' e hist s) := by
  intro hist s tr x s' ⟨hs, hs'⟩ hends
  have hpost := h hist s tr x s' hs hends
  have hpost' := h' hist s tr x s' hs' hends
  cases x with
  | ok a => exact ⟨hpost, hpost'⟩
  | error e => exact ⟨hpost, hpost'⟩

theorem Triple.trivial : Triple P p (fun _ _ _ => True) (fun _ _ _ => True) := by
  intro hist s tr x s' hs hends
  cases x with
  | ok a => exact True.intro
  | error e => exact True.intro

theorem Triple.exists {P : β → Assertion R σ} (h : ∀ b, Triple (P b) p Q X) :
    Triple (fun hist s => ∃ b, P b hist s) p Q X := by
  intro hist s tr x s' ⟨b, hb⟩ hends
  exact h b hist s tr x s' hb hends

theorem ends_done {x y : Except ε α} {s s' : σ} {tr : List (Sigma R)} :
    Program.Ends (.done (x, s) : Program E R (Except ε α × σ)) tr (y, s') ↔
      tr = [] ∧ y = x ∧ s' = s := by
  rw [Program.ends_done, Prod.mk.injEq]

theorem Triple.done {x : Except ε α} (f : σ → σ) (h : ∀ hist s, P hist s →
    match x with
    | .ok a => Q a hist (f s)
    | .error e => X e hist (f s)) :
    Triple P (fun s => .done (x, f s)) Q X := by
  intro hist s tr y s' hs hends
  obtain ⟨rfl, rfl, rfl⟩ := ends_done.mp hends
  rw [List.append_nil]
  exact h hist s hs

theorem Triple.pure {a : α} (h : ∀ hist s, P hist s → Q a hist s) :
    Triple P (Pure.pure a : Action E R σ ε α) Q X :=
  Triple.done id h

theorem Triple.throw {e : ε} (h : ∀ hist s, P hist s → X e hist s) :
    Triple P (Action.throw e : Action E R σ ε α) Q X :=
  Triple.done id h

theorem Triple.modify {f : σ → σ} {Q : Unit → Assertion R σ}
    (h : ∀ hist s, P hist s → Q () hist (f s)) :
    Triple P (Action.modify f : Action E R σ ε Unit) Q X :=
  Triple.done f h

theorem Triple.get {Q : σ → Assertion R σ} (h : ∀ hist s, P hist s → Q s hist s) :
    Triple P (Action.get : Action E R σ ε σ) Q X := by
  intro hist s tr x s' hs hends
  obtain ⟨rfl, rfl, rfl⟩ := ends_done.mp hends
  rw [List.append_nil]
  exact h hist _ hs

theorem Triple.ofExcept {m : Except ε α} (hok : ∀ a hist s, m = .ok a → P hist s → Q a hist s)
    (herror : ∀ e hist s, m = .error e → P hist s → X e hist s) :
    Triple P (Action.ofExcept m : Action E R σ ε α) Q X := by
  refine Triple.done id fun hist s hs => ?_
  cases m with
  | ok a => exact hok a hist s rfl hs
  | error e => exact herror e hist s rfl hs

theorem Triple.ask {e : E} {Q : R e → Assertion R σ}
    (h : ∀ hist s r, P hist s → Q r (hist ++ [⟨e, r⟩]) s) :
    Triple P (Action.ask e : Action E R σ ε (R e)) Q X := by
  intro hist s tr x s' hs hends
  obtain ⟨r, rest, rfl, hrest⟩ := Program.ends_ask.mp hends
  obtain ⟨rfl, rfl, rfl⟩ := ends_done.mp hrest
  exact h hist _ r hs

theorem Triple.bind {f : α → Action E R σ ε β} {M : α → Assertion R σ} {Q : β → Assertion R σ}
    (hp : Triple P p M X) (hf : ∀ a, Triple (M a) (f a) Q X) : Triple P (p >>= f) Q X := by
  intro hist s tr x s' hs hends
  obtain ⟨tr₁, tr₂, ⟨y, r⟩, rfl, h₁, h₂⟩ := Program.ends_bind.mp hends
  have hmid := hp hist s tr₁ y r hs h₁
  rw [← List.append_assoc]
  cases y with
  | ok a => exact hf a (hist ++ tr₁) r tr₂ x s' hmid h₂
  | error e =>
    obtain ⟨rfl, rfl, rfl⟩ := ends_done.mp h₂
    rw [List.append_nil]
    exact hmid

theorem Triple.catching {handle : ε → Action E R σ ε α} (hp : Triple P p Q X')
    (hhandle : ∀ e, Triple (X' e) (handle e) Q X) : Triple P (p.catching handle) Q X := by
  intro hist s tr x s' hs hends
  obtain ⟨tr₁, tr₂, ⟨y, r⟩, rfl, h₁, h₂⟩ := Program.ends_bind.mp hends
  have hmid := hp hist s tr₁ y r hs h₁
  rw [← List.append_assoc]
  cases y with
  | ok a =>
    obtain ⟨rfl, rfl, rfl⟩ := ends_done.mp h₂
    rw [List.append_nil]
    exact hmid
  | error e => exact hhandle e (hist ++ tr₁) r tr₂ x s' hmid h₂

/-- A test that a program makes of values, not of its state. -/
theorem Triple.ite {c : Prop} [Decidable c] {p q : Action E R σ ε α} (hp : c → Triple P p Q X)
    (hq : ¬ c → Triple P q Q X) : Triple P (if c then p else q) Q X := by
  split
  · exact hp ‹c›
  · exact hq ‹¬ c›

/-- Every request that the program can make satisfies `A`. -/
structure Asks (A : E → Prop) (p : Action E R σ ε α) : Prop where
  requests : ∀ s, (p s).Asks A

variable {A : E → Prop}

theorem Asks.pure {a : α} : (Pure.pure a : Action E R σ ε α).Asks A := ⟨fun _ => True.intro⟩

theorem Asks.throw {e : ε} : (Action.throw e : Action E R σ ε α).Asks A := ⟨fun _ => True.intro⟩

theorem Asks.get : (Action.get : Action E R σ ε σ).Asks A := ⟨fun _ => True.intro⟩

theorem Asks.modify {f : σ → σ} : (Action.modify f : Action E R σ ε Unit).Asks A :=
  ⟨fun _ => True.intro⟩

theorem Asks.ofExcept {m : Except ε α} : (Action.ofExcept m : Action E R σ ε α).Asks A :=
  ⟨fun _ => True.intro⟩

theorem Asks.of_ask {e : E} (h : A e) : (Action.ask e : Action E R σ ε (R e)).Asks A :=
  ⟨fun _ => ⟨h, fun _ => True.intro⟩⟩

theorem Asks.bind {f : α → Action E R σ ε β} (h : p.Asks A) (hf : ∀ a, (f a).Asks A) :
    (p >>= f).Asks A := by
  constructor
  intro s
  apply Program.Asks.bind (h.requests s)
  intro ⟨x, s'⟩
  cases x with
  | ok a => exact (hf a).requests s'
  | error e => exact True.intro

theorem Asks.catching {handle : ε → Action E R σ ε α} (h : p.Asks A)
    (hhandle : ∀ e, (handle e).Asks A) : (p.catching handle).Asks A := by
  constructor
  intro s
  apply Program.Asks.bind (h.requests s)
  intro ⟨x, s'⟩
  cases x with
  | ok a => exact True.intro
  | error e => exact (hhandle e).requests s'

theorem Asks.ite {c : Prop} [Decidable c] {p q : Action E R σ ε α} (hp : p.Asks A)
    (hq : q.Asks A) : (if c then p else q).Asks A := by
  split
  · exact hp
  · exact hq

/-- What holds of the exchanges and is kept by those that the program can have. -/
theorem Asks.triple (h : p.Asks A) {S : List (Sigma R) → Prop}
    (hS : ∀ hist (x : Sigma R), A x.1 → S hist → S (hist ++ [x])) :
    Triple (fun hist _ => S hist) p (fun _ hist _ => S hist) fun _ hist _ => S hist := by
  have hmore : ∀ tr hist, (∀ x ∈ tr, A x.1) → S hist → S (hist ++ tr) := by
    intro tr
    induction tr with
    | nil => exact fun hist _ hs => (List.append_nil hist).symm ▸ hs
    | cons x tr ih =>
      intro hist hA hs
      rw [List.append_cons]
      exact ih _ (fun y hy => hA y (List.mem_cons_of_mem _ hy))
        (hS hist x (hA x List.mem_cons_self) hs)
  intro hist s tr x s' hs hends
  have hpost := hmore tr hist (hends.asks (h.requests s)) hs
  cases x with
  | ok a => exact hpost
  | error e => exact hpost

end Action

end Lib
