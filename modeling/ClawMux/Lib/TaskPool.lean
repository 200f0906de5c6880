import ClawMux.Lib.Interleave
import ClawMux.Lib.Transition

namespace Lib

variable {E : Type} {R : E → Type} {α β ε L : Type}

namespace Program

/-- Every request of the program may be made after the exchanges before it. -/
def Follows (P : List (Sigma R) → E → Prop) : List (Sigma R) → Program E R α → Prop
  | _, .done _ => True
  | tr, .ask e next => P tr e ∧ ∀ r, Follows P (tr ++ [⟨e, r⟩]) (next r)

variable {P : List (Sigma R) → E → Prop} {tr h : List (Sigma R)}

theorem follows_perform {e : E} (he : P tr e) : Follows P tr (perform e : Program E R (R e)) :=
  ⟨he, fun _ => trivial⟩

theorem Follows.bind {p : Program E R α} {f : α → Program E R β} (hp : Follows P h p)
    (hf : ∀ tr a, Ends p tr a → Follows P (h ++ tr) (f a)) : Follows P h (p.bind f) := by
  induction p generalizing h with
  | done a =>
    have hdone := hf [] a (.done a)
    rwa [List.append_nil] at hdone
  | ask e next ih =>
    refine ⟨hp.1, fun r => ih r (hp.2 r) fun tr a hends => ?_⟩
    rw [List.append_assoc]
    exact hf _ a (.ask r hends)

theorem Follows.andThen {p : Program E R (Except ε α)} {f : α → Program E R (Except ε β)}
    (hp : Follows P h p) (hf : ∀ tr a, Ends p tr (.ok a) → Follows P (h ++ tr) (f a)) :
    Follows P h (p.andThen f) := by
  apply hp.bind
  intro tr x hends
  cases x with
  | ok a => exact hf tr a hends
  | error e => trivial

theorem Follows.mono {Q : List (Sigma R) → E → Prop} {p : Program E R α} (hp : Follows P h p)
    (hPQ : ∀ tr e, P tr e → Q tr e) : Follows Q h p := by
  induction p generalizing h with
  | done a => trivial
  | ask e next ih => exact ⟨hPQ h e hp.1, fun r => ih r (hp.2 r)⟩

/-- What may be asked at any time from here on. -/
theorem Asks.follows {Q : E → Prop} {p : Program E R α} (hp : p.Asks Q)
    (hQ : ∀ tr e, Q e → P (h ++ tr) e) : Follows P h p := by
  induction p generalizing h with
  | done a => trivial
  | ask e next ih =>
    have hnow := hQ [] e hp.1
    rw [List.append_nil] at hnow
    refine ⟨hnow, fun r => ih r (hp.2 r) fun tr e' hq => ?_⟩
    rw [List.append_assoc]
    exact hQ _ e' hq

theorem Follows.ends {p : Program E R α} {a : α} (hp : Follows P h p) (hends : Ends p tr a) :
    ∀ x ∈ tr, ∃ h', P h' x.1 := by
  induction hends generalizing h with
  | done a => exact nofun
  | ask r _ ih =>
    intro x hx
    rcases List.mem_cons.mp hx with rfl | hx
    · exact ⟨h, hp.1⟩
    · exact ih (hp.2 r) x hx

/-- Each exchange follows the ones before it. -/
def Justified (P : List (Sigma R) → E → Prop) (tr : List (Sigma R)) : Prop :=
  ∀ before x after, tr = before ++ x :: after → P before x.1

theorem Reaches.follows {p q : Program E R α} (hr : Reaches p tr q) (hp : Follows P [] p) :
    Follows P tr q ∧ Justified P tr := by
  induction hr with
  | refl =>
    refine ⟨hp, fun before x after he => ?_⟩
    cases before <;> cases he
  | snoc r _ ih =>
    obtain ⟨hnow, hbefore⟩ := ih
    refine ⟨hnow.2 r, fun before x after he => ?_⟩
    rcases List.eq_nil_or_concat after with rfl | ⟨after, y, rfl⟩
    · obtain ⟨rfl, hx⟩ := List.append_inj' he rfl
      cases hx
      exact hnow.1
    · have hlast : _ ++ [_] = (before ++ x :: after) ++ [y] := he.trans (by simp)
      exact hbefore before x after (List.append_inj' hlast rfl).1

/-- A kind of request that is only made where none was made before is made once. -/
theorem Justified.once {f : E → Bool} (hj : Justified P tr)
    (hP : ∀ before e, P before e → f e = true → ∀ x ∈ before, f x.1 = false) :
    tr.countP (fun x => f x.1) ≤ 1 := by
  induction tr using List.reverseRecOn with
  | nil => exact Nat.zero_le _
  | append_singleton tr x ih =>
    have hbefore : Justified P tr := fun before y after he =>
      hj before y (after ++ [x]) (by rw [he, List.append_assoc, List.cons_append])
    rw [List.countP_append, List.countP_singleton]
    split
    · rename_i hx
      have hnone := hP tr x.1 (hj tr x [] rfl) hx
      have hzero : tr.countP (fun y => f y.1) = 0 :=
        List.countP_eq_zero.mpr fun y hy he => Bool.false_ne_true ((hnone y hy).symm.trans he)
      exact Nat.le_of_eq (congrArg (· + 1) hzero)
    · exact ih hbefore

end Program

/-- A coroutine of a pool: who made it, what it has asked, and what is left unless it was
cancelled. -/
structure PoolTask (E : Type) (R : E → Type) (α L : Type) where
  parent : Option Nat
  label : L
  trace : List (Sigma R) := []
  left : Option (Program E R α)

abbrev TaskPool (E : Type) (R : E → Type) (α L : Type) := List (PoolTask E R α L)

namespace TaskPool

/-- A task that comes from outside, an exchange of a task with the answers that the world has
now, or the cancellation of a task. -/
inductive Act (R : E → Type) (L : Type)
  | start (l : L)
  | exchange (i : Nat) (world : (e : E) → R e)
  | cancel (i : Nat)

variable (code : L → Program E R α) (spawned : E → Option L) (Outer : L → Prop)

def fresh (parent : Option Nat) (l : L) : PoolTask E R α L := ⟨parent, l, [], some (code l)⟩

/-- The labels of the tasks that a task has made. -/
def children (pool : TaskPool E R α L) (i : Nat) : List L :=
  (pool.map fun t => (t.parent, t.label)).filterMap fun x => if x.1 = some i then some x.2 else none

def trace_of (pool : TaskPool E R α L) (i : Nat) : List (Sigma R) :=
  (pool[i]?.map PoolTask.trace).getD []

/-- What is left of a task is what its code reaches by its exchanges. -/
def OnCode (t : PoolTask E R α L) : Prop :=
  ∃ q, Program.Reaches (code t.label) t.trace q ∧ ∀ p, t.left = some p → p = q

/-- What holds of a pool at any time. -/
structure Sound (pool : TaskPool E R α L) : Prop where
  on_code : ∀ t ∈ pool, OnCode code t
  outer : ∀ t ∈ pool, t.parent = none → Outer t.label
  parents : ∀ t ∈ pool, ∀ i, t.parent = some i → i < pool.length
  children : ∀ i, children pool i = (trace_of pool i).filterMap fun x => spawned x.1

/-- The tasks of outside are `Outer` ones. -/
def Admits (_ : TaskPool E R α L) : Act R L → Prop
  | .start l => Outer l
  | _ => True

/-- The exchange that a task is about to have. -/
def asked (t : PoolTask E R α L) (world : (e : E) → R e) : Option (Sigma R × PoolTask E R α L) :=
  match t.left with
  | some (.ask e next) =>
    some (⟨e, world e⟩,
      { t with trace := t.trace ++ [⟨e, world e⟩], left := some (next (world e)) })
  | _ => none

def step (pool : TaskPool E R α L) : Act R L → Option (TaskPool E R α L)
  | .start l => some (pool ++ [fresh code none l])
  | .exchange i world =>
    (pool[i]?.bind fun t => asked t world).map fun (x, t) =>
      pool.set i t ++ (spawned x.1).toList.map (fresh code (some i))
  | .cancel i => pool[i]?.map fun t => pool.set i { t with left := none }

variable {code spawned Outer} {pool pool' : TaskPool E R α L} {t t' : PoolTask E R α L}
  {x : Sigma R} {i : Nat}

theorem onCode_fresh (parent : Option Nat) (l : L) : OnCode code (fresh code parent l) :=
  ⟨_, .refl _, fun _ hp => (Option.some.inj hp).symm⟩

theorem set_same {f : PoolTask E R α L → β} (ht : pool[i]? = some t) (hf : f t' = f t) :
    (pool.set i t').map f = pool.map f := by
  obtain ⟨hi, rfl⟩ := List.getElem?_eq_some_iff.mp ht
  rw [List.map_set, hf]
  apply List.ext_getElem?
  intro j
  rw [List.getElem?_set]
  split
  · rename_i hj
    subst hj
    rw [List.length_map, if_pos hi, List.getElem?_map, List.getElem?_eq_getElem hi]
    rfl
  · rfl

theorem children_append (pool rest : TaskPool E R α L) (i : Nat) :
    children (pool ++ rest) i = children pool i ++ children rest i := by
  rw [children, List.map_append, List.filterMap_append]
  rfl

theorem children_fresh (parent : Option Nat) (ls : List L) (i : Nat) :
    children (ls.map (fresh code parent)) i = if parent = some i then ls else [] := by
  induction ls with
  | nil => exact (ite_self _).symm
  | cons l ls ih =>
    rw [List.map_cons, ← List.singleton_append, children_append, ih]
    by_cases h : parent = some i
    · simp [children, fresh, h]
    · simp [children, fresh, h]

theorem children_set (ht : pool[i]? = some t) (hparent : t'.parent = t.parent)
    (hlabel : t'.label = t.label) (j : Nat) : children (pool.set i t') j = children pool j := by
  rw [children, set_same ht (Prod.ext hparent hlabel)]
  rfl

/-- New tasks have not asked anything yet. -/
theorem trace_of_fresh (pool : TaskPool E R α L) (ls : List L) (parent : Option Nat) (i : Nat) :
    trace_of (pool ++ ls.map (fresh code parent)) i = trace_of pool i := by
  rw [trace_of, trace_of, List.getElem?_append]
  split
  · rfl
  · rename_i hi
    rw [List.getElem?_eq_none (Nat.le_of_not_lt hi), List.getElem?_map, Option.map_map]
    cases ls[i - pool.length]? with
    | none => rfl
    | some l => rfl

theorem trace_of_set (ht : pool[i]? = some t) (j : Nat) :
    trace_of (pool.set i t') j = if i = j then t'.trace else trace_of pool j := by
  obtain ⟨hi, -⟩ := List.getElem?_eq_some_iff.mp ht
  rw [trace_of, List.getElem?_set, if_pos hi]
  split
  · rfl
  · rfl

namespace Sound

/-- One more task of outside. -/
theorem start (h : Sound code spawned Outer pool) (hl : Outer l) :
    Sound code spawned Outer (pool ++ [l].map (fresh code none)) where
  on_code t ht := by
    rcases List.mem_append.mp ht with ht | ht
    · exact h.on_code t ht
    · rw [List.mem_singleton.mp ht]
      exact onCode_fresh none l
  outer t ht hnone := by
    rcases List.mem_append.mp ht with ht | ht
    · exact h.outer t ht hnone
    · rw [List.mem_singleton.mp ht]
      exact hl
  parents t ht i hi := by
    rw [List.length_append]
    rcases List.mem_append.mp ht with ht | ht
    · exact Nat.lt_add_right _ (h.parents t ht i hi)
    · rw [List.mem_singleton.mp ht] at hi
      cases hi
  children i := by
    rw [children_append, children_fresh, if_neg nofun, List.append_nil, trace_of_fresh]
    exact h.children i

/-- One more exchange of a task, and the task that it makes. -/
theorem exchange (h : Sound code spawned Outer pool) (ht : pool[i]? = some t)
    (ht' : OnCode code t') (hparent : t'.parent = t.parent) (hlabel : t'.label = t.label)
    (htrace : t'.trace = t.trace ++ [x]) :
    Sound code spawned Outer
      (pool.set i t' ++ (spawned x.1).toList.map (fresh code (some i))) where
  on_code s hs := by
    rcases List.mem_append.mp hs with hs | hs
    · rcases List.mem_or_eq_of_mem_set hs with hs | rfl
      · exact h.on_code s hs
      · exact ht'
    · obtain ⟨l, -, rfl⟩ := List.mem_map.mp hs
      exact onCode_fresh _ l
  outer s hs hnone := by
    rcases List.mem_append.mp hs with hs | hs
    · rcases List.mem_or_eq_of_mem_set hs with hs | rfl
      · exact h.outer s hs hnone
      · rw [hlabel]
        exact h.outer t (List.mem_of_getElem? ht) (hparent ▸ hnone)
    · obtain ⟨l, -, rfl⟩ := List.mem_map.mp hs
      cases hnone
  parents s hs j hj := by
    rw [List.length_append, List.length_set]
    rcases List.mem_append.mp hs with hs | hs
    · rcases List.mem_or_eq_of_mem_set hs with hs | rfl
      · exact Nat.lt_add_right _ (h.parents s hs j hj)
      · exact Nat.lt_add_right _ (h.parents t (List.mem_of_getElem? ht) j (hparent ▸ hj))
    · obtain ⟨l, -, rfl⟩ := List.mem_map.mp hs
      cases hj
      exact Nat.lt_add_right _ (List.getElem?_eq_some_iff.mp ht).1
  children j := by
    rw [children_append, children_fresh, trace_of_fresh, trace_of_set ht]
    rw [children_set ht hparent hlabel, h.children]
    by_cases hij : i = j
    · subst hij
      rw [if_pos rfl, if_pos rfl, htrace, List.filterMap_append, trace_of, ht]
      cases hx : spawned x.1 with
      | none => simp [hx]
      | some l => simp [hx]
    · rw [if_neg (fun he => hij (Option.some.inj he)), if_neg hij, List.append_nil]

/-- A task is gone. -/
theorem cancel (h : Sound code spawned Outer pool) (ht : pool[i]? = some t) :
    Sound code spawned Outer (pool.set i { t with left := none }) where
  on_code s hs := by
    rcases List.mem_or_eq_of_mem_set hs with hs | rfl
    · exact h.on_code s hs
    · obtain ⟨q, hq, -⟩ := h.on_code t (List.mem_of_getElem? ht)
      exact ⟨q, hq, nofun⟩
  outer s hs hnone := by
    rcases List.mem_or_eq_of_mem_set hs with hs | rfl
    · exact h.outer s hs hnone
    · exact h.outer t (List.mem_of_getElem? ht) hnone
  parents s hs j hj := by
    rw [List.length_set]
    rcases List.mem_or_eq_of_mem_set hs with hs | rfl
    · exact h.parents s hs j hj
    · exact h.parents t (List.mem_of_getElem? ht) j hj
  children j := by
    rw [trace_of_set ht, @children_set _ _ _ _ pool t { t with left := none } i ht rfl rfl,
      h.children]
    split
    · rename_i hij
      rw [← hij, trace_of, ht]
      rfl
    · rfl

end Sound

/-- A task that follows its rule has only asked what the rule allows. -/
theorem Sound.justified (h : Sound code spawned Outer pool) {P : L → List (Sigma R) → E → Prop}
    (hP : ∀ l, Program.Follows (P l) [] (code l)) (ht : t ∈ pool) :
    Program.Justified (P t.label) t.trace := by
  obtain ⟨q, hq, -⟩ := h.on_code t ht
  exact (hq.follows (hP t.label)).2

/-- A task that is not of outside was made by an exchange of its parent. -/
theorem Sound.made (h : Sound code spawned Outer pool) (ht : t ∈ pool) :
    Outer t.label ∨ ∃ parent ∈ pool, ∃ x ∈ parent.trace, spawned x.1 = some t.label := by
  cases hparent : t.parent with
  | none => exact .inl (h.outer t ht hparent)
  | some i =>
    refine .inr ?_
    have hi := h.parents t ht i hparent
    have hchild : t.label ∈ TaskPool.children pool i := by
      refine List.mem_filterMap.mpr ⟨_, List.mem_map_of_mem ht, ?_⟩
      rw [if_pos hparent]
    rw [h.children, trace_of, List.getElem?_eq_getElem hi] at hchild
    obtain ⟨x, hx, hlabel⟩ := List.mem_filterMap.mp hchild
    exact ⟨_, List.getElem_mem hi, x, hx, hlabel⟩

/-- The exchanges of a task that has ended are those of a complete run. -/
theorem Sound.ends (h : Sound code spawned Outer pool) (ht : t ∈ pool)
    (hleft : t.left = some (.done a)) : Program.Ends (code t.label) t.trace a := by
  obtain ⟨q, hq, hsame⟩ := h.on_code t ht
  obtain rfl := hsame _ hleft
  have hends := hq.ends (.done a)
  rwa [List.append_nil] at hends

theorem asked_some {world : (e : E) → R e} (h : asked t world = some (x, t')) :
    ∃ next : R x.1 → Program E R α, t.left = some (.ask x.1 next) ∧
      t' = { t with trace := t.trace ++ [x], left := some (next x.2) } := by
  rw [asked] at h
  split at h
  · rename_i e next hleft
    cases h
    exact ⟨next, hleft, rfl⟩
  · cases h

theorem OnCode.asked {world : (e : E) → R e} (ht : OnCode code t)
    (h : asked t world = some (x, t')) : OnCode code t' := by
  obtain ⟨next, hleft, rfl⟩ := asked_some h
  obtain ⟨q, hq, hsame⟩ := ht
  obtain rfl := hsame _ hleft
  exact ⟨_, .snoc x.2 hq, fun p hp => (Option.some.inj hp).symm⟩

theorem Sound.step {a : Act R L} (h : Sound code spawned Outer pool)
    (ha : Admits Outer pool a) (hs : step code spawned pool a = some pool') :
    Sound code spawned Outer pool' := by
  cases a with
  | start l =>
    cases hs
    exact h.start ha
  | exchange i world =>
    obtain ⟨⟨x, t'⟩, ht', rfl⟩ := Option.map_eq_some_iff.mp hs
    obtain ⟨t, ht, hasked⟩ := Option.bind_eq_some_iff.mp ht'
    have hcode := (h.on_code t (List.mem_of_getElem? ht)).asked hasked
    obtain ⟨next, -, rfl⟩ := asked_some hasked
    exact h.exchange ht hcode rfl rfl rfl
  | cancel i =>
    obtain ⟨t, ht, rfl⟩ := Option.map_eq_some_iff.mp hs
    exact h.cancel ht

/-- Every pool that starts with no tasks is sound. -/
theorem reach_sound (h : Reach (TaskPool.step code spawned) (Admits Outer) (· = []) pool) :
    Sound code spawned Outer pool := by
  refine h.invariant (fun s hs => ?_) fun s a s' hI ha hs => hI.step ha hs
  subst hs
  exact ⟨nofun, nofun, nofun, fun i => rfl⟩

end TaskPool

end Lib
