import Mathlib.Data.List.Basic
import Mathlib.Data.List.Infix
import Mathlib.Logic.Function.Basic

namespace Lib
set_option autoImplicit true

/-- A loop whose body may raise: the state it leaves, and whether it came to its end. -/
def forEach (body : σ → α → σ × Bool) : List α → σ → σ × Bool
  | [], s => (s, true)
  | a :: as, s =>
    match body s a with
    | (s', true) => forEach body as s'
    | (s', false) => (s', false)

section Loop
variable {body : σ → α → σ × Bool}

theorem forEach_cons : forEach body (a :: as) s =
    if (body s a).2 then forEach body as (body s a).1 else ((body s a).1, false) := by
  rw [forEach]
  rcases body s a with ⟨s', _ | _⟩ <;> rfl

/-- What each turn keeps is kept by the loop, whether it raises or not. -/
theorem forEach_keeps {I : σ → Prop} (hb : ∀ s, ∀ a ∈ as, I s → I (body s a).1) (h : I s) :
    I (forEach body as s).1 := by
  induction as generalizing s with
  | nil => exact h
  | cons a as ih =>
    have hs := hb s a List.mem_cons_self h
    rw [forEach_cons]
    split
    · exact ih (fun s b hm => hb s b (List.mem_cons_of_mem _ hm)) hs
    · exact hs

/-- What one turn establishes and the others keep holds after a loop that came to its end. -/
theorem forEach_establishes {J : α → σ → Prop}
    (hb : ∀ s, ∀ a ∈ as, (body s a).2 = true → J a (body s a).1)
    (hk : ∀ s, ∀ a ∈ as, ∀ b ∈ as, J b s → J b (body s a).1)
    (h : (forEach body as s).2 = true) : ∀ a ∈ as, J a (forEach body as s).1 := by
  induction as generalizing s with
  | nil =>
    intro a ha
    cases ha
  | cons a as ih =>
    rw [forEach_cons] at h ⊢
    split at h
    · rename_i hd
      rw [if_pos hd]
      intro b hb'
      rcases List.mem_cons.mp hb' with rfl | hb'
      · apply forEach_keeps _ (hb s _ List.mem_cons_self hd)
        exact fun s c hc => hk s c (List.mem_cons_of_mem _ hc) _ List.mem_cons_self
      · exact ih (fun s c hc => hb s c (List.mem_cons_of_mem _ hc))
          (fun s c hc d hd => hk s c (List.mem_cons_of_mem _ hc) d (List.mem_cons_of_mem _ hd))
          h b hb'
    · cases h

/-- A loop comes to its end from a state in which no turn raises. -/
theorem forEach_run {I : σ → Prop}
    (hb : ∀ s, ∀ a ∈ as, I s → (body s a).2 = true ∧ I (body s a).1) (h : I s) :
    (forEach body as s).2 = true ∧ I (forEach body as s).1 := by
  induction as generalizing s with
  | nil => exact ⟨rfl, h⟩
  | cons a as ih =>
    obtain ⟨hd, hi⟩ := hb s a List.mem_cons_self h
    rw [forEach_cons, if_pos hd]
    exact ih (fun s b hm => hb s b (List.mem_cons_of_mem _ hm)) hi

end Loop

/-! Trees of files -/

inductive Node (β : Type)
  | dir
  | file (content : β)
  deriving DecidableEq, Repr

/-- The names from the root of the tree. -/
abbrev NamePath := List String

abbrev FileTree (β : Type) := NamePath → Option (Node β)

namespace FileTree

variable {β : Type}

def is_file (t : FileTree β) (path : NamePath) : Bool :=
  match t path with
  | some (.file _) => true
  | _ => false

def is_dir (t : FileTree β) (path : NamePath) : Bool :=
  match t path with
  | some .dir => true
  | _ => false

theorem is_dir_iff {t : FileTree β} : t.is_dir path = true ↔ t path = some .dir := by
  rw [is_dir]
  split
  · rename_i h
    simp only [h]
  · rename_i h
    simp only [Bool.false_eq_true, false_iff]
    exact h

/-- `os.makedirs(dir, exist_ok=True)`, which raises where a file is in the way. -/
def makedirs (t : FileTree β) (dir : NamePath) : FileTree β × Bool :=
  if dir.inits.any t.is_file then (t, false)
  else (fun path => if path <+: dir ∧ t path = none then some .dir else t path, true)

/-- Opening a file for writing and filling it, which raises for a directory. -/
def write (t : FileTree β) (path : NamePath) (content : β) : FileTree β × Bool :=
  if t.is_dir path then (t, false)
  else (Function.update t path (some (.file content)), true)

/-- `shutil.copy2`: a directory takes the copy in. -/
def copy2 (t : FileTree β) (path : NamePath) (name : String) (content : β) : FileTree β × Bool :=
  if t.is_dir path then t.write (path ++ [name]) content else t.write path content

/-- No node of the first tree has changed its kind in the second, or has gone. -/
structure Grown (t t' : FileTree β) : Prop where
  dir : ∀ path, t path = some .dir → t' path = some .dir
  file : ∀ path content, t path = some (.file content) → ∃ content', t' path = some (.file content')

theorem Grown.refl (t : FileTree β) : Grown t t := ⟨fun _ h => h, fun _ c h => ⟨c, h⟩⟩

theorem Grown.trans {t t' t'' : FileTree β} (h : Grown t t') (h' : Grown t' t'') :
    Grown t t'' := by
  refine ⟨fun path hd => h'.dir path (h.dir path hd), ?_⟩
  intro path content hf
  obtain ⟨content', hf'⟩ := h.file path content hf
  exact h'.file path content' hf'

theorem grown_makedirs (t : FileTree β) (dir : NamePath) : Grown t (t.makedirs dir).1 := by
  rw [makedirs]
  split
  · exact .refl t
  · have hkeep : ∀ path node, t path = some node →
        (if path <+: dir ∧ t path = none then some .dir else t path) = some node := by
      intro path node hn
      rw [if_neg (by simp [hn]), hn]
    exact ⟨fun path hd => hkeep path _ hd, fun path c hf => ⟨c, hkeep path _ hf⟩⟩

theorem grown_write (t : FileTree β) (path : NamePath) (content : β) :
    Grown t (t.write path content).1 := by
  rw [write]
  split
  · exact .refl t
  · rename_i hn
    constructor
    · intro p hd
      have hne : p ≠ path := fun he => hn (is_dir_iff.mpr (he ▸ hd))
      exact (Function.update_of_ne hne _ _).trans hd
    · intro p c hf
      by_cases he : p = path
      · exact ⟨content, he ▸ Function.update_self ..⟩
      · exact ⟨c, (Function.update_of_ne he _ _).trans hf⟩

theorem grown_copy2 (t : FileTree β) (path : NamePath) (name : String) (content : β) :
    Grown t (t.copy2 path name content).1 := by
  rw [copy2]
  split <;> exact grown_write t _ content

theorem write_ne {t : FileTree β} {path p : NamePath} {content : β} (h : p ≠ path) :
    (t.write path content).1 p = t p := by
  rw [write]
  split
  · rfl
  · exact Function.update_of_ne h _ _

theorem write_done {t : FileTree β} {path : NamePath} {content : β}
    (h : (t.write path content).2 = true) :
    (t.write path content).1 path = some (.file content) := by
  rw [write] at h ⊢
  split at h
  · cases h
  · rename_i hn
    rw [if_neg hn]
    exact Function.update_self ..

theorem write_file {t : FileTree β} {path : NamePath} {content old : β}
    (h : t path = some (.file old)) : (t.write path content).2 = true := by
  rw [write, if_neg (by simp [is_dir, h])]

theorem makedirs_node {t : FileTree β} {dir p : NamePath} {node : Node β}
    (h : t p = some node) : (t.makedirs dir).1 p = some node := by
  rw [makedirs]
  split
  · exact h
  · change (if p <+: dir ∧ t p = none then some .dir else t p) = _
    rw [if_neg (by simp [h]), h]

theorem makedirs_done {t : FileTree β} {dir p : NamePath} (h : (t.makedirs dir).2 = true)
    (hp : p <+: dir) : (t.makedirs dir).1 p = some .dir := by
  rw [makedirs] at h ⊢
  split at h
  · cases h
  · rename_i hn
    rw [if_neg hn]
    change (if p <+: dir ∧ t p = none then some .dir else t p) = _
    cases hnode : t p with
    | none => rw [if_pos ⟨hp, rfl⟩]
    | some node =>
      rw [if_neg (by simp)]
      cases node with
      | dir => rfl
      | file c =>
        refine absurd (List.any_eq_true.mpr ⟨p, (List.mem_inits _ _).mpr hp, ?_⟩) hn
        rw [is_file, hnode]

/-- Directories that are there are left alone. -/
theorem makedirs_self {t : FileTree β} {dir : NamePath} (h : ∀ p, p <+: dir → t p = some .dir) :
    t.makedirs dir = (t, true) := by
  have hn : ¬ dir.inits.any t.is_file = true := by
    intro ha
    obtain ⟨p, hp, hf⟩ := List.any_eq_true.mp ha
    rw [is_file, h p ((List.mem_inits _ _).mp hp)] at hf
    cases hf
  rw [makedirs, if_neg hn]
  congr 1
  funext p
  split
  · rename_i hp
    rw [h p hp.1] at hp
    cases hp.2
  · rfl

end FileTree

end Lib
