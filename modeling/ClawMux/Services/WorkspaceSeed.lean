import ClawMux.Lib.FileTree
import ClawMux.Lib.Replace
import ClawMux.Lib.Text
import Mathlib.Data.List.Nodup

namespace ClawMux
set_option autoImplicit true
open Lib Lib.Text Lib.Replace

/-- A file is UTF-8 text or something else. -/
inductive Content
  | text (s : String)
  | binary (bytes : List UInt8)
  deriving DecidableEq, Repr

/-- What reading in text mode makes of the line ends. -/
def universal_newlines : List Char → List Char
  | '\r' :: '\n' :: s => '\n' :: universal_newlines s
  | '\r' :: s => '\n' :: universal_newlines s
  | c :: s => c :: universal_newlines s
  | [] => []

def read_text (s : String) : String := String.ofList (universal_newlines s.toList)

/-- `s.replace(old, new)` -/
def replace (s old new : String) : String :=
  String.ofList (replaceAll old.toList new.toList s.toList)

/-- What `os.walk` yields: the path of each directory from the root, and the files in it. -/
abbrev Walk := List (NamePath × List (String × Content))

def walk_files (walk : Walk) : List (NamePath × Content) :=
  walk.flatMap fun d => d.2.map fun f => (d.1 ++ [f.1], f.2)

structure Template where
  walk : Walk
  distinct : ((walk_files walk).map (·.1)).Nodup

def Template.files (template : Template) : List (NamePath × Content) := walk_files template.walk

def Template.AllText (template : Template) : Prop := ∀ x ∈ template.files, ∃ s, x.2 = .text s

/-- One file: text is rendered, what is not UTF-8 is copied. -/
def copy_file (render : String → String) (dir : NamePath) (t : FileTree Content)
    (file : String × Content) : FileTree Content × Bool :=
  match file.2 with
  | .text s => t.write (dir ++ [file.1]) (.text (render (read_text s)))
  | .binary bytes => t.copy2 (dir ++ [file.1]) file.1 (.binary bytes)

def copy_dir (render : String → String) (t : FileTree Content)
    (d : NamePath × List (String × Content)) : FileTree Content × Bool :=
  match t.makedirs d.1 with
  | (t', true) => forEach (copy_file render d.1) d.2 t'
  | (t', false) => (t', false)

/-- The loops over the template. -/
def copy_template (render : String → String) (walk : Walk) (t : FileTree Content) :
    FileTree Content × Bool := forEach (copy_dir render) walk t

/-- The substitution of `copy_and_substitute`. -/
def seed_render (instance_uuid provider user_id content : String) : String :=
  replace (replace (replace content "{{USER_ID}}" user_id) "{{UUID}}" instance_uuid)
    "{{PROVIDER}}" provider

/-- `_seed_workspace_template` on the workspace directory, and whether no exception was logged. -/
def seed_workspace_template (template : Option Template) (instance_uuid provider user_id : String)
    (t : FileTree Content) : FileTree Content × Bool :=
  match template with
  | none => (t, true)
  | some template =>
    match t.makedirs [] with
    | (t', true) => copy_template (seed_render instance_uuid provider user_id) template.walk t'
    | (t', false) => (t', false)

/-! What the loops do to the workspace -/

section Loops
variable {render : String → String} {walk : Walk}

theorem mem_walk_files (hd : d ∈ walk) (hf : f ∈ d.2) : (d.1 ++ [f.1], f.2) ∈ walk_files walk :=
  List.mem_flatMap.mpr ⟨d, hd, List.mem_map.mpr ⟨f, hf, rfl⟩⟩

theorem grown_copy_file (dir : NamePath) (t : FileTree Content) (f : String × Content) :
    t.Grown (copy_file render dir t f).1 := by
  rw [copy_file]
  split
  · exact FileTree.grown_write ..
  · exact FileTree.grown_copy2 ..

theorem grown_copy_dir (t : FileTree Content) (d : NamePath × List (String × Content)) :
    t.Grown (copy_dir render t d).1 := by
  have hm := FileTree.grown_makedirs t d.1
  rw [copy_dir]
  split
  · rename_i t' heq
    rw [heq] at hm
    exact forEach_keeps (fun s f _ hs => hs.trans (grown_copy_file d.1 s f)) hm
  · rename_i t' heq
    rwa [heq] at hm

theorem grown_copy_template (t : FileTree Content) : t.Grown (copy_template render walk t).1 :=
  forEach_keeps (fun s d _ hs => hs.trans (grown_copy_dir s d)) (.refl t)

/-- The directories and the text files of the template have their places in the workspace. -/
structure Ready (walk : Walk) (t : FileTree Content) : Prop where
  dirs : ∀ d ∈ walk, ∀ p, p <+: d.1 → t p = some .dir
  files : ∀ d ∈ walk, ∀ f ∈ d.2, ∀ s, f.2 = .text s → ∃ c, t (d.1 ++ [f.1]) = some (.file c)

theorem Ready.grown (h : Ready walk t) (hg : t.Grown t') : Ready walk t' := by
  refine ⟨fun d hd p hp => hg.dir p (h.dirs d hd p hp), ?_⟩
  intro d hd f hf s hs
  obtain ⟨c, hc⟩ := h.files d hd f hf s hs
  exact hg.file _ c hc

/-- One directory of a run that came to its end. -/
theorem copy_dir_done {t : FileTree Content} (h : (copy_dir render t d).2 = true) :
    (t.makedirs d.1).2 = true ∧
    copy_dir render t d = forEach (copy_file render d.1) d.2 (t.makedirs d.1).1 := by
  rw [copy_dir] at h ⊢
  split at h
  · rename_i heq
    simp only [heq, and_self]
  · cases h

theorem ready_of_done {t : FileTree Content} (h : (copy_template render walk t).2 = true) :
    Ready walk (copy_template render walk t).1 := by
  have hall := forEach_establishes (J := fun d t => Ready [d] t) ?_ ?_ h
  · refine ⟨fun d hd => (hall d hd).dirs d (List.mem_singleton_self d), ?_⟩
    exact fun d hd => (hall d hd).files d (List.mem_singleton_self d)
  · intro s d hd hdone
    obtain ⟨hmk, heq⟩ := copy_dir_done hdone
    have hgrown : (s.makedirs d.1).1.Grown (copy_dir render s d).1 := by
      rw [heq]
      exact forEach_keeps (fun t f _ ht => ht.trans (grown_copy_file d.1 t f)) (.refl _)
    constructor
    · intro d' hd' p hp
      rw [List.mem_singleton.mp hd'] at hp
      exact hgrown.dir p (FileTree.makedirs_done hmk hp)
    · intro d' hd' f hf text htext
      rw [List.mem_singleton.mp hd'] at hf ⊢
      rw [heq] at hdone ⊢
      have hfiles := forEach_establishes (J := fun (f : String × Content) t =>
        ∀ s, f.2 = .text s → ∃ c, t (d.1 ++ [f.1]) = some (.file c)) ?_ ?_ hdone
      · exact hfiles f hf text htext
      · intro t g hg hw s hs
        rw [copy_file, hs] at hw ⊢
        exact ⟨_, FileTree.write_done hw⟩
      · intro t g hg f' hf' hJ s hs
        obtain ⟨c, hc⟩ := hJ s hs
        exact (grown_copy_file d.1 t g).file _ c hc
  · exact fun s d _ b _ hJ => hJ.grown (grown_copy_dir s d)

/-- A node that the files of a directory leave alone stays. -/
theorem copy_dir_keeps {t : FileTree Content} (d : NamePath × List (String × Content))
    (hfile : ∀ t : FileTree Content, ∀ f ∈ d.2, t path = some node →
      (copy_file render d.1 t f).1 path = some node) (ht : t path = some node) :
    (copy_dir render t d).1 path = some node := by
  have hm : (t.makedirs d.1).1 path = some node := FileTree.makedirs_node ht
  rw [copy_dir]
  split
  · rename_i t' heq
    rw [heq] at hm
    exact forEach_keeps (I := fun t : FileTree Content => t path = some node) hfile hm
  · rename_i t' heq
    rwa [heq] at hm

/-- Each text file holds what the template's text renders as, after a run that came to its end. -/
theorem copy_template_text {t : FileTree Content} (hdis : ((walk_files walk).map (·.1)).Nodup)
    (htext : ∀ x ∈ walk_files walk, ∃ s, x.2 = .text s)
    (h : (copy_template render walk t).2 = true) (hx : (path, .text text) ∈ walk_files walk) :
    (copy_template render walk t).1 path = some (.file (.text (render (read_text text)))) := by
  have hsame : ∀ content, (path, content) ∈ walk_files walk → content = .text text := by
    intro content hc
    exact (Prod.mk.inj (List.inj_on_of_nodup_map hdis hc hx rfl)).2
  have hwrite : ∀ t : FileTree Content, ∀ d ∈ walk, ∀ f ∈ d.2, ∀ s, f.2 = .text s →
      t path = some (.file (.text (render (read_text text)))) →
      (copy_file render d.1 t f).1 path = some (.file (.text (render (read_text text)))) := by
    intro t d hd f hf s hs ht
    simp only [copy_file, hs]
    by_cases hp : path = d.1 ++ [f.1]
    · have hmem := mem_walk_files hd hf
      rw [← hp] at hmem
      have he := hsame f.2 hmem
      rw [hs] at he
      cases he
      rw [← hp]
      exact FileTree.write_done (FileTree.write_file ht)
    · rw [FileTree.write_ne hp]
      exact ht
  have hfile : ∀ t : FileTree Content, ∀ d ∈ walk, ∀ f ∈ d.2,
      t path = some (.file (.text (render (read_text text)))) →
      (copy_file render d.1 t f).1 path = some (.file (.text (render (read_text text)))) := by
    intro t d hd f hf ht
    obtain ⟨s, hs⟩ := htext _ (mem_walk_files hd hf)
    exact hwrite t d hd f hf s hs ht
  have hdir : ∀ t : FileTree Content, ∀ d ∈ walk,
      t path = some (.file (.text (render (read_text text)))) →
      (copy_dir render t d).1 path = some (.file (.text (render (read_text text)))) := by
    exact fun t d hd ht => copy_dir_keeps d (fun s f hf => hfile s d hd f hf) ht
  obtain ⟨d, hd, hmem⟩ := List.mem_flatMap.mp hx
  have hall := forEach_establishes (J := fun (d : NamePath × List (String × Content)) t =>
    (path, Content.text text) ∈ d.2.map (fun f => (d.1 ++ [f.1], f.2)) →
      t path = some (.file (.text (render (read_text text))))) ?_ ?_ h
  · exact hall d hd hmem
  · intro s d hd hdone hin
    obtain ⟨-, heq⟩ := copy_dir_done hdone
    rw [heq] at hdone ⊢
    obtain ⟨f, hf, hfp⟩ := List.mem_map.mp hin
    obtain ⟨hp, hc⟩ := Prod.mk.inj hfp
    have hfiles := forEach_establishes (J := fun (f : String × Content) (t : FileTree Content) =>
      d.1 ++ [f.1] = path → t path = some (.file (.text (render (read_text text))))) ?_ ?_ hdone
    · exact hfiles f hf hp
    · intro t g hg hw hgp
      have hmem := mem_walk_files hd hg
      rw [hgp] at hmem
      have hgc := hsame g.2 hmem
      rw [copy_file, hgc, hgp] at hw ⊢
      exact FileTree.write_done hw
    · exact fun t g hg f' hf' hJ hp' => hfile t d hd g hg (hJ hp')
  · exact fun s d hd b hb hJ hin => hdir s d hd (hJ hin)

/-- Everything beside the files of the template is the same in both trees. -/
def SameBeside (walk : Walk) (t t' : FileTree Content) : Prop :=
  ∀ path, path ∉ (walk_files walk).map (·.1) → t' path = t path

/-- Where everything has its place, a run comes to its end and touches nothing else. -/
theorem copy_template_ready {t : FileTree Content} (h : Ready walk t)
    (htext : ∀ x ∈ walk_files walk, ∃ s, x.2 = .text s) :
    (copy_template render walk t).2 = true ∧ SameBeside walk t (copy_template render walk t).1 := by
  have hfile : ∀ s, ∀ d ∈ walk, ∀ f ∈ d.2, Ready walk s ∧ SameBeside walk t s →
      (copy_file render d.1 s f).2 = true ∧
        Ready walk (copy_file render d.1 s f).1 ∧
          SameBeside walk t (copy_file render d.1 s f).1 := by
    intro s d hd f hf hs
    obtain ⟨text, htx⟩ := htext _ (mem_walk_files hd hf)
    obtain ⟨c, hc⟩ := hs.1.files d hd f hf text htx
    have hgrown : Ready walk (copy_file render d.1 s f).1 := hs.1.grown (grown_copy_file d.1 s f)
    rw [copy_file, htx] at hgrown ⊢
    refine ⟨FileTree.write_file hc, hgrown, ?_⟩
    intro path hp
    rw [← hs.2 path hp]
    apply FileTree.write_ne
    rintro rfl
    exact hp (List.mem_map.mpr ⟨_, mem_walk_files hd hf, rfl⟩)
  have hdir : ∀ s, ∀ d ∈ walk, Ready walk s ∧ SameBeside walk t s →
      (copy_dir render s d).2 = true ∧
        Ready walk (copy_dir render s d).1 ∧ SameBeside walk t (copy_dir render s d).1 := by
    intro s d hd hs
    rw [copy_dir, FileTree.makedirs_self (hs.1.dirs d hd)]
    exact forEach_run (I := fun s => Ready walk s ∧ SameBeside walk t s)
      (fun s f hf hs => hfile s d hd f hf hs) hs
  obtain ⟨hdone, -, hbeside⟩ := forEach_run (I := fun s => Ready walk s ∧ SameBeside walk t s)
    hdir ⟨h, fun _ _ => rfl⟩
  exact ⟨hdone, hbeside⟩

/-- Files that are not the template's keep their contents, unless they lie where the template has
a file that is no text. -/
theorem copy_template_other {t : FileTree Content} (hp : t path = some (.file content))
    (hnot : path ∉ (walk_files walk).map (·.1))
    (hbin : ∀ x ∈ walk_files walk, ∀ bytes, x.2 = .binary bytes → ¬ x.1 <+: path) :
    (copy_template render walk t).1 path = some (.file content) := by
  have hfile : ∀ s : FileTree Content, ∀ d ∈ walk, ∀ f ∈ d.2, s path = some (.file content) →
      (copy_file render d.1 s f).1 path = some (.file content) := by
    intro s d hd f hf hs
    have hmem := mem_walk_files hd hf
    have hne : path ≠ d.1 ++ [f.1] := by
      rintro rfl
      exact hnot (List.mem_map.mpr ⟨_, hmem, rfl⟩)
    rw [copy_file]
    split
    · rw [FileTree.write_ne hne, hs]
    · rename_i bytes hb
      rw [FileTree.copy2]
      split
      · rw [FileTree.write_ne, hs]
        rintro rfl
        exact hbin _ hmem bytes hb (List.prefix_append _ _)
      · rw [FileTree.write_ne hne, hs]
  apply forEach_keeps (I := fun s : FileTree Content => s path = some (.file content)) _ hp
  exact fun s d hd hs => copy_dir_keeps d (fun s f hf => hfile s d hd f hf) hs

end Loops

end ClawMux
