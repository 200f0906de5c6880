import ClawMux.Lib.Text

namespace Lib.Path
set_option autoImplicit true
open Lib.Text

/-- The names between the slashes; a leading slash gives an empty one. -/
def segments (path : String) : List (List Char) := path.toList.splitOn '/'

/-- The path is the directory or lies in it, read segment by segment. -/
def Below (dir path : String) : Prop := segments dir <+: segments path

theorem notMem_of_mem_splitOn {sep : Char} {s : List Char} : ∀ seg ∈ s.splitOn sep, sep ∉ seg := by
  induction s with
  | nil =>
    intro seg hseg
    rw [List.splitOn_nil, List.mem_singleton] at hseg
    exact hseg ▸ List.not_mem_nil
  | cons c s ih =>
    intro seg hseg
    rw [List.splitOn_cons_eq_if_modifyHead] at hseg
    split at hseg
    · rcases List.mem_cons.mp hseg with rfl | hseg
      · exact List.not_mem_nil
      · exact ih seg hseg
    · rename_i hc
      obtain ⟨first, more, hsplit⟩ := List.exists_cons_of_ne_nil (List.splitOn_ne_nil sep s)
      rw [hsplit] at hseg ih
      rcases List.mem_cons.mp hseg with rfl | hseg
      · intro hmem
        rcases List.mem_cons.mp hmem with rfl | hmem
        · exact hc (beq_self_eq_true _)
        · exact ih first List.mem_cons_self hmem
      · exact ih seg (List.mem_cons_of_mem _ hseg)

theorem segments_inj (h : segments s = segments t) : s = t := by
  rw [segments, segments] at h
  apply String.toList_inj.mp
  have hs : ['/'].intercalate (s.toList.splitOn '/') = s.toList := List.intercalate_splitOn _
  rw [← hs, h, List.intercalate_splitOn]

theorem segments_append : segments (s ++ "/" ++ t) = segments s ++ segments t := by
  rw [segments, String.toList_append, String.toList_append, List.append_assoc]
  exact List.splitOn_append_cons_self ..

theorem segments_name (h : '/' ∉ name.toList) : segments name = [name.toList] :=
  List.splitOn_eq_singleton h

namespace Below

theorem refl (dir : String) : Below dir dir := List.prefix_rfl

/-- Two directories with a common descendant lie one in the other. -/
theorem comparable (h : Below a p) (h' : Below b p) : Below a b ∨ Below b a :=
  List.prefix_or_prefix_of_prefix h h'

/-- The children of a directory have no common descendants. -/
theorem child_inj (hs : '/' ∉ s.toList) (ht : '/' ∉ t.toList) (h : Below (dir ++ "/" ++ s) p)
    (h' : Below (dir ++ "/" ++ t) p) : s = t := by
  rw [Below, segments_append, segments_name hs] at h
  rw [Below, segments_append, segments_name ht] at h'
  have heq := List.prefix_of_prefix_length_le h h' (by simp)
  have hlen : segments dir ++ [s.toList] = segments dir ++ [t.toList] :=
    heq.eq_of_length (by simp)
  apply String.toList_inj.mp
  exact List.singleton_inj.mp (List.append_cancel_left hlen)

end Below

/-- The test that the code makes on the texts is the one on the segments. -/
theorem below_iff : Below dir path ↔ path = dir ∨ startsWith path (dir ++ "/") = true := by
  constructor
  · rintro ⟨more, hmore⟩
    by_cases he : more = []
    · rw [he, List.append_nil] at hmore
      exact .inl (segments_inj hmore).symm
    · refine .inr ?_
      have hno : ∀ seg ∈ more, '/' ∉ seg := fun seg hseg =>
        notMem_of_mem_splitOn seg (hmore ▸ List.mem_append_right _ hseg)
      have hrest : segments (String.ofList (['/'].intercalate more)) = more := by
        rw [segments, String.toList_ofList, List.splitOn_intercalate '/' hno he]
      have hpath : dir ++ "/" ++ String.ofList (['/'].intercalate more) = path := by
        apply segments_inj
        rw [segments_append, hrest, hmore]
      exact hpath ▸ startsWith_append _ _
  · rintro (rfl | h)
    · exact .refl path
    · refine ⟨segments (dropLen path (dir ++ "/")), ?_⟩
      rw [← segments_append, append_dropLen h]

/-- `os.path.join(path, name)` -/
def join (path name : String) : String :=
  if startsWith name "/" then name
  else if path = "" ∨ path.toList.getLast? = some '/' then path ++ name
  else path ++ "/" ++ name

/-- A tree of directories, as paths are followed in it. -/
structure Dirs (ν : Type*) where
  root : ν
  parent : ν → ν
  child : ν → List Char → ν

def Dirs.enter (d : Dirs ν) (here : ν) (seg : List Char) : ν :=
  if seg = [] ∨ seg = ['.'] then here
  else if seg = ['.', '.'] then d.parent here
  else d.child here seg

/-- Where a path leads from the working directory. -/
def Dirs.walk (d : Dirs ν) (cwd : ν) (path : String) : ν :=
  (segments path).foldl d.enter (if startsWith path "/" then d.root else cwd)

/-- The name of an entry of a directory. -/
structure Name (name : String) : Prop where
  slash : '/' ∉ name.toList
  nonempty : name ≠ ""
  dot : name ≠ "."
  dots : name ≠ ".."

theorem Name.enter (h : Name name) (d : Dirs ν) (here : ν) :
    d.enter here name.toList = d.child here name.toList := by
  have hne : ∀ other : String, name ≠ other → name.toList ≠ other.toList := fun _ hn he =>
    hn (String.toList_inj.mp he)
  rw [Dirs.enter, if_neg, if_neg]
  · exact hne ".." h.dots
  · rintro (he | he)
    · exact hne "" h.nonempty he
    · exact hne "." h.dot he

theorem Name.relative (h : Name name) : startsWith name "/" = false := by
  rw [Bool.eq_false_iff]
  intro habs
  rw [startsWith, List.isPrefixOf_iff_prefix] at habs
  exact h.slash (habs.subset List.mem_cons_self)

theorem startsWith_append_left (h : s ≠ "") : startsWith (s ++ t) "/" = startsWith s "/" := by
  rw [startsWith, startsWith, String.toList_append]
  cases hs : s.toList with
  | nil => exact absurd (String.toList_inj.mp hs) h
  | cons c s => rfl

theorem segments_empty : segments "" = [[]] := List.splitOn_nil _

theorem Name.walk_slash (h : Name name) (hne : path ≠ "") (d : Dirs ν) (cwd : ν) :
    d.walk cwd (path ++ "/" ++ name) = d.child (d.walk cwd path) name.toList := by
  rw [Dirs.walk, Dirs.walk, segments_append, segments_name h.slash, List.foldl_append,
    String.append_assoc, startsWith_append_left hne]
  exact h.enter d _

/-- Joining a name to a path leads to the child of that name. -/
theorem Name.walk_join (h : Name name) (d : Dirs ν) (cwd : ν) :
    d.walk cwd (join path name) = d.child (d.walk cwd path) name.toList := by
  rw [join, if_neg (ne_true_of_eq_false h.relative)]
  split
  · rename_i hend
    rcases hend with rfl | hlast
    · rw [String.empty_append, Dirs.walk, Dirs.walk, h.relative, segments_name h.slash,
        segments_empty]
      exact h.enter d cwd
    · obtain ⟨front, hfront⟩ := List.getLast?_eq_some_iff.mp hlast
      have hpath : path = String.ofList front ++ "/" ++ "" := by
        apply String.toList_inj.mp
        rw [hfront, String.toList_append, String.toList_append, String.toList_ofList]
        exact (List.append_nil _).symm
      have hne : path ≠ "" := by
        rintro rfl
        cases hlast
      have hsegs : segments path = segments (String.ofList front) ++ [[]] := by
        rw [hpath, segments_append, segments_empty]
      have hjoined : path ++ name = String.ofList front ++ "/" ++ name := by
        rw [hpath, String.append_empty]
      have hwalk : d.walk cwd path = (segments (String.ofList front)).foldl d.enter
          (if startsWith path "/" then d.root else cwd) := by
        rw [Dirs.walk, hsegs, List.foldl_append]
        rfl
      rw [hwalk, Dirs.walk, startsWith_append_left hne, hjoined, segments_append,
        segments_name h.slash, List.foldl_append]
      exact h.enter d _
  · rename_i hend
    exact h.walk_slash (fun he => hend (.inl he)) d cwd

/-- The path leads from the directory down, by the names of entries, in every tree. -/
def Inside (dir path : String) : Prop :=
  ∃ names : List String, names ≠ [] ∧ (∀ name ∈ names, Name name) ∧
    ∀ (ν : Type) (d : Dirs ν) (cwd : ν), d.walk cwd path =
      names.foldl (fun here name => d.child here name.toList) (d.walk cwd dir)

theorem Name.inside (h : Name name) : Inside dir (join dir name) :=
  ⟨[name], List.cons_ne_nil _ _, List.forall_mem_singleton.mpr h, fun _ d cwd => h.walk_join d cwd⟩

theorem Inside.join (h : Inside dir path) (hn : Name name) : Inside dir (join path name) := by
  obtain ⟨names, hne, hall, hwalk⟩ := h
  refine ⟨names ++ [name], List.append_ne_nil_of_left_ne_nil hne _, ?_, ?_⟩
  · intro x hx
    rcases List.mem_append.mp hx with hx | hx
    · exact hall x hx
    · exact List.mem_singleton.mp hx ▸ hn
  · intro ν d cwd
    rw [hn.walk_join, hwalk, List.foldl_append]
    rfl

/-- Both paths lead to one place, in every tree. -/
def Same (path path' : String) : Prop :=
  ∀ (ν : Type) (d : Dirs ν) (cwd : ν), d.walk cwd path = d.walk cwd path'

/-- The path leads to the directory or from it down. -/
def Within (dir path : String) : Prop := Same dir path ∨ Inside dir path

theorem Same.refl (path : String) : Same path path := fun _ _ _ => rfl

theorem Same.symm (h : Same path path') : Same path' path := fun ν d cwd => (h ν d cwd).symm

theorem Same.within (h : Same dir dir') (hw : Within dir path) : Within dir' path := by
  rcases hw with hs | ⟨names, hne, hall, hwalk⟩
  · exact .inl fun ν d cwd => (h ν d cwd).symm.trans (hs ν d cwd)
  · exact .inr ⟨names, hne, hall, fun ν d cwd => (hwalk ν d cwd).trans (by rw [h ν d cwd])⟩

/-- The tree in which a place is the list of the names that lead to it. -/
def nameDirs : Dirs (List (List Char)) where
  root := []
  parent := List.dropLast
  child here seg := here ++ [seg]

theorem nameDirs_join (h : Name name) (cwd : List (List Char)) :
    nameDirs.walk cwd (join path name) = nameDirs.walk cwd path ++ [name.toList] :=
  h.walk_join nameDirs cwd

theorem nameDirs_down (names : List String) (here : List (List Char)) :
    here <+: names.foldl (fun here name => nameDirs.child here name.toList) here := by
  induction names generalizing here with
  | nil => exact List.prefix_rfl
  | cons name names ih => exact (List.prefix_append here [name.toList]).trans (ih _)

theorem Within.below (h : Within dir path) (cwd : List (List Char)) :
    nameDirs.walk cwd dir <+: nameDirs.walk cwd path := by
  rcases h with hs | ⟨names, -, -, hwalk⟩
  · rw [hs _ nameDirs cwd]
  · rw [hwalk _ nameDirs cwd]
    exact nameDirs_down names _

/-- Two children of a directory have nothing in common. -/
theorem Within.child_inj (ha : Name a) (hb : Name b) (h : Within (join dir a) path)
    (h' : Within (join dir b) path) : a = b := by
  have hpre := h.below []
  have hpre' := h'.below []
  rw [nameDirs_join ha] at hpre
  rw [nameDirs_join hb] at hpre'
  have heq := (List.prefix_of_prefix_length_le hpre hpre' (by simp)).eq_of_length (by simp)
  apply String.toList_inj.mp
  exact List.singleton_inj.mp (List.append_cancel_left heq)

/-- Without a directory the one path is relative, and the other is not. -/
theorem same_join_iff (ha : Name a) (hb : Name b) :
    Same (join dir a) (dir ++ "/" ++ b) ↔ dir ≠ "" ∧ a = b := by
  constructor
  · intro h
    have hne : dir ≠ "" := by
      rintro rfl
      have hwalk := h _ nameDirs [['a']]
      have hroot : nameDirs.walk [['a']] ("" ++ "/" ++ b) = [b.toList] := by
        rw [Dirs.walk, segments_append, segments_name hb.slash, segments_empty,
          String.empty_append, startsWith_append, if_pos rfl]
        exact hb.enter nameDirs []
      rw [nameDirs_join ha, hroot, Dirs.walk, segments_empty] at hwalk
      exact absurd (congrArg List.length hwalk) (by simp [startsWith, nameDirs, Dirs.enter])
    refine ⟨hne, ?_⟩
    have hwalk := h _ nameDirs []
    rw [nameDirs_join ha, hb.walk_slash hne] at hwalk
    apply String.toList_inj.mp
    exact List.singleton_inj.mp (List.append_cancel_left hwalk)
  · rintro ⟨hne, rfl⟩ ν d cwd
    rw [ha.walk_join, ha.walk_slash hne]

end Lib.Path
