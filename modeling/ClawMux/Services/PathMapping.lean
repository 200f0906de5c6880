import ClawMux.Lib.Path
import ClawMux.Services.FileManager

namespace ClawMux
set_option autoImplicit true
open Lib Lib.Text Lib.Path

/-- A name that stays where it is in a path. -/
def Plain (seg : List Char) : Prop := seg ≠ ['.'] ∧ seg ≠ ['.', '.'] ∧ '/' ∉ seg

theorem norm_comps_plain {new_comps comps : List (List Char)} (hacc : ∀ seg ∈ new_comps, Plain seg)
    (hc : ∀ comp ∈ comps, '/' ∉ comp) : ∀ seg ∈ norm_comps true new_comps comps, Plain seg := by
  induction comps generalizing new_comps with
  | nil =>
    intro seg hseg
    exact hacc seg (List.mem_reverse.mp hseg)
  | cons comp comps ih =>
    have hrest := fun x hx => hc x (List.mem_cons_of_mem _ hx)
    rw [norm_comps]
    split
    · exact ih hacc hrest
    · rename_i hskip
      split
      · rename_i hpush
        refine ih (List.forall_mem_cons.mpr ⟨?_, hacc⟩) hrest
        refine ⟨fun he => hskip (.inr he), ?_, hc comp List.mem_cons_self⟩
        rcases hpush with he | ⟨he, -⟩ | hhead
        · exact he
        · cases he
        · -- a `..` on top of the stack is only there when the path is not absolute
          exact absurd rfl (hacc _ (List.mem_of_head? hhead)).2.1
      · exact ih (fun seg hseg => hacc seg (List.mem_of_mem_tail hseg)) hrest

theorem segments_replicate : ∀ seg ∈ (List.replicate k '/' ++ s).splitOn '/',
    seg = [] ∨ seg ∈ s.splitOn '/' := by
  induction k with
  | zero => exact fun seg hseg => .inr hseg
  | succ k ih =>
    intro seg hseg
    rw [List.replicate_succ, List.cons_append, List.splitOn_cons_eq_if_modifyHead,
      if_pos (beq_self_eq_true _)] at hseg
    rcases List.mem_cons.mp hseg with rfl | hseg
    · exact .inl rfl
    · exact ih seg hseg

theorem plain_nil : Plain [] := ⟨by decide, by decide, List.not_mem_nil⟩

/-- The normal form of an absolute path has no `.` and no `..`. -/
theorem normpath_plain (habs : startsWith path "/" = true) :
    ∀ seg ∈ segments (normpath path), Plain seg := by
  have hslashes : 0 < (path.toList.takeWhile (· = '/')).length := by
    rw [startsWith, List.isPrefixOf_iff_prefix] at habs
    obtain ⟨rest, hrest⟩ := habs
    rw [← hrest]
    exact Nat.succ_pos _
  rw [normpath]
  generalize (path.toList.takeWhile (· = '/')).length = slashes at hslashes ⊢
  obtain ⟨k, hk⟩ : ∃ k, (if slashes = 2 then 2 else min slashes 1) = k + 1 := by
    split
    · exact ⟨1, rfl⟩
    · exact ⟨0, by omega⟩
  rw [hk, decide_eq_true (Nat.succ_pos k)]
  have hcomps : ∀ seg ∈ norm_comps true [] (path.toList.splitOn '/'), Plain seg :=
    norm_comps_plain (fun _ h => by cases h) notMem_of_mem_splitOn
  generalize norm_comps true [] (path.toList.splitOn '/') = comps at hcomps
  rw [if_neg (by simp [List.replicate_succ])]
  intro seg hseg
  rw [segments, String.toList_ofList] at hseg
  rcases segments_replicate seg hseg with rfl | hseg
  · exact plain_nil
  · by_cases he : comps = []
    · subst he
      rw [show seg = [] by simpa using hseg]
      exact plain_nil
    · rw [List.splitOn_intercalate '/' (fun x hx => (hcomps x hx).2.2) he] at hseg
      exact hcomps seg hseg

theorem normpath_ne_empty : normpath path ≠ "" := by
  rw [normpath]
  generalize List.replicate _ '/' ++ _ = norm
  split
  · decide
  · rename_i hne
    exact fun he => hne (by simpa using congrArg String.toList he)

theorem match_groups_no_slash (h : match_groups groups s = some found) : '/' ∉ found := by
  induction groups generalizing s found with
  | nil =>
    cases h
    exact List.not_mem_nil
  | cons n groups ih =>
    simp only [match_groups] at h
    split at h
    · rename_i hdigits
      have hno : '/' ∉ s.take n := by
        intro hm
        have := List.all_eq_true.mp hdigits.2 _ hm
        revert this
        decide
      split at h
      · cases h
        exact hno
      · obtain ⟨more, hmore, rfl⟩ := Option.map_eq_some_iff.mp h
        intro hm
        rcases List.mem_append.mp hm with hm | hm
        · exact hno hm
        · rcases List.mem_cons.mp hm with he | hm
          · cases he
          · exact ih hmore hm
      · cases h
    · cases h

/-- The uuid of an instance is the name of one directory. -/
theorem extract_uuid_name (h : extract_uuid_from_instance_url url = some uuid) :
    '/' ∉ uuid.toList := by
  obtain ⟨found, hfound, rfl⟩ := Option.map_eq_some_iff.mp h
  obtain ⟨_, -, hmatch⟩ := List.exists_of_findSome?_eq_some hfound
  rw [String.toList_ofList]
  exact match_groups_no_slash hmatch

theorem path_join_absolute (habs : startsWith dir "/" = true) :
    startsWith (path_join dir name) "/" = true := by
  rw [path_join]
  split
  · assumption
  · exact startsWith_trans (startsWith_trans (startsWith_append _ _) (startsWith_append _ _)) habs

/-- The directory of a tenant. -/
def tenant (workspace_base_path uuid : String) : String := workspace_base_path ++ "/" ++ uuid

/-- What a container path stands for before the checks. -/
def candidate (workspace_base_path container_path uuid : String) : String :=
  normpath (path_join (tenant workspace_base_path uuid) (dropLen container_path openclaw_root))

/-- The checks that a container path has to pass. -/
structure Admitted (workspace_base_path : String) (realpath : String → String)
    (container_path uuid : String) : Prop where
  rooted : startsWith container_path openclaw_root = true
  lexical : Below (tenant workspace_base_path uuid)
    (candidate workspace_base_path container_path uuid)
  resolved : Below (realpath (tenant workspace_base_path uuid))
    (realpath (candidate workspace_base_path container_path uuid))

theorem container_path_to_host_admitted
    (h : Admitted workspace_base_path realpath container_path uuid) :
    container_path_to_host workspace_base_path realpath container_path uuid =
      candidate workspace_base_path container_path uuid := by
  obtain ⟨hroot, hlex, hres⟩ := h
  simp only [container_path_to_host]
  rw [if_neg (by simp [hroot]), if_neg, if_neg]
  · rfl
  · rintro ⟨hne, hpre⟩
    rcases below_iff.mp hres with he | hin
    · exact hne he
    · exact Bool.false_ne_true (hpre.symm.trans hin)
  · rintro ⟨hne, hpre⟩
    rcases below_iff.mp hlex with he | hin
    · exact hne he
    · exact Bool.false_ne_true (hpre.symm.trans hin)

theorem below_of_passed (h : ¬ (path ≠ dir ∧ startsWith path (dir ++ "/") = false)) :
    Below dir path := by
  rcases not_and_or.mp h with he | hin
  · exact below_iff.mpr (.inl (Classical.not_not.mp he))
  · exact below_iff.mpr (.inr (by simpa using hin))

theorem container_path_to_host_rejected
    (h : ¬ Admitted workspace_base_path realpath container_path uuid) :
    container_path_to_host workspace_base_path realpath container_path uuid = "" := by
  simp only [container_path_to_host]
  split
  · rfl
  · rename_i hroot
    split
    · rfl
    · rename_i hlex
      split
      · rfl
      · rename_i hres
        exact absurd ⟨by simpa using hroot, below_of_passed hlex, below_of_passed hres⟩ h

variable (workspace_base_path : String) (realpath : String → String) (uuid : String)

/-- A path of the tenant, which is not one of another tenant. -/
structure Contained (path : String) : Prop where
  plain : ∀ seg ∈ segments path, seg ≠ ['.'] ∧ seg ≠ ['.', '.']
  below : Below (tenant workspace_base_path uuid) path
  resolved : Below (realpath (tenant workspace_base_path uuid)) (realpath path)
  foreign : ∀ url other, extract_uuid_from_instance_url url = some other → other ≠ uuid →
    ¬ Below (tenant workspace_base_path other) path
  foreign_resolved : ∀ other, Below (realpath (tenant workspace_base_path other)) (realpath path) →
    Below (realpath (tenant workspace_base_path uuid))
        (realpath (tenant workspace_base_path other)) ∨
      Below (realpath (tenant workspace_base_path other))
        (realpath (tenant workspace_base_path uuid))

variable {workspace_base_path realpath uuid}

theorem Admitted.contained (habs : startsWith workspace_base_path "/" = true)
    (huuid : extract_uuid_from_instance_url url = some uuid)
    (h : Admitted workspace_base_path realpath container_path uuid) :
    Contained workspace_base_path realpath uuid
      (candidate workspace_base_path container_path uuid) := by
  have habs' : startsWith (tenant workspace_base_path uuid) "/" = true :=
    startsWith_trans (startsWith_trans (startsWith_append _ _) (startsWith_append _ _)) habs
  refine ⟨?_, h.lexical, h.resolved, ?_, fun other hother => h.resolved.comparable hother⟩
  · intro seg hseg
    obtain ⟨hdot, hdots, -⟩ := normpath_plain (path_join_absolute habs') seg hseg
    exact ⟨hdot, hdots⟩
  · intro url' other hother hne hbelow
    exact hne (hbelow.child_inj (extract_uuid_name hother) (extract_uuid_name huuid) h.lexical)

/-- For every container path and every resolution of links. -/
theorem path_mapping (habs : startsWith workspace_base_path "/" = true)
    (huuid : extract_uuid_from_instance_url url = some uuid) :
    (container_path_to_host workspace_base_path realpath container_path uuid ≠ "" ↔
      Admitted workspace_base_path realpath container_path uuid) ∧
    (container_path_to_host workspace_base_path realpath container_path uuid ≠ "" →
      container_path_to_host workspace_base_path realpath container_path uuid =
        candidate workspace_base_path container_path uuid ∧
      Contained workspace_base_path realpath uuid
        (container_path_to_host workspace_base_path realpath container_path uuid)) := by
  have hiff : container_path_to_host workspace_base_path realpath container_path uuid ≠ "" ↔
      Admitted workspace_base_path realpath container_path uuid := by
    constructor
    · intro hne
      by_contra hrej
      exact hne (container_path_to_host_rejected hrej)
    · intro hadm
      rw [container_path_to_host_admitted hadm]
      exact normpath_ne_empty
  refine ⟨hiff, fun hne => ?_⟩
  have hadm := hiff.mp hne
  rw [container_path_to_host_admitted hadm]
  exact ⟨rfl, hadm.contained habs huuid⟩

/-- A path that goes up and comes back. -/
theorem path_mapping_back :
    container_path_to_host "/configs" id "/home/node/.openclaw/a/..//./b"
        "01234567-89ab-cdef-0123-456789abcdef" ≠ "" ∧
      Contained "/configs" id "01234567-89ab-cdef-0123-456789abcdef"
        (container_path_to_host "/configs" id "/home/node/.openclaw/a/..//./b"
          "01234567-89ab-cdef-0123-456789abcdef") := by
  have huuid : extract_uuid_from_instance_url "ws://h/01234567-89ab-cdef-0123-456789abcdef" =
      some "01234567-89ab-cdef-0123-456789abcdef" := by decide
  have hne : container_path_to_host "/configs" id "/home/node/.openclaw/a/..//./b"
      "01234567-89ab-cdef-0123-456789abcdef" ≠ "" := by decide +kernel
  exact ⟨hne, ((path_mapping (by decide) huuid).2 hne).2⟩

end ClawMux
