import Mathlib.Data.List.Forall2
import ClawMux.Lib.Interleave
import ClawMux.Lib.Transition
import ClawMux.Services.FileNames

namespace ClawMux
set_option autoImplicit true
open Lib

namespace FileManager

/-- The files that were fetched and written to their end: their ids and paths. -/
def saved (tr : List (Sigma Effect.Answer)) : List (String × String) :=
  tr.filterMap fun
    | ⟨.get_file file_id host_path, .ok ()⟩ => some (file_id, host_path)
    | _ => none

/-- What makes `download_attachments` raise: anything but an HTTP error, and the `OSError` of
`chmod`. -/
def raises (max_bytes : Int) : Sigma Effect.Answer → Bool
  | ⟨.makedirs _, .error _⟩ => true
  | ⟨.get_info file_id, .ok info⟩ => !(parse_meta file_id max_bytes info).isOk
  | ⟨.get_info _, .error e⟩ => e.kind ≠ .http_error
  | ⟨.get_file _ _, .error e⟩ => e.kind ≠ .http_error
  | ⟨.chmod _, .error e⟩ => e.kind ≠ .os_error
  | _ => false

/-- Nothing raises once a file has been written. -/
def Tidy (max_bytes : Int) : List (String × String) → List (Sigma Effect.Answer) → Prop
  | _, [] => True
  | before, x :: tr =>
    (raises max_bytes x = true → before = []) ∧ Tidy max_bytes (before ++ saved [x]) tr

theorem saved_append (tr tr' : List (Sigma Effect.Answer)) :
    saved (tr ++ tr') = saved tr ++ saved tr' := List.filterMap_append

theorem saved_cons (x : Sigma Effect.Answer) (tr : List (Sigma Effect.Answer)) :
    saved (x :: tr) = saved [x] ++ saved tr := saved_append [x] tr

theorem tidy_append : Tidy max_bytes before (tr ++ tr') ↔
    Tidy max_bytes before tr ∧ Tidy max_bytes (before ++ saved tr) tr' := by
  induction tr generalizing before with
  | nil => simp [Tidy, saved]
  | cons x tr ih => rw [List.cons_append, Tidy, Tidy, ih, saved_cons x tr, ← List.append_assoc,
      and_assoc]

/-- What a tidy run returns: the file that it has written, or nothing. -/
def Returns (before : List (String × String)) (file_id : String) (tr : List (Sigma Effect.Answer))
    (result : Except Exn (Option DownloadedFile)) : Prop :=
  (∃ f, result = .ok (some f) ∧ saved tr = [(file_id, f.host_path)]) ∨
    saved tr = [] ∧ (result = .ok none ∨
      ∃ e, result = .error e ∧ (e.kind = .http_error ∨ before = []))

theorem chmod_run (h : Program.Ends (chmod host_path) tr x) :
    ∃ r : Except Exn Unit, tr = [⟨.chmod host_path, r⟩] ∧
      (x = .ok () ∨ ∃ e, x = .error e ∧ r = .error e ∧ e.kind ≠ .os_error) := by
  obtain ⟨r, rest, rfl, hrest⟩ := Program.ends_ask.mp h
  cases r with
  | ok u =>
    obtain ⟨rfl, rfl⟩ := Program.ends_done.mp hrest
    exact ⟨.ok u, rfl, .inl rfl⟩
  | error e =>
    by_cases hk : e.kind = .os_error
    · change Program.Ends (if e.kind = .os_error then _ else _) rest x at hrest
      rw [if_pos hk] at hrest
      obtain ⟨rfl, rfl⟩ := Program.ends_done.mp hrest
      exact ⟨.error e, rfl, .inl rfl⟩
    · change Program.Ends (if e.kind = .os_error then _ else _) rest x at hrest
      rw [if_neg hk] at hrest
      obtain ⟨rfl, rfl⟩ := Program.ends_done.mp hrest
      exact ⟨.error e, rfl, .inr ⟨e, rfl, rfl, hk⟩⟩

theorem write_file_tidy
    (h : Program.Ends (write_file settings file_id host_dir filename size_bytes mime_type) tr
      result)
    (ht : Tidy max_bytes before tr) : Returns before file_id tr result := by
  obtain ⟨r, rest, rfl, hrest⟩ := Program.ends_ask.mp h
  obtain ⟨hraise, ht⟩ := ht
  cases r with
  | error e =>
    obtain ⟨rfl, rfl⟩ := Program.ends_done.mp hrest
    refine .inr ⟨rfl, .inr ⟨e, rfl, ?_⟩⟩
    by_cases hk : e.kind = .http_error
    · exact .inl hk
    · exact .inr (hraise (decide_eq_true hk))
  | ok u =>
    have hchmod : Program.Ends ((chmod (path_join host_dir filename)).andThen fun () =>
      .done (.ok (some ⟨filename, path_join host_dir filename,
        settings.container_workspace_root ++ "/downloads/" ++ filename, size_bytes,
        mime_type⟩))) rest result := hrest
    obtain ⟨tr₁, tr₂, x, rfl, h₁, h₂⟩ := Program.ends_bind.mp hchmod
    obtain ⟨r, rfl, rfl | ⟨e, rfl, rfl, hk⟩⟩ := chmod_run h₁
    · obtain ⟨rfl, rfl⟩ := Program.ends_done.mp h₂
      exact .inl ⟨_, rfl, rfl⟩
    · have hempty := ht.1 (decide_eq_true hk)
      exact absurd hempty (List.append_ne_nil_of_right_ne_nil _ (List.cons_ne_nil _ _))

theorem download_one_tidy
    (h : Program.Ends (download_one settings file_id host_dir max_bytes) tr result)
    (ht : Tidy max_bytes before tr) : Returns before file_id tr result := by
  obtain ⟨tr₁, tr₂, x, rfl, h₁, h₂⟩ := Program.ends_bind.mp h
  obtain ⟨info, rfl, hx⟩ := read_meta_run h₁
  obtain ⟨hraise, ht⟩ := ht
  have hnone : saved [(⟨.get_info file_id, info⟩ : Sigma Effect.Answer)] = [] := rfl
  cases x with
  | error e =>
    obtain ⟨rfl, rfl⟩ := Program.ends_done.mp h₂
    refine .inr ⟨hnone, .inr ⟨e, rfl, ?_⟩⟩
    cases info with
    | error e' =>
      cases hx
      by_cases hk : e.kind = .http_error
      · exact .inl hk
      · exact .inr (hraise (decide_eq_true hk))
    | ok info =>
      have hparse : parse_meta file_id max_bytes info = .error e := hx.symm
      refine .inr (hraise ?_)
      change (!(parse_meta file_id max_bytes info).isOk) = true
      rw [hparse]
      rfl
  | ok x =>
    obtain ⟨filename, size_bytes, mime_type⟩ := x
    simp only at h₂
    split at h₂
    · obtain ⟨rfl, rfl⟩ := Program.ends_done.mp h₂
      exact .inr ⟨hnone, .inl rfl⟩
    · obtain ⟨tr₃, tr₄, filename', rfl, h₃, h₄⟩ := Program.ends_bind.mp h₂
      have hfree : saved tr₃ = [] := by
        rcases free_name_run h₃ with ⟨rfl, _⟩ | ⟨hex, rfl, _⟩ <;> rfl
      have ht : Tidy max_bytes (before ++ saved [⟨.get_info file_id, info⟩]) (tr₃ ++ tr₄) := ht
      have ht₄ := (tidy_append.mp ht).2
      rw [hnone, hfree, List.append_nil, List.append_nil] at ht₄
      have hfile := write_file_tidy h₄ ht₄
      rw [Returns, List.singleton_append, saved_cons, hnone, saved_append, hfree]
      exact hfile

/-- The files returned are those saved, for some of the ids in their order. -/
def Matches (file_ids : List String) (tr : List (Sigma Effect.Answer))
    (files : List DownloadedFile) : Prop :=
  List.Sublist ((saved tr).map Prod.fst) file_ids ∧
    (saved tr).map Prod.snd = files.map DownloadedFile.host_path

theorem download_all_tidy
    (h : Program.Ends (download_all settings host_dir max_bytes file_ids) tr result)
    (ht : Tidy max_bytes before tr) : (∃ files, result = .ok files ∧ Matches file_ids tr files) ∨
      ∃ e, result = .error e ∧ before ++ saved tr = [] := by
  induction file_ids generalizing before tr result with
  | nil =>
    obtain ⟨rfl, rfl⟩ := Program.ends_done.mp h
    exact .inl ⟨[], rfl, List.Sublist.refl [], rfl⟩
  | cons file_id file_ids ih =>
    obtain ⟨tr₁, tr₂, x, rfl, h₁, h₂⟩ := Program.ends_bind.mp h
    obtain ⟨ht₁, ht₂⟩ := tidy_append.mp ht
    rcases download_one_tidy h₁ ht₁ with ⟨f, rfl, hsaved⟩ | ⟨hsaved, rfl | ⟨e, rfl, he⟩⟩
    · obtain ⟨tr₃, tr₄, y, rfl, h₃, h₄⟩ := Program.ends_bind.mp h₂
      obtain ⟨ht₃, ht₄⟩ := tidy_append.mp ht₂
      rcases ih h₃ ht₃ with ⟨files, rfl, hids, hpaths⟩ | ⟨e, rfl, hnone⟩
      · obtain ⟨rfl, rfl⟩ := Program.ends_done.mp h₄
        refine .inl ⟨f :: files, rfl, ?_, ?_⟩
        · rw [List.append_nil, saved_append, hsaved]
          exact hids.cons_cons file_id
        · rw [List.append_nil, saved_append, hsaved, List.singleton_append, List.map_cons, hpaths,
            List.map_cons]
      · rw [hsaved] at hnone
        simp at hnone
    · obtain ⟨tr₃, tr₄, y, rfl, h₃, h₄⟩ := Program.ends_bind.mp h₂
      obtain ⟨ht₃, ht₄⟩ := tidy_append.mp ht₂
      rw [hsaved, List.append_nil] at ht₃
      rcases ih h₃ ht₃ with ⟨files, rfl, hids, hpaths⟩ | ⟨e, rfl, hnone⟩
      · obtain ⟨rfl, rfl⟩ := Program.ends_done.mp h₄
        refine .inl ⟨files, rfl, ?_, ?_⟩
        · rw [List.append_nil, saved_append, hsaved]
          exact hids.cons file_id
        · rw [List.append_nil, saved_append, hsaved, List.nil_append, hpaths]
      · obtain ⟨rfl, rfl⟩ := Program.ends_done.mp h₄
        refine .inr ⟨e, rfl, ?_⟩
        rw [List.append_nil, saved_append, hsaved, List.nil_append]
        exact hnone
    · rw [hsaved, List.append_nil] at ht₂
      simp only at h₂
      split at h₂
      · rcases ih h₂ ht₂ with ⟨files, rfl, hids, hpaths⟩ | ⟨e', rfl, hnone⟩
        · refine .inl ⟨files, rfl, ?_, ?_⟩
          · rw [saved_append, hsaved]
            exact hids.cons file_id
          · rw [saved_append, hsaved, List.nil_append, hpaths]
        · refine .inr ⟨e', rfl, ?_⟩
          rw [saved_append, hsaved, List.nil_append]
          exact hnone
      · next hk =>
        obtain ⟨rfl, rfl⟩ := Program.ends_done.mp h₂
        refine .inr ⟨e, rfl, ?_⟩
        rw [List.append_nil, hsaved, List.append_nil]
        exact he.resolve_left hk

theorem download_attachments_tidy
    (h : Program.Ends (download_attachments settings file_ids uuid) tr result)
    (ht : Tidy settings.max_bytes [] tr) :
    (∃ files, result = .ok files ∧ Matches file_ids tr files) ∨
      ∃ e, result = .error e ∧ saved tr = [] := by
  rw [download_attachments] at h
  split at h
  · obtain ⟨rfl, rfl⟩ := Program.ends_done.mp h
    exact .inl ⟨[], rfl, List.nil_sublist _, rfl⟩
  · obtain ⟨r, rest, rfl, hrest⟩ := Program.ends_ask.mp h
    cases r with
    | error e =>
      obtain ⟨rfl, rfl⟩ := Program.ends_done.mp hrest
      exact .inr ⟨e, rfl, rfl⟩
    | ok u => exact download_all_tidy hrest ht.2

end FileManager

end ClawMux
