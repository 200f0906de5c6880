import Mathlib.Data.List.TakeWhile
import ClawMux.Services.FileManager

namespace ClawMux
set_option autoImplicit true
open Lib Lib.Text

/-- The characters that `sanitize_filename` removes as control characters. -/
def Control (c : Char) : Prop := c.toNat < 0x20 ∨ c.toNat = 0x7f

instance : DecidablePred Control := fun _ => inferInstanceAs (Decidable (_ ∨ _))

/-- No slash and no control character. -/
def Clean (name : List Char) : Prop := ∀ c ∈ name, c ≠ '/' ∧ ¬ Control c

instance : DecidablePred Clean := fun name => List.decidableBAll _ name

/-- A name that stays in its directory. -/
structure FileName (name : String) : Prop where
  clean : Clean name.toList
  nonempty : name ≠ ""
  not_dot : name ≠ "."
  not_dots : name ≠ ".."

def Child (dir path : String) : Prop := ∃ name, FileName name ∧ path = dir ++ "/" ++ name

theorem Clean.append : Clean (a ++ b) ↔ Clean a ∧ Clean b := List.forall_mem_append

theorem Clean.no_slash (h : Clean name) : '/' ∉ name := fun hm => (h _ hm).1 rfl

theorem basename_no_slash : '/' ∉ basename path := by
  intro h
  have hne := List.mem_takeWhile_imp (List.mem_reverse.mp h)
  exact absurd rfl (of_decide_eq_true hne)

/-- What is left of a name is the name of a file. -/
theorem sanitize_filename_name (h : sanitize_filename name "" ≠ "") :
    FileName (sanitize_filename name "") := by
  simp only [sanitize_filename] at h ⊢
  split at h
  · exact absurd rfl h
  · rename_i hname
    rw [if_neg hname]
    generalize hbase : basename _ = base at h ⊢
    have hslash : '/' ∉ base := hbase ▸ basename_no_slash
    generalize hfilter : base.filter _ = clean at h ⊢
    have hclean : Clean clean := by
      intro c hc
      rw [← hfilter, List.mem_filter] at hc
      refine ⟨fun he => hslash (he ▸ hc.1), ?_⟩
      simpa [Control] using hc.2
    split at h
    · exact absurd rfl h
    · rename_i hne
      rw [if_neg hne]
      have hfirst := List.head_dropWhile_not (fun c => decide (c = '.') || decide (c = ' ')) hne
      refine ⟨?_, h, ?_, ?_⟩
      · rw [String.toList_ofList]
        exact fun c hc => hclean c ((List.dropWhile_sublist _).mem hc)
      · intro he
        have hlist := congrArg String.toList he
        rw [String.toList_ofList] at hlist
        simp [hlist] at hfirst
      · intro he
        have hlist := congrArg String.toList he
        rw [String.toList_ofList] at hlist
        simp [hlist] at hfirst

/-- The fallback is taken as it is. -/
theorem sanitize_filename_fallback (name fallback : String) :
    sanitize_filename name fallback =
      if sanitize_filename name "" = "" then fallback else sanitize_filename name "" := by
  simp only [sanitize_filename]
  split
  · rfl
  · split
    · rfl
    · rename_i hne
      rw [if_neg fun he => hne (by simpa using congrArg String.toList he)]

theorem splitext_spec (path : String) :
    (splitext path).1 ++ (splitext path).2 = path ∧ '/' ∉ (splitext path).2.toList := by
  rw [splitext]
  split
  · rename_i root hroot
    split
    · generalize hext : path.toList.reverse.takeWhile _ = ext at hroot
      have hsplit : path.toList.reverse = ext ++ '.' :: root := by
        rw [← hroot, ← hext]
        exact List.prefix_iff_eq_append.mp (List.takeWhile_prefix _) |>.symm
      constructor
      · apply String.toList_inj.mp
        rw [String.toList_append, String.toList_ofList, String.toList_ofList,
          ← List.reverse_reverse path.toList, hsplit]
        simp
      · rw [String.toList_ofList]
        intro hm
        rcases List.mem_cons.mp hm with he | hm
        · cases he
        · rw [← hext] at hm
          have hne := List.mem_takeWhile_imp (List.mem_reverse.mp hm)
          simp at hne
    · exact ⟨String.append_empty, List.not_mem_nil⟩
  · exact ⟨String.append_empty, List.not_mem_nil⟩

/-- The name after a collision. -/
def suffixed (filename hex : String) : String :=
  (splitext filename).1 ++ "_" ++ String.ofList (hex.toList.take 6) ++ (splitext filename).2

/-- The last slash of a text stands before every part that has none. -/
theorem last_slash {before after dir name : List Char} (h : before ++ after = dir ++ '/' :: name)
    (hno : '/' ∉ after) : ∃ stem, before = dir ++ '/' :: stem ∧ name = stem ++ after := by
  rcases List.append_eq_append_iff.mp h with ⟨mid, hdir, hafter⟩ | ⟨mid, hbefore, hname⟩
  · refine absurd ?_ hno
    rw [hafter]
    exact List.mem_append_right _ List.mem_cons_self
  · cases mid with
    | nil =>
      refine absurd ?_ hno
      rw [List.nil_append] at hname
      exact hname ▸ List.mem_cons_self
    | cons c stem =>
      obtain ⟨rfl, rfl⟩ := List.cons.inj hname
      exact ⟨stem, hbefore, rfl⟩

theorem join_names {dir filename name : String} :
    path_join dir filename = dir ++ "/" ++ name ↔
      if startsWith filename "/" = true then filename = dir ++ "/" ++ name
      else filename = name := by
  rw [path_join]
  split
  · exact Iff.rfl
  · exact append_right_inj

theorem starts_slash {s : String} : startsWith s "/" = true ↔ s.toList.head? = some '/' := by
  rw [startsWith, List.isPrefixOf_iff_prefix]
  cases s.toList with
  | nil => decide
  | cons c rest => simp [eq_comm]

theorem insert_starts_slash {stem mid ext : String} (hmid : '/' ∉ mid.toList)
    (hext : '/' ∉ ext.toList) :
    startsWith (stem ++ mid ++ ext) "/" = startsWith (stem ++ ext) "/" := by
  apply Bool.eq_iff_iff.mpr
  rw [starts_slash, starts_slash]
  simp only [String.toList_append]
  cases stem.toList with
  | cons c rest => exact Iff.rfl
  | nil =>
    apply iff_of_false
    · intro h
      rcases List.mem_append.mp (List.mem_of_head? h) with hm | hm
      · exact hmid hm
      · exact hext hm
    · exact fun h => hext (List.mem_of_head? h)

/-- A text without a slash, put in front of the extension, leaves the path in its directory. -/
theorem insert_names (dir : String) {stem mid ext : String} (hmid : Clean mid.toList)
    (hext : '/' ∉ ext.toList) :
    (∃ name, Clean name.toList ∧ path_join dir (stem ++ mid ++ ext) = dir ++ "/" ++ name) ↔
      ∃ name, Clean name.toList ∧ path_join dir (stem ++ ext) = dir ++ "/" ++ name := by
  simp only [join_names, insert_starts_slash hmid.no_slash hext]
  by_cases habs : startsWith (stem ++ ext) "/" = true
  · simp only [if_pos habs]
    constructor
    · rintro ⟨name, hname, he⟩
      have hlist : stem.toList ++ (mid ++ ext).toList = dir.toList ++ '/' :: name.toList := by
        simpa using congrArg String.toList he
      have hno : '/' ∉ (mid ++ ext).toList := by
        simpa using ⟨hmid.no_slash, hext⟩
      obtain ⟨t, hstem, hrest⟩ := last_slash hlist hno
      rw [String.toList_append] at hrest
      rw [hrest] at hname
      obtain ⟨ht, hc⟩ := Clean.append.mp hname
      refine ⟨String.ofList t ++ ext, ?_, ?_⟩
      · rw [String.toList_append, String.toList_ofList]
        exact Clean.append.mpr ⟨ht, (Clean.append.mp hc).2⟩
      · apply String.toList_inj.mp
        simp [hstem]
    · rintro ⟨name, hname, he⟩
      have hlist : stem.toList ++ ext.toList = dir.toList ++ '/' :: name.toList := by
        simpa using congrArg String.toList he
      obtain ⟨t, hstem, hrest⟩ := last_slash hlist hext
      rw [hrest] at hname
      obtain ⟨ht, hc⟩ := Clean.append.mp hname
      refine ⟨String.ofList t ++ mid ++ ext, ?_, ?_⟩
      · rw [String.toList_append, String.toList_append, String.toList_ofList]
        exact Clean.append.mpr ⟨Clean.append.mpr ⟨ht, hmid⟩, hc⟩
      · apply String.toList_inj.mp
        simp [hstem]
  · simp only [if_neg habs]
    simp only [exists_eq_right']
    rw [String.toList_append, String.toList_append, String.toList_append, Clean.append,
      Clean.append, Clean.append]
    exact ⟨fun h => ⟨h.1.1, h.2⟩, fun h => ⟨⟨h.1, hmid⟩, h.2⟩⟩

theorem insert_mem {stem mid ext : String} (hmid : '/' ∉ mid.toList) (hext : '/' ∉ ext.toList)
    (h : path_join dir (stem ++ mid ++ ext) = dir ++ "/" ++ name) (hc : c ∈ mid.toList) :
    c ∈ name.toList := by
  rw [join_names] at h
  split at h
  · have hlist : stem.toList ++ (mid ++ ext).toList = dir.toList ++ '/' :: name.toList := by
      simpa using congrArg String.toList h
    have hno : '/' ∉ (mid ++ ext).toList := by
      simpa using ⟨hmid, hext⟩
    obtain ⟨t, -, hrest⟩ := last_slash hlist hno
    rw [hrest, String.toList_append]
    exact List.mem_append_right _ (List.mem_append_left _ hc)
  · rw [← h, String.toList_append, String.toList_append]
    exact List.mem_append_left _ (List.mem_append_right _ hc)

/-- What `uuid4().hex` consists of. -/
def HexText (hex : String) : Prop := ∀ c ∈ hex.toList, is_hex c = true

theorem is_hex_bounds (h : is_hex c = true) : 0x30 ≤ c.toNat ∧ c.toNat < 0x67 := by
  simp only [is_hex, Char.isDigit, Bool.or_eq_true, Bool.and_eq_true, decide_eq_true_eq,
    ge_iff_le, Char.le_def, UInt32.le_iff_toNat_le] at h
  have hn : c.toNat = c.val.toNat := rfl
  simp at h
  omega

theorem HexText.clean (h : HexText hex) :
    Clean ("_" ++ String.ofList (hex.toList.take 6)).toList := by
  rw [String.toList_append]
  apply Clean.append.mpr
  refine ⟨by decide, ?_⟩
  intro c hc
  rw [String.toList_ofList] at hc
  have hbounds := is_hex_bounds (h c (List.mem_of_mem_take hc))
  constructor
  · rintro rfl
    revert hbounds
    decide
  · rw [Control]
    omega

namespace FileManager

/-- A taken name is renamed within the directory that the path lies in. -/
theorem child_suffixed (h : HexText hex) :
    Child dir (path_join dir (suffixed filename hex)) ↔
      ∃ name, Clean name.toList ∧ path_join dir filename = dir ++ "/" ++ name := by
  obtain ⟨happ, hext⟩ := splitext_spec filename
  have hassoc : suffixed filename hex = (splitext filename).1 ++
      ("_" ++ String.ofList (hex.toList.take 6)) ++ (splitext filename).2 := by
    rw [suffixed, String.append_assoc, String.append_assoc, String.append_assoc,
      String.append_assoc]
  have hnames : _ ↔ ∃ name, Clean name.toList ∧
      path_join dir ((splitext filename).1 ++ (splitext filename).2) = dir ++ "/" ++ name :=
    insert_names dir h.clean hext
  rw [happ] at hnames
  rw [hassoc, ← hnames]
  constructor
  · rintro ⟨name, hname, he⟩
    exact ⟨name, hname.clean, he⟩
  · rintro ⟨name, hname, he⟩
    have hmem : '_' ∈ name.toList := insert_mem h.clean.no_slash hext he (by simp)
    refine ⟨name, ⟨hname, ?_, ?_, ?_⟩, he⟩
    · rintro rfl
      cases hmem
    · rintro rfl
      revert hmem
      decide
    · rintro rfl
      revert hmem
      decide

/-- The name that is sanitised. -/
def chosen_name (file_id : String) (fields : List (String × Json)) : String :=
  match Json.get fields "name" .null with
  | .str s => if s = "" then file_id else s
  | _ => file_id

theorem filename_of_ok (h : filename_of file_id fields = .ok filename) :
    filename = sanitize_filename (chosen_name file_id fields) file_id := by
  simp only [filename_of] at h
  split at h
  · rename_i htrue
    split at h
    · rename_i s hs
      rw [hs] at htrue
      cases h
      have hne : s ≠ "" := by simpa [Json.truthy] using htrue
      simp only [chosen_name, hs, if_neg hne]
    · cases h
  · rename_i hfalse
    cases h
    rw [chosen_name]
    split
    · rename_i s hs
      have he : s = "" := by simpa [hs, Json.truthy] using hfalse
      rw [if_pos he]
    · rfl

theorem parse_meta_ok (h : parse_meta file_id max_bytes info = .ok (filename, x)) :
    ∃ fields, info = .obj fields ∧
      filename = sanitize_filename (chosen_name file_id fields) file_id := by
  cases info with
  | obj fields =>
    refine ⟨fields, rfl, ?_⟩
    simp only [parse_meta] at h
    cases hn : filename_of file_id fields with
    | error e =>
      simp only [hn, bind, Except.bind] at h
      cases h
    | ok name =>
      simp only [hn, bind, Except.bind] at h
      split at h
      · cases h
      · split at h
        · cases h
        · cases h
          exact filename_of_ok hn
  | null | bool | num | str | arr => cases h

/-- What comes after the name is chosen. -/
def write_file (settings : FileSettings) (file_id host_dir filename : String) (size_bytes : Int)
    (mime_type : Json) : Fallible (Option DownloadedFile) :=
  (Program.perform (Effect.get_file file_id (path_join host_dir filename))).andThen fun () =>
    (chmod (path_join host_dir filename)).andThen fun () =>
      .done (.ok (some ⟨filename, path_join host_dir filename,
        settings.container_workspace_root ++ "/downloads/" ++ filename, size_bytes, mime_type⟩))

theorem write_file_asks : (write_file settings file_id host_dir filename size_bytes mime_type).Asks
    fun e => (∀ p, e ≠ .get_info p ∧ e ≠ .path_exists p) ∧
      ∀ file_id' host_path, e = .get_file file_id' host_path →
        host_path = path_join host_dir filename := by
  apply Program.Asks.andThen
  · apply Program.asks_perform
    refine ⟨fun p => ⟨?_, ?_⟩, ?_⟩
    · exact fun h => by cases h
    · exact fun h => by cases h
    · rintro _ _ h
      cases h
      rfl
  · rintro ⟨⟩
    apply Program.Asks.andThen
    · apply Program.Asks.bind
      · apply Program.asks_perform
        refine ⟨fun p => ⟨?_, ?_⟩, ?_⟩
        · exact fun h => by cases h
        · exact fun h => by cases h
        · exact fun _ _ h => by cases h
      · intro done
        split
        · trivial
        · split
          · trivial
          · trivial
    · exact fun _ => trivial

theorem write_file_run
    (h : Program.Ends (write_file settings file_id host_dir filename size_bytes mime_type) tr b) :
    (∀ x ∈ tr, ∀ p, x.1 ≠ .get_info p ∧ x.1 ≠ .path_exists p) ∧
      ∀ file_id' host_path (r : Except Exn Unit), ⟨.get_file file_id' host_path, r⟩ ∈ tr →
        host_path = path_join host_dir filename :=
  ⟨fun x hx => (h.asks write_file_asks x hx).1,
    fun file_id' host_path _ hx => (h.asks write_file_asks _ hx).2 file_id' host_path rfl⟩

theorem read_meta_run (h : Program.Ends (read_meta file_id max_bytes) tr x) :
    ∃ info, tr = [⟨.get_info file_id, info⟩] ∧
      x = match info with
        | .ok info => parse_meta file_id max_bytes info
        | .error e => .error e := by
  obtain ⟨info, rest, rfl, hrest⟩ := Program.ends_ask.mp h
  cases info with
  | ok info =>
    have hdone : Program.Ends (.done (parse_meta file_id max_bytes info)) rest x := hrest
    obtain ⟨rfl, rfl⟩ := Program.ends_done.mp hdone
    exact ⟨.ok info, rfl, rfl⟩
  | error e =>
    have hdone : Program.Ends (.done (.error e)) rest x := hrest
    obtain ⟨rfl, rfl⟩ := Program.ends_done.mp hdone
    exact ⟨.error e, rfl, rfl⟩

theorem free_name_run (h : Program.Ends (free_name host_dir filename) tr x) :
    tr = [⟨.path_exists (path_join host_dir filename), false⟩] ∧ x = filename ∨
      ∃ hex : String, tr = [⟨.path_exists (path_join host_dir filename), true⟩,
        ⟨.uuid4_hex, hex⟩] ∧ x = suffixed filename hex := by
  obtain ⟨taken, rest, rfl, hrest⟩ := Program.ends_ask.mp h
  cases taken with
  | false =>
    have hdone : Program.Ends (.done filename) rest x := hrest
    obtain ⟨rfl, rfl⟩ := Program.ends_done.mp hdone
    exact .inl ⟨rfl, rfl⟩
  | true =>
    obtain ⟨hex, rest, rfl, hhex⟩ := Program.ends_ask.mp hrest
    have hdone : Program.Ends (.done (suffixed filename hex)) rest x := hhex
    obtain ⟨rfl, rfl⟩ := Program.ends_done.mp hdone
    exact .inr ⟨hex, rfl, rfl⟩

/-- The exchanges of a run that writes a file, up to the writing. -/
inductive Named (file_id host_dir : String) (fields : List (String × Json)) (filename : String) :
    Bool → String → List (Sigma Effect.Answer) → Prop
  | new : Named file_id host_dir fields filename false (path_join host_dir filename)
      [⟨.get_info file_id, .ok (.obj fields)⟩,
        ⟨.path_exists (path_join host_dir filename), false⟩]
  | renamed (hex : String) : Named file_id host_dir fields filename true
      (path_join host_dir (suffixed filename hex))
      [⟨.get_info file_id, .ok (.obj fields)⟩,
        ⟨.path_exists (path_join host_dir filename), true⟩, ⟨.uuid4_hex, hex⟩]

theorem Named.fields_eq (h : Named file_id host_dir fields filename taken host_path before)
    (hm : ⟨.get_info file_id, .ok (.obj other)⟩ ∈ before) : other = fields := by
  cases h with
  | new => simpa using hm
  | renamed hex => simpa using hm

theorem Named.taken_eq {taken t : Bool}
    (h : Named file_id host_dir fields filename taken host_path before)
    (hm : ⟨.path_exists path, t⟩ ∈ before) : t = taken := by
  cases h with
  | new =>
    rcases List.mem_cons.mp hm with he | hm
    · cases he
    · cases List.mem_singleton.mp hm
      rfl
  | renamed hex =>
    rcases List.mem_cons.mp hm with he | hm
    · cases he
    · rcases List.mem_cons.mp hm with he | hm
      · cases he
        rfl
      · cases List.mem_singleton.mp hm

theorem download_one_run {host_path : String} {r : Except Exn Unit}
    (h : Program.Ends (download_one settings file_id host_dir max_bytes) tr result)
    (hg : ⟨.get_file file_id' host_path, r⟩ ∈ tr) :
    ∃ fields taken before after, Named file_id host_dir fields
        (sanitize_filename (chosen_name file_id fields) file_id) taken host_path before ∧
      tr = before ++ after ∧ ∀ x ∈ after, ∀ p, x.1 ≠ .get_info p ∧ x.1 ≠ .path_exists p := by
  obtain ⟨tr₁, tr₂, x, rfl, h₁, h₂⟩ := Program.ends_bind.mp h
  obtain ⟨info, rfl, hx⟩ := read_meta_run h₁
  have hg₁ := (List.mem_cons.mp hg).resolve_left fun he => by cases he
  cases x with
  | error e =>
    cases h₂
    exact absurd hg₁ List.not_mem_nil
  | ok x =>
    obtain ⟨filename, size_bytes, mime_type⟩ := x
    cases info with
    | error e => cases hx
    | ok info =>
      obtain ⟨fields, rfl, rfl⟩ := parse_meta_ok hx.symm
      simp only at h₂
      split at h₂
      · cases h₂
        exact absurd hg₁ List.not_mem_nil
      · obtain ⟨tr₃, tr₄, filename, rfl, h₃, h₄⟩ := Program.ends_bind.mp h₂
        obtain ⟨hafter, hpath⟩ := write_file_run h₄
        rcases free_name_run h₃ with ⟨rfl, rfl⟩ | ⟨hex, rfl, rfl⟩
        · have hg₂ := (List.mem_cons.mp hg₁).resolve_left fun he => by cases he
          rw [hpath _ _ _ hg₂]
          exact ⟨fields, false, _, tr₄, .new, rfl, hafter⟩
        · have hg₂ := (List.mem_cons.mp hg₁).resolve_left fun he => by cases he
          have hg₃ := (List.mem_cons.mp hg₂).resolve_left fun he => by cases he
          rw [hpath _ _ _ hg₃]
          exact ⟨fields, true, _, tr₄, .renamed hex, rfl, hafter⟩

/-- The name leaves something to write, or the file id names a child by itself: it is free of
slashes and control characters, and it is more than dots unless it is taken. -/
def Harmless (host_dir file_id : String) (fields : List (String × Json)) (taken : Bool) : Prop :=
  sanitize_filename (chosen_name file_id fields) "" ≠ "" ∨
    ∃ name, path_join host_dir file_id = host_dir ++ "/" ++ name ∧ Clean name.toList ∧
      (taken = true ∨ name ≠ "" ∧ name ≠ "." ∧ name ≠ "..")

theorem child_of_name (dir : String) (h : FileName name) : Child dir (path_join dir name) := by
  refine ⟨name, h, join_names.mpr ?_⟩
  rw [if_neg]
  intro hs
  exact h.clean.no_slash (List.mem_of_head? (starts_slash.mp hs))

theorem Named.child {taken : Bool} (h : Named file_id host_dir fields
      (sanitize_filename (chosen_name file_id fields) file_id) taken host_path before)
    (hhex : ∀ hex : String, ⟨.uuid4_hex, hex⟩ ∈ before → HexText hex) :
    Child host_dir host_path ↔ Harmless host_dir file_id fields taken := by
  generalize hname : sanitize_filename (chosen_name file_id fields) file_id = filename at h
  rw [sanitize_filename_fallback] at hname
  rw [Harmless]
  split at hname
  · rename_i hempty
    subst hname
    rw [or_iff_right (fun hne => hne hempty)]
    cases h with
    | new =>
      constructor
      · rintro ⟨name, hname, he⟩
        exact ⟨name, he, hname.clean, .inr ⟨hname.nonempty, hname.not_dot, hname.not_dots⟩⟩
      · rintro ⟨name, he, hclean, hfree | ⟨hne, hdot, hdots⟩⟩
        · cases hfree
        · exact ⟨name, ⟨hclean, hne, hdot, hdots⟩, he⟩
    | renamed hex =>
      rw [child_suffixed (hhex hex (by simp))]
      constructor
      · exact fun ⟨name, hclean, he⟩ => ⟨name, he, hclean, .inl rfl⟩
      · exact fun ⟨name, he, hclean, _⟩ => ⟨name, hclean, he⟩
  · rename_i hne
    subst hname
    refine iff_of_true ?_ (.inl hne)
    have hfile := sanitize_filename_name hne
    cases h with
    | new => exact child_of_name host_dir hfile
    | renamed hex =>
      rw [child_suffixed (hhex hex (by simp))]
      obtain ⟨name, hname, he⟩ := child_of_name host_dir hfile
      exact ⟨name, hname.clean, he⟩

/-- A file is written to the directory exactly when the reply or the file id is harmless. -/
theorem download_in_dir {host_path : String} {r : Except Exn Unit} {taken : Bool}
    (h : Program.Ends (download_one settings file_id host_dir max_bytes) tr result)
    (hhex : ∀ hex : String, ⟨.uuid4_hex, hex⟩ ∈ tr → HexText hex)
    (hinfo : ⟨.get_info file_id, .ok (.obj fields)⟩ ∈ tr)
    (htaken : ⟨.path_exists path, taken⟩ ∈ tr) (hg : ⟨.get_file file_id' host_path, r⟩ ∈ tr) :
    Child host_dir host_path ↔ Harmless host_dir file_id fields taken := by
  obtain ⟨fields', taken', before, after, hnamed, rfl, hafter⟩ := download_one_run h hg
  have hinfo := (List.mem_append.mp hinfo).resolve_right fun hm => (hafter _ hm file_id).1 rfl
  have htaken := (List.mem_append.mp htaken).resolve_right fun hm => (hafter _ hm path).2 rfl
  have hmain := hnamed.child fun hex hm => hhex hex (List.mem_append_left _ hm)
  rw [hnamed.fields_eq hinfo, hnamed.taken_eq htaken]
  exact hmain

/-- A download whose name is taken. -/
def taken_run : List (Sigma Effect.Answer) :=
  [⟨.get_info "7", .ok (.obj [("name", .str "../a.b")])⟩, ⟨.path_exists "/d/a.b", true⟩,
    ⟨.uuid4_hex, "01234567"⟩, ⟨.get_file "7" "/d/a_012345.b", .ok ()⟩,
    ⟨.chmod "/d/a_012345.b", .ok ()⟩]

theorem taken_run_ends : Program.Ends (download_one {} "7" "/d" 1) taken_run
    (.ok (some ⟨"a_012345.b", "/d/a_012345.b",
      "/home/node/.openclaw/workspace/downloads/a_012345.b", 0,
      .str "application/octet-stream"⟩)) := by
  have hp : parse_meta "7" 1 (.obj [("name", .str "../a.b")]) =
      .ok ("a.b", 0, .str "application/octet-stream") := rfl
  apply Program.Ends.ask
  simp only [Program.bind]
  rw [hp]
  apply Program.Ends.ask
  apply Program.Ends.ask
  apply Program.Ends.ask
  apply Program.Ends.ask
  exact .done _

theorem download_in_dir_taken : Child "/d" "/d/a_012345.b" ↔
    Harmless "/d" "7" [("name", .str "../a.b")] true := by
  have hhex : ∀ hex : String, ⟨.uuid4_hex, hex⟩ ∈ taken_run → HexText hex := by
    intro hex hm
    have he : hex = "01234567" := by simpa [taken_run] using hm
    rw [he]
    exact List.all_eq_true.mp (by decide)
  have hinfo : ⟨.get_info "7", .ok (.obj [("name", .str "../a.b")])⟩ ∈ taken_run := .head _
  have htaken : ⟨.path_exists "/d/a.b", true⟩ ∈ taken_run := .tail _ (.head _)
  have hg : ⟨.get_file "7" "/d/a_012345.b", .ok ()⟩ ∈ taken_run :=
    .tail _ (.tail _ (.tail _ (.head _)))
  exact download_in_dir taken_run_ends hhex hinfo htaken hg

/-- A download whose name leaves nothing, of a file whose id leads upwards. -/
def upward_run : List (Sigma Effect.Answer) :=
  [⟨.get_info "../x", .ok (.obj [("name", .str "..")])⟩, ⟨.path_exists "/d/../x", false⟩,
    ⟨.get_file "../x" "/d/../x", .ok ()⟩, ⟨.chmod "/d/../x", .ok ()⟩]

theorem upward_run_ends : Program.Ends (download_one {} "../x" "/d" 1) upward_run
    (.ok (some ⟨"../x", "/d/../x", "/home/node/.openclaw/workspace/downloads/../x", 0,
      .str "application/octet-stream"⟩)) := by
  have hp : parse_meta "../x" 1 (.obj [("name", .str "..")]) =
      .ok ("../x", 0, .str "application/octet-stream") := rfl
  apply Program.Ends.ask
  simp only [Program.bind]
  rw [hp]
  apply Program.Ends.ask
  apply Program.Ends.ask
  apply Program.Ends.ask
  exact .done _

theorem not_download_in_dir : ∃ tr result,
    Program.Ends (download_one {} "../x" "/d" 1) tr result ∧
      ⟨.get_file "../x" "/d/../x", .ok ()⟩ ∈ tr ∧ ¬ Child "/d" "/d/../x" := by
  refine ⟨upward_run, _, upward_run_ends, .tail _ (.tail _ (.head _)), ?_⟩
  rintro ⟨name, hname, he⟩
  have hsplit : "/d/../x" = "/d" ++ "/" ++ "../x" := rfl
  rw [hsplit, append_right_inj] at he
  refine hname.clean.no_slash ?_
  rw [← he]
  decide

end FileManager

end ClawMux
