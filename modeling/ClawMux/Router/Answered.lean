import ClawMux.Lib.Except
import ClawMux.Router.HandleEvent

namespace ClawMux
set_option autoImplicit true
open Lib Lib.Text

/-- One exchange of a handler with the world. -/
abbrev Entry := Sigma Effect.Answer

namespace Entry

def looked_up (provider user_id : String) (r : Except Exn InstanceInfo) : Entry :=
  ⟨.get_instance_by_identity provider user_id, r⟩

def posted (channel_id text root_id : String) (r : Except Exn String) : Entry :=
  ⟨.send_reply channel_id text root_id, r⟩

def edited (post_id text channel_id : String) (r : Except Exn Unit) : Entry :=
  ⟨.update_reply post_id text channel_id, r⟩

def attached (channel_id text : String) (files : List String) (root_id : String)
    (r : Except Exn String) : Entry :=
  ⟨.send_post_with_files channel_id text files root_id, r⟩

def sent (user_id : String) (info : InstanceInfo) (message session_key : String)
    (r : Except Exn (String × List String)) : Entry :=
  ⟨.send_message user_id info message session_key, r⟩

def chatted (user_id message : String) (r : Except Exn String) : Entry :=
  ⟨.dify_chat user_id message, r⟩

end Entry

open Entry

/-! What the user is told -/

def ErrorText (text : String) : Prop :=
  text = error_text ∨ text = unassigned_text ∨ text = dify_empty_text ∨
    ∃ e, text = failed_intro ++ e

/-- The text is an answer of the instance or of Dify. -/
def IsAnswer (tr : List Entry) (text : String) : Prop :=
  text ≠ "" ∧
    ((∃ u info m k media, sent u info m k (.ok (text, media)) ∈ tr) ∨
      ∃ u m, chatted u m (.ok text) ∈ tr)

def Told (tr : List Entry) (text : String) : Prop := IsAnswer tr text ∨ ErrorText text

/-- The text stands in the channel: as a post, as an edit of a post, or with files. -/
def Shown (tr : List Entry) (channel_id text : String) : Prop :=
  (∃ root_id id, posted channel_id text root_id (.ok id) ∈ tr) ∨
    (∃ post_id ch phrase root_id, posted channel_id phrase root_id (.ok post_id) ∈ tr ∧
      edited post_id text ch (.ok ()) ∈ tr) ∨
    ∃ files root_id id, attached channel_id text files root_id (.ok id) ∈ tr

def Terminal (event : IncomingEvent) (tr : List Entry) : Prop :=
  ∃ text, Told tr text ∧ Shown tr event.channel_id text

/-- The adapter posts the texts that end an exchange, and its edits go through. Placeholders and
posts with files may fail. -/
structure Working (tr : List Entry) : Prop where
  posts : ∀ channel_id text root_id r, posted channel_id text root_id r ∈ tr → Told tr text →
    ∃ id, r = .ok id
  edits : ∀ post_id text channel_id r, edited post_id text channel_id r ∈ tr → r = .ok ()

def Effect.IsFile : Effect → Prop
  | .makedirs _ | .get_info _ | .path_exists _ | .uuid4_hex | .get_file .. | .chmod _ => True
  | _ => False

/-- The exceptions of a download that `handle_event` does not expect. -/
def Exn.Escapes (e : Exn) : Prop := e.kind ≠ .os_error ∧ e.kind ≠ .http_error

/-- A failure of an attachment that is neither a disk nor an HTTP error. -/
def Unexpected (max_bytes : Int) : Entry → Prop
  | ⟨.get_info _, .error e⟩ => e.Escapes
  | ⟨.get_info file_id, .ok info⟩ => ∃ e, FileManager.parse_meta file_id max_bytes info = .error e
  | ⟨.makedirs _, .error e⟩ | ⟨.get_file .., .error e⟩ | ⟨.chmod _, .error e⟩ => e.Escapes
  | _ => False

/-- Every failure is answered. -/
structure Answered (event : IncomingEvent) (tr : List Entry) (res : Except Exn Unit) : Prop where
  no_raise : res = .ok ()
  routed : (∃ x ∈ tr, x.1.IsFile) → ∃ u info m k r, sent u info m k r ∈ tr ∧
    (strip event.text = "" ∨ startsWith m event.text = true)
  terminal : Terminal event tr

/-- The lookup fails in no other way than that the user has no instance, the attachments fail with
disk and HTTP errors only, and the instance does not answer with the empty text. -/
structure Foreseen (max_bytes : Int) (tr : List Entry) : Prop where
  lookup : ∀ p u e, looked_up p u (.error e) ∈ tr → e.kind = .instance_not_found
  attachments : ∀ x ∈ tr, ¬ Unexpected max_bytes x
  answer : ∀ u info m k response media, sent u info m k (.ok (response, media)) ∈ tr →
    response ≠ ""

theorem Told.mono (h : Told tr text) (hsub : tr ⊆ tr') : Told tr' text := by
  rcases h with ⟨hne, ⟨u, info, m, k, media, hm⟩ | ⟨u, m, hm⟩⟩ | h
  · exact .inl ⟨hne, .inl ⟨u, info, m, k, media, hsub hm⟩⟩
  · exact .inl ⟨hne, .inr ⟨u, m, hsub hm⟩⟩
  · exact .inr h

theorem Shown.mono (h : Shown tr channel_id text) (hsub : tr ⊆ tr') :
    Shown tr' channel_id text := by
  rcases h with ⟨root_id, id, hm⟩ | ⟨post_id, ch, phrase, root_id, hp, hm⟩
    | ⟨files, root_id, id, hm⟩
  · exact .inl ⟨root_id, id, hsub hm⟩
  · exact .inr (.inl ⟨post_id, ch, phrase, root_id, hsub hp, hsub hm⟩)
  · exact .inr (.inr ⟨files, root_id, id, hsub hm⟩)

theorem Terminal.mono (h : Terminal event tr) (hsub : tr ⊆ tr') : Terminal event tr' := by
  obtain ⟨text, ht, hs⟩ := h
  exact ⟨text, ht.mono hsub, hs.mono hsub⟩

theorem Working.mono (h : Working tr') (hsub : tr ⊆ tr') : Working tr where
  posts ch text root r hm ht := h.posts ch text root r (hsub hm) (ht.mono hsub)
  edits p text ch r hm := h.edits p text ch r (hsub hm)

theorem error_text_told : Told tr error_text := .inr (.inl rfl)

/-! The attachments -/

def EscapesResult (res : Except Exn α) : Prop := ∃ e, res = .error e ∧ e.Escapes

/-- A call fails unexpectedly just when one of its exchanges does. -/
def Tame (max_bytes : Int) (p : Fallible α) : Prop :=
  ∀ tr res, Program.Ends p tr res → (EscapesResult res ↔ ∃ x ∈ tr, Unexpected max_bytes x)

theorem tame_done (res : Except Exn α) (h : ¬ EscapesResult res) : Tame max_bytes (.done res) := by
  intro tr res' hr
  cases hr
  constructor
  · exact fun he => absurd he h
  · rintro ⟨x, hx, -⟩
    cases hx

theorem not_escapes_ok {a : α} : ¬ EscapesResult (.ok a) := by
  rintro ⟨e, he, -⟩
  cases he

theorem escapesResult_error {e : Exn} : EscapesResult (.error e : Except Exn α) ↔ e.Escapes := by
  constructor
  · rintro ⟨e', he, hesc⟩
    cases he
    exact hesc
  · exact fun hesc => ⟨e, rfl, hesc⟩

/-- A call that handles the expected exceptions of another one. -/
theorem Tame.handle {p : Fallible α} {f : Except Exn α → Fallible β} (hp : Tame max_bytes p)
    (hok : ∀ a, Tame max_bytes (f (.ok a)))
    (hexpected : ∀ e : Exn, ¬ e.Escapes → Tame max_bytes (f (.error e)))
    (hraise : ∀ e : Exn, e.Escapes → f (.error e) = .done (.error e)) :
    Tame max_bytes (p.bind f) := by
  intro tr res h
  obtain ⟨tr₁, tr₂, x, rfl, h₁, h₂⟩ := Program.ends_bind.mp h
  have hx := hp tr₁ x h₁
  have hrest : ¬ EscapesResult x → Tame max_bytes (f x) →
      (EscapesResult res ↔ ∃ y ∈ tr₁ ++ tr₂, Unexpected max_bytes y) := by
    intro hno ht
    rw [ht tr₂ res h₂]
    constructor
    · rintro ⟨y, hy, hu⟩
      exact ⟨y, List.mem_append_right _ hy, hu⟩
    · rintro ⟨y, hy, hu⟩
      rcases List.mem_append.mp hy with hy | hy
      · exact absurd (hx.mpr ⟨y, hy, hu⟩) hno
      · exact ⟨y, hy, hu⟩
  cases x with
  | ok a => exact hrest not_escapes_ok (hok a)
  | error e =>
    by_cases hesc : e.Escapes
    · rw [hraise e hesc] at h₂
      cases h₂
      rw [List.append_nil, ← hx, escapesResult_error, escapesResult_error]
    · exact hrest (fun h => hesc (escapesResult_error.mp h)) (hexpected e hesc)

theorem Tame.andThen {p : Fallible α} {f : α → Fallible β} (hp : Tame max_bytes p)
    (hf : ∀ a, Tame max_bytes (f a)) :
    Tame max_bytes (p.andThen f) := by
  apply hp.handle hf
  · intro e he
    exact tame_done _ fun h => he (escapesResult_error.mp h)
  · exact fun e _ => rfl

/-- Requests that cannot fail unexpectedly come first. -/
theorem Tame.after {p : Task α} {f : α → Fallible β}
    (hp : p.Asks fun e => ∀ r, ¬ Unexpected max_bytes ⟨e, r⟩)
    (hf : ∀ a, Tame max_bytes (f a)) : Tame max_bytes (p.bind f) := by
  intro tr res h
  obtain ⟨tr₁, tr₂, a, rfl, h₁, h₂⟩ := Program.ends_bind.mp h
  rw [hf a tr₂ res h₂]
  constructor
  · rintro ⟨x, hx, hu⟩
    exact ⟨x, List.mem_append_right _ hx, hu⟩
  · rintro ⟨x, hx, hu⟩
    rcases List.mem_append.mp hx with hx | hx
    · exact absurd hu (h₁.asks hp x hx x.2)
    · exact ⟨x, hx, hu⟩

namespace FileManager

theorem filename_of_error (h : filename_of file_id fields = .error e) : e.kind = .other := by
  simp only [filename_of] at h
  split at h
  · split at h
    · cases h
    · cases h
      rfl
  · cases h

theorem size_of_error (h : size_of fields = .error e) : e.kind = .other := by
  simp only [size_of] at h
  split at h
  · cases h
  · split at h
    · cases h
      rfl
    · cases h
      rfl

theorem log_size_error (h : log_size max_bytes size_bytes = .error e) : e.kind = .other := by
  rw [log_size] at h
  split at h
  · cases h
    rfl
  · cases h

theorem parse_meta_error (h : parse_meta file_id max_bytes info = .error e) : e.Escapes := by
  have hother : e.kind = .other := by
    cases info with
    | obj fields =>
      rcases bind_error h with hname | ⟨filename, -, h⟩
      · exact filename_of_error hname
      · rcases bind_error h with hsize | ⟨size_bytes, -, h⟩
        · exact size_of_error hsize
        · rcases bind_error h with hlog | ⟨-, -, h⟩
          · exact log_size_error hlog
          · cases h
    | null | bool | num | str | arr =>
      cases h
      rfl
  refine ⟨?_, ?_⟩ <;> simp [hother]

theorem tame_read_meta (file_id : String) : Tame max_bytes (read_meta file_id max_bytes) := by
  intro tr res h
  obtain ⟨tr₁, tr₂, x, rfl, h₁, h₂⟩ := Program.ends_bind.mp h
  rw [Program.ends_perform.mp h₁]
  cases x with
  | error e =>
    cases h₂
    rw [escapesResult_error]
    constructor
    · exact fun he => ⟨_, List.mem_singleton_self _, he⟩
    · rintro ⟨x, hx, hu⟩
      rw [List.mem_singleton.mp hx] at hu
      exact hu
  | ok info =>
    cases h₂
    constructor
    · rintro ⟨e, he, -⟩
      exact ⟨_, List.mem_singleton_self _, e, he⟩
    · rintro ⟨x, hx, hu⟩
      rw [List.append_nil] at hx
      rw [List.mem_singleton.mp hx] at hu
      obtain ⟨e, he⟩ := hu
      exact ⟨e, he, parse_meta_error he⟩

theorem tame_get_file (file_id path : String) :
    Tame max_bytes (Program.perform (Effect.get_file file_id path)) := by
  intro tr res h
  rw [Program.ends_perform.mp h]
  cases res with
  | ok u => simp [EscapesResult, Unexpected]
  | error e => simp [escapesResult_error, Unexpected]

theorem tame_makedirs (dir : String) : Tame max_bytes (Program.perform (Effect.makedirs dir)) := by
  intro tr res h
  rw [Program.ends_perform.mp h]
  cases res with
  | ok u => simp [EscapesResult, Unexpected]
  | error e => simp [escapesResult_error, Unexpected]

theorem tame_chmod (path : String) : Tame max_bytes (chmod path) := by
  intro tr res h
  obtain ⟨tr₁, tr₂, x, rfl, h₁, h₂⟩ := Program.ends_bind.mp h
  rw [Program.ends_perform.mp h₁]
  cases x with
  | ok u =>
    cases h₂
    simp [EscapesResult, Unexpected]
  | error e =>
    simp only at h₂
    split at h₂
    · rename_i hos
      cases h₂
      simp [EscapesResult, Unexpected, Exn.Escapes, hos]
    · cases h₂
      simp [escapesResult_error, Unexpected]

theorem asks_free_name (dir name : String) :
    (free_name dir name).Asks fun e => ∀ r, ¬ Unexpected max_bytes ⟨e, r⟩ := by
  refine ⟨fun r => id, fun taken => ?_⟩
  cases taken with
  | false => trivial
  | true => exact ⟨fun r => id, fun hex => trivial⟩

theorem tame_download_one (settings : FileSettings) (file_id dir : String) (max_bytes : Int) :
    Tame max_bytes (download_one settings file_id dir max_bytes) := by
  apply (tame_read_meta file_id).andThen
  intro info
  simp only
  split
  · exact tame_done _ not_escapes_ok
  · apply Tame.after (asks_free_name dir _)
    intro name
    apply (tame_get_file file_id _).andThen
    intro u
    apply (tame_chmod _).andThen
    intro u
    exact tame_done _ not_escapes_ok

theorem tame_download_all (settings : FileSettings) (dir : String) (max_bytes : Int)
    (file_ids : List String) : Tame max_bytes (download_all settings dir max_bytes file_ids) := by
  induction file_ids with
  | nil => exact tame_done _ not_escapes_ok
  | cons file_id file_ids ih =>
    apply (tame_download_one settings file_id dir max_bytes).handle
    · intro found
      apply ih.andThen
      intro results
      exact tame_done _ not_escapes_ok
    · intro e he
      simp only
      split
      · exact ih
      · exact tame_done _ fun h => he (escapesResult_error.mp h)
    · intro e he
      exact if_neg he.2

theorem tame_download_attachments (settings : FileSettings) (file_ids : List String)
    (uuid : String) : Tame settings.max_bytes (download_attachments settings file_ids uuid) := by
  rw [download_attachments]
  split
  · exact tame_done _ not_escapes_ok
  · apply (tame_makedirs _).andThen
    intro u
    exact tame_download_all _ _ _ _

theorem download_all_files (settings : FileSettings) (dir : String) (max_bytes : Int)
    (file_ids : List String) :
    (download_all settings dir max_bytes file_ids).Asks Effect.IsFile := by
  have hone : ∀ file_id, (download_one settings file_id dir max_bytes).Asks Effect.IsFile := by
    intro file_id
    have hmeta : (read_meta file_id max_bytes).Asks Effect.IsFile :=
      Program.Asks.andThen (Program.asks_perform trivial) fun info => trivial
    apply hmeta.andThen
    intro info
    simp only
    split
    · trivial
    · apply Program.Asks.bind
      · refine ⟨trivial, fun taken => ?_⟩
        cases taken with
        | false => trivial
        | true => exact ⟨trivial, fun hex => trivial⟩
      · intro name
        apply Program.Asks.andThen (Program.asks_perform trivial)
        intro u
        apply Program.Asks.andThen
        · refine ⟨trivial, fun r => ?_⟩
          cases r with
          | ok u => trivial
          | error e =>
            simp only [Program.bind]
            split <;> trivial
        · exact fun u => trivial
  induction file_ids with
  | nil => trivial
  | cons file_id file_ids ih =>
    apply (hone file_id).bind
    intro downloaded
    cases downloaded with
    | ok found => exact ih.andThen fun results => trivial
    | error e =>
      simp only
      split
      · exact ih
      · trivial

end FileManager

namespace Router

variable {s : RouterSettings} {py : Dynamics} {event : IncomingEvent} {phrase : String}
  {info : InstanceInfo}

theorem tame_attachments : Tame s.max_bytes (attachments s py event info) := by
  rw [attachments]
  split
  · exact tame_done _ not_escapes_ok
  · split
    · exact tame_done _ not_escapes_ok
    · apply (FileManager.tame_download_attachments _ _ _).handle
      · exact fun files => tame_done _ not_escapes_ok
      · intro e he
        have hexpected : e.kind = .os_error ∨ e.kind = .http_error := by
          by_contra hn
          exact he (not_or.mp hn)
        simp only [if_pos hexpected]
        exact tame_done _ not_escapes_ok
      · intro e he
        exact if_neg (not_or.mpr he)

theorem attachments_files : (attachments s py event info).Asks Effect.IsFile := by
  rw [attachments]
  split
  · trivial
  · split
    · trivial
    · apply Program.Asks.bind
      · rw [FileManager.download_attachments]
        split
        · trivial
        · apply Program.Asks.andThen (Program.asks_perform trivial)
          exact fun u => FileManager.download_all_files _ _ _ _
      · intro downloaded
        cases downloaded with
        | ok files => trivial
        | error e =>
          simp only
          split <;> trivial

/-- The message of the user is still in the text with the attachments. -/
theorem with_attachments_text (text : String) (files : List DownloadedFile) :
    strip text = "" ∨ startsWith (with_attachments py text files) text = true := by
  have hself : startsWith text text = true := by
    simp [startsWith]
  rw [with_attachments]
  split
  · exact .inr hself
  · split
    · rename_i hs
      exact .inl hs
    · exact .inr (startsWith_append text _)

theorem attachments_error (h : Program.Ends (attachments s py event info) tr (.error e)) :
    e.Escapes := by
  rw [attachments] at h
  split at h
  · cases h
  · split at h
    · cases h
    · obtain ⟨tr₁, tr₂, downloaded, rfl, h₁, h₂⟩ := Program.ends_bind.mp h
      cases downloaded with
      | ok files => cases h₂
      | error e' =>
        simp only at h₂
        split at h₂
        · cases h₂
        · rename_i hne
          cases h₂
          exact not_or.mp hne

theorem attachments_text (h : Program.Ends (attachments s py event info) tr (.ok text)) :
    strip event.text = "" ∨ startsWith text event.text = true := by
  have hself : startsWith event.text event.text = true := by
    simp [startsWith]
  rw [attachments] at h
  split at h
  · cases h
    exact .inr hself
  · split at h
    · cases h
      exact .inr hself
    · obtain ⟨tr₁, tr₂, downloaded, rfl, h₁, h₂⟩ := Program.ends_bind.mp h
      cases downloaded with
      | ok files =>
        cases h₂
        exact with_attachments_text event.text files
      | error e =>
        simp only at h₂
        split at h₂
        · cases h₂
          exact .inr hself
        · cases h₂

/-! Before the message is routed -/

/-- An exchange before the instance is known: no file, no message to an instance, and no lookup
that fails unexpectedly. -/
def Early : Entry → Prop
  | ⟨.get_instance_by_identity .., .error e⟩ => e.kind = .instance_not_found
  | ⟨.send_message .., _⟩ => False
  | x => ¬ x.1.IsFile

/-- An exchange of a successful resolution: what is posted is about the workspace only. -/
def Preliminary : Entry → Prop
  | ⟨.get_instance_by_identity .., .error e⟩ => e.kind = .instance_not_found
  | ⟨.send_reply _ text _, _⟩ => text = initializing_text
  | ⟨.update_reply _ text _, _⟩ => text = ready_text
  | ⟨.send_message .., _⟩ | ⟨.dify_chat .., _⟩ | ⟨.send_post_with_files .., _⟩ => False
  | x => ¬ x.1.IsFile

theorem Preliminary.early (h : Preliminary x) : Early x := by
  obtain ⟨e, r⟩ := x
  cases e with
  | get_instance_by_identity p u =>
    cases r with
    | ok i => exact fun hf => hf
    | error e => exact h
  | send_message u i m k => exact h
  | dify_chat u m => exact h.elim
  | send_post_with_files c m f r => exact h.elim
  | send_reply c m r => exact fun hf => hf
  | update_reply p m c => exact fun hf => hf
  | _ => exact h

theorem placeholder_ends (h : Program.Ends (placeholder event phrase) tr post_id) :
    ∃ r, tr = [posted event.channel_id phrase event.root_id r] ∧
      (post_id = "" ∨ r = .ok post_id) := by
  obtain ⟨tr₁, tr₂, r, rfl, h₁, h₂⟩ := Program.ends_bind.mp h
  rw [Program.ends_perform.mp h₁]
  cases h₂
  refine ⟨r, List.append_nil _, ?_⟩
  cases r with
  | ok id => exact .inr rfl
  | error e => exact .inl rfl

/-- There is no placeholder, or it stands in the channel of the event. -/
def Placed (event : IncomingEvent) (tr : List Entry) (post_id : String) : Prop :=
  post_id = "" ∨
    ∃ phrase, posted event.channel_id phrase event.root_id (.ok post_id) ∈ tr

theorem placeholder_placed (h : Program.Ends (placeholder event phrase) tr post_id)
    (hsub : tr ⊆ all) : Placed event all post_id := by
  obtain ⟨r, rfl, hid⟩ := placeholder_ends h
  refine hid.imp_right fun hr => ⟨phrase, hsub ?_⟩
  rw [hr]
  exact List.mem_singleton_self _

theorem edit_or_send_shown {post_id : String}
    (h : Program.Ends (edit_or_send event post_id text) tr res) (hsub : tr ⊆ all)
    (hw : Working all) (ht : Told all text) (hp : Placed event all post_id) :
    res = .ok () ∧ Shown all event.channel_id text := by
  rw [edit_or_send] at h
  split at h
  · rename_i hne
    have htr := Program.ends_perform.mp h
    have hmem : edited post_id text event.channel_id res ∈ all := by
      apply hsub
      rw [htr]
      exact List.mem_singleton_self _
    have hok := hw.edits _ _ _ _ hmem
    subst hok
    obtain ⟨phrase, hpost⟩ := hp.resolve_left hne
    exact ⟨rfl, .inr (.inl ⟨_, _, _, _, hpost, hmem⟩)⟩
  · obtain ⟨tr₁, tr₂, r, rfl, h₁, h₂⟩ := Program.ends_bind.mp h
    have htr := Program.ends_perform.mp h₁
    have hmem : posted event.channel_id text event.root_id r ∈ all := by
      apply hsub
      rw [htr]
      exact List.mem_append_left _ (List.mem_singleton_self _)
    obtain ⟨id, rfl⟩ := hw.posts _ _ _ _ hmem ht
    cases h₂
    exact ⟨rfl, .inl ⟨_, _, hmem⟩⟩

theorem fallback_told {u : Unit} (h : Program.Ends (handle_dify_fallback event phrase) tr u)
    (hw : Working tr) : Terminal event tr := by
  obtain ⟨tr₁, rest, post_id, rfl, h₁, h⟩ := Program.ends_bind.mp h
  obtain ⟨tr₂, tr₃, delivered, rfl, h₂, h₃⟩ := Program.ends_bind.mp h
  have hp := placeholder_placed h₁ (List.subset_append_left tr₁ (tr₂ ++ tr₃))
  obtain ⟨tr₄, tr₅, answer, rfl, h₄, h₅⟩ := Program.ends_bind.mp h₂
  have htr := Program.ends_perform.mp h₄
  cases answer with
  | error e =>
    cases h₅
    obtain ⟨tr₆, tr₇, r, rfl, h₆, -⟩ := Program.ends_bind.mp h₃
    have hsub : tr₆ ⊆ tr₁ ++ (tr₄ ++ [] ++ (tr₆ ++ tr₇)) := fun x hx => by simp [hx]
    obtain ⟨-, hs⟩ := edit_or_send_shown h₆ hsub hw error_text_told hp
    exact ⟨error_text, error_text_told, hs⟩
  | ok response =>
    have ht : Told (tr₁ ++ (tr₄ ++ tr₅ ++ tr₃))
        (if response ≠ "" then response else dify_empty_text) := by
      split
      · rename_i hne
        refine .inl ⟨hne, .inr ⟨event.user_id, event.text, ?_⟩⟩
        rw [htr]
        simp [chatted]
      · exact .inr (.inr (.inr (.inl rfl)))
    have hsub : tr₅ ⊆ tr₁ ++ (tr₄ ++ tr₅ ++ tr₃) := fun x hx => by simp [hx]
    obtain ⟨-, hs⟩ := edit_or_send_shown h₅ hsub hw ht hp
    exact ⟨_, ht, hs⟩

/-- A final post to the channel of the event. -/
theorem post_told (h : Program.Ends ((Program.perform (Effect.send_reply event.channel_id text
      event.root_id)).andThen fun _ : String => .done (.ok a)) tr res)
    (hsub : tr ⊆ all) (hw : Working all) (ht : Told all text) :
    res = .ok a ∧ Terminal event all := by
  obtain ⟨tr₁, tr₂, r, rfl, h₁, h₂⟩ := Program.ends_bind.mp h
  have htr := Program.ends_perform.mp h₁
  have hmem : posted event.channel_id text event.root_id r ∈ all := by
    apply hsub
    rw [htr]
    exact List.mem_append_left _ (List.mem_singleton_self _)
  obtain ⟨id, rfl⟩ := hw.posts _ _ _ _ hmem ht
  cases h₂
  exact ⟨rfl, text, ht, .inl ⟨_, _, hmem⟩⟩

theorem initialize_ok (h : Program.Ends (initialize_workspace event) tr (.ok info)) :
    ∀ x ∈ tr, Preliminary x := by
  obtain ⟨tr₁, rest, r, rfl, h₁, h⟩ := Program.ends_bind.mp h
  rw [Program.ends_perform.mp h₁]
  have hfirst : ∀ q, Preliminary (posted event.channel_id initializing_text event.root_id q) :=
    fun q => rfl
  cases r with
  | error e => cases h
  | ok id =>
    obtain ⟨tr₂, rest, r, rfl, h₂, h⟩ := Program.ends_bind.mp h
    rw [Program.ends_perform.mp h₂]
    cases r with
    | error e => cases h
    | ok i =>
      simp only at h
      split at h
      · obtain ⟨tr₃, rest, r, rfl, h₃, h⟩ := Program.ends_bind.mp h
        rw [Program.ends_perform.mp h₃]
        cases r with
        | error e => cases h
        | ok u =>
          cases h
          intro x hx
          simp only [List.append_nil, List.mem_append, List.mem_singleton] at hx
          rcases hx with rfl | rfl | rfl
          · exact hfirst _
          · exact fun hf => hf
          · rfl
      · cases h
        intro x hx
        simp only [List.append_nil, List.mem_append, List.mem_singleton] at hx
        rcases hx with rfl | rfl
        · exact hfirst _
        · exact fun hf => hf

/-- Neither a lookup, nor a message to an instance, nor about a file. -/
def Plain : Effect → Prop
  | .get_instance_by_identity .. | .send_message .. => False
  | e => ¬ e.IsFile

theorem Plain.early (h : Plain x.1) : Early x := by
  obtain ⟨e, r⟩ := x
  cases e with
  | get_instance_by_identity p u => exact h.elim
  | send_message u i m k => exact h.elim
  | _ => exact h

theorem plain_edit_or_send (event : IncomingEvent) (post_id text : String) :
    (edit_or_send event post_id text).Asks Plain := by
  rw [edit_or_send]
  split
  · exact Program.asks_perform id
  · exact Program.Asks.andThen (Program.asks_perform id) fun id => trivial

theorem plain_fallback : (handle_dify_fallback event phrase).Asks Plain := by
  apply Program.Asks.bind
  · exact Program.Asks.bind (Program.asks_perform id) fun r => trivial
  · intro post_id
    apply Program.Asks.bind
    · exact Program.Asks.andThen (Program.asks_perform id) fun r => plain_edit_or_send ..
    · intro delivered
      cases delivered with
      | ok u => trivial
      | error e => exact Program.Asks.bind (plain_edit_or_send ..) fun r => trivial

theorem plain_initialize : (initialize_workspace event).Asks Plain := by
  apply Program.Asks.andThen (Program.asks_perform id)
  intro post_id
  apply Program.Asks.andThen (Program.asks_perform id)
  intro info
  split
  · exact Program.Asks.andThen (Program.asks_perform id) fun u => trivial
  · trivial

theorem plain_unmapped : (unmapped s event phrase).Asks Plain := by
  rw [unmapped]
  split
  · apply plain_initialize.bind
    intro made
    cases made with
    | ok info => trivial
    | error e =>
      simp only
      split
      · exact plain_fallback.bind fun u => trivial
      · exact Program.Asks.andThen (Program.asks_perform id) fun id => trivial
  · split
    · exact plain_fallback.bind fun u => trivial
    · exact Program.Asks.andThen (Program.asks_perform id) fun id => trivial

/-- A user without an instance gets one, or is told. -/
theorem unmapped_ends (h : Program.Ends (unmapped s event phrase) tr res) (hw : Working tr) :
    (∃ info, res = .ok (some info) ∧ ∀ x ∈ tr, Preliminary x) ∨
      res = .ok none ∧ Terminal event tr := by
  rw [unmapped] at h
  split at h
  · obtain ⟨tr₁, tr₂, made, rfl, h₁, h₂⟩ := Program.ends_bind.mp h
    cases made with
    | ok info =>
      cases h₂
      rw [List.append_nil]
      exact .inl ⟨info, rfl, initialize_ok h₁⟩
    | error e =>
      simp only at h₂
      split at h₂
      · obtain ⟨tr₃, tr₄, u, rfl, h₃, h₄⟩ := Program.ends_bind.mp h₂
        cases h₄
        have hsub : tr₃ ⊆ tr₁ ++ (tr₃ ++ []) := fun x hx => by simp [hx]
        exact .inr ⟨rfl, (fallback_told h₃ (hw.mono hsub)).mono hsub⟩
      · exact .inr (post_told h₂ (List.subset_append_right _ _) hw
          (.inr (.inr (.inr (.inr ⟨e.text, rfl⟩)))))
  · split at h
    · obtain ⟨tr₃, tr₄, u, rfl, h₃, h₄⟩ := Program.ends_bind.mp h
      cases h₄
      have hsub : tr₃ ⊆ tr₃ ++ [] := fun x hx => by simp [hx]
      exact .inr ⟨rfl, (fallback_told h₃ (hw.mono hsub)).mono hsub⟩
    · exact .inr (post_told h (List.Subset.refl _) hw (.inr (.inr (.inl rfl))))

theorem resolve_ends (h : Program.Ends (resolve s event phrase) tr res) (hw : Working tr) :
    (∃ info, res = .ok (some info) ∧ ∀ x ∈ tr, Preliminary x) ∨
      (res = .ok none ∧ Terminal event tr ∧ ∀ x ∈ tr, Early x) ∨
      ∃ e p u, res = .error e ∧ e.kind ≠ .instance_not_found ∧ looked_up p u (.error e) ∈ tr := by
  obtain ⟨tr₁, rest, r₁, rfl, h₁, h⟩ := Program.ends_bind.mp h
  obtain ⟨tr₂, rest, cached, rfl, h₂, h⟩ := Program.ends_bind.mp h
  have htr₁ := Program.ends_perform.mp h₁
  have htr₂ := Program.ends_perform.mp h₂
  have hfirst : ∀ x ∈ tr₁ ++ tr₂, Preliminary x := by
    intro x hx
    rw [htr₁, htr₂, List.mem_append, List.mem_singleton, List.mem_singleton] at hx
    rcases hx with rfl | rfl <;> exact fun hf => hf
  cases cached with
  | some info =>
    cases h
    rw [List.append_nil]
    exact .inl ⟨info, rfl, hfirst⟩
  | none =>
    obtain ⟨tr₃, rest, found, rfl, h₃, h⟩ := Program.ends_bind.mp h
    have htr₃ := Program.ends_perform.mp h₃
    cases found with
    | ok info =>
      cases h
      refine .inl ⟨info, rfl, ?_⟩
      intro x hx
      rw [List.append_nil, ← List.append_assoc, List.mem_append] at hx
      rcases hx with hx | hx
      · exact hfirst x hx
      · rw [htr₃] at hx
        rw [List.mem_singleton.mp hx]
        exact fun hf => hf
    | error e =>
      simp only at h
      split at h
      · rename_i hkind
        have hlook : ∀ x ∈ tr₁ ++ tr₂ ++ tr₃, Preliminary x := by
          intro x hx
          rcases List.mem_append.mp hx with hx | hx
          · exact hfirst x hx
          · rw [htr₃] at hx
            rw [List.mem_singleton.mp hx]
            exact hkind
        have hassoc : tr₁ ++ (tr₂ ++ (tr₃ ++ rest)) = tr₁ ++ tr₂ ++ tr₃ ++ rest := by simp
        have hsub : rest ⊆ tr₁ ++ (tr₂ ++ (tr₃ ++ rest)) := fun x hx => by simp [hx]
        rcases unmapped_ends h (hw.mono hsub) with ⟨info, hres, hpre⟩ | ⟨hres, hterm⟩
        · refine .inl ⟨info, hres, ?_⟩
          intro x hx
          rw [hassoc] at hx
          rcases List.mem_append.mp hx with hx | hx
          · exact hlook x hx
          · exact hpre x hx
        · refine .inr (.inl ⟨hres, hterm.mono hsub, ?_⟩)
          intro x hx
          rw [hassoc] at hx
          rcases List.mem_append.mp hx with hx | hx
          · exact (hlook x hx).early
          · exact (h.asks plain_unmapped x hx).early
      · rename_i hkind
        cases h
        refine .inr (.inr ⟨e, event.provider, event.user_id, rfl, hkind, ?_⟩)
        rw [htr₃]
        simp [looked_up]

/-! Once it is routed -/

/-- What the handler asks for after the answer of the instance. -/
def Posting : Effect → Prop
  | .get_instance_by_identity .. | .send_message .. | .dify_chat .. => False
  | e => ¬ e.IsFile

theorem posting_media (uuid : String) (media_paths : List String) :
    (upload_media s event uuid media_paths).Asks Posting := by
  induction media_paths with
  | nil => trivial
  | cons path paths ih =>
    apply Program.Asks.andThen (Program.asks_perform id)
    intro host_path
    split
    · exact ih
    · split
      · apply Program.Asks.andThen (Program.asks_perform id)
        intro fid
        exact ih.andThen fun files => trivial
      · exact ih.andThen fun files => trivial

theorem posting_deliver (post_id response : String) (files : List String) :
    (deliver_response event post_id response files).Asks Posting := by
  have hpost : ∀ text, (post_files event text files).Asks Posting := fun text =>
    Program.Asks.andThen (Program.asks_perform id) fun id => trivial
  rw [deliver_response]
  split
  · split
    · exact Program.Asks.andThen (Program.asks_perform id) fun u => hpost ""
    · exact hpost response
  · split
    · exact Program.asks_perform id
    · exact Program.Asks.andThen (Program.asks_perform id) fun id => trivial

theorem posting_uploaded (media_paths : List String) :
    (uploaded_media s event info media_paths).Asks Posting := by
  rw [uploaded_media]
  split
  · trivial
  · split
    · trivial
    · exact posting_media _ _

theorem deliver_shown (h : Program.Ends (deliver_response event post_id response files) tr (.ok ()))
    (hsub : tr ⊆ all) (hp : Placed event all post_id) : Shown all event.channel_id response := by
  have hedit : ∀ {part}, part ⊆ all → post_id ≠ "" →
      Program.Ends (edit_placeholder event post_id response) part (.ok ()) →
      Shown all event.channel_id response := by
    intro part hpart hne he
    obtain ⟨phrase, hpost⟩ := hp.resolve_left hne
    refine .inr (.inl ⟨post_id, edit_channel event.toChannelEvent, phrase, event.root_id, hpost,
      hpart ?_⟩)
    rw [Program.ends_perform.mp he]
    exact List.mem_singleton_self _
  rw [deliver_response] at h
  split at h
  · split at h
    · rename_i hne
      obtain ⟨tr₁, tr₂, r, rfl, h₁, h₂⟩ := Program.ends_bind.mp h
      cases r with
      | error e => cases h₂
      | ok u => exact hedit (fun x hx => hsub (List.mem_append_left _ hx)) hne h₁
    · obtain ⟨tr₁, tr₂, r, rfl, h₁, h₂⟩ := Program.ends_bind.mp h
      cases r with
      | error e => cases h₂
      | ok id =>
        refine .inr (.inr ⟨files, event.root_id, id, hsub ?_⟩)
        rw [Program.ends_perform.mp h₁]
        exact List.mem_append_left _ (List.mem_singleton_self _)
  · split at h
    · rename_i hne
      exact hedit hsub hne h
    · obtain ⟨tr₁, tr₂, r, rfl, h₁, h₂⟩ := Program.ends_bind.mp h
      cases r with
      | error e => cases h₂
      | ok id =>
        refine .inl ⟨event.root_id, id, hsub ?_⟩
        rw [Program.ends_perform.mp h₁]
        exact List.mem_append_left _ (List.mem_singleton_self _)

/-- How an exchange with the instance goes. -/
structure Exchanged (event : IncomingEvent) (all tr : List Entry) (message : String)
    (res : Except Exn Unit) (u : String) (info : InstanceInfo) (k : String)
    (r : Except Exn (String × List String)) (rest : List Entry) : Prop where
  trace : tr = sent u info message k r :: rest
  posting : ∀ x ∈ rest, Posting x.1
  failed : ∀ e, r = .error e → res = .error e
  empty : ∀ media, r = .ok ("", media) → res = .ok () ∧ rest = []
  shown : ∀ response media, r = .ok (response, media) → response ≠ "" → res = .ok () →
    Shown all event.channel_id response

theorem exchange_ends (h : Program.Ends (exchange s event info message post_id) tr res)
    (hsub : tr ⊆ all) (hp : Placed event all post_id) :
    ∃ u k r rest, Exchanged event all tr message res u info k r rest := by
  obtain ⟨tr₁, rest, r, rfl, h₁, hafter⟩ := Program.ends_bind.mp h
  refine ⟨identity_key event.provider event.user_id, event.provider ++ ":chan:" ++ event.channel_id,
    r, rest, ?_⟩
  have htr := Program.ends_perform.mp h₁
  have hrest : rest ⊆ all := fun x hx => hsub (List.mem_append_right _ hx)
  subst htr
  cases r with
  | error e =>
    obtain ⟨rfl, rfl⟩ := Program.ends_done.mp hafter
    constructor
    · rfl
    · intro x hx
      cases hx
    · intro e' he
      cases he
      rfl
    · intro media he
      cases he
    · intro response media he
      cases he
  | ok answer =>
    obtain ⟨response, media⟩ := answer
    simp only at hafter
    split at hafter
    · rename_i hempty
      subst hempty
      obtain ⟨rfl, rfl⟩ := Program.ends_done.mp hafter
      constructor
      · rfl
      · intro x hx
        cases hx
      · intro e' he
        cases he
      · exact fun media' he => ⟨rfl, rfl⟩
      · intro response' media' he hne
        cases he
        exact absurd rfl hne
    · rename_i hne
      constructor
      · rfl
      · exact hafter.asks ((posting_uploaded media).andThen fun files => posting_deliver _ _ _)
      · intro e' he
        cases he
      · intro media' he
        cases he
        exact absurd rfl hne
      · intro response' media' he _ hok
        cases he
        subst hok
        obtain ⟨tr₂, tr₃, files, rfl, h₂, h₃⟩ := Program.ends_bind.mp hafter
        cases files with
        | error e => cases h₃
        | ok files => exact deliver_shown h₃ (fun x hx => hrest (List.mem_append_right _ hx)) hp

/-- How a routed event goes: the attachments, the placeholder, the exchange, and the apology. -/
theorem route_ends (h : Program.Ends (route s py event phrase info) tr res) :
    (∃ e, res = .error e ∧ ∃ x ∈ tr, Unexpected s.max_bytes x) ∨
      ∃ files message post_id shown rest sent last, tr = files ++ (shown ++ (rest ++ last)) ∧
        Program.Ends (attachments s py event info) files (.ok message) ∧
        Program.Ends (placeholder event phrase) shown post_id ∧
        Program.Ends (exchange s event info message post_id) rest sent ∧
        (sent = .ok () ∧ last = [] ∧ res = .ok () ∨ ∃ e, sent = .error e ∧
          Program.Ends ((Program.perform (Effect.send_reply event.channel_id error_text
            event.root_id)).andThen fun _ : String => .done (.ok ())) last res) := by
  obtain ⟨files, rest, r, rfl, h₁, h⟩ := Program.ends_bind.mp h
  cases r with
  | error e =>
    cases h
    obtain ⟨x, hx, hu⟩ := (tame_attachments files _ h₁).mp ⟨e, rfl, attachments_error h₁⟩
    exact .inl ⟨e, rfl, x, List.mem_append_left _ hx, hu⟩
  | ok message =>
    obtain ⟨shown, rest, post_id, rfl, h₂, h⟩ := Program.ends_bind.mp h
    obtain ⟨rest, last, sent, rfl, h₃, h₄⟩ := Program.ends_bind.mp h
    refine .inr ⟨files, message, post_id, shown, rest, sent, last, rfl, h₁, h₂, h₃, ?_⟩
    cases sent with
    | ok u =>
      cases h₄
      exact .inl ⟨rfl, rfl, rfl⟩
    | error e => exact .inr ⟨e, rfl, h₄⟩

/-! What is foreseen of the parts -/

theorem foreseen_append : Foreseen s.max_bytes (tr₁ ++ tr₂) ↔
    Foreseen s.max_bytes tr₁ ∧ Foreseen s.max_bytes tr₂ := by
  constructor
  · intro h
    refine ⟨⟨fun p u e hm => ?_, fun x hm => ?_, fun u i m k r md hm => ?_⟩,
      ⟨fun p u e hm => ?_, fun x hm => ?_, fun u i m k r md hm => ?_⟩⟩
    · exact h.lookup p u e (List.mem_append_left _ hm)
    · exact h.attachments x (List.mem_append_left _ hm)
    · exact h.answer u i m k r md (List.mem_append_left _ hm)
    · exact h.lookup p u e (List.mem_append_right _ hm)
    · exact h.attachments x (List.mem_append_right _ hm)
    · exact h.answer u i m k r md (List.mem_append_right _ hm)
  · rintro ⟨h₁, h₂⟩
    refine ⟨fun p u e hm => ?_, fun x hm => ?_, fun u i m k r md hm => ?_⟩
    · exact (List.mem_append.mp hm).elim (h₁.lookup p u e) (h₂.lookup p u e)
    · exact (List.mem_append.mp hm).elim (h₁.attachments x) (h₂.attachments x)
    · exact (List.mem_append.mp hm).elim (h₁.answer u i m k r md) (h₂.answer u i m k r md)

theorem isFile_of_unexpected (h : Unexpected s.max_bytes x) : x.1.IsFile := by
  obtain ⟨e, r⟩ := x
  cases e <;> first | exact trivial | exact h.elim

theorem foreseen_early (h : ∀ x ∈ tr, Early x) : Foreseen s.max_bytes tr where
  lookup p u e hm := h _ hm
  attachments x hm hu := by
    have hx := h x hm
    have hf := isFile_of_unexpected hu
    obtain ⟨e, r⟩ := x
    cases e <;> first | exact hx hf | exact hf.elim
  answer u i m k r md hm := (h _ hm).elim

theorem foreseen_posting (h : ∀ x ∈ tr, Posting x.1) : Foreseen s.max_bytes tr where
  lookup p u e hm := (h _ hm).elim
  attachments x hm hu := by
    have hx := h x hm
    have hf := isFile_of_unexpected hu
    obtain ⟨e, r⟩ := x
    cases e <;> first | exact hx hf | exact hf.elim
  answer u i m k r md hm := (h _ hm).elim

theorem foreseen_files (h : ∀ x ∈ tr, x.1.IsFile) :
    Foreseen s.max_bytes tr ↔ ∀ x ∈ tr, ¬ Unexpected s.max_bytes x :=
  ⟨fun hf => hf.attachments, fun hu => ⟨fun _ _ _ hm => (h _ hm).elim, hu,
    fun _ _ _ _ _ _ hm => (h _ hm).elim⟩⟩

theorem foreseen_sent :
    Foreseen s.max_bytes [sent u info m k r] ↔
      ∀ response media, r = .ok (response, media) → response ≠ "" := by
  constructor
  · intro h response media hr
    subst hr
    exact h.answer u info m k response media (List.mem_singleton_self _)
  · intro h
    refine ⟨fun p v e hm => ?_, fun x hm hu => ?_, fun v i n q response media hm => ?_⟩
    · cases List.mem_singleton.mp hm
    · rw [List.mem_singleton.mp hm] at hu
      exact hu
    · cases List.mem_singleton.mp hm
      exact h response media rfl

theorem phrases_quiet (h : text ∈ initializing_text :: ready_text :: thinking_phrases) :
    ¬ ErrorText text := by
  have hno : ∀ t ∈ initializing_text :: ready_text :: thinking_phrases, t ≠ error_text ∧
      t ≠ unassigned_text ∧ t ≠ dify_empty_text ∧ startsWith t failed_intro = false := by
    decide +kernel
  obtain ⟨h₁, h₂, h₃, h₄⟩ := hno text h
  rintro (he | he | he | ⟨e, rfl⟩)
  · exact h₁ he
  · exact h₂ he
  · exact h₃ he
  · rw [startsWith_append] at h₄
    cases h₄

/-- An empty answer leaves the user with the placeholder. -/
theorem empty_not_terminal (hpre : ∀ x ∈ tr₁, Preliminary x) (hfiles : ∀ x ∈ files, x.1.IsFile)
    (hp : phrase ∈ thinking_phrases) :
    ¬ Terminal event (tr₁ ++ (files ++ ([posted event.channel_id phrase event.root_id q] ++
      [sent u info m k (.ok ("", media))]))) := by
  rintro ⟨text, ht, hs⟩
  generalize hall : tr₁ ++ (files ++ ([posted event.channel_id phrase event.root_id q] ++
    [sent u info m k (.ok ("", media))])) = all at ht hs
  have hmem : ∀ x ∈ all, Preliminary x ∨ x.1.IsFile ∨
      x = posted event.channel_id phrase event.root_id q ∨
      x = sent u info m k (.ok ("", media)) := by
    intro x hx
    rw [← hall] at hx
    simp only [List.mem_append, List.mem_singleton] at hx
    exact hx.imp (hpre x) fun hx => hx.imp (hfiles x) id
  have hquiet : ErrorText text := by
    rcases ht with ⟨hne, ⟨v, i, n, c, md, hx⟩ | ⟨v, n, hx⟩⟩ | he
    · rcases hmem _ hx with hx | hx | hx | hx
      · exact hx.elim
      · exact hx.elim
      · cases hx
      · cases hx
        exact absurd rfl hne
    · rcases hmem _ hx with hx | hx | hx | hx
      · exact hx.elim
      · exact hx.elim
      · cases hx
      · cases hx
    · exact he
  rcases hs with ⟨root, id, hx⟩ | ⟨p, ch, ph, root, -, hx⟩ | ⟨fs, root, id, hx⟩
  · rcases hmem _ hx with hx | hx | hx | hx
    · have htext : text = initializing_text := hx
      exact phrases_quiet (by simp [htext]) hquiet
    · exact hx.elim
    · cases hx
      exact phrases_quiet (List.mem_cons_of_mem _ (List.mem_cons_of_mem _ hp)) hquiet
    · cases hx
  · rcases hmem _ hx with hx | hx | hx | hx
    · have htext : text = ready_text := hx
      exact phrases_quiet (by simp [htext]) hquiet
    · exact hx.elim
    · cases hx
    · cases hx
  · rcases hmem _ hx with hx | hx | hx | hx
    · exact hx.elim
    · exact hx.elim
    · cases hx
    · cases hx

theorem foreseen_routed (hpre : ∀ x ∈ tr₁, Preliminary x) (hfiles : ∀ x ∈ files, x.1.IsFile)
    (hnone : ∀ x ∈ files, ¬ Unexpected s.max_bytes x) (hshown : ∀ x ∈ shown, Posting x.1)
    (hrest : ∀ x ∈ rest, Posting x.1) (hlast : ∀ x ∈ last, Posting x.1) :
    Foreseen s.max_bytes (tr₁ ++ (files ++ (shown ++ (sent u info m k r :: rest ++ last)))) ↔
      ∀ response media, r = .ok (response, media) → response ≠ "" := by
  have hcons : sent u info m k r :: rest ++ last = [sent u info m k r] ++ (rest ++ last) := rfl
  rw [hcons]
  simp only [foreseen_append]
  constructor
  · exact fun h => foreseen_sent.mp h.2.2.2.1
  · intro h
    exact ⟨foreseen_early fun x hx => (hpre x hx).early, (foreseen_files hfiles).mpr hnone,
      foreseen_posting hshown, foreseen_sent.mpr h, foreseen_posting hrest, foreseen_posting hlast⟩

/-- A routed event is answered just when the instance does not answer with the empty text. -/
theorem route_answered (hphrase : phrase ∈ thinking_phrases) (hpre : ∀ x ∈ tr₁, Preliminary x)
    (h : Program.Ends (route s py event phrase info) tr₂ res) (hw : Working (tr₁ ++ tr₂)) :
    Answered event (tr₁ ++ tr₂) res ↔ Foreseen s.max_bytes (tr₁ ++ tr₂) := by
  rcases route_ends h with ⟨e, rfl, x, hx, hu⟩ |
    ⟨files, message, post_id, shown, rest, result, last, rfl, h₁, h₂, h₃, h₄⟩
  · constructor
    · intro ha
      cases ha.no_raise
    · intro hf
      exact absurd hu (hf.attachments x (List.mem_append_right _ hx))
  have hfiles := h₁.asks attachments_files
  have hnone : ∀ x ∈ files, ¬ Unexpected s.max_bytes x := by
    intro x hx hu
    exact not_escapes_ok ((tame_attachments files _ h₁).mpr ⟨x, hx, hu⟩)
  generalize hall : tr₁ ++ (files ++ (shown ++ (rest ++ last))) = all at hw ⊢
  have hplaced : Placed event all post_id :=
    placeholder_placed h₂ fun x hx => by simp [← hall, hx]
  have hsub : rest ⊆ all := fun x hx => by simp [← hall, hx]
  have hsublast : last ⊆ all := fun x hx => by simp [← hall, hx]
  obtain ⟨u, k, r, rest', hex⟩ := exchange_ends h₃ hsub hplaced
  have hsent : sent u info message k r ∈ all := by
    apply hsub
    rw [hex.trace]
    exact List.mem_cons_self
  have hrouted : (∃ x ∈ all, x.1.IsFile) → ∃ u info m k r, sent u info m k r ∈ all ∧
      (strip event.text = "" ∨ startsWith m event.text = true) :=
    fun _ => ⟨u, info, message, k, r, hsent, attachments_text h₁⟩
  have hposted : ∀ x ∈ shown, Posting x.1 :=
    h₂.asks (Program.Asks.bind (Program.asks_perform id) fun r => trivial)
  rcases h₄ with ⟨rfl, rfl, rfl⟩ | ⟨e, rfl, h₅⟩
  · have hf : Foreseen s.max_bytes
        (tr₁ ++ (files ++ (shown ++ (sent u info message k r :: rest' ++ [])))) ↔ _ :=
      foreseen_routed hpre hfiles hnone hposted hex.posting fun x hx => by cases hx
    rw [← hex.trace, hall] at hf
    rw [hf]
    cases r with
    | error e => cases hex.failed e rfl
    | ok answer =>
      obtain ⟨response, media⟩ := answer
      constructor
      · rintro ha response' media' he rfl
        cases he
        obtain ⟨-, rfl⟩ := hex.empty media rfl
        obtain ⟨q, rfl, -⟩ := placeholder_ends h₂
        rw [hex.trace, List.append_nil] at hall
        exact empty_not_terminal hpre hfiles hphrase (hall ▸ ha.terminal)
      · intro hne
        have hne := hne response media rfl
        refine ⟨rfl, hrouted, response, .inl ⟨hne, .inl ⟨u, info, message, k, media, hsent⟩⟩, ?_⟩
        exact hex.shown response media rfl hne rfl
  · obtain ⟨rfl, hterm⟩ := post_told h₅ hsublast hw error_text_told
    have hlast : ∀ x ∈ last, Posting x.1 :=
      h₅.asks (Program.Asks.andThen (Program.asks_perform id) fun id => trivial)
    have hf :
        Foreseen s.max_bytes
          (tr₁ ++ (files ++ (shown ++ (sent u info message k r :: rest' ++ last)))) ↔ _ :=
      foreseen_routed hpre hfiles hnone hposted hex.posting hlast
    rw [← hex.trace, hall] at hf
    refine iff_of_true ⟨rfl, hrouted, hterm⟩ (hf.mpr ?_)
    rintro response media rfl rfl
    obtain ⟨he, -⟩ := hex.empty media rfl
    cases he

/-- `handle_event` answers the user just when what fails is what it foresees. -/
theorem every_failure_answered (hphrase : phrase ∈ thinking_phrases)
    (h : Program.Ends (handle_event s py event phrase) tr res) (hw : Working tr) :
    Answered event tr res ↔ Foreseen s.max_bytes tr := by
  obtain ⟨tr₁, tr₂, resolved, rfl, h₁, h₂⟩ := Program.ends_bind.mp h
  have hsub : tr₁ ⊆ tr₁ ++ tr₂ := List.subset_append_left _ _
  rcases resolve_ends h₁ (hw.mono hsub) with ⟨info, rfl, hpre⟩ | ⟨rfl, hterm, hearly⟩ |
    ⟨e, p, u, rfl, hkind, hlook⟩
  · exact route_answered hphrase hpre h₂ hw
  · obtain ⟨rfl, rfl⟩ := Program.ends_done.mp h₂
    rw [List.append_nil]
    refine iff_of_true ⟨rfl, ?_, hterm⟩ (foreseen_early hearly)
    rintro ⟨x, hx, hf⟩
    have he := hearly x hx
    obtain ⟨e, r⟩ := x
    cases e <;> first | exact absurd hf he | exact hf.elim
  · obtain ⟨rfl, rfl⟩ := Program.ends_done.mp h₂
    rw [List.append_nil]
    constructor
    · intro ha
      cases ha.no_raise
    · intro hf
      exact absurd (hf.lookup p u e hlook) hkind

def hello : IncomingEvent where
  provider := "telegram"
  channel_id := "c"
  user_id := "7"
  text := "hi"

def some_info : InstanceInfo := ⟨"ws://a", ⟨"d", "p", "k", "t", "g"⟩⟩

def timed_out : Exn := ⟨.other, "timeout"⟩

/-- Placeholder and instance fail. -/
def failing : List Entry :=
  [⟨.remember_channel "telegram" "7" "c", .ok ()⟩, ⟨.get_cached_info "telegram:7", none⟩,
    looked_up "telegram" "7" (.ok some_info), posted "c" "⏳ One moment..." "" (.error timed_out),
    sent "telegram:7" some_info "hi" "telegram:chan:c" (.error timed_out),
    posted "c" error_text "" (.ok "1")]

theorem every_failure_answered_failing : Answered hello failing (.ok ()) := by
  have h : Program.Ends (handle_event {} {} hello "⏳ One moment...") failing (.ok ()) :=
    .ask _ (.ask _ (.ask _ (.ask _ (.ask _ (.ask _ (.done _))))))
  have hw : Working failing := by
    constructor
    · intro ch text root r hm ht
      simp [failing, looked_up, posted, sent] at hm
      rcases hm with ⟨⟨-, rfl, -⟩, -⟩ | ⟨-, rfl⟩
      · rcases ht with ⟨-, ⟨u, info, m, k, media, hm⟩ | ⟨u, m, hm⟩⟩ | ht
        · simp [failing, looked_up, posted, sent] at hm
        · simp [failing, looked_up, posted, sent, chatted] at hm
        · exact absurd ht (phrases_quiet (by decide))
      · exact ⟨_, rfl⟩
    · intro p text ch r hm
      simp [failing, looked_up, posted, sent, edited] at hm
  have hf : Foreseen (FileSettings.max_bytes {}) failing := by
    constructor
    · intro p u e hm
      simp [failing, looked_up, posted, sent] at hm
    · intro x hx hu
      simp [failing, looked_up, posted, sent] at hx
      rcases hx with rfl | rfl | rfl | rfl | rfl | rfl <;> exact hu
    · intro u info m k response media hm
      simp [failing, looked_up, posted, sent] at hm
  exact (every_failure_answered (by decide) h hw).mpr hf

def key_changed : Exn :=
  ⟨.other, "Failed to decrypt credential — CREDENTIAL_ENCRYPTION_KEY does not " ++
    "match the key the value was encrypted with"⟩

/-- Nobody is told when the credentials of an instance cannot be decrypted. -/
theorem not_every_failure_answered : ∃ tr,
    Program.Ends (handle_event {} {} hello "⏳ One moment...") tr (.error key_changed) ∧
      Working tr ∧ ¬ Answered hello tr (.error key_changed) ∧
      ∀ channel_id text root_id r, posted channel_id text root_id r ∉ tr := by
  refine ⟨[⟨.remember_channel "telegram" "7" "c", .ok ()⟩, ⟨.get_cached_info "telegram:7", none⟩,
    looked_up "telegram" "7" (.error key_changed)], .ask _ (.ask _ (.ask _ (.done _))), ?_, ?_, ?_⟩
  · constructor
    · intro ch text root r hm
      simp [looked_up, posted] at hm
    · intro p text ch r hm
      simp [looked_up, edited] at hm
  · intro ha
    cases ha.no_raise
  · intro ch text root r hm
    simp [looked_up, posted] at hm

end Router

end ClawMux
