import ClawMux.Lib.TaskPool
import ClawMux.Router.Answered

namespace ClawMux
set_option autoImplicit true
open Lib Lib.Text

open Entry

/-! The handlers of a process -/

/-- An event, and the placeholder text that was chosen for it. -/
structure Handling where
  event : IncomingEvent
  phrase : String

namespace EventPool

/-- `handle_event`; an event of a provider without an adapter is only logged. -/
def code (registered : List String) (s : RouterSettings) (py : Dynamics) (l : Handling) :
    Fallible Unit :=
  match get_adapter registered l.event.provider with
  | none => .done (.ok ())
  | some _ => Router.handle_event s py l.event l.phrase

/-- No handler makes another one. -/
def spawned (_ : Effect) : Option Handling := none

abbrev Handler := PoolTask Effect Effect.Answer (Except Exn Unit) Handling

abbrev Pool := TaskPool Effect Effect.Answer (Except Exn Unit) Handling

/-- Events come at any time, their handlers interleave at every exchange, and any of them may be
cancelled. -/
def Reachable (registered : List String) (s : RouterSettings) (py : Dynamics) : Pool → Prop :=
  Reach (TaskPool.step (code registered s py) spawned) (TaskPool.Admits fun _ => True) (· = [])

/-! What the handler of an event may ask, after what it has been answered -/

/-- The handler was given this instance, for the user of its event. -/
def Given (event : IncomingEvent) (tr : List Entry) (info : InstanceInfo) : Prop :=
  ⟨.get_cached_info (identity_key event.provider event.user_id), some info⟩ ∈ tr ∨
    looked_up event.provider event.user_id (.ok info) ∈ tr ∨
    ⟨.provision_instance event.provider event.user_id, .ok info⟩ ∈ tr

def HasWorkspace (event : IncomingEvent) (tr : List Entry) (uuid : String) : Prop :=
  ∃ info, Given event tr info ∧ extract_uuid_from_instance_url info.instance_url = some uuid

def NotMapped (event : IncomingEvent) (tr : List Entry) : Prop :=
  ∃ e : Exn, e.kind = .instance_not_found ∧
    looked_up event.provider event.user_id (.error e) ∈ tr

/-- The creation of the workspace has raised `e`. -/
def Raised (tr : List Entry) (e : Exn) : Prop :=
  (∃ c m r, posted c m r (.error e) ∈ tr) ∨ (∃ p m c, edited p m c (.error e) ∈ tr) ∨
    ∃ p u, ⟨.provision_instance p u, .error e⟩ ∈ tr

/-- A fixed text, the exception of a failed creation, or what this very event was answered. -/
def Sayable (phrase : String) (tr : List Entry) (text : String) : Prop :=
  text ∈ [phrase, initializing_text, ready_text, unassigned_text, dify_empty_text, error_text] ∨
    (∃ e, Raised tr e ∧ text = failed_intro ++ e.text) ∨ IsAnswer tr text

/-- The answer to this event names the file. -/
def Named (tr : List Entry) (container_path : String) : Prop :=
  ∃ u info m k text media, sent u info m k (.ok (text, media)) ∈ tr ∧ container_path ∈ media

def Mapped (tr : List Entry) (host_path : String) : Prop :=
  ∃ container_path uuid, ⟨.container_path_to_host container_path uuid, .ok host_path⟩ ∈ tr

/-- A path of a file, or the id of its upload to the channel of the event. -/
def Fetched (event : IncomingEvent) (tr : List Entry) (file : String) : Prop :=
  Mapped tr file ∨
    ∃ host_path, ⟨.upload host_path event.channel_id, .ok (some file)⟩ ∈ tr

/-- The message goes to an instance, or to Dify. -/
def spends : Effect → Bool
  | .send_message .. | .dify_chat .. => true
  | _ => false

def Silent (tr : List Entry) : Prop := ∀ x ∈ tr, spends x.1 = false

def downloads_dir (s : RouterSettings) (uuid : String) : String :=
  s.workspace_base_path ++ "/" ++ uuid ++ "/workspace/downloads"

/-- What the handler may ask for after these exchanges: as the user of the event and in its channel,
with the instance and the texts that it was given itself. -/
def Confined (s : RouterSettings) (event : IncomingEvent) (phrase : String) (tr : List Entry) :
    Effect → Prop
  | .remember_channel p u c => p = event.provider ∧ u = event.user_id ∧ c = event.channel_id
  | .get_cached_info key => key = identity_key event.provider event.user_id
  | .get_instance_by_identity p u => p = event.provider ∧ u = event.user_id
  | .provision_instance p u => p = event.provider ∧ u = event.user_id ∧
      s.enable_auto_provisioning = true ∧ NotMapped event tr
  | .dify_chat u m => u = event.user_id ∧ m = event.text ∧ s.dify = true ∧
      NotMapped event tr ∧ Silent tr
  | .send_message k info m key => k = identity_key event.provider event.user_id ∧
      key = event.provider ++ ":chan:" ++ event.channel_id ∧ Given event tr info ∧
      (strip event.text = "" ∨ startsWith m event.text = true) ∧ Silent tr
  | .send_reply c text root_id => c = event.channel_id ∧ root_id = event.root_id ∧
      Sayable phrase tr text
  | .update_reply post_id text c => post_id ≠ "" ∧
      (∃ first, posted event.channel_id first event.root_id (.ok post_id) ∈ tr) ∧
      (c = event.channel_id ∨ c = Router.edit_channel event.toChannelEvent) ∧
      Sayable phrase tr text
  | .send_post_with_files c text files root_id => c = event.channel_id ∧
      root_id = event.root_id ∧ (text = "" ∨ IsAnswer tr text) ∧ ∀ f ∈ files, Fetched event tr f
  | .container_path_to_host container_path uuid => HasWorkspace event tr uuid ∧
      Named tr container_path
  | .upload host_path c => c = event.channel_id ∧ event.provider = "mattermost" ∧
      Mapped tr host_path
  | .makedirs dir => ∃ uuid, HasWorkspace event tr uuid ∧ dir = downloads_dir s uuid
  | .get_info file_id | .get_file file_id _ => s.file_manager = true ∧ file_id ∈ event.file_ids
  | .path_exists _ | .uuid4_hex | .chmod _ => s.file_manager = true ∧ event.file_ids ≠ []

variable {s : RouterSettings} {py : Dynamics} {event : IncomingEvent}
  {info : InstanceInfo} {tr h all : List Entry} {phrase text uuid path dir file_id post_id : String}
  {media_paths files : List String}

theorem Given.mono (hg : Given event tr info) (hsub : tr ⊆ all) : Given event all info := by
  rcases hg with hc | hl | hp
  · exact .inl (hsub hc)
  · exact .inr (.inl (hsub hl))
  · exact .inr (.inr (hsub hp))

theorem Given.append (hg : Given event h info) (tr : List Entry) : Given event (h ++ tr) info :=
  hg.mono (List.subset_append_left h tr)

theorem HasWorkspace.append (hw : HasWorkspace event h uuid) (tr : List Entry) :
    HasWorkspace event (h ++ tr) uuid := by
  obtain ⟨info, hg, hu⟩ := hw
  exact ⟨info, hg.append tr, hu⟩

theorem NotMapped.append (hn : NotMapped event h) (tr : List Entry) :
    NotMapped event (h ++ tr) := by
  obtain ⟨e, hk, hm⟩ := hn
  exact ⟨e, hk, List.mem_append_left _ hm⟩

theorem Raised.append_left (hr : Raised tr e) (h : List Entry) : Raised (h ++ tr) e := by
  rcases hr with ⟨c, m, r, hx⟩ | ⟨p, m, c, hx⟩ | ⟨p, u, hx⟩
  · exact .inl ⟨c, m, r, List.mem_append_right _ hx⟩
  · exact .inr (.inl ⟨p, m, c, List.mem_append_right _ hx⟩)
  · exact .inr (.inr ⟨p, u, List.mem_append_right _ hx⟩)

theorem Fetched.mono (hf : Fetched event tr file) (hsub : tr ⊆ all) : Fetched event all file := by
  rcases hf with ⟨path, uuid, hm⟩ | ⟨host_path, hm⟩
  · exact .inl ⟨path, uuid, hsub hm⟩
  · exact .inr ⟨host_path, hsub hm⟩

theorem Silent.append (h₁ : Silent h) (h₂ : Silent tr) : Silent (h ++ tr) := by
  intro x hx
  rcases List.mem_append.mp hx with hx | hx
  · exact h₁ x hx
  · exact h₂ x hx

theorem placed_append (hp : Router.Placed event h post_id) (tr : List Entry) :
    Router.Placed event (h ++ tr) post_id := by
  refine hp.imp_right fun hpost => ?_
  obtain ⟨first, hm⟩ := hpost
  exact ⟨first, List.mem_append_left _ hm⟩

theorem sayable_error : Sayable phrase tr error_text := .inl (by simp)

/-! Before the instance is known -/

theorem follows_placeholder :
    Program.Follows (Confined s event phrase) h (Router.placeholder event phrase) :=
  (Program.follows_perform ⟨rfl, rfl, .inl List.mem_cons_self⟩).bind fun _ _ _ => trivial

theorem placeholder_silent (hends : Program.Ends (Router.placeholder event phrase) tr post_id) :
    Silent tr := by
  have hasks : (Router.placeholder event phrase).Asks fun e => spends e = false :=
    Program.Asks.bind (Program.asks_perform rfl) fun _ => trivial
  exact hends.asks hasks

theorem follows_post {a : α} (ht : Sayable phrase h text) :
    Program.Follows (Confined s event phrase) h
      ((Program.perform (Effect.send_reply event.channel_id text event.root_id)).andThen
        fun _ : String => .done (.ok a) : Fallible α) :=
  (Program.follows_perform ⟨rfl, rfl, ht⟩).andThen fun _ _ _ => trivial

theorem follows_edit_or_send (hp : Router.Placed event h post_id) (ht : Sayable phrase h text) :
    Program.Follows (Confined s event phrase) h (Router.edit_or_send event post_id text) := by
  rw [Router.edit_or_send]
  split
  · rename_i hne
    exact Program.follows_perform ⟨hne, hp.resolve_left hne, .inl rfl, ht⟩
  · exact follows_post ht

theorem follows_fallback (hdify : s.dify = true) (hn : NotMapped event h) (hs : Silent h) :
    Program.Follows (Confined s event phrase) h (Router.handle_dify_fallback event phrase) := by
  refine follows_placeholder.bind fun tr post_id hid => ?_
  have hp := Router.placeholder_placed hid (List.subset_append_right h tr)
  have hquiet := hs.append (placeholder_silent hid)
  refine Program.Follows.bind ?_ fun tr' delivered hends => ?_
  · refine (Program.follows_perform ⟨rfl, rfl, hdify, hn.append tr, hquiet⟩).andThen
      fun tr' response hanswer => ?_
    obtain rfl := Program.ends_perform.mp hanswer
    apply follows_edit_or_send (placed_append hp _)
    split
    · rename_i hne
      have hsaid := List.mem_append_right (h ++ tr) (List.mem_singleton_self
        (chatted event.user_id event.text (.ok response)))
      exact .inr (.inr ⟨hne, .inr ⟨_, _, hsaid⟩⟩)
    · exact .inl (by simp)
  · cases delivered with
    | ok u => trivial
    | error e =>
      apply Program.Follows.bind (follows_edit_or_send (placed_append hp tr') sayable_error)
      exact fun _ _ _ => trivial

theorem follows_workspace (hauto : s.enable_auto_provisioning = true) (hn : NotMapped event h) :
    Program.Follows (Confined s event phrase) h (Router.initialize_workspace event) := by
  refine (Program.follows_perform ⟨rfl, rfl, .inl (by simp)⟩).andThen fun tr post_id hpost => ?_
  refine (Program.follows_perform ⟨rfl, rfl, hauto, hn.append tr⟩).andThen fun tr' info hends => ?_
  split
  · rename_i hne
    have hready : Sayable phrase (h ++ tr ++ tr') ready_text := .inl (by simp)
    refine (Program.follows_perform ⟨hne, ⟨initializing_text, ?_⟩, .inr rfl, hready⟩).andThen
      fun _ _ _ => trivial
    obtain rfl := Program.ends_perform.mp hpost
    exact List.mem_append_left _ (List.mem_append_right _ (List.mem_singleton_self _))
  · trivial

theorem initialize_silent :
    (Router.initialize_workspace event).Asks fun e => spends e = false := by
  apply Program.Asks.andThen (Program.asks_perform (by rfl))
  intro post_id
  apply Program.Asks.andThen (Program.asks_perform (by rfl))
  intro info
  split
  · exact Program.Asks.andThen (Program.asks_perform (by rfl)) fun u => trivial
  · trivial

theorem initialize_ends
    (hends : Program.Ends (Router.initialize_workspace event) tr made) :
    (∃ info, made = .ok info ∧ Given event tr info) ∨ ∃ e, made = .error e ∧ Raised tr e := by
  obtain ⟨tr₁, rest, r, rfl, h₁, hrest⟩ := Program.ends_bind.mp hends
  obtain rfl := Program.ends_perform.mp h₁
  cases r with
  | error e =>
    cases hrest
    exact .inr ⟨e, rfl, .inl ⟨_, _, _, List.mem_cons_self⟩⟩
  | ok post_id =>
    obtain ⟨tr₂, rest, r, rfl, h₂, hmore⟩ := Program.ends_bind.mp hrest
    obtain rfl := Program.ends_perform.mp h₂
    cases r with
    | error e =>
      cases hmore
      exact .inr ⟨e, rfl, .inr (.inr ⟨_, _, List.mem_cons_of_mem _ List.mem_cons_self⟩)⟩
    | ok info =>
      have hmade : ∀ rest, Given event ([posted event.channel_id initializing_text event.root_id
          (.ok post_id)] ++ ([⟨.provision_instance event.provider event.user_id, .ok info⟩] ++
            rest)) info :=
        fun rest => .inr (.inr (List.mem_cons_of_mem _ List.mem_cons_self))
      simp only at hmore
      split at hmore
      · obtain ⟨tr₃, rest, r, rfl, h₃, hlast⟩ := Program.ends_bind.mp hmore
        obtain rfl := Program.ends_perform.mp h₃
        cases r with
        | error e =>
          cases hlast
          refine .inr ⟨e, rfl, .inr (.inl ⟨post_id, ready_text,
            Router.edit_channel event.toChannelEvent, ?_⟩)⟩
          exact List.mem_append_right _ (List.mem_append_right _ List.mem_cons_self)
        | ok u =>
          cases hlast
          exact .inl ⟨info, rfl, hmade _⟩
      · cases hmore
        exact .inl ⟨info, rfl, hmade _⟩

/-! The instance of the user -/

theorem post_none
    (hends : Program.Ends ((Program.perform (Effect.send_reply event.channel_id text
      event.root_id)).andThen fun _ : String => .done (.ok none) : Fallible (Option α)) tr res) :
    ∀ a, res ≠ .ok (some a) := by
  obtain ⟨tr₁, tr₂, r, rfl, -, hends⟩ := Program.ends_bind.mp hends
  intro a hres
  cases r with
  | ok id =>
    cases hends
    cases hres
  | error e =>
    cases hends
    cases hres

theorem fallback_none
    (hends : Program.Ends ((Router.handle_dify_fallback event phrase).bind fun () =>
      .done (.ok none) : Fallible (Option α)) tr res) : ∀ a, res ≠ .ok (some a) := by
  obtain ⟨tr₁, tr₂, u, rfl, -, hends⟩ := Program.ends_bind.mp hends
  cases hends
  intro a hres
  cases hres

theorem follows_unmapped (hn : NotMapped event h) (hs : Silent h) :
    Program.Follows (Confined s event phrase) h (Router.unmapped s event phrase) := by
  rw [Router.unmapped]
  split
  · rename_i hauto
    refine (follows_workspace hauto hn).bind fun tr made hends => ?_
    have hquiet : Silent (h ++ tr) := hs.append (hends.asks initialize_silent)
    rcases initialize_ends hends with ⟨info, rfl, -⟩ | ⟨e, rfl, hraised⟩
    · trivial
    · simp only
      split
      · rename_i hdify
        exact (follows_fallback hdify (hn.append tr) hquiet).bind fun _ _ _ => trivial
      · exact follows_post (.inr (.inl ⟨e, hraised.append_left h, rfl⟩))
  · split
    · rename_i hdify
      exact (follows_fallback hdify hn hs).bind fun _ _ _ => trivial
    · exact follows_post (.inl (by simp))

theorem unmapped_given
    (hends : Program.Ends (Router.unmapped s event phrase) tr (.ok (some info))) :
    Given event tr info ∧ Silent tr := by
  rw [Router.unmapped] at hends
  split at hends
  · obtain ⟨tr₁, tr₂, made, rfl, h₁, h₂⟩ := Program.ends_bind.mp hends
    rcases initialize_ends h₁ with ⟨i, rfl, hgiven⟩ | ⟨e, rfl, -⟩
    · cases h₂
      rw [List.append_nil]
      exact ⟨hgiven, h₁.asks initialize_silent⟩
    · simp only at h₂
      split at h₂
      · exact absurd rfl (fallback_none h₂ info)
      · exact absurd rfl (post_none h₂ info)
  · split at hends
    · exact absurd rfl (fallback_none hends info)
    · exact absurd rfl (post_none hends info)

theorem follows_resolve :
    Program.Follows (Confined s event phrase) [] (Router.resolve s event phrase) := by
  refine (Program.follows_perform ⟨rfl, rfl, rfl⟩).bind fun tr₁ noted h₁ => ?_
  refine (Program.follows_perform rfl).bind fun tr₂ cached h₂ => ?_
  cases cached with
  | some info => trivial
  | none =>
    refine (Program.follows_perform ⟨rfl, rfl⟩).bind fun tr₃ found h₃ => ?_
    cases found with
    | ok info => trivial
    | error e =>
      simp only
      split
      · rename_i hkind
        obtain rfl := Program.ends_perform.mp h₁
        obtain rfl := Program.ends_perform.mp h₂
        obtain rfl := Program.ends_perform.mp h₃
        apply follows_unmapped ⟨e, hkind, List.mem_append_right _ (List.mem_singleton_self _)⟩
        simp [Silent, spends, looked_up]
      · trivial

theorem resolve_given
    (hends : Program.Ends (Router.resolve s event phrase) tr (.ok (some info))) :
    Given event tr info ∧ Silent tr := by
  obtain ⟨tr₁, rest, noted, rfl, h₁, hrest⟩ := Program.ends_bind.mp hends
  obtain ⟨tr₂, rest, cached, rfl, h₂, hmore⟩ := Program.ends_bind.mp hrest
  obtain rfl := Program.ends_perform.mp h₁
  obtain rfl := Program.ends_perform.mp h₂
  cases cached with
  | some i =>
    cases hmore
    exact ⟨.inl (by simp), by simp [Silent, spends]⟩
  | none =>
    obtain ⟨tr₃, rest, found, rfl, h₃, hlast⟩ := Program.ends_bind.mp hmore
    obtain rfl := Program.ends_perform.mp h₃
    cases found with
    | ok i =>
      cases hlast
      exact ⟨.inr (.inl (by simp [looked_up])), by simp [Silent, spends]⟩
    | error e =>
      simp only at hlast
      split at hlast
      · obtain ⟨hgiven, hquiet⟩ := unmapped_given hlast
        refine ⟨hgiven.mono fun x hx => by simp [hx], ?_⟩
        simpa [Silent, spends] using hquiet
      · cases hlast

/-! The attachments -/

/-- What is asked about the files of the event. -/
def AboutFiles (s : RouterSettings) (event : IncomingEvent) (uuid : String) : Effect → Prop
  | .makedirs dir => dir = downloads_dir s uuid
  | .get_info file_id | .get_file file_id _ => file_id ∈ event.file_ids
  | .path_exists _ | .uuid4_hex | .chmod _ => event.file_ids ≠ []
  | _ => False

theorem AboutFiles.confined {e : Effect} (he : AboutFiles s event uuid e)
    (hfm : s.file_manager = true) (hw : HasWorkspace event h uuid) :
    Confined s event phrase h e := by
  cases e with
  | makedirs dir => exact ⟨uuid, hw, he⟩
  | get_info file_id => exact ⟨hfm, he⟩
  | get_file file_id path => exact ⟨hfm, he⟩
  | path_exists path => exact ⟨hfm, he⟩
  | uuid4_hex => exact ⟨hfm, he⟩
  | chmod path => exact ⟨hfm, he⟩
  | _ => cases he

theorem AboutFiles.silent {e : Effect} (he : AboutFiles s event uuid e) : spends e = false := by
  cases e with
  | send_message => cases he
  | dify_chat => cases he
  | _ => rfl

theorem asks_download_one {settings : FileSettings} {max_bytes : Int}
    (hid : file_id ∈ event.file_ids) :
    (FileManager.download_one settings file_id dir max_bytes).Asks (AboutFiles s event uuid) := by
  have hne : event.file_ids ≠ [] := List.ne_nil_of_mem hid
  have hmeta : (FileManager.read_meta file_id max_bytes).Asks (AboutFiles s event uuid) :=
    Program.Asks.andThen (Program.asks_perform hid) fun info => trivial
  apply hmeta.andThen
  intro info
  simp only
  split
  · trivial
  · apply Program.Asks.bind
    · refine ⟨hne, fun taken => ?_⟩
      cases taken with
      | false => trivial
      | true => exact ⟨hne, fun hex => trivial⟩
    · intro name
      apply Program.Asks.andThen (Program.asks_perform (by exact hid))
      intro u
      apply Program.Asks.andThen
      · refine ⟨hne, fun r => ?_⟩
        cases r with
        | ok u => trivial
        | error e =>
          simp only [Program.bind]
          split <;> trivial
      · exact fun u => trivial

theorem asks_download_all {settings : FileSettings} {max_bytes : Int} {file_ids : List String}
    (hids : file_ids ⊆ event.file_ids) :
    (FileManager.download_all settings dir max_bytes file_ids).Asks
      (AboutFiles s event uuid) := by
  induction file_ids with
  | nil => trivial
  | cons file_id file_ids ih =>
    have hrest := ih (List.subset_of_cons_subset hids)
    apply (asks_download_one (hids List.mem_cons_self)).bind
    intro downloaded
    cases downloaded with
    | ok found => exact hrest.andThen fun results => trivial
    | error e =>
      simp only
      split
      · exact hrest
      · trivial

theorem asks_attachments (hu : extract_uuid_from_instance_url info.instance_url = some uuid) :
    (Router.attachments s py event info).Asks fun e =>
      s.file_manager = true ∧ AboutFiles s event uuid e := by
  rw [Router.attachments]
  split
  · trivial
  · rename_i hfiles
    obtain ⟨-, hfm⟩ := not_or.mp hfiles
    rw [Bool.not_eq_false] at hfm
    simp only [hu, hfm, true_and]
    apply Program.Asks.bind
    · rw [FileManager.download_attachments]
      split
      · trivial
      · apply Program.Asks.andThen (Program.asks_perform (by rfl))
        exact fun u => asks_download_all (List.Subset.refl _)
    · intro downloaded
      cases downloaded with
      | ok files => trivial
      | error e =>
        simp only
        split <;> trivial

/-- Without a workspace nothing is asked about the attachments. -/
theorem attachments_none (hu : extract_uuid_from_instance_url info.instance_url = none) :
    Router.attachments s py event info = .done (.ok event.text) := by
  rw [Router.attachments]
  split
  · rfl
  · rw [hu]

theorem follows_attachments (hg : Given event h info) :
    Program.Follows (Confined s event phrase) h (Router.attachments s py event info) := by
  cases hu : extract_uuid_from_instance_url info.instance_url with
  | none =>
    rw [attachments_none hu]
    trivial
  | some uuid =>
    apply (asks_attachments hu).follows
    intro tr e he
    exact he.2.confined he.1 ⟨info, hg.append tr, hu⟩

theorem attachments_silent (hends : Program.Ends (Router.attachments s py event info) tr made) :
    Silent tr := by
  cases hu : extract_uuid_from_instance_url info.instance_url with
  | none =>
    rw [attachments_none hu] at hends
    obtain ⟨rfl, -⟩ := Program.ends_done.mp hends
    exact fun x hx => absurd hx List.not_mem_nil
  | some uuid => exact fun x hx => (hends.asks (asks_attachments hu) x hx).2.silent

/-! The answer of the instance -/

theorem Named.append (hn : Named h path) (tr : List Entry) : Named (h ++ tr) path := by
  obtain ⟨u, info, m, k, text, media, hm, hp⟩ := hn
  exact ⟨u, info, m, k, text, media, List.mem_append_left _ hm, hp⟩

theorem follows_upload_media (hw : HasWorkspace event h uuid)
    (hn : ∀ path ∈ media_paths, Named h path) :
    Program.Follows (Confined s event phrase) h
      (Router.upload_media s event uuid media_paths) := by
  induction media_paths generalizing h with
  | nil => trivial
  | cons path media_paths ih =>
    have hrest : ∀ tr, Program.Follows (Confined s event phrase) (h ++ tr)
        (Router.upload_media s event uuid media_paths) := fun tr =>
      ih (hw.append tr) fun p hp => (hn p (List.mem_cons_of_mem _ hp)).append tr
    refine (Program.follows_perform ⟨hw, hn path List.mem_cons_self⟩).andThen
      fun tr host_path hends => ?_
    obtain rfl := Program.ends_perform.mp hends
    split
    · exact hrest _
    · split
      · rename_i hmm
        have hmapped : Mapped (h ++ [⟨.container_path_to_host path uuid, .ok host_path⟩])
            host_path :=
          ⟨path, uuid, List.mem_append_right _ (List.mem_singleton_self _)⟩
        refine (Program.follows_perform ⟨rfl, hmm.1, hmapped⟩).andThen fun tr fid hends => ?_
        rw [List.append_assoc]
        exact (hrest _).andThen fun _ _ _ => trivial
      · exact (hrest _).andThen fun _ _ _ => trivial

/-- The files that are sent along are files of the answer. -/
theorem upload_media_fetched
    (hends : Program.Ends (Router.upload_media s event uuid media_paths) tr (.ok files)) :
    ∀ f ∈ files, Fetched event tr f := by
  induction media_paths generalizing tr files with
  | nil =>
    cases hends
    exact fun f hf => absurd hf List.not_mem_nil
  | cons path media_paths ih =>
    obtain ⟨tr₁, tr₂, r, rfl, h₁, h₂⟩ := Program.ends_bind.mp hends
    rw [Program.ends_perform.mp h₁]
    have hlater : ∀ {files tr}, Program.Ends (Router.upload_media s event uuid media_paths) tr
        (.ok files) → ∀ h, ∀ f ∈ files, Fetched event (h ++ tr) f := by
      intro files tr hrest h f hf
      exact (ih hrest f hf).mono (List.subset_append_right h tr)
    cases r with
    | error e => cases h₂
    | ok host_path =>
      simp only at h₂
      split at h₂
      · exact hlater h₂ _
      · split at h₂
        · obtain ⟨tr₃, tr₄, r, rfl, h₃, h₄⟩ := Program.ends_bind.mp h₂
          rw [Program.ends_perform.mp h₃]
          cases r with
          | error e => cases h₄
          | ok fid =>
            obtain ⟨tr₅, tr₆, r, rfl, h₅, h₆⟩ := Program.ends_bind.mp h₄
            cases r with
            | error e => cases h₆
            | ok later =>
              cases h₆
              intro f hf
              rw [List.append_nil]
              rcases List.mem_append.mp hf with hf | hf
              · refine .inr ⟨host_path, ?_⟩
                have hfid : fid = some f := (Option.mem_filter_iff.mp (Option.mem_toList.mp hf)).1
                rw [hfid]
                exact List.mem_append_right _ (List.mem_append_left _ List.mem_cons_self)
              · rw [← List.append_assoc]
                exact hlater h₅ _ f hf
        · obtain ⟨tr₃, tr₄, r, rfl, h₃, h₄⟩ := Program.ends_bind.mp h₂
          cases r with
          | error e => cases h₄
          | ok later =>
            cases h₄
            intro f hf
            rw [List.append_nil]
            rcases List.mem_cons.mp hf with rfl | hf
            · exact .inl ⟨path, uuid, List.mem_append_left _ List.mem_cons_self⟩
            · exact hlater h₃ _ f hf

theorem follows_uploaded_media (hg : Given event h info)
    (hn : ∀ path ∈ media_paths, Named h path) :
    Program.Follows (Confined s event phrase) h
      (Router.uploaded_media s event info media_paths) := by
  rw [Router.uploaded_media]
  split
  · trivial
  · split
    · trivial
    · rename_i uuid hu
      exact follows_upload_media ⟨info, hg, hu⟩ hn

theorem uploaded_media_fetched
    (hends : Program.Ends (Router.uploaded_media s event info media_paths) tr (.ok files)) :
    ∀ f ∈ files, Fetched event tr f := by
  rw [Router.uploaded_media] at hends
  split at hends
  · cases hends
    exact fun f hf => absurd hf List.not_mem_nil
  · split at hends
    · cases hends
      exact fun f hf => absurd hf List.not_mem_nil
    · exact upload_media_fetched hends

theorem isAnswer_append (ha : IsAnswer h text) (tr : List Entry) : IsAnswer (h ++ tr) text := by
  obtain ⟨hne, ⟨u, info, m, k, media, hm⟩ | ⟨u, m, hm⟩⟩ := ha
  · exact ⟨hne, .inl ⟨u, info, m, k, media, List.mem_append_left _ hm⟩⟩
  · exact ⟨hne, .inr ⟨u, m, List.mem_append_left _ hm⟩⟩

theorem follows_deliver (hp : Router.Placed event h post_id) (ha : IsAnswer h response)
    (hf : ∀ f ∈ files, Fetched event h f) :
    Program.Follows (Confined s event phrase) h
      (Router.deliver_response event post_id response files) := by
  have htold : Sayable phrase h response := .inr (.inr ha)
  rw [Router.deliver_response]
  split
  · split
    · rename_i hne
      refine (Program.follows_perform ⟨hne, hp.resolve_left hne, .inr rfl, htold⟩).andThen
        fun tr u hends => ?_
      have hfiles : ∀ f ∈ files, Fetched event (h ++ tr) f := fun f hmem =>
        (hf f hmem).mono (List.subset_append_left h tr)
      exact (Program.follows_perform ⟨rfl, rfl, .inl rfl, hfiles⟩).andThen fun _ _ _ => trivial
    · exact (Program.follows_perform ⟨rfl, rfl, .inr ha, hf⟩).andThen fun _ _ _ => trivial
  · split
    · rename_i hne
      exact Program.follows_perform ⟨hne, hp.resolve_left hne, .inr rfl, htold⟩
    · exact follows_post htold

theorem follows_exchange (hg : Given event h info) (hs : Silent h)
    (hm : strip event.text = "" ∨ startsWith message_text event.text = true)
    (hp : Router.Placed event h post_id) :
    Program.Follows (Confined s event phrase) h
      (Router.exchange s event info message_text post_id) := by
  refine (Program.follows_perform ⟨rfl, rfl, hg, hm, hs⟩).andThen fun tr answer hends => ?_
  obtain rfl := Program.ends_perform.mp hends
  have hsaid := List.mem_append_right h (List.mem_singleton_self
    (sent (identity_key event.provider event.user_id) info message_text
      (event.provider ++ ":chan:" ++ event.channel_id) (.ok answer)))
  split
  · trivial
  · rename_i hne
    have hnamed : ∀ path ∈ answer.2, Named _ path := fun path hpath =>
      ⟨_, _, _, _, _, _, hsaid, hpath⟩
    have hanswer : IsAnswer _ answer.1 := ⟨hne, .inl ⟨_, _, _, _, _, hsaid⟩⟩
    refine (follows_uploaded_media (hg.append _) hnamed).andThen fun tr files hfiles => ?_
    apply follows_deliver (placed_append (placed_append hp _) _) (isAnswer_append hanswer tr)
    intro f hf
    exact (uploaded_media_fetched hfiles f hf).mono (List.subset_append_right _ tr)

theorem follows_route (hg : Given event h info) (hs : Silent h) :
    Program.Follows (Confined s event phrase) h (Router.route s py event phrase info) := by
  refine (follows_attachments hg).andThen fun tr₁ message_text htext => ?_
  have hquiet := hs.append (attachments_silent htext)
  refine follows_placeholder.bind fun tr₂ post_id hid => ?_
  have hp := Router.placeholder_placed hid (List.subset_append_right (h ++ tr₁) tr₂)
  have hquiet' := hquiet.append (placeholder_silent hid)
  refine (follows_exchange ((hg.append tr₁).append tr₂) hquiet'
    (Router.attachments_text htext) hp).bind fun tr₃ delivered hends => ?_
  cases delivered with
  | ok u => trivial
  | error e => exact follows_post sayable_error

theorem follows_handle_event :
    Program.Follows (Confined s event phrase) [] (Router.handle_event s py event phrase) := by
  refine follows_resolve.andThen fun tr resolved hends => ?_
  cases resolved with
  | none => trivial
  | some info =>
    obtain ⟨hgiven, hquiet⟩ := resolve_given hends
    exact follows_route hgiven hquiet

/-! All the handlers together -/

variable {registered : List String} {pool : Pool} {t u : Handler} {i j : Nat}

/-- The provider has an adapter, and the handler keeps to its event. -/
def Rule (registered : List String) (s : RouterSettings) (l : Handling) (tr : List Entry)
    (e : Effect) : Prop :=
  (get_adapter registered l.event.provider).isSome = true ∧ Confined s l.event l.phrase tr e

theorem follows_code (l : Handling) :
    Program.Follows (Rule registered s l) [] (code registered s py l) := by
  rw [code]
  split
  · trivial
  · rename_i adapter hadapter
    refine follows_handle_event.mono fun tr e he => ⟨?_, he⟩
    rw [hadapter]
    rfl

theorem Reachable.justified (h : Reachable registered s py pool) (ht : t ∈ pool) :
    Program.Justified (Rule registered s t.label) t.trace :=
  (TaskPool.reach_sound h).justified follows_code ht

theorem confined_once {before : List Entry} {e : Effect} (h : Confined s event phrase before e)
    (he : spends e = true) : Silent before := by
  cases e with
  | send_message => exact h.2.2.2.2
  | dify_chat => exact h.2.2.2.2
  | _ => cases he

/-- However the handlers interleave, each asks for its own user only, tells the instance that it
was given for this user the text of the event, shows in the channel of the event what this very
message was answered, with the files of that answer, and asks an instance or Dify at most once. -/
theorem events_stay_with_their_user (h : Reachable registered s py pool) (ht : t ∈ pool) :
    (∀ before x after, t.trace = before ++ x :: after →
      (get_adapter registered t.label.event.provider).isSome = true ∧
        Confined s t.label.event t.label.phrase before x.1) ∧
    t.trace.countP (fun x => spends x.1) ≤ 1 := by
  refine ⟨h.justified ht, (h.justified ht).once fun before e hrule he => ?_⟩
  exact confined_once hrule.2 he

/-- The post ids of Mattermost are good for all channels. -/
def SamePlace (event event' : IncomingEvent) : Prop :=
  event.provider = event'.provider ∧
    (event.provider = "mattermost" ∨ event.channel_id = event'.channel_id)

/-- The platforms give no id to the posts of two handlers. -/
def FreshPosts (pool : Pool) : Prop :=
  ∀ (i j : Nat) (t u : Handler), pool[i]? = some t → pool[j]? = some u →
    SamePlace t.label.event u.label.event → ∀ post_id c m r c' m' r', post_id ≠ "" →
      posted c m r (.ok post_id) ∈ t.trace → posted c' m' r' (.ok post_id) ∈ u.trace → i = j

/-- A post is only edited by the handler that has made it. -/
theorem posts_are_edited_by_their_handler (h : Reachable registered s py pool)
    (hfresh : FreshPosts pool) (hi : pool[i]? = some t) (hj : pool[j]? = some u)
    (hplace : SamePlace t.label.event u.label.event)
    (hpost : posted c m r (.ok post_id) ∈ t.trace)
    (hedit : edited post_id text c' result ∈ u.trace) : i = j := by
  obtain ⟨before, after, hsplit⟩ := List.append_of_mem hedit
  obtain ⟨hne, ⟨first, hown⟩, -, -⟩ :=
    (h.justified (List.mem_of_getElem? hj) before _ after hsplit).2
  have hmade : posted u.label.event.channel_id first u.label.event.root_id (.ok post_id) ∈
      u.trace := by
    rw [hsplit]
    exact List.mem_append_left _ hown
  exact hfresh i j t u hi hj hplace post_id c m r _ _ _ hne hpost hmade

/-! Two users of a group write at the same time -/

def sample_info (instance_url : String) : InstanceInfo :=
  ⟨instance_url, ⟨"device", "public", "private", "token", "gateway"⟩⟩

def sample_handling (user_id : String) : Handling where
  event := { provider := "telegram", channel_id := "group", user_id := user_id, text := "hi" }
  phrase := "⚙️ Working..."

/-- Alice is connected, and Bob has an instance. -/
def sample_answers (i : Nat) : (e : Effect) → e.Answer
  | .get_cached_info key => if key = "telegram:alice" then some (sample_info "ws://one") else none
  | .get_instance_by_identity .. => .ok (sample_info "ws://two")
  | .provision_instance .. => .error ⟨.other, ""⟩
  | .send_message _ info .. => .ok (info.instance_url, [])
  | .send_reply .. | .send_post_with_files .. => .ok (if i = 0 then "first" else "second")
  | .dify_chat .. | .container_path_to_host .. => .ok ""
  | .get_info _ => .ok .null
  | .upload .. => .ok none
  | .path_exists _ => false
  | .uuid4_hex => ""
  | .remember_channel .. | .update_reply .. | .makedirs _ | .get_file .. | .chmod _ => .ok ()

def sample_acts : List (TaskPool.Act Effect.Answer Handling) :=
  [.start (sample_handling "alice"), .start (sample_handling "bob")] ++
    ([0, 1, 1, 0, 1, 0, 1, 1, 0, 1, 0].map fun i => .exchange i (sample_answers i))

def sample_pool : Pool :=
  (exec (TaskPool.step (code ["telegram"] {} {}) spawned) [] sample_acts).getD []

theorem sample_reachable : Reachable ["telegram"] {} {} sample_pool := by
  have hrun : exec (TaskPool.step (code ["telegram"] {} {}) spawned) [] sample_acts =
      some sample_pool := by
    rw [sample_pool]
    exact Option.eq_some_of_isSome (by decide +kernel)
  refine Reach.exec (.start rfl) (meets_of_forall (fun a ha pool => ?_) _) hrun
  rcases List.mem_append.mp ha with ha | ha
  · rcases List.mem_cons.mp ha with rfl | ha
    · trivial
    · rw [List.mem_singleton.mp ha]
      trivial
  · obtain ⟨i, -, rfl⟩ := List.mem_map.mp ha
    trivial

/-- What Bob's handler has exchanged before it tells his instance. -/
def sample_before : List Entry :=
  [⟨.remember_channel "telegram" "bob" "group", .ok ()⟩, ⟨.get_cached_info "telegram:bob", none⟩,
    looked_up "telegram" "bob" (.ok (sample_info "ws://two")),
    posted "group" "⚙️ Working..." "" (.ok "second")]

def sample_alice : List Entry :=
  [⟨.remember_channel "telegram" "alice" "group", .ok ()⟩,
    ⟨.get_cached_info "telegram:alice", some (sample_info "ws://one")⟩,
    posted "group" "⚙️ Working..." "" (.ok "first"),
    sent "telegram:alice" (sample_info "ws://one") "hi" "telegram:chan:group"
      (.ok ("ws://one", [])),
    edited "first" "ws://one" "group" (.ok ())]

def sample_bob : List Entry :=
  sample_before ++ sent "telegram:bob" (sample_info "ws://two") "hi" "telegram:chan:group"
    (.ok ("ws://two", [])) :: [edited "second" "ws://two" "group" (.ok ())]

theorem sample_pool_eq : ∃ t u : Handler, sample_pool = [t, u] ∧
    t.label = sample_handling "alice" ∧ t.trace = sample_alice ∧
    u.label = sample_handling "bob" ∧ u.trace = sample_bob :=
  ⟨_, _, rfl, rfl, rfl, rfl, rfl⟩

theorem events_stay_with_their_user_sample :
    Given (sample_handling "bob").event sample_before (sample_info "ws://two") ∧
      Silent sample_before := by
  obtain ⟨t, u, hpool, -, -, hlabel, htrace⟩ := sample_pool_eq
  have hu : u ∈ sample_pool := by
    rw [hpool]
    exact List.mem_cons_of_mem _ List.mem_cons_self
  obtain ⟨hkeeps, -⟩ := events_stay_with_their_user sample_reachable hu
  obtain ⟨-, hsend⟩ := hkeeps _ _ _ htrace
  rw [hlabel] at hsend
  exact ⟨hsend.2.2.1, hsend.2.2.2.2⟩

theorem sample_alice_posts (h : posted c m r (.ok post_id) ∈ sample_alice) :
    post_id = "first" := by
  simp only [sample_alice, List.mem_cons, List.not_mem_nil, or_false] at h
  rcases h with h | h | h | h | h <;> cases h
  rfl

theorem sample_bob_posts (h : posted c m r (.ok post_id) ∈ sample_bob) : post_id = "second" := by
  simp only [sample_bob, sample_before, List.mem_append, List.mem_cons, List.not_mem_nil,
    or_false] at h
  rcases h with (h | h | h | h) | h | h <;> cases h
  rfl

theorem sample_fresh : FreshPosts sample_pool := by
  obtain ⟨t, u, hpool, -, ht, -, hu⟩ := sample_pool_eq
  rw [hpool]
  intro i j v w hi hj hplace post_id c m r c' m' r' hne hv hw
  rcases i with - | - | i
  · rcases j with - | - | j
    · rfl
    · cases hi
      cases hj
      rw [ht] at hv
      rw [hu] at hw
      exact absurd ((sample_alice_posts hv).symm.trans (sample_bob_posts hw)) (by decide)
    · cases hj
  · rcases j with - | - | j
    · cases hi
      cases hj
      rw [hu] at hv
      rw [ht] at hw
      exact absurd ((sample_alice_posts hw).symm.trans (sample_bob_posts hv)) (by decide)
    · rfl
    · cases hj
  · cases hi

/-- Bob's handler leaves Alice's post alone. -/
theorem posts_are_edited_by_their_handler_sample :
    edited "first" "ws://two" "group" (.ok ()) ∉ sample_bob := by
  obtain ⟨t, u, hpool, ht, htrace, hu, hutrace⟩ := sample_pool_eq
  intro hedit
  have hi : sample_pool[0]? = some t := by rw [hpool]; rfl
  have hj : sample_pool[1]? = some u := by rw [hpool]; rfl
  have hplace : SamePlace t.label.event u.label.event := by
    rw [ht, hu]
    exact ⟨rfl, .inr rfl⟩
  have hpost : posted "group" "⚙️ Working..." "" (.ok "first") ∈ t.trace := by
    rw [htrace]
    exact List.mem_cons_of_mem _ (List.mem_cons_of_mem _ List.mem_cons_self)
  rw [← hutrace] at hedit
  exact absurd (posts_are_edited_by_their_handler sample_reachable sample_fresh hi hj hplace hpost
    hedit) (by decide)

end EventPool

end ClawMux
