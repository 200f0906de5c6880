import ClawMux.Lib.Interleave
import ClawMux.Router.HandleEvent

namespace ClawMux
set_option autoImplicit true
open Lib Lib.Text

/-- The exchanges of many handlers, each with its number. -/
abbrev Log := List (Nat × Sigma Effect.Answer)

/-- The requests that `FileManager` makes with the token of the Mattermost bot. -/
def mattermost_request : Effect → Option Effect
  | .get_info file_id => some (.get_info file_id)
  | .get_file file_id host_path => some (.get_file file_id host_path)
  | .upload host_path channel_id => some (.upload host_path channel_id)
  | _ => none

def mattermost_requests (log : Log) : List Effect :=
  log.filterMap fun x => mattermost_request x.2.1

/-- A file of Mattermost and the path that it is written to. -/
def written_file : Sigma Effect.Answer → Option (String × String)
  | ⟨.get_file file_id host_path, .ok ()⟩ => some (file_id, host_path)
  | _ => none

def files_written (log : Log) : List (String × String) :=
  log.filterMap fun x => written_file x.2

/-- The providers whose events carry file ids that are none of Mattermost. -/
def foreign_providers : List String := ["telegram", "slack", "vk_teams", "teams"]

/-- Events that may differ in the file ids of a foreign provider. -/
structure Alike (event event' : IncomingEvent) : Prop where
  fields : event' = { event with file_ids := event'.file_ids }
  own_ids : event.provider ∉ foreign_providers → event' = event

/-- `teams_webhook_messages`: the names of the attachments, which their sender chooses. -/
def teams_file_ids (py : Dynamics) (attachments : List (List (String × Json))) : List String :=
  attachments.mapIdx fun i a => (Json.get a "name" (.num i)).format py

namespace Router

variable {s : RouterSettings} {py : Dynamics} {event event' : IncomingEvent} {phrase : String}
  {info : InstanceInfo}

theorem attachments_unused
    (h : event.file_ids = [] ∨ s.file_manager = false ∨
      extract_uuid_from_instance_url info.instance_url = none) :
    attachments s py event info = .done (.ok event.text) := by
  rw [attachments]
  split
  · rfl
  · rename_i hno
    obtain ⟨hids, hfm⟩ := not_or.mp hno
    rw [(h.resolve_left hids).resolve_left hfm]

theorem upload_media_ids (F : List String) (uuid : String) (media_paths : List String) :
    upload_media s { event with file_ids := F } uuid media_paths =
      upload_media s event uuid media_paths := by
  induction media_paths with
  | nil => rfl
  | cons path media_paths ih => simp only [upload_media, ih]

theorem exchange_ids (F : List String) (message_text placeholder_id : String) :
    exchange s { event with file_ids := F } info message_text placeholder_id =
      exchange s event info message_text placeholder_id := by
  simp only [exchange, uploaded_media, upload_media_ids]
  rfl

/-- Nothing but the attachments looks at the file ids. -/
theorem route_ids (F : List String)
    (h : event.file_ids = [] ∨ s.file_manager = false ∨
      extract_uuid_from_instance_url info.instance_url = none)
    (h' : F = [] ∨ s.file_manager = false ∨
      extract_uuid_from_instance_url info.instance_url = none) :
    route s py { event with file_ids := F } phrase info = route s py event phrase info := by
  have hids : ({ event with file_ids := F } : IncomingEvent).file_ids = [] ∨
      s.file_manager = false ∨ extract_uuid_from_instance_url info.instance_url = none := h'
  simp only [route, attachments_unused h, attachments_unused hids, exchange_ids]
  rfl

/-- What `handle_event` does with the instance. -/
def proceed (s : RouterSettings) (py : Dynamics) (event : IncomingEvent) (phrase : String) :
    Option InstanceInfo → Fallible Unit
  | none => .done (.ok ())
  | some info => route s py event phrase info

theorem handle_event_proceed :
    handle_event s py event phrase =
      (resolve s event phrase).andThen (proceed s py event phrase) := by
  rw [handle_event]
  congr 1

/-- The handlers of a run, one for each event. -/
def handlers (s : RouterSettings) (py : Dynamics) (phrase : Nat → String)
    (events : Nat → IncomingEvent) (i : Nat) : Fallible Unit :=
  handle_event s py (events i) (phrase i)

/-- No event of a foreign provider that carries file ids is routed, with the file manager at hand,
to an instance whose URL has a uuid. -/
def NoForeignFiles (s : RouterSettings) (phrase : Nat → String) (events : Nat → IncomingEvent)
    (log : Log) : Prop :=
  ∀ i, (events i).provider ∈ foreign_providers → ∀ tr info, tr <+: Interleaved.own i log →
    Program.Ends (resolve s (events i) (phrase i)) tr (.ok (some info)) →
    (events i).file_ids = [] ∨ s.file_manager = false ∨
      extract_uuid_from_instance_url info.instance_url = none

/-- The same requests with the token of the bot, and the same files. -/
structure Isolated (log log' : Log) : Prop where
  requests : mattermost_requests log = mattermost_requests log'
  files : files_written log = files_written log'

/-- Two handlers are the same, or still looking for the instance, at the same point. -/
def InStep (s : RouterSettings) (py : Dynamics) (phrase : Nat → String)
    (events events' : Nat → IncomingEvent) (i : Nat) (tr : List (Sigma Effect.Answer))
    (p q : Fallible Unit) : Prop :=
  p = q ∨ ∃ e next, Program.Reaches (resolve s (events i) (phrase i)) tr (.ask e next) ∧
    p = Program.andThen (.ask e next) (proceed s py (events i) (phrase i)) ∧
    q = Program.andThen (.ask e next) (proceed s py (events' i) (phrase i))

/-- The handlers do the same with an instance that they have found. -/
def SameRoute (s : RouterSettings) (py : Dynamics) (phrase : Nat → String)
    (events events' : Nat → IncomingEvent) (i : Nat) (tr : List (Sigma Effect.Answer)) : Prop :=
  ∀ info, Program.Ends (resolve s (events i) (phrase i)) tr (.ok (some info)) →
    route s py (events i) (phrase i) info = route s py (events' i) (phrase i) info

theorem locked_inStep {phrase : Nat → String} {events events' : Nat → IncomingEvent} :
    Interleaved.Locked (SameRoute s py phrase events events')
      (InStep s py phrase events events') := by
  rintro i tr p q (rfl | ⟨e, next, hreach, rfl, rfl⟩)
  · cases p with
    | done a => exact .inl ⟨a, a, rfl, rfl⟩
    | ask e next => exact .inr ⟨e, next, next, rfl, rfl, fun r _ => .inl rfl⟩
  · refine .inr ⟨e, _, _, rfl, rfl, ?_⟩
    intro r hgood
    have hnext := hreach.snoc r
    cases hq : next r with
    | ask e' next' =>
      rw [hq] at hnext
      exact .inr ⟨e', next', hnext, rfl, rfl⟩
    | done x =>
      left
      rw [hq] at hnext
      cases x with
      | error e => rfl
      | ok resolved =>
        cases resolved with
        | none => rfl
        | some info =>
          have hends := hnext.ends (.done _)
          rw [List.append_nil] at hends
          exact hgood info hends

theorem sameRoute {phrase : Nat → String} {events events' : Nat → IncomingEvent} {i : Nat}
    (ha : Alike (events i) (events' i))
    (h : NoForeignFiles s phrase events log) (h' : NoForeignFiles s phrase events' log')
    (htr : tr <+: Interleaved.own i log) (htr' : tr <+: Interleaved.own i log') :
    SameRoute s py phrase events events' i tr := by
  intro info hends
  by_cases hp : (events i).provider ∈ foreign_providers
  · have hfields := ha.fields
    generalize (events' i).file_ids = F at hfields
    have hp' : (events' i).provider ∈ foreign_providers := by
      rw [hfields]
      exact hp
    have hends' : Program.Ends (resolve s (events' i) (phrase i)) tr (.ok (some info)) := by
      rw [hfields]
      exact hends
    have hnone := h i hp tr info htr hends
    have hnone' := h' i hp' tr info htr' hends'
    rw [hfields] at hnone' ⊢
    exact (route_ids F hnone hnone').symm
  · rw [ha.own_ids hp]

/-- Runs that differ in the file ids of the foreign providers make the same requests with the
token of the Mattermost bot, and write the same files. -/
theorem attachments_isolated (env : Env Effect Effect.Answer) (phrase : Nat → String)
    (events events' : Nat → IncomingEvent) (schedule : List Nat)
    (ha : ∀ i, Alike (events i) (events' i))
    (h : NoForeignFiles s phrase events
      (Interleaved.run env (handlers s py phrase events) schedule).log)
    (h' : NoForeignFiles s phrase events'
      (Interleaved.run env (handlers s py phrase events') schedule).log) :
    Isolated (Interleaved.run env (handlers s py phrase events) schedule).log
      (Interleaved.run env (handlers s py phrase events') schedule).log := by
  have hstart : ∀ i, InStep s py phrase events events' i [] (handlers s py phrase events i)
      (handlers s py phrase events' i) := by
    intro i
    have hresolve : resolve s (events' i) (phrase i) = resolve s (events i) (phrase i) := by
      rw [(ha i).fields]
      rfl
    refine .inr ⟨_, _, .refl _, handle_event_proceed, ?_⟩
    rw [handlers, handle_event_proceed, hresolve]
    rfl
  have hboth : Interleaved.Alongside (InStep s py phrase events events')
      (Interleaved.run env (handlers s py phrase events) schedule)
      (Interleaved.run env (handlers s py phrase events') schedule) :=
    Interleaved.run_alongside locked_inStep hstart schedule fun i tr htr htr' =>
      sameRoute (ha i) h h' htr htr'
  rw [hboth.log]
  exact ⟨rfl, rfl⟩

/-- A world where the instances of all users are cached, and Mattermost has a file of every id. -/
def cached_at (instance_url : String → String) : Env Effect Effect.Answer :=
  fun _ _ e =>
    match e with
    | .get_cached_info user_id => some ⟨instance_url user_id, ⟨"d", "p", "k", "t", "g"⟩⟩
    | .path_exists _ => false
    | .uuid4_hex => "ab12cd"
    | .get_info _ => .ok (.obj [("name", .str "plan.pdf")])
    | .get_instance_by_identity .. | .provision_instance .. | .send_reply ..
    | .send_post_with_files .. | .dify_chat .. | .container_path_to_host .. | .send_message ..
    | .upload .. | .update_reply .. => .error ⟨.http_error, "HTTP error"⟩
    | .remember_channel .. | .makedirs _ | .chmod _ | .get_file .. => .ok ()

/-- A message on Teams, with attachments of the given names. -/
def on_teams (names : List String) : IncomingEvent :=
  { provider := "teams", channel_id := "c", user_id := "u", text := "hi",
    file_ids := teams_file_ids {} (names.map fun name => [("name", .str name)]) }

def on_mattermost (file_ids : List String) : IncomingEvent :=
  { provider := "mattermost", channel_id := "d", user_id := "m", text := "hi",
    file_ids := file_ids }

theorem cached_at_resolves (hends : Program.Ends (resolve s event phrase) tr (.ok (some info)))
    (htr : ∀ x ∈ tr, ∃ log i, x.2 = cached_at instance_url log i x.1) :
    info.instance_url = instance_url (identity_key event.provider event.user_id) := by
  obtain ⟨tr₁, rest, r, rfl, h₁, h⟩ := Program.ends_bind.mp hends
  obtain ⟨tr₂, rest, cached, rfl, h₂, h⟩ := Program.ends_bind.mp h
  rw [Program.ends_perform.mp h₂] at htr
  obtain ⟨log, i, hcached⟩ := htr _
    (List.mem_append_right _ (List.mem_append_left _ (List.mem_singleton_self _)))
  cases hcached
  cases h
  rfl

theorem cached_at_remote (phrase : Nat → String) (events : Nat → IncomingEvent)
    (schedule : List Nat)
    (hurl : ∀ i, (events i).provider ∈ foreign_providers → extract_uuid_from_instance_url
      (instance_url (identity_key (events i).provider (events i).user_id)) = none) :
    NoForeignFiles s phrase events
      (Interleaved.run (cached_at instance_url) (handlers s py phrase events) schedule).log := by
  intro i hforeign tr info htr hends
  right
  right
  have hinfo : info.instance_url =
      instance_url (identity_key (events i).provider (events i).user_id) := by
    apply cached_at_resolves hends
    intro x hx
    obtain ⟨log, hlog⟩ := Interleaved.run_answers (Interleaved.mem_own (htr.mem hx))
    exact ⟨log, i, hlog⟩
  rw [hinfo, hurl i hforeign]

/-- Only the user of Mattermost has an instance of this host. -/
def mattermost_hosted (user_id : String) : String :=
  if user_id = "mattermost:m" then "ws://00000000-0000-0000-0000-000000000000" else "ws://a"

/-- Two messages on Teams around one with a file on Mattermost. -/
def teams_and_mattermost (names : List String) (i : Nat) : IncomingEvent :=
  if i = 1 then on_mattermost ["f"] else on_teams names

def mixed_log (names : List String) : Log :=
  (Interleaved.run (cached_at mattermost_hosted)
    (handlers { file_manager := true } {} (fun _ => "") (teams_and_mattermost names))
    [0, 1, 2, 1, 1, 0, 1, 1, 1, 1, 2, 0]).log

theorem teams_and_mattermost_alike (names names' : List String) (i : Nat) :
    Alike (teams_and_mattermost names i) (teams_and_mattermost names' i) := by
  rw [teams_and_mattermost, teams_and_mattermost]
  split
  · exact ⟨rfl, fun _ => rfl⟩
  · have hteams : "teams" ∈ foreign_providers := by decide
    exact ⟨rfl, fun h => absurd hteams h⟩

theorem teams_and_mattermost_remote (names : List String) (i : Nat)
    (h : (teams_and_mattermost names i).provider ∈ foreign_providers) :
    extract_uuid_from_instance_url (mattermost_hosted
      (identity_key (teams_and_mattermost names i).provider
        (teams_and_mattermost names i).user_id)) = none := by
  rw [teams_and_mattermost] at h ⊢
  split at h
  · have hmattermost : "mattermost" ∉ foreign_providers := by decide
    exact absurd h hmattermost
  · rename_i hi
    rw [if_neg hi]
    have hurl : extract_uuid_from_instance_url (mattermost_hosted "teams:u") = none := by decide
    exact hurl

theorem attachments_isolated_remote :
    Isolated (mixed_log ["x"]) (mixed_log ["y"]) ∧
      Effect.get_info "f" ∈ mattermost_requests (mixed_log ["x"]) ∧
      (files_written (mixed_log ["x"])).map (·.1) = ["f"] := by
  refine ⟨?_, by decide, by decide⟩
  exact attachments_isolated (cached_at mattermost_hosted) (fun _ => "")
    (teams_and_mattermost ["x"]) (teams_and_mattermost ["y"]) _
    (teams_and_mattermost_alike ["x"] ["y"])
    (cached_at_remote _ _ _ (teams_and_mattermost_remote ["x"]))
    (cached_at_remote _ _ _ (teams_and_mattermost_remote ["y"]))

def hosted (_user_id : String) : String := "ws://00000000-0000-0000-0000-000000000000"

/-- A file id of Mattermost as the name of an attachment on Teams is asked for with the token. -/
theorem not_attachments_isolated : ¬ Isolated
    (Interleaved.run (cached_at hosted)
      (handlers { file_manager := true } {} (fun _ => "") fun _ => on_teams ["x"]) [0, 0, 0, 0]).log
    (Interleaved.run (cached_at hosted)
      (handlers { file_manager := true } {} (fun _ => "") fun _ => on_teams [])
      [0, 0, 0, 0]).log := by
  intro h
  exact absurd h.requests (by decide)

end Router

end ClawMux
