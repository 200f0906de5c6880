import ClawMux.Router.Channels
import ClawMux.Router.Reply
import ClawMux.Services.FileManager

namespace ClawMux
set_option autoImplicit true
open Lib Lib.Text

/-! `Router.handle_event` from the event to its end -/

structure RouterSettings extends FileSettings where
  enable_auto_provisioning : Bool := false
  dify : Bool := false
  file_manager : Bool := false

/-- An event with the fields that routing reads. -/
structure IncomingEvent extends ChannelEvent where
  user_id : String
  text : String
  file_ids : List String := []

def initializing_text : String := "⏳ Initializing your personal OpenClaw workspace..."

def ready_text : String := "✅ Workspace ready! Processing your message..."

def failed_intro : String := "❌ Failed to initialize your workspace: "

def unassigned_text : String :=
  "⚠️ No OpenClaw instance is assigned to your account. Please contact the administrator."

def dify_empty_text : String := "❌ Unable to get a response. Please try again later."

def thinking_phrases : List String :=
  ["💭 Thinking...", "✍️ Writing an answer...", "🧠 Processing...", "🔍 Reviewing the request...",
    "⚙️ Working...", "⏳ One moment...", "🤓 Remembering...", "📚 Looking for information...",
    "✨ Creating a response...", "📝 Formulating a reply...", "🤖 Gears are turning...",
    "💡 Gathering ideas...", "🧩 Putting the pieces together...", "🚀 Preparing the answer...",
    "🧐 Analyzing..."]

namespace Router

/-- A failed placeholder is only logged. -/
def placeholder (event : IncomingEvent) (phrase : String) : Task String :=
  (Program.perform (Effect.send_reply event.channel_id phrase event.root_id)).bind
    fun sent : Except Exn String => .done (sent.toOption.getD "")

/-- An edit of the placeholder, or a post where there is none. -/
def edit_or_send (event : IncomingEvent) (placeholder_id text : String) : Fallible Unit :=
  if placeholder_id ≠ "" then
    Program.perform (Effect.update_reply placeholder_id text event.channel_id)
  else
    (Program.perform (Effect.send_reply event.channel_id text event.root_id)).andThen
      fun _ : String => .done (.ok ())

/-- `_handle_dify_fallback`; the error message is sent on a best effort. -/
def handle_dify_fallback (event : IncomingEvent) (phrase : String) : Task Unit :=
  (placeholder event phrase).bind fun placeholder_id =>
    ((Program.perform (Effect.dify_chat event.user_id event.text)).andThen fun response : String =>
      edit_or_send event placeholder_id
        (if response ≠ "" then response else dify_empty_text)).bind fun delivered =>
      match delivered with
      | .ok () => .done ()
      | .error _ => (edit_or_send event placeholder_id error_text).bind fun _ => .done ()

/-- The `try` block of the auto-provisioning. -/
def initialize_workspace (event : IncomingEvent) : Fallible InstanceInfo :=
  (Program.perform (Effect.send_reply event.channel_id initializing_text event.root_id)).andThen
    fun placeholder_id : String =>
      (Program.perform (Effect.provision_instance event.provider event.user_id)).andThen
        fun info : InstanceInfo =>
          if placeholder_id ≠ "" then
            (Program.perform (Effect.update_reply placeholder_id ready_text
              (edit_channel event.toChannelEvent))).andThen fun () => .done (.ok info)
          else .done (.ok info)

def auto_provision (s : RouterSettings) (event : IncomingEvent) (phrase : String) :
    Fallible (Option InstanceInfo) :=
  (initialize_workspace event).bind fun made =>
    match made with
    | .ok info => .done (.ok (some info))
    | .error e =>
      if s.dify then (handle_dify_fallback event phrase).bind fun () => .done (.ok none)
      else
        (Program.perform (Effect.send_reply event.channel_id (failed_intro ++ e.text)
          event.root_id)).andThen fun _ : String => .done (.ok none)

/-- A user without an instance. -/
def unmapped (s : RouterSettings) (event : IncomingEvent) (phrase : String) :
    Fallible (Option InstanceInfo) :=
  if s.enable_auto_provisioning then auto_provision s event phrase
  else if s.dify then (handle_dify_fallback event phrase).bind fun () => .done (.ok none)
  else
    (Program.perform (Effect.send_reply event.channel_id unassigned_text event.root_id)).andThen
      fun _ : String => .done (.ok none)

/-- The instance of the user; `none` when the event is dealt with already. -/
def resolve (s : RouterSettings) (event : IncomingEvent) (phrase : String) :
    Fallible (Option InstanceInfo) :=
  (Program.perform (Effect.remember_channel event.provider event.user_id event.channel_id)).bind
    fun _ : Except Exn Unit =>
  (Program.perform (Effect.get_cached_info (identity_key event.provider event.user_id))).bind
    fun cached : Option InstanceInfo =>
  match cached with
  | some info => .done (.ok (some info))
  | none =>
    (Program.perform (Effect.get_instance_by_identity event.provider event.user_id)).bind
      fun found : Except Exn InstanceInfo =>
    match found with
    | .ok info => .done (.ok (some info))
    | .error e =>
      if e.kind = .instance_not_found then unmapped s event phrase else .done (.error e)

/-- The text with a list of the downloaded files. -/
def with_attachments (py : Dynamics) (text : String) (downloaded : List DownloadedFile) : String :=
  let attachment_context := build_attachment_context py downloaded
  if attachment_context = "" then text
  else if strip text = "" then "User attached file(s) without text." ++ attachment_context
  else text ++ attachment_context

/-- Route A. -/
def attachments (s : RouterSettings) (py : Dynamics) (event : IncomingEvent) (info : InstanceInfo) :
    Fallible String :=
  if event.file_ids = [] ∨ s.file_manager = false then .done (.ok event.text)
  else
    match extract_uuid_from_instance_url info.instance_url with
    | none => .done (.ok event.text)
    | some uuid =>
      (FileManager.download_attachments s.toFileSettings event.file_ids uuid).bind fun downloaded =>
        match downloaded with
        | .ok files => .done (.ok (with_attachments py event.text files))
        | .error e =>
          if e.kind = .os_error ∨ e.kind = .http_error then .done (.ok event.text)
          else .done (.error e)

/-- The loop over the media paths of an answer. -/
def upload_media (s : RouterSettings) (event : IncomingEvent) (uuid : String) :
    List String → Fallible (List String)
  | [] => .done (.ok [])
  | container_path :: media_paths =>
    (Program.perform (Effect.container_path_to_host container_path uuid)).andThen
      fun host_path : String =>
    if host_path = "" then upload_media s event uuid media_paths
    else if event.provider = "mattermost" ∧ s.file_manager then
      (Program.perform (Effect.upload host_path event.channel_id)).andThen
        fun fid : Option String =>
      (upload_media s event uuid media_paths).andThen fun files =>
        .done (.ok ((fid.filter (· ≠ "")).toList ++ files))
    else
      (upload_media s event uuid media_paths).andThen fun files => .done (.ok (host_path :: files))

def uploaded_media (s : RouterSettings) (event : IncomingEvent) (info : InstanceInfo)
    (media_paths : List String) : Fallible (List String) :=
  if media_paths = [] then .done (.ok [])
  else
    match extract_uuid_from_instance_url info.instance_url with
    | none => .done (.ok [])
    | some uuid => upload_media s event uuid media_paths

def post_files (event : IncomingEvent) (message : String) (files : List String) : Fallible Unit :=
  (Program.perform (Effect.send_post_with_files event.channel_id message files
    event.root_id)).andThen fun _ : String => .done (.ok ())

def edit_placeholder (event : IncomingEvent) (placeholder_id response : String) : Fallible Unit :=
  Program.perform (Effect.update_reply placeholder_id response (edit_channel event.toChannelEvent))

def deliver_response (event : IncomingEvent) (placeholder_id response : String)
    (files : List String) : Fallible Unit :=
  if files ≠ [] then
    if placeholder_id ≠ "" then
      (edit_placeholder event placeholder_id response).andThen fun () => post_files event "" files
    else post_files event response files
  else if placeholder_id ≠ "" then edit_placeholder event placeholder_id response
  else
    (Program.perform (Effect.send_reply event.channel_id response event.root_id)).andThen
      fun _ : String => .done (.ok ())

/-- The `try` block around `send_message`. -/
def exchange (s : RouterSettings) (event : IncomingEvent) (info : InstanceInfo)
    (message_text placeholder_id : String) : Fallible Unit :=
  (Program.perform (Effect.send_message (identity_key event.provider event.user_id) info
    message_text (event.provider ++ ":chan:" ++ event.channel_id))).andThen
      fun answer : String × List String =>
    if answer.1 = "" then .done (.ok ())
    else
      (uploaded_media s event info answer.2).andThen fun files =>
        deliver_response event placeholder_id answer.1 files

/-- Once the instance of the user is known. -/
def route (s : RouterSettings) (py : Dynamics) (event : IncomingEvent) (phrase : String)
    (info : InstanceInfo) : Fallible Unit :=
  (attachments s py event info).andThen fun message_text =>
    (placeholder event phrase).bind fun placeholder_id =>
      (exchange s event info message_text placeholder_id).bind fun sent =>
        match sent with
        | .ok () => .done (.ok ())
        | .error _ =>
          (Program.perform (Effect.send_reply event.channel_id error_text event.root_id)).andThen
            fun _ : String => .done (.ok ())

/-- `handle_event` for a provider with an adapter; `phrase` is the chosen placeholder text. -/
def handle_event (s : RouterSettings) (py : Dynamics) (event : IncomingEvent) (phrase : String) :
    Fallible Unit :=
  (resolve s event phrase).andThen fun resolved =>
    match resolved with
    | none => .done (.ok ())
    | some info => route s py event phrase info

end Router

end ClawMux
