import ClawMux.Api.Bitrix
import ClawMux.Lib.TaskPool
import ClawMux.Router.Channels

namespace ClawMux
set_option autoImplicit true
open Lib Lib.Text

structure ControlSettings where
  api_token : String := ""
  mm_action_proxy_url : String := "http://tools-server:3000/mm/action"
  mm_action_shared_secret : String := ""

structure TriggerRequest where
  external_user_id : String
  provider : String := DEFAULT_PROVIDER
  text : String
  session_key : Option String := none
  deriving DecidableEq

structure NotifyRequest where
  external_user_id : String
  provider : String := DEFAULT_PROVIDER
  text : String
  deriving DecidableEq

/-- How `get_instance_by_external_id` raises. -/
inductive LookupFailure
  | unsupported_provider (provider : String)
  | instance_not_found
  | other

/-- The coroutines that the endpoints leave behind. -/
inductive Background
  | trigger_message (user_id : String) (info : InstanceInfo) (text : String)
      (session_key : Option String) (provider : String)
  | handle_proactive (user_id text provider : String)
  deriving DecidableEq

/-- What the endpoints and their coroutines ask of the process and the world. -/
inductive ControlEffect
  | uuid4
  | get_instance_by_external_id (external_user_id provider : String)
  | fire_and_forget (b : Background)
  | reload_cache_version
  | proxy_post (url : String) (payload : Json)
  | user_channel (identity_key : String)
  | set_user_channel (identity_key channel_id : String)
  | get_channel (provider provider_user_id : String)
  | remember_channel (provider provider_user_id channel_id : String)
  | get_or_create_dm_channel (adapter user_id : String)
  | send_message (user_id : String) (info : InstanceInfo) (message session_key : String)
  | send_reply (adapter channel_id message : String)

abbrev ControlEffect.Answer : ControlEffect → Type
  | .uuid4 => String
  | .get_instance_by_external_id .. => Except LookupFailure (String × InstanceInfo)
  | .reload_cache_version => Except Unit Nat
  | .proxy_post .. => Except Unit Json
  | .user_channel _ => Option String
  | .get_channel .. => Except Unit (Option String)
  | .get_or_create_dm_channel .. | .send_reply .. => Except Unit String
  | .send_message .. => Except Unit (String × List String)
  | .remember_channel .. => Except Unit Unit
  | .fire_and_forget _ | .set_user_channel .. => Unit

/-- How a request ends, or how a coroutine in the background does. -/
inductive ControlAnswer
  | http_exception (status_code : Nat) (detail : String)
  | triggered (request_id : String)
  | notified
  | reloaded
  | action (response : Json)
  | raised
  | ended (result : Except Unit Unit)

/-- `{"status": "sent"}` -/
def ControlAnswer.sent : ControlAnswer → Bool
  | .triggered _ | .notified => true
  | _ => false

abbrev ControlTask (α : Type) := Program ControlEffect ControlEffect.Answer α

abbrev ControlTrace := List (Sigma ControlEffect.Answer)

def trigger_error_text : String := "❌ An error occurred while executing the background task."

def action_failed_text : String :=
  "⚠️ Processing error (backend unavailable). Please try replying with text."

namespace ControlPlane

variable (registered : List String)

/-! `get_or_create_channel`, `trigger_message` and `handle_proactive` as coroutines -/

def remember_channel (identity_key provider provider_user_id channel_id : String) :
    ControlTask Unit :=
  (Program.perform (ControlEffect.set_user_channel identity_key channel_id)).bind fun _ : Unit =>
    (Program.perform (ControlEffect.remember_channel provider provider_user_id channel_id)).bind
      fun _ : Except Unit Unit => .done ()

def create_channel (identity_key provider_user_id provider : String) :
    ControlTask (Except Unit String) :=
  match get_adapter registered provider with
  | none => .done (.ok "")
  | some adapter =>
    (Program.perform (ControlEffect.get_or_create_dm_channel adapter provider_user_id)).andThen
      fun channel_id : String =>
    if channel_id = "" then .done (.ok "")
    else (remember_channel identity_key provider provider_user_id channel_id).bind fun _ =>
      .done (.ok channel_id)

def get_or_create_channel (identity_key provider_user_id provider : String) :
    ControlTask (Except Unit String) :=
  (Program.perform (ControlEffect.user_channel identity_key)).bind fun cached : Option String =>
    match truthy cached with
    -- a cached channel does not return
    | some _ => create_channel registered identity_key provider_user_id provider
    | none =>
      (Program.perform (ControlEffect.get_channel provider provider_user_id)).bind
        fun read : Except Unit (Option String) =>
      match truthy (read.toOption.bind id) with
      | some channel_id =>
        (Program.perform (ControlEffect.set_user_channel identity_key channel_id)).bind
          fun _ : Unit => .done (.ok channel_id)
      | none => create_channel registered identity_key provider_user_id provider

/-- `if channel_id and adapter: await adapter.send_reply(channel_id, text)` -/
def reply (adapter : Option String) (channel_id text : String) : ControlTask (Except Unit Unit) :=
  match adapter with
  | none => .done (.ok ())
  | some adapter =>
    if channel_id = "" then .done (.ok ())
    else
      (Program.perform (ControlEffect.send_reply adapter channel_id text)).andThen
        fun _ : String => .done (.ok ())

/-- The session of a trigger. -/
def session_of (session_key : Option String) (provider channel_id : String) : String :=
  (truthy session_key).getD
    (if channel_id = "" then "agent:main:main" else provider ++ ":chan:" ++ channel_id)

/-- The `try` block of `trigger_message`. -/
def deliver (user_id : String) (info : InstanceInfo) (text session_key channel_id : String)
    (adapter : Option String) : ControlTask (Except Unit Unit) :=
  (Program.perform (ControlEffect.send_message user_id info text session_key)).andThen
    fun answer : String × List String =>
  if answer.1 = "" then .done (.ok ()) else reply adapter channel_id answer.1

def trigger_message (user_id : String) (info : InstanceInfo) (text : String)
    (session_key : Option String) (provider : String) : ControlTask (Except Unit Unit) :=
  (get_or_create_channel registered (identity_key provider user_id) user_id provider).andThen
    fun channel_id =>
  let adapter := get_adapter registered provider
  (deliver (identity_key provider user_id) info text (session_of session_key provider channel_id)
    channel_id adapter).bind fun delivered =>
  match delivered with
  | .ok () => .done (.ok ())
  | .error () => reply adapter channel_id trigger_error_text

def handle_proactive (user_id text provider : String) : ControlTask (Except Unit Unit) :=
  let key := normalize_identity_key provider user_id
  let puid := provider_user_id key provider
  match get_adapter registered provider with
  | none => .done (.ok ())
  | some adapter =>
    (get_or_create_channel registered key puid provider).andThen fun channel_id =>
    if channel_id = "" ∨ text = "" then .done (.ok ())
    else
      (Program.perform (ControlEffect.send_reply adapter channel_id text)).bind
        fun _ : Except Unit String => .done (.ok ())

def background : Background → ControlTask (Except Unit Unit)
  | .trigger_message user_id info text session_key provider =>
    trigger_message registered user_id info text session_key provider
  | .handle_proactive user_id text provider => handle_proactive registered user_id text provider

/-! The endpoints -/

variable (repr : String → String) (s : ControlSettings)

/-- `settings.api_token and secrets.compare_digest(x_api_token, settings.api_token)` -/
def authorize (x_api_token : String) : Except Raised Bool :=
  if s.api_token = "" then .ok false else compare_digest x_api_token s.api_token

/-- The rest of an endpoint after its check of the header. -/
def guarded (x_api_token : String) (rest : ControlTask ControlAnswer) : ControlTask ControlAnswer :=
  match authorize s x_api_token with
  | .error _ => .done .raised
  | .ok false => .done (.http_exception 401 "Invalid or missing API token")
  | .ok true => rest

/-- The lookup of an endpoint; `missing` is its answer for a user without an instance. -/
def resolve (external_user_id provider missing : String)
    (rest : String → InstanceInfo → ControlTask ControlAnswer) : ControlTask ControlAnswer :=
  (Program.perform (ControlEffect.get_instance_by_external_id external_user_id provider)).bind
    fun found : Except LookupFailure (String × InstanceInfo) =>
  match found with
  | .ok (provider_user_id, info) => rest provider_user_id info
  | .error (.unsupported_provider p) =>
    .done (.http_exception 400 ("Provider is not enabled: " ++ repr p))
  | .error .instance_not_found => .done (.http_exception 404 missing)
  | .error .other => .done .raised

def trigger (x_api_token : String) (req : TriggerRequest) : ControlTask ControlAnswer :=
  guarded s x_api_token
    ((Program.perform ControlEffect.uuid4).bind fun request_id : String =>
      let provider := lower (strip req.provider)
      resolve repr req.external_user_id provider
        ("No OpenClaw instance configured for external_user_id=" ++ repr req.external_user_id)
        fun provider_user_id info =>
          (Program.perform (ControlEffect.fire_and_forget
            (.trigger_message provider_user_id info req.text req.session_key provider))).bind
              fun _ : Unit => .done (.triggered request_id))

def notify (x_api_token : String) (req : NotifyRequest) : ControlTask ControlAnswer :=
  guarded s x_api_token
    (let provider := lower (strip req.provider)
    resolve repr req.external_user_id provider
      ("No mapping for external_user_id=" ++ repr req.external_user_id)
      fun provider_user_id _ =>
        (Program.perform (ControlEffect.fire_and_forget
          (.handle_proactive provider_user_id req.text provider))).bind
            fun _ : Unit => .done .notified)

/-- `mapping` is whether the application has one. -/
def reload_mappings (mapping : Bool) (x_api_token : String) : ControlTask ControlAnswer :=
  guarded s x_api_token
    (if mapping then
      (Program.perform ControlEffect.reload_cache_version).bind fun version : Except Unit Nat =>
        match version with
        | .ok _ => .done .reloaded
        | .error () => .done .raised
    else .done .reloaded)

/-- A click, with what `request.json()` makes of its body unless it raises. -/
structure ActionRequest where
  x_mm_action_secret : String := ""
  secret : String := ""
  json : Option Json

def authorize_action (r : ActionRequest) : Except Raised Bool :=
  let provided := if r.x_mm_action_secret ≠ "" then r.x_mm_action_secret else r.secret
  if s.mm_action_shared_secret = "" ∨ provided = "" then .ok false
  else compare_digest provided s.mm_action_shared_secret

/-- `payload.get("context", {})`, and its `get` for the log. -/
def action_context (payload : Json) : Except Raised Unit := do
  let context ← Dynamic.get "context" (.obj []) payload
  let _ ← Dynamic.get "task_id" .null context
  let _ ← Dynamic.get "action" .null context
  return ()

def proxy_mm_action (r : ActionRequest) : ControlTask ControlAnswer :=
  match authorize_action s r with
  | .error _ => .done .raised
  | .ok false => .done (.http_exception 401 "Invalid or missing action secret")
  | .ok true =>
    match r.json with
    | none => .done (.http_exception 400 "Invalid JSON")
    | some payload =>
      match action_context payload with
      | .error _ => .done .raised
      | .ok () =>
        (Program.perform (ControlEffect.proxy_post s.mm_action_proxy_url payload)).bind
          fun response : Except Unit Json =>
        match response with
        | .ok response => .done (.action response)
        | .error () =>
          .done (.action (.obj [("update", .obj [("message", .str action_failed_text)])]))

/-! The requests and the coroutines of one process -/

inductive Job
  | trigger (x_api_token : String) (req : TriggerRequest)
  | notify (x_api_token : String) (req : NotifyRequest)
  | reload_mappings (x_api_token : String)
  | proxy_mm_action (r : ActionRequest)
  | background (b : Background)

def code (mapping : Bool) : Job → ControlTask ControlAnswer
  | .trigger x_api_token req => trigger repr s x_api_token req
  | .notify x_api_token req => notify repr s x_api_token req
  | .reload_mappings x_api_token => reload_mappings s mapping x_api_token
  | .proxy_mm_action r => proxy_mm_action s r
  | .background b => (background registered b).bind fun result => .done (.ended result)

def spawned : ControlEffect → Option Job
  | .fire_and_forget b => some (.background b)
  | _ => none

/-- Requests of any kind, and messages of the instances that `main` hands to `handle_proactive`. -/
def Outer : Job → Prop
  | .background (.trigger_message ..) => False
  | .background (.handle_proactive _ _ provider) => provider = DEFAULT_PROVIDER
  | _ => True

abbrev Pool := TaskPool ControlEffect ControlEffect.Answer ControlAnswer Job

def Reachable (mapping : Bool) : Pool → Prop :=
  Reach (TaskPool.step (code registered repr s mapping) spawned) (TaskPool.Admits Outer) (· = [])

end ControlPlane

end ClawMux
