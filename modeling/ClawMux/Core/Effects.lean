import ClawMux.Core.Models
import ClawMux.Lib.Json
import ClawMux.Lib.Program

namespace ClawMux
set_option autoImplicit true
open Lib

/-- The exception classes that the handlers of the router tell apart. -/
inductive ExnKind
  | instance_not_found
  | os_error
  | http_error
  | other
  deriving DecidableEq, Repr

/-- An exception and its `str`. -/
structure Exn where
  kind : ExnKind
  text : String
  deriving DecidableEq, Repr

/-- What the router and the file manager ask of the world. -/
inductive Effect
  | remember_channel (provider provider_user_id channel_id : String)
  | get_cached_info (user_id : String)
  | get_instance_by_identity (provider provider_user_id : String)
  | provision_instance (provider user_id : String)
  | send_reply (channel_id message root_id : String)
  | update_reply (post_id message channel_id : String)
  | send_post_with_files (channel_id message : String) (file_ids_or_paths : List String)
      (root_id : String)
  | send_message (user_id : String) (info : InstanceInfo) (message session_key : String)
  | dify_chat (user_id message : String)
  | container_path_to_host (container_path uuid : String)
  | makedirs (dir : String)
  | get_info (file_id : String)
  | path_exists (path : String)
  | uuid4_hex
  | get_file (file_id host_path : String)
  | chmod (path : String)
  | upload (host_path channel_id : String)
  deriving DecidableEq, Repr

/-- What the world answers. -/
abbrev Effect.Answer : Effect → Type
  | .get_cached_info _ => Option InstanceInfo
  | .path_exists _ => Bool
  | .uuid4_hex => String
  | .get_instance_by_identity .. | .provision_instance .. => Except Exn InstanceInfo
  | .send_reply .. | .send_post_with_files .. | .dify_chat .. | .container_path_to_host .. =>
    Except Exn String
  | .send_message .. => Except Exn (String × List String)
  | .get_info _ => Except Exn Json
  | .upload .. => Except Exn (Option String)
  | .remember_channel .. | .update_reply .. | .makedirs _ | .get_file .. | .chmod _ =>
    Except Exn Unit

/-- A coroutine of the router. -/
abbrev Task (α : Type) := Program Effect Effect.Answer α

/-- A coroutine that may raise. -/
abbrev Fallible (α : Type) := Task (Except Exn α)

end ClawMux
