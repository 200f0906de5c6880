import ClawMux.Services.MappingChannels

namespace ClawMux
set_option autoImplicit true
open Lib.Text

/-! `ProviderRegistry` and the identity keys of `Router` -/

/-- The registry by the names of its adapters. -/
def registry_get (registered : List String) (name : String) : Option String :=
  let name := lower (strip name)
  if name ∈ registered then some name else none

def get_adapter (registered : List String) (provider : String) : Option String :=
  match registry_get registered provider with
  | some adapter => some adapter
  | none =>
    if provider = DEFAULT_PROVIDER ∨ provider = "" then registry_get registered DEFAULT_PROVIDER
    else none

def identity_key (provider provider_user_id : String) : String :=
  provider ++ ":" ++ provider_user_id

def normalize_identity_key (provider user_id : String) : String :=
  if startsWith user_id (provider ++ ":") then user_id else identity_key provider user_id

def provider_user_id (identity_key provider : String) : String :=
  if startsWith identity_key (provider ++ ":") then dropLen identity_key (provider ++ ":")
  else identity_key

/-! The last known channel of an identity -/

/-- The process-local dictionary of one router, and the database. -/
structure RouterState where
  user_channels : String → Option String
  db : Db

/-- What the database and the platforms answer during one call. -/
structure Answers where
  read_ok : Bool := true
  write_ok : Bool := true
  get_or_create_dm_channel : String → String → Except Unit String

inductive PlatformCall
  | get_or_create_dm_channel (adapter user_id : String)
  | send_reply (adapter channel_id text : String)
  deriving DecidableEq, Repr

/-- A call with the platform calls it made, also when it raised. -/
structure Ran (α : Type) where
  state : RouterState
  calls : List PlatformCall
  result : Except Unit α

/-- The empty string and `None` are false. -/
def truthy (x : Option String) : Option String := x.filter (· ≠ "")

namespace Router

/-- `_remember_channel`; a failed write is only logged. -/
def remember_channel (a : Answers) (s : RouterState) (identity_key provider provider_user_id
    channel_id : String) : RouterState where
  user_channels := Function.update s.user_channels identity_key (some channel_id)
  db :=
    if a.write_ok then
      match ClawMux.remember_channel s.db provider provider_user_id channel_id with
      | .ok db => db
      | .error _ => s.db
    else s.db

def read_channel (a : Answers) (s : RouterState) (provider provider_user_id : String) :
    Option String :=
  if a.read_ok then
    match get_channel s.db provider provider_user_id with
    | .ok channel_id => channel_id
    | .error _ => none
  else none

/-- The part of `get_or_create_channel` after the cached and the persisted channel. -/
def create_channel (registered : List String) (a : Answers) (s : RouterState)
    (identity_key provider_user_id provider : String) : Ran String :=
  match get_adapter registered provider with
  | none => ⟨s, [], .ok ""⟩
  | some adapter =>
    let calls := [.get_or_create_dm_channel adapter provider_user_id]
    match a.get_or_create_dm_channel adapter provider_user_id with
    | .error e => ⟨s, calls, .error e⟩
    | .ok channel_id =>
      if channel_id = "" then ⟨s, calls, .ok ""⟩
      else
        ⟨remember_channel a s identity_key provider provider_user_id channel_id, calls,
          .ok channel_id⟩

def get_or_create_channel (registered : List String) (a : Answers) (s : RouterState)
    (identity_key provider_user_id provider : String) : Ran String :=
  match truthy (s.user_channels identity_key) with
  -- a cached channel does not return
  | some _ => create_channel registered a s identity_key provider_user_id provider
  | none =>
    match truthy (read_channel a s provider provider_user_id) with
    | some channel_id =>
      ⟨{ s with user_channels := Function.update s.user_channels identity_key (some channel_id) },
        [], .ok channel_id⟩
    | none => create_channel registered a s identity_key provider_user_id provider

/-- What `handle_event` does to the channels before it routes the message. -/
def note_event (registered : List String) (a : Answers) (s : RouterState)
    (provider user_id channel_id : String) : RouterState :=
  match get_adapter registered provider with
  | none => s
  | some _ =>
    remember_channel a s (identity_key provider user_id) provider user_id channel_id

def handle_proactive (registered : List String) (a : Answers) (s : RouterState)
    (user_id text provider : String) : Ran Unit :=
  let key := normalize_identity_key provider user_id
  let puid := provider_user_id key provider
  match get_adapter registered provider with
  | none => ⟨s, [], .ok ()⟩
  | some adapter =>
    match get_or_create_channel registered a s key puid provider with
    | ⟨s, calls, .error e⟩ => ⟨s, calls, .error e⟩
    | ⟨s, calls, .ok channel_id⟩ =>
      if channel_id = "" ∨ text = "" then ⟨s, calls, .ok ()⟩
      else ⟨s, calls ++ [.send_reply adapter channel_id text], .ok ()⟩

end Router

end ClawMux
