import ClawMux.Services.AdapterEvent

namespace ClawMux
set_option autoImplicit true
open Lib Lib.Text

structure BitrixSettings where
  bitrix_inbound_secret : String := ""
  bitrix_bot_id : Int := 0

/-- A request, with what `request.json()` and `request.form()` make of its body. -/
structure BitrixRequest where
  content_type : String
  query_params : List (String × String)
  json : Json
  form : Except Raised (List (String × String))

/-- How a request ends that does not raise; `event` is what the router is given. -/
inductive BitrixAnswer
  | http_exception (status_code : Nat) (detail : String)
  | status (text : String) (event : Option AdapterEvent)

/-- `dict(items)`: the last value of each key. -/
def dict (items : List (String × String)) : List (String × String) :=
  items.foldl (fun d item => item :: d.filter fun old => old.1 ≠ item.1) []

/-- `secrets.compare_digest(a, b)`, which takes only ASCII. -/
def compare_digest (a b : String) : Except Raised Bool :=
  if (a ++ b).toList.all fun c => c.toNat < 0x80 then .ok (a = b) else .error .type_error

namespace Bitrix

variable (py : Dynamics) (settings : BitrixSettings) (app_router : Bool)

/-- `dict(form)` -/
def form_payload (form : List (String × String)) : Json :=
  .obj ((dict form).map fun item => (item.1, .str item.2))

def payload (r : BitrixRequest) : Except Raised Json :=
  if Text.contains r.content_type "application/json" then .ok r.json else r.form.map form_payload

/-- The first of the query parameters that is not empty. -/
def query_token (query_params : List (String × String)) : String :=
  ((["secure", "access_token", "code"].filterMap fun key => (dict query_params).lookup key).find?
    (· ≠ "")).getD ""

def extract_inbound_token (query_params : List (String × String)) (payload : Json) :
    Except Raised String := do
  match ← Dynamic.get "auth" .null payload with
  | .obj auth =>
    match Json.get auth "access_token" .null with
    | .str token => return if token ≠ "" then token else query_token query_params
    | _ => return query_token query_params
  | _ => return query_token query_params

def authorize (inbound_token : String) : Except Raised Bool :=
  if inbound_token = "" then .ok false
  else compare_digest inbound_token settings.bitrix_inbound_secret

def find_params (payload : Json) : Except Raised Json := do
  let data := Dynamic.either (Dynamic.either (← Dynamic.get "data" .null payload)
    (← Dynamic.get "DATA" .null payload)) (.obj [])
  return Dynamic.either (Dynamic.either (← Dynamic.get "PARAMS" .null data)
    (← Dynamic.get "PARAMS" .null payload)) data

/-- `str(params.get(name) or "")` -/
def param (params : List (String × Json)) (name : String) : String :=
  let value := Json.get params name .null
  if value.truthy then value.format py else ""

def respond (params : List (String × Json)) : BitrixAnswer :=
  let from_user_id := param py params "FROM_USER_ID"
  let dialog_id := param py params "DIALOG_ID"
  let message_text := strip (param py params "MESSAGE")
  let message_id := param py params "MESSAGE_ID"
  if settings.bitrix_bot_id ≠ 0 ∧ from_user_id = toString settings.bitrix_bot_id then
    .status "ignored_bot_own_message" none
  else if message_text = "" ∨ from_user_id = "" ∨ dialog_id = "" then .status "ignored_empty" none
  else
    let event : AdapterEvent := {
      provider := "bitrix"
      user_id := .str from_user_id
      channel_id := .str dialog_id
      text := .str message_text
      post_id := .str message_id }
    .status "received" (if app_router then some event else none)

def bitrix_webhook_event (r : BitrixRequest) : Except Raised BitrixAnswer := do
  let payload ← payload r
  if settings.bitrix_inbound_secret = "" then
    return .http_exception 401 "Bitrix webhook is disabled"
  let inbound_token ← extract_inbound_token r.query_params payload
  if ← authorize settings inbound_token then
    match ← find_params payload with
    | .obj params => return respond py settings app_router params
    | _ => throw .attribute_error
  else return .http_exception 401 "Invalid webhook token"

end Bitrix

end ClawMux
