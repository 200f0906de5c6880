import ClawMux.Lib.Path
import ClawMux.Services.FileManager
import ClawMux.Services.Mapping

namespace ClawMux
set_option autoImplicit true
open Lib Lib.Text

/-- How the library lowers characters that are not ASCII, and which hosts in brackets or outside
ASCII its URL parser takes. -/
structure LibraryTables where
  lower : String → String := Text.lower
  netloc : String → Bool := fun _ => true

/-! `uuid.UUID` -/

/-- A pattern without special characters. -/
def literal (word : List Char) : Matcher := fun s =>
  if word.isPrefixOf s then some (word, s.drop word.length) else none

/-- `s.replace(word, "")` -/
def remove (word : String) (s : List Char) : List Char := eraseAll (literal word.toList) s.length s

/-- `s.strip(chars)` -/
def strip_chars (chars : List Char) (s : List Char) : List Char :=
  ((s.dropWhile (· ∈ chars)).reverse.dropWhile (· ∈ chars)).reverse

def is_digit16 (c : Char) : Bool := is_hex c || (decimal c).isSome

/-- Digits with single underscores between them. -/
def digits16 : List Char → Bool
  | [] => false
  | [c] => is_digit16 c
  | c :: '_' :: s => is_digit16 c && digits16 s
  | c :: s => is_digit16 c && digits16 s

def drop_sign : List Char → List Char
  | '+' :: s => s
  | '-' :: s => s
  | s => s

/-- Any decimal zero begins the base. -/
def drop_base : List Char → List Char
  | c :: x :: s =>
    if decimal c = some 0 ∧ (x = 'x' ∨ x = 'X') then
      match s with
      | '_' :: s => s
      | s => s
    else c :: x :: s
  | s => s

/-- `int(s, 16)` does not raise. -/
def is_int16 (s : List Char) : Bool := digits16 (drop_base (drop_sign (intStrip s)))

/-- The digits that are left of a text when `uuid.UUID` has taken out what it ignores. -/
def uuid_digits (hex : String) : List Char :=
  (strip_chars ['{', '}'] (remove "uuid:" (remove "urn:" hex.toList))).filter (· ≠ '-')

/-- `uuid.UUID(hex)` does not raise. -/
def is_uuid (hex : String) : Bool :=
  (uuid_digits hex).length = 32 && is_int16 (uuid_digits hex)

/-! `urllib.parse.urlparse` -/

structure ParsedUrl where
  scheme : String
  hostname : String

def scheme_char (c : Char) : Bool :=
  c.isAlphanum || c = '+' || c = '-' || c = '.'

def split_scheme (url : List Char) : String × List Char :=
  let word := url.takeWhile (· ≠ ':')
  match url.drop word.length with
  | ':' :: rest =>
    if word.head?.any Char.isAlpha && word.all scheme_char then
      (lower (String.ofList word), rest)
    else ("", url)
  | _ => ("", url)

def split_netloc : List Char → List Char
  | '/' :: '/' :: rest => rest.takeWhile fun c => c ≠ '/' && c ≠ '?' && c ≠ '#'
  | _ => []

/-- The host, without credentials and port; the zone of an address keeps its case. -/
def hostname (t : LibraryTables) (netloc : List Char) : String :=
  let hostinfo := (netloc.reverse.takeWhile (· ≠ '@')).reverse
  let host :=
    match hostinfo.dropWhile (· ≠ '[') with
    | '[' :: bracketed => bracketed.takeWhile (· ≠ ']')
    | _ => hostinfo.takeWhile (· ≠ ':')
  let name := host.takeWhile (· ≠ '%')
  t.lower (String.ofList name) ++ String.ofList (host.drop name.length)

/-- The parts of a URL that are looked at; `none` when the parser raises. -/
def urlparse (t : LibraryTables) (url : String) : Option ParsedUrl :=
  let url := (url.toList.dropWhile (·.toNat ≤ 0x20)).filter fun c =>
    !([0x09, 0x0a, 0x0d].contains c.toNat)
  let (scheme, rest) := split_scheme url
  let netloc := split_netloc rest
  if netloc.contains '[' ≠ netloc.contains ']' ∨ t.netloc (String.ofList netloc) = false then none
  else some ⟨scheme, hostname t netloc⟩

/-! The provisioner -/

structure ProvisioningSettings where
  provisioning_driver : String := "webhook"
  provisioning_webhook_url : String := ""
  provisioning_allowed_instance_hosts : String := ""
  workspace_base_path : String := "/configs"
  workspace_template_exists : Bool := true

/-- `ProvisioningError` with what its text names; `raised` stands for every other exception. -/
inductive ProvisioningError
  | unsupported_driver (driver : String)
  | webhook_not_configured
  | webhook_failed
  | invalid_instance_uuid (instance_uuid : String)
  | scheme_not_allowed (scheme : String)
  | no_host
  | host_not_allowed (hostname : String)
  | raised

/-- What a driver returns. -/
structure DriverAnswer where
  instance_uuid : Json
  instance_url : Json
  device_id : Json
  public_key_b64 : Json
  private_key_b64 : Json
  device_token : Json
  gateway_token : Json
  role : Json
  workspace_seeded : Bool

/-- What is bound, and the directory that was seeded for it. -/
structure Provisioned where
  instance_uuid : String
  instance_url : String
  credentials : DeviceCredentials
  role : String
  seeded : Option String

def Provisioned.bind_args (p : Provisioned) (provider user_id : String) : BindArgs where
  provider := provider
  provider_user_id := user_id
  instance_uuid := p.instance_uuid
  instance_url := p.instance_url
  credentials := p.credentials
  role := some p.role

namespace InstanceProvisioner

variable (t : LibraryTables) (settings : ProvisioningSettings)

def allowed_hosts : List String :=
  (((settings.provisioning_allowed_instance_hosts.toList.splitOn ',').map fun h =>
    strip (String.ofList h)).filter (· ≠ "")).map t.lower

/-- A value that is no text makes `uuid.UUID` or `urlparse` raise. -/
def validate_provisioned_target (instance_uuid instance_url : Json) :
    Except ProvisioningError (String × String) :=
  match instance_uuid with
  | .str uuid =>
    if is_uuid uuid = false then .error (.invalid_instance_uuid uuid)
    else
      match instance_url.string.bind fun url => (urlparse t url).map (url, ·) with
      | none => .error .raised
      | some (url, parsed) =>
        let allowed := allowed_hosts t settings
        if parsed.scheme ≠ "ws" ∧ parsed.scheme ≠ "wss" then
          .error (.scheme_not_allowed parsed.scheme)
        else if parsed.hostname = "" then .error .no_host
        else if allowed ≠ [] ∧ t.lower parsed.hostname ∉ allowed then
          .error (.host_not_allowed parsed.hostname)
        else .ok (uuid, url)
  | _ => .error .raised

def provision_mock (user_id uuid4 : String) : DriverAnswer where
  instance_uuid := .str uuid4
  instance_url := .str "ws://localhost:18789/ws"
  device_id := .str ("dev-mock-" ++ String.ofList (user_id.toList.take 8))
  public_key_b64 := .str "mock-public-key-b64"
  private_key_b64 := .str "mock-private-key-b64"
  device_token := .str "mock-device-token"
  gateway_token := .str "mock-gateway-token"
  role := .null
  workspace_seeded := false

/-- `reply` is the JSON that the webhook answers with, unless the request fails. -/
def provision_webhook (reply : Except Unit Json) (uuid4 : String) :
    Except ProvisioningError DriverAnswer :=
  if settings.provisioning_webhook_url = "" then .error .webhook_not_configured
  else
    match reply with
    | .ok (.obj data) =>
      let given := Json.get data "instance_uuid" .null
      let instance_url := Json.get data "instance_url" .null
      match Json.get data "credentials" (.obj []) with
      | .obj creds_raw =>
        if instance_url.truthy = false then .error .webhook_failed
        else
          .ok {
            instance_uuid := if given.truthy then given else .str uuid4
            instance_url := instance_url
            device_id := Json.get creds_raw "device_id" (.str "")
            public_key_b64 := Json.get creds_raw "public_key_b64" (.str "")
            private_key_b64 := Json.get creds_raw "private_key_b64" (.str "")
            device_token := Json.get creds_raw "device_token" (.str "")
            gateway_token := Json.get creds_raw "gateway_token" (.str "")
            role := Json.get data "role" .null
            workspace_seeded :=
              match Json.get data "workspace_seeded" .null with
              | .bool b => b
              | _ => false }
      | _ => .error .webhook_failed
    | _ => .error .webhook_failed

/-- The directory that `_seed_workspace_template` fills; what goes wrong there is only logged. -/
def seed_workspace_template (instance_uuid : String) : Option String :=
  if settings.workspace_template_exists then
    some (Path.join (Path.join settings.workspace_base_path instance_uuid) "workspace")
  else none

def driver_answer (user_id : String) (reply : Except Unit Json) (uuid4 : String) :
    Except ProvisioningError DriverAnswer :=
  let driver := strip (t.lower settings.provisioning_driver)
  if driver = "mock" then .ok (provision_mock user_id uuid4)
  else if driver = "webhook" then provision_webhook settings reply uuid4
  else .error (.unsupported_driver driver)

/-- The columns of the binding are texts that are not null; other values make it raise. -/
def columns (answer : DriverAnswer) : Option (DeviceCredentials × String) := do
  let device_id ← answer.device_id.string
  let public_key_b64 ← answer.public_key_b64.string
  let private_key_b64 ← answer.private_key_b64.string
  let device_token ← answer.device_token.string
  let gateway_token ← answer.gateway_token.string
  let role ← (if answer.role.truthy then answer.role else .str "user").string
  return (⟨device_id, public_key_b64, private_key_b64, device_token, gateway_token⟩, role)

/-- `provision_instance` up to the call of `bind_user_instance`. -/
def provision_instance (user_id : String) (reply : Except Unit Json) (uuid4 : String) :
    Except ProvisioningError Provisioned := do
  let answer ← driver_answer t settings user_id reply uuid4
  let (instance_uuid, instance_url) ←
    validate_provisioned_target t settings answer.instance_uuid answer.instance_url
  match columns answer with
  | none => throw .raised
  | some (credentials, role) =>
    return {
      instance_uuid := instance_uuid
      instance_url := instance_url
      credentials := credentials
      role := role
      seeded :=
        if answer.workspace_seeded then none else seed_workspace_template settings instance_uuid }

end InstanceProvisioner

end ClawMux
