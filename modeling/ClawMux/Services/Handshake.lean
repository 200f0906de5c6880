import ClawMux.Core.Models
import ClawMux.Lib.Replace
import ClawMux.Lib.Triple
import ClawMux.Services.AdapterEvent

namespace ClawMux
set_option autoImplicit true
open Lib Lib.Text

/-- What leaves an await of a connecting client: the cancellation of its task, an
`OpenClawConnectionError`, or another exception with its text. -/
inductive GatewayFault
  | cancelled
  | connection_error (message : String)
  | other (text : String)
  deriving DecidableEq

def was_cancelled (x : Except GatewayFault α) : Bool :=
  match x with
  | .error .cancelled => true
  | _ => false

/-- WebSockets are numbered in the order in which a client opens them. -/
inductive GatewayEffect
  | connect (instance_url origin : String)
  | recv (ws : Nat)
  | send (ws : Nat) (frame : Json)
  | close (ws : Nat)
  | time
  | uuid4
  | sleep (delay : Rat)

abbrev GatewayEffect.Answer : GatewayEffect → Type
  | .recv _ => Except GatewayFault String
  | .connect .. | .send .. | .close _ | .sleep _ => Except GatewayFault Unit
  | .time => Int
  | .uuid4 => String

/-- What `connect` reads and writes of a client, and how many WebSockets it has opened. -/
structure GatewayConn where
  ws : Option Nat := none
  connected : Bool := false
  listening : Bool := false
  opened : Nat := 0
  deriving DecidableEq

/-- The values of Python, `json.loads`, and Ed25519: a private key, coded as base64url, gives what
codes the signatures of payloads. -/
structure GatewayPython where
  dynamics : Dynamics := {}
  describe : Raised → String := fun _ => ""
  loads : String → Except String Json := fun text => .ok (.str text)
  private_key : String → Except String (String → String) := fun _ => .ok id

abbrev Handshake (α : Type) : Type :=
  Action GatewayEffect GatewayEffect.Answer GatewayConn GatewayFault α

namespace Handshake

def raises (text : String) : Handshake α := Action.throw (.other text)

def python (py : GatewayPython) (x : Except Raised α) : Handshake α :=
  Action.ofExcept (x.mapError fun r => .other (py.describe r))

/-- The socket that the client has. -/
def ws (py : GatewayPython) : Handshake Nat := do
  let c ← Action.get
  match c.ws with
  | some w => return w
  | none => raises (py.describe .attribute_error)

/-- `self._ws = await websockets.connect(...)` -/
def connect_socket (instance_url origin : String) : Handshake Unit := do
  let answer ← Action.ask (.connect instance_url origin)
  Action.ofExcept answer
  Action.modify fun c => { c with ws := some c.opened, opened := c.opened + 1 }

def recv (py : GatewayPython) : Handshake Json := do
  let w ← ws py
  let answer ← Action.ask (.recv w)
  let raw ← Action.ofExcept answer
  Action.ofExcept ((py.loads raw).mapError .other)

def send (py : GatewayPython) (frame : Json) : Handshake Unit := do
  let w ← ws py
  let answer ← Action.ask (.send w frame)
  Action.ofExcept answer

def close (py : GatewayPython) : Handshake Unit := do
  let w ← ws py
  let answer ← Action.ask (.close w)
  Action.ofExcept answer

def sleep (delay : Rat) : Handshake Unit := do
  let answer ← Action.ask (.sleep delay)
  Action.ofExcept answer

end Handshake

/-- What an `OpenClawClient` is made with. -/
structure Gateway where
  instance_url : String
  credentials : DeviceCredentials

namespace Gateway

def CLIENT_ID : String := "openclaw-control-ui"

def CLIENT_MODE : String := "webchat"

def PLATFORM : String := "python-service"

def ROLE : String := "operator"

def SCOPES : List String :=
  ["operator.admin", "operator.read", "operator.write", "operator.approvals", "operator.pairing"]

def SCOPES_CSV : String := ",".intercalate SCOPES

/-- The `client` and `device` parts of an identity; the others are constants. -/
structure Identity where
  client : List (String × Json)
  device : Json

variable (py : GatewayPython) (g : Gateway)

def sign_connect (nonce : Json) : Handshake Identity := do
  let sign ← Action.ofExcept ((py.private_key g.credentials.private_key_b64).mapError .other)
  let signed_at_ms ← Action.ask .time
  match nonce with
  | .str text =>
    let sign_payload := "|".intercalate ["v2", g.credentials.device_id, CLIENT_ID, CLIENT_MODE,
      ROLE, SCOPES_CSV, toString signed_at_ms, g.credentials.gateway_token, text]
    return {
      client := [("id", .str CLIENT_ID), ("version", .str "clawmux-2.0"),
        ("platform", .str PLATFORM), ("mode", .str CLIENT_MODE)]
      device := .obj [("id", .str g.credentials.device_id),
        ("publicKey", .str g.credentials.public_key_b64), ("signature", .str (sign sign_payload)),
        ("signedAt", .num signed_at_ms), ("nonce", nonce)] }
  | _ => Handshake.raises (py.describe .type_error)

def connect_msg (id : String) (identity : Identity) : Json :=
  .obj [("type", .str "req"), ("id", .str id), ("method", .str "connect"),
    ("params", .obj [("minProtocol", .num 4), ("maxProtocol", .num 4),
      ("client", .obj identity.client), ("role", .str ROLE),
      ("scopes", .arr (SCOPES.map .str)), ("device", identity.device),
      ("caps", .arr [.str "tool-events"]),
      ("auth", .obj [("token", .str g.credentials.gateway_token),
        ("deviceToken", .str g.credentials.device_token)])])]

def missing : List String :=
  let c := g.credentials
  [("device_id", c.device_id), ("public_key_b64", c.public_key_b64),
    ("private_key_b64", c.private_key_b64), ("device_token", c.device_token),
    ("gateway_token", c.gateway_token)].filterMap fun field =>
      if strip field.2 = "" then some field.1 else none

def replace (old new s : String) : String :=
  String.ofList (Replace.replaceAll old.toList new.toList s.toList)

def origin : String :=
  let origin := replace "/ws" "" (replace "ws://" "http://" g.instance_url)
  if "http://openclaw:18789".toList.isPrefixOf origin.toList then "http://127.0.0.1:18789"
  else origin

/-- The nonce of a challenge. -/
def challenge (expected : String) : Handshake Json := do
  let data ← Handshake.recv py
  let event ← Handshake.python py (Dynamic.get "event" .null data)
  if event.string ≠ some "connect.challenge" then
    Action.throw (.connection_error (expected ++ event.format py.dynamics))
  else do
    let payload ← Handshake.python py (Dynamic.item "payload" data)
    Handshake.python py (Dynamic.item "nonce" payload)

def gateway_build_id (res : Json) : Handshake Json := do
  let error_obj ← Handshake.python py (Dynamic.get "error" (.obj []) res)
  let details := Json.get error_obj.fields "details" .null
  return Json.get details.fields "gatewayBuildId" .null

/-- The connect request once more, over a new socket. -/
def retry (id : String) (gw_build_id : Json) : Handshake Json := do
  Handshake.close py
  Handshake.connect_socket g.instance_url g.origin
  let nonce ← challenge py "Expected connect.challenge on retry, got: "
  let identity ← g.sign_connect py nonce
  Handshake.send py (g.connect_msg id
    { identity with client := identity.client ++ [("buildId", gw_build_id)] })
  Handshake.recv py

/-- `self._connected = True`, and the task of the listen loop. -/
def established : Handshake Unit :=
  Action.modify fun c => { c with connected := true, listening := true }

def refused (res : Json) : Handshake Unit := do
  let error ← Handshake.python py (Dynamic.get "error" (.str "unknown") res)
  Action.throw (.connection_error ("Connect rejected: " ++ error.format py.dynamics))

/-- The response to a request that was refused before. -/
def second_response (id : String) (res : Json) : Handshake Json := do
  let gw_build_id ← gateway_build_id py res
  if gw_build_id.truthy then g.retry py id gw_build_id else return res

/-- The `try` block of `connect`. -/
def handshake : Handshake Unit :=
  if g.missing ≠ [] then
    Action.throw (.connection_error ("Instance credentials are incomplete in DB (missing: " ++
      ", ".intercalate g.missing ++ ")."))
  else do
    Handshake.connect_socket g.instance_url g.origin
    let nonce ← challenge py "Expected connect.challenge, got: "
    let identity ← g.sign_connect py nonce
    let id ← Action.ask .uuid4
    Handshake.send py (g.connect_msg id identity)
    let res ← Handshake.recv py
    let ok ← Handshake.python py (Dynamic.get "ok" .null res)
    if ok.truthy then established
    else do
      let res ← g.second_response py id res
      let ok ← Handshake.python py (Dynamic.get "ok" .null res)
      if ok.truthy then established else refused py res

/-- `await self._ws.close()`, where an exception is only logged. -/
def close_held : Handshake Unit := do
  let c ← Action.get
  match c.ws with
  | some w => do
    let answer ← Action.ask (.close w)
    if was_cancelled answer then Action.throw .cancelled else return ()
  | none => return ()

/-- The `except Exception` clause of `connect`, which does not see a cancellation. -/
def cleanup (e : GatewayFault) : Handshake Unit :=
  if e = .cancelled then Action.throw e
  else do
    Action.modify fun c => { c with connected := false }
    close_held
    Action.modify fun c => { c with ws := none }
    Action.throw (match e with
      | .other text => .connection_error ("Connection failed: " ++ text)
      | e => e)

def connect : Handshake Unit := (g.handshake py).catching cleanup

/-- An attempt, by the message of its `OpenClawConnectionError`. -/
def attempt : Handshake (Option String) :=
  (do g.connect py; return none : Handshake (Option String)).catching fun e =>
    match e with
    | .connection_error message => return some message
    | e => Action.throw e

/-- The attempts from the given one on, `left` of them, and the error of the last one. -/
def attempts (max_retries : Nat) (base_delay : Rat) : Nat → Nat → String → Handshake Unit
  | 0, _, last_error =>
    Action.throw (.connection_error
      ("Failed to connect after " ++ toString max_retries ++ " attempts: " ++ last_error))
  | left + 1, n, _ => do
    let failed ← g.attempt py
    match failed with
    | none => return ()
    | some message =>
      if n < max_retries then do
        Handshake.sleep (base_delay * 2 ^ (n - 1))
        attempts max_retries base_delay left (n + 1) message
      else attempts max_retries base_delay left (n + 1) message

def connect_with_retry (max_retries : Nat) (base_delay : Rat) : Handshake Unit :=
  g.attempts py max_retries base_delay max_retries 1 "None"

end Gateway

end ClawMux
