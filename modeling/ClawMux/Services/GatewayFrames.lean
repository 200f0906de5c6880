import ClawMux.Lib.Json

namespace ClawMux
set_option autoImplicit true
open Lib Lib.Text

/-- What `_dispatch` acts on in a frame. A frame that is skipped, or on which it raises before it
has done anything, is `ignored`; `id` is the request that a rejection answers, which the code does
not look at. -/
inductive GatewayFrame
  | ignored
  | rejected (id error : Json)
  | assistant (run_id : Key) (text : Json)
  | lifecycle_error (run_id : Key) (error : Json)
  | lifecycle_end (run_id : Key)
  | chat (run_id : Key) (state text seq : Json) (payload : List (String × Json))
  | cron (summary : Json)

namespace GatewayFrame

def SKIP_EVENTS : List String := ["health", "tick", "presence", "heartbeat"]

/-- The texts of the parts of type text. -/
def text_parts (content : List Json) : List Json :=
  content.filterMap fun part =>
    if (Json.get part.fields "type" .null).string = some "text" then
      let text := Json.get part.fields "text" (.str "")
      if text.truthy then some text else none
    else none

/-- `_extract_text`, or none where it raises. -/
def extract_text (payload : List (String × Json)) : Option Json :=
  match Json.get payload "message" (.obj []) with
  | .obj message_obj =>
    let parts :=
      match Json.get message_obj "content" (.arr []) with
      | .arr content => text_parts content
      | _ => []
    if parts.isEmpty then
      let flat_text := Json.get payload "text" (.str "")
      some (if flat_text.truthy then flat_text else .str "")
    else (parts.mapM Json.string).map fun texts => .str ("\n\n".intercalate texts)
  | _ => none

/-- The frames of an agent run; an unhashable run id ends in a `TypeError`, and so does slicing one
that is no text for the name of the fallback. -/
def agent (payload : List (String × Json)) : GatewayFrame :=
  let stream := (Json.get payload "stream" (.str "")).string
  let run := Json.get payload "runId" (.str "")
  match Json.get payload "data" (.obj []), run.key with
  | .obj data, some run_id =>
    if stream = some "assistant" then
      let text := Json.get data "text" (.str "")
      if text.truthy && run.truthy then .assistant run_id text else .ignored
    else if stream = some "lifecycle" then
      let phase := (Json.get data "phase" (.str "")).string
      if phase = some "error" then
        .lifecycle_error run_id (Json.get data "error" (.str "Unknown LLM error"))
      else if phase = some "end" && run.string.any (· ≠ "") then .lifecycle_end run_id
      else .ignored
    else .ignored
  | _, _ => .ignored

def chat_event (payload : List (String × Json)) : GatewayFrame :=
  match extract_text payload, (Json.get payload "runId" (.str "")).key with
  | some text, some run_id =>
    .chat run_id (Json.get payload "state" (.str "")) text (Json.get payload "seq" (.num 0)) payload
  | _, _ => .ignored

/-- The preview slices the summary: only a text or a list gets past it. -/
def cron_event (payload : List (String × Json)) : GatewayFrame :=
  let summary := Json.get payload "summary" (.str "")
  if (Json.get payload "action" (.str "")).string = some "removed" then .ignored
  else
    match summary with
    | .str _ | .arr _ => if summary.truthy then .cron summary else .ignored
    | _ => .ignored

def view (parsed : Json) : GatewayFrame :=
  match parsed with
  | .obj frame =>
    let event := Json.get frame "event" (.str "")
    let payload := (Json.get frame "payload" (.obj [])).fields
    let session_key := Json.get payload "sessionKey" (.str "")
    let subagent := if session_key.truthy then session_key.contains ":subagent:" else some false
    if subagent ≠ some false ∨ event.key = none then .ignored
    else if event.string.any (· ∈ SKIP_EVENTS) then .ignored
    else if (Json.get frame "type" (.str "")).string = some "res" then
      if (Json.get frame "ok" .null).truthy then .ignored
      else .rejected (Json.get frame "id" .null) (Json.get frame "error" (.str "unknown"))
    else if event.string = some "agent" then agent payload
    else if event.string = some "chat" then chat_event payload
    else if event.string = some "cron" then cron_event payload
    else .ignored
  | _ => .ignored

end GatewayFrame

/-! The files of a chat final -/

def openclaw_prefix : String := "/home/node/.openclaw/"

/-- The prefix as a pattern: its dot matches every character but a line break. -/
def match_prefix : List Char → List Char → Option (List Char)
  | [], s => some s
  | _ :: _, [] => none
  | p :: pattern, c :: s =>
    if c = p ∨ p = '.' ∧ c ≠ '\n' then match_prefix pattern s else none

/-- Neither white space nor a quote nor a closing bracket. -/
def path_char (c : Char) : Bool := !(isSpace c || [0x22, 0x27, 0x29].contains c.toNat)

/-- `{openclaw_prefix}[^\s\"\'\)]+` -/
def raw_pattern : Matcher := fun s =>
  match match_prefix openclaw_prefix.toList s with
  | none => none
  | some tail =>
    let rest := tail.dropWhile path_char
    if rest.length = tail.length then none else some (s.take (s.length - rest.length), rest)

/-- `\[[^\]]*\]\({openclaw_prefix}[^\)]+\)` -/
def markdown_pattern : Matcher := fun s =>
  match s with
  | '[' :: label =>
    match label.dropWhile (· ≠ ']') with
    | ']' :: '(' :: link =>
      match match_prefix openclaw_prefix.toList link with
      | none => none
      | some tail =>
        match tail.dropWhile (· ≠ ')') with
        | ')' :: rest =>
          if rest.length + 1 = tail.length then none
          else some (s.take (s.length - rest.length), rest)
        | _ => none
    | _ => none
  | _ => none

def append_new (paths : List String) (path : String) : List String :=
  if path ∈ paths then paths else paths ++ [path]

def media_urls (payload : List (String × Json)) : List String :=
  let raw_urls :=
    match Json.get payload "mediaUrls" .null with
    | .arr urls => urls.filterMap fun url => url.string.filter fun p => strip p ≠ ""
    | _ => []
  match Json.get payload "mediaUrl" (.str "") with
  | .str url => if strip url ≠ "" then append_new raw_urls (strip url) else raw_urls
  | _ => raw_urls

def media_paths (payload : List (String × Json)) (text : String) : List String :=
  let found := findAll raw_pattern text.length text.toList
  (found.map fun path => strip (String.ofList path)).foldl append_new (media_urls payload)

def clean_text (text : String) : String :=
  let unlinked := eraseAll markdown_pattern text.length text.toList
  strip (String.ofList (eraseAll raw_pattern unlinked.length unlinked))

end ClawMux
