import ClawMux.Services.AdapterEvent

namespace ClawMux
set_option autoImplicit true
open Lib

/-- What a request for updates ends with; `json` is missing when the body is no JSON. -/
inductive PollAnswer
  | raised
  | response (status_code : Nat) (json : Option Json)

def read_json : Option Json → Except Raised Json
  | some j => .ok j
  | none => .error .json

variable (py : Dynamics)

namespace TelegramAdapter

/-- `getUpdates` is asked for the updates from `offset` on. -/
def offset (last_update_id : Json) : Option Rat := last_update_id.number.map (· + 1)

/-- The updates of an answer; none where the loop only sleeps and continues. -/
def updates : PollAnswer → Except Raised (List Json)
  | .raised => .error .http
  | .response status_code json =>
    if status_code ≠ 200 then .ok []
    else do
      let data ← read_json json
      let ok ← Dynamic.get "ok" .null data
      if ok.truthy then Dynamic.iterate (← Dynamic.get "result" (.arr []) data) else return []

/-- `max(self._last_update_id, update.get("update_id", 0))` -/
def next_id (last_update_id update : Json) : Except Raised Json := do
  let id ← Dynamic.get "update_id" (.num 0) update
  match Json.gt py id last_update_id with
  | some true => return id
  | some false => return last_update_id
  | none => .error .type_error

/-- The highest resolution of a photo, or the document. -/
def file_ids (message : Json) : Except Raised (List Json) := do
  let document ← Dynamic.get "document" .null message
  let photo ← Dynamic.get "photo" .null message
  if document.truthy then return [← Dynamic.item "file_id" document]
  else if photo.truthy then return [← Dynamic.item "file_id" (← Dynamic.last photo)]
  else return []

def handle_update (update : Json) : Except Raised (Option AdapterEvent) := do
  let message := Dynamic.either (← Dynamic.get "message" .null update)
    (← Dynamic.get "channel_post" .null update)
  if !message.truthy then return none
  let from_user ← Dynamic.get "from" (.obj []) message
  let chat ← Dynamic.get "chat" (.obj []) message
  let sender := Json.format py (← Dynamic.get "id" (.str "") from_user)
  let channel_id := Json.format py (← Dynamic.get "id" (.str "") chat)
  let text := Dynamic.either (← Dynamic.get "text" (.str "") message)
    (← Dynamic.get "caption" (.str "") message)
  let post_id := Json.format py (← Dynamic.get "message_id" (.str "") message)
  let thread ← Dynamic.get "message_thread_id" .null message
  let root_id := if thread.truthy then Json.format py thread else ""
  let user_id := if sender = "" && channel_id ≠ "" then channel_id else sender
  let file_ids ← file_ids message
  if !text.truthy && file_ids.isEmpty then return none
  return some
    { provider := "telegram"
      user_id := .str user_id
      channel_id := .str channel_id
      text := text
      post_id := .str post_id
      file_ids := file_ids
      root_id := .str root_id }

end TelegramAdapter

namespace VkTeamsAdapter

/-- `events/get` is asked for the events after `lastEventId`. -/
def last_event_id (last_event_id : Json) : Option Rat := last_event_id.number

def events : PollAnswer → Except Raised (List Json)
  | .raised => .error .http
  | .response status_code json =>
    if status_code ≠ 200 then .ok []
    else do
      let data ← read_json json
      Dynamic.iterate (← Dynamic.get "events" (.arr []) data)

/-- `ev.get("eventId", self._last_event_id)` -/
def next_id (last_event_id ev : Json) : Except Raised Json :=
  Dynamic.get "eventId" last_event_id ev

/-- `str(x or "")` -/
def text_of (j : Json) : String := Json.format py (Dynamic.either j (.str ""))

def is_file (part : Json) : Except Raised Bool := do
  return (← Dynamic.get "type" .null part).string = some "file"

def is_reply (part : Json) : Except Raised Bool := do
  let type := (← Dynamic.get "type" .null part).string
  return type = some "reply" || type = some "forward"

def file_id (part : Json) : Except Raised Json := do
  let payload ← Dynamic.get "payload" (.obj []) part
  return .str (Json.format py (← Dynamic.get "fileId" .null payload))

def replied_id (part : Json) : Except Raised String := do
  let payload ← Dynamic.get "payload" (.obj []) part
  let message ← Dynamic.get "message" (.obj []) payload
  return text_of py (← Dynamic.get "msgId" .null message)

def file_ids : List Json → Except Raised (List Json)
  | [] => return []
  | part :: parts => do
    if ← is_file part then return (← file_id py part) :: (← file_ids parts) else file_ids parts

/-- The last reply or forward among the parts. -/
def root_id : List Json → String → Except Raised String
  | [], root => return root
  | part :: parts, root => do
    if ← is_reply part then root_id parts (← replied_id py part) else root_id parts root

def handle_event (bot_user_id : String) (event_data : Json) :
    Except Raised (Option AdapterEvent) := do
  let ev_type ← Dynamic.get "type" .null event_data
  let payload ← Dynamic.get "payload" (.obj []) event_data
  if ev_type.string ≠ some "newMessage" then return none
  let sender ← Dynamic.get "from" (.obj []) payload
  let sender_id := text_of py (← Dynamic.get "userId" .null sender)
  let chat ← Dynamic.get "chat" (.obj []) payload
  let chat_id := Json.format py (Dynamic.either (← Dynamic.get "chatId" .null chat)
    (.str sender_id))
  let msg_id := text_of py (← Dynamic.get "msgId" .null payload)
  let text := Text.strip (text_of py (← Dynamic.get "text" .null payload))
  if sender_id ≠ "" && sender_id = bot_user_id then return none
  let parts ← Dynamic.get "parts" (.arr []) payload
  let file_ids ← file_ids py (← Dynamic.iterate parts)
  let root_id ← root_id py (← Dynamic.iterate parts) ""
  return some
    { provider := "vk_teams"
      user_id := .str sender_id
      channel_id := .str chat_id
      text := .str text
      post_id := .str msg_id
      file_ids := file_ids
      root_id := .str root_id }

end VkTeamsAdapter

/-- What the poll loops of the two adapters do differently. `asked` is how the platform reads the
number in the request: whether an update is wanted. -/
structure PollLoop where
  id_key : String
  list_key : String
  param : Json → Option Rat
  asked : Rat → Int → Bool
  updates : PollAnswer → Except Raised (List Json)
  next_id : Json → Json → Except Raised Json

def TelegramAdapter.poll_loop : PollLoop where
  id_key := "update_id"
  list_key := "result"
  param := TelegramAdapter.offset
  asked offset id := offset ≤ id
  updates := TelegramAdapter.updates
  next_id := TelegramAdapter.next_id py

def VkTeamsAdapter.poll_loop : PollLoop where
  id_key := "eventId"
  list_key := "events"
  param := VkTeamsAdapter.last_event_id
  asked last_event_id id := last_event_id < id
  updates := VkTeamsAdapter.events
  next_id := VkTeamsAdapter.next_id

/-- The adapter while it polls: every value the cursor has had, the updates passed to the handler
and the events dispatched, in order. -/
structure Poller where
  cursor : Json := .num 0
  cursors : List Json := [.num 0]
  handled : List Json := []
  dispatched : List AdapterEvent := []

abbrev UpdateHandler := Json → Except Raised (Option AdapterEvent)

/-- The loop over the updates of an answer; an exception leaves it. -/
def read_updates (next_id : Json → Json → Except Raised Json) (handle : UpdateHandler) :
    List Json → Poller → Poller
  | [], p => p
  | update :: updates, p =>
    match next_id p.cursor update with
    | .error _ => p
    | .ok cursor =>
      let p := { p with
        cursor := cursor
        cursors := p.cursors ++ [cursor]
        handled := p.handled ++ [update] }
      match handle update with
      | .error _ => p
      | .ok event =>
        read_updates next_id handle updates
          { p with dispatched := p.dispatched ++ event.toList }

/-- One round of `_poll_loop`. -/
def poll (l : PollLoop) (handle : UpdateHandler) (answer : PollAnswer) (p : Poller) : Poller :=
  match l.updates answer with
  | .error _ => p
  | .ok updates => read_updates l.next_id handle updates p

end ClawMux
