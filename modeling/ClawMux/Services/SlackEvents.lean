import ClawMux.Services.AdapterEvent
import Mathlib.Algebra.Order.Ring.Unbundled.Rat

namespace ClawMux
set_option autoImplicit true
open Lib

namespace SlackAdapter

/-- A frame of the socket: what `json.loads` makes of it, and whether the acknowledgement cannot
be sent. -/
structure Frame where
  json : Option Json
  send_fails : Bool := false

/-- One round of the loop: there is no connection, or one that is read until it is lost or
closed. -/
inductive Connection
  | failed
  | opened (frames : List Frame) (lost : Bool)

structure SlackState where
  ws_connected : Bool := false
  reconnect_delay : Rat := 1
  acknowledged : List Json := []
  dispatched : List AdapterEvent := []

/-- `[f.get("id") for f in files if f.get("id")]` -/
def file_ids : List Json → Except Raised (List Json)
  | [] => return []
  | f :: files => do
    let id ← Dynamic.get "id" .null f
    let ids ← file_ids files
    return if id.truthy then id :: ids else ids

def ignored_subtypes : List String := ["bot_message", "message_deleted", "message_changed"]

def supported_types : List String := ["message", "app_mention"]

/-- `x in names` -/
def one_of (names : List String) (j : Json) : Bool := names.any fun name => j.string = some name

def handle_events_api (bot_user_id : String) (payload : Json) :
    Except Raised (Option AdapterEvent) := do
  let event ← Dynamic.get "event" (.obj []) payload
  let event_type ← Dynamic.get "type" .null event
  let subtype ← Dynamic.get "subtype" .null event
  if one_of ignored_subtypes subtype then return none
  let user_id ← Dynamic.get "user" .null event
  if !user_id.truthy || user_id.string = some bot_user_id then return none
  if one_of supported_types event_type then
    let channel_id ← Dynamic.get "channel" (.str "") event
    let text ← Dynamic.strip (Dynamic.either (← Dynamic.get "text" .null event) (.str ""))
    let ts ← Dynamic.get "ts" (.str "") event
    let thread_ts := Dynamic.either (← Dynamic.get "thread_ts" .null event) (.str "")
    let files ← Dynamic.get "files" (.arr []) event
    let file_ids ← file_ids (← Dynamic.iterate files)
    return some
      { provider := "slack"
        user_id := user_id
        channel_id := channel_id
        text := text
        post_id := ts
        file_ids := file_ids
        root_id := thread_ts }
  else return none

def SlackState.acknowledge (s : SlackState) (envelope_id : Json) : SlackState :=
  if envelope_id.truthy then { s with acknowledged := s.acknowledged ++ [envelope_id] } else s

/-- One frame; whatever it raises is only logged. -/
def handle_frame (bot_user_id : String) (s : SlackState) (frame : Frame) : SlackState :=
  match frame.json with
  | none => s
  | some msg =>
    match Dynamic.get "envelope_id" .null msg, Dynamic.get "type" .null msg with
    | .ok envelope_id, .ok msg_type =>
      if envelope_id.truthy && frame.send_fails then s
      else
        let s := s.acknowledge envelope_id
        if msg_type.string = some "events_api" then
          match Dynamic.get "payload" (.obj []) msg >>= handle_events_api bot_user_id with
          | .ok event => { s with dispatched := s.dispatched ++ event.toList }
          | .error _ => s
        else s
    | _, _ => s

def SlackState.lost (s : SlackState) : SlackState :=
  { s with ws_connected := false, reconnect_delay := min (s.reconnect_delay * 2) 60 }

def connect (bot_user_id : String) (s : SlackState) : Connection → SlackState
  | .failed => s.lost
  | .opened frames lost =>
    let s := frames.foldl (handle_frame bot_user_id)
      { s with ws_connected := true, reconnect_delay := 1 }
    if lost then s.lost else s

def socket_mode_loop (bot_user_id : String) (connections : List Connection) : SlackState :=
  connections.foldl (connect bot_user_id) {}

/-! What Slack delivers -/

abbrev Event := List (String × Json)

def Connection.frames : Connection → List Frame
  | .failed => []
  | .opened frames _ => frames

def event_in : Json → Option Event
  | .obj payload =>
    match Json.get payload "event" (.obj []) with
    | .obj event => some event
    | _ => none
  | _ => none

/-- The event of an envelope that the adapter could acknowledge. -/
def event_of (frame : Frame) : Option Event :=
  match frame.json with
  | some (.obj envelope) =>
    if (Json.get envelope "envelope_id" .null).truthy && frame.send_fails then none
    else if (Json.get envelope "type" .null).string = some "events_api" then
      event_in (Json.get envelope "payload" (.obj []))
    else none
  | _ => none

def delivered (connections : List Connection) : List Event :=
  (connections.flatMap Connection.frames).filterMap event_of

def own (bot_user_id : String) (event : Event) : Bool :=
  (Json.get event "user" .null).string = some bot_user_id

/-- A message of a bot, an edit or a deletion. -/
def ignored (event : Event) : Bool := one_of ignored_subtypes (Json.get event "subtype" .null)

def text_of (event : Event) : Option String :=
  (Dynamic.either (Json.get event "text" .null) (.str "")).string

def files_of (event : Event) : Option (List Json) :=
  (Dynamic.iterate (Json.get event "files" (.arr []))).toOption

def is_object : Json → Bool
  | .obj _ => true
  | _ => false

/-- The text is a string, or empty; the files are objects. -/
def readable (event : Event) : Bool :=
  (text_of event).isSome && (files_of event).any fun files => files.all is_object

def user_post (bot_user_id : String) (event : Event) : Bool :=
  one_of supported_types (Json.get event "type" .null) && !ignored event &&
    (Json.get event "user" .null).truthy && !own bot_user_id event && readable event

def file_id (f : Json) : Option Json :=
  let id := Json.get f.fields "id" .null
  if id.truthy then some id else none

/-- The event that a post is dispatched as. -/
def channel_event (event : Event) : AdapterEvent where
  provider := "slack"
  user_id := Json.get event "user" .null
  channel_id := Json.get event "channel" (.str "")
  text := .str (Text.strip ((text_of event).getD ""))
  post_id := Json.get event "ts" (.str "")
  file_ids := ((files_of event).getD []).filterMap file_id
  root_id := Dynamic.either (Json.get event "thread_ts" .null) (.str "")

/-- The posts of users among what Slack delivers. -/
def posts (bot_user_id : String) (connections : List Connection) : List Event :=
  (delivered connections).filter (user_post bot_user_id)

/-- The post at a place and time of Slack. -/
def posted (channel ts : String) (event : Event) : Bool :=
  (Json.get event "channel" (.str "")).string = some channel &&
    (Json.get event "ts" (.str "")).string = some ts

def sent (channel ts : String) (e : AdapterEvent) : Bool :=
  e.channel_id.string = some channel && e.post_id.string = some ts

/-- Each post is dispatched once, however often it is delivered. -/
def HandledOnce (bot_user_id : String) (connections : List Connection) : Prop :=
  ∀ channel ts, 0 < (posts bot_user_id connections).countP (posted channel ts) →
    (socket_mode_loop bot_user_id connections).dispatched.countP (sent channel ts) = 1

/-- Each delivery of a post is dispatched once, and nothing else is. -/
structure EachDelivery (bot_user_id : String) (connections : List Connection) : Prop where
  dispatched : (socket_mode_loop bot_user_id connections).dispatched =
    (posts bot_user_id connections).map channel_event
  counted : ∀ channel ts,
    (socket_mode_loop bot_user_id connections).dispatched.countP (sent channel ts) =
      (posts bot_user_id connections).countP (posted channel ts)
  handled_once : HandledOnce bot_user_id connections ↔
    ∀ channel ts, (posts bot_user_id connections).countP (posted channel ts) ≤ 1
  of_users : ∀ e ∈ (socket_mode_loop bot_user_id connections).dispatched,
    ∃ event ∈ delivered connections, own bot_user_id event = false ∧ ignored event = false ∧
      e = channel_event event

/-! One event -/

theorem file_ids_eq (h : files.all is_object = true) :
    file_ids files = .ok (files.filterMap file_id) := by
  induction files with
  | nil => rfl
  | cons f files ih =>
    rw [List.all_cons, Bool.and_eq_true] at h
    cases f with
    | obj fields =>
      rw [file_ids, ih h.2]
      cases hid : (Json.get fields "id" .null).truthy with
      | false => simp [Dynamic.get, bind, Except.bind, pure, Except.pure, file_id, Json.fields, hid]
      | true => simp [Dynamic.get, bind, Except.bind, pure, Except.pure, file_id, Json.fields, hid]
    | null | bool | num | str | arr => cases h.1

theorem file_ids_error (h : files.all is_object = false) : ∃ e, file_ids files = .error e := by
  induction files with
  | nil => cases h
  | cons f files ih =>
    cases f with
    | obj fields =>
      obtain ⟨e, he⟩ := ih h
      refine ⟨e, ?_⟩
      rw [file_ids, he]
      rfl
    | null | bool | num | str | arr => exact ⟨.attribute_error, rfl⟩

/-- What an event is dispatched as; nothing after an exception. -/
def dispatch (result : Except Raised (Option AdapterEvent)) : List AdapterEvent :=
  match result with
  | .ok event => event.toList
  | .error _ => []

def dispatch_of (bot_user_id : String) (event : Event) : List AdapterEvent :=
  if user_post bot_user_id event then [channel_event event] else []

/-- The part of `handle_events_api` after its guards. -/
theorem read_post (event : Event) : dispatch (do
    let text ← Dynamic.strip (Dynamic.either (Json.get event "text" .null) (.str ""))
    let file_ids ← file_ids (← Dynamic.iterate (Json.get event "files" (.arr [])))
    return some
      { provider := "slack"
        user_id := Json.get event "user" .null
        channel_id := Json.get event "channel" (.str "")
        text := text
        post_id := Json.get event "ts" (.str "")
        file_ids := file_ids
        root_id := Dynamic.either (Json.get event "thread_ts" .null) (.str "") }) =
      if readable event then [channel_event event] else [] := by
  cases hf : Dynamic.iterate (Json.get event "files" (.arr [])) with
  | error e =>
    have hr : readable event = false := by
      rw [readable, files_of, hf]
      exact Bool.and_false _
    rw [hr]
    cases Dynamic.strip (Dynamic.either (Json.get event "text" .null) (.str "")) with
    | error e => rfl
    | ok text => rfl
  | ok files =>
    have hfiles : files_of event = some files := by
      rw [files_of, hf]
      rfl
    cases ht : Dynamic.either (Json.get event "text" .null) (.str "") with
    | str t =>
      have htext : text_of event = some t := by
        rw [text_of, ht]
        rfl
      have hr : readable event = files.all is_object := by
        rw [readable, htext, hfiles]
        exact Bool.true_and _
      rw [hr]
      cases ho : files.all is_object with
      | true =>
        rw [channel_event, htext, hfiles]
        simp only [Dynamic.strip, bind, Except.bind, file_ids_eq ho]
        rfl
      | false =>
        obtain ⟨e, he⟩ := file_ids_error ho
        simp only [Dynamic.strip, bind, Except.bind, he]
        rfl
    | null | bool | num | arr | obj =>
      have hr : readable event = false := by
        rw [readable, text_of, ht]
        exact Bool.false_and _
      rw [hr]
      rfl

theorem handle_event (bot_user_id : String) {payload : List (String × Json)}
    (h : Json.get payload "event" (.obj []) = .obj event) :
    dispatch (handle_events_api bot_user_id (.obj payload)) = dispatch_of bot_user_id event := by
  simp only [handle_events_api, Dynamic.get, h, bind, Except.bind]
  rw [dispatch_of, user_post, ignored, own]
  cases hi : one_of ignored_subtypes (Json.get event "subtype" .null) with
  | true => simp [dispatch, pure, Except.pure]
  | false =>
    cases hu : (Json.get event "user" .null).truthy with
    | false => simp [dispatch, pure, Except.pure]
    | true =>
      by_cases hb : (Json.get event "user" .null).string = some bot_user_id
      · simp [dispatch, pure, Except.pure, hb]
      · cases ht : one_of supported_types (Json.get event "type" .null) with
        | false => simp [dispatch, pure, Except.pure, hb]
        | true =>
          have hpost := read_post event
          simp only [bind, Except.bind] at hpost
          simpa [hb] using hpost

/-- Anything but an object with an event raises. -/
theorem handle_payload (bot_user_id : String) (payload : Json) :
    dispatch (handle_events_api bot_user_id payload) =
      (event_in payload).toList.flatMap (dispatch_of bot_user_id) := by
  cases payload with
  | obj fields =>
    cases hev : Json.get fields "event" (.obj []) with
    | obj event =>
      rw [handle_event bot_user_id hev, event_in, hev]
      exact (List.append_nil _).symm
    | null | bool | num | str | arr =>
      simp only [handle_events_api, Dynamic.get, bind, Except.bind, event_in, hev]
      rfl
  | null | bool | num | str | arr => rfl

/-! Frames and connections -/

theorem acknowledge_dispatched (s : SlackState) (envelope_id : Json) :
    (s.acknowledge envelope_id).dispatched = s.dispatched := by
  rw [SlackState.acknowledge]
  split <;> rfl

theorem handle_frame_dispatched (bot_user_id : String) (s : SlackState) (frame : Frame) :
    (handle_frame bot_user_id s frame).dispatched =
      s.dispatched ++ (event_of frame).toList.flatMap (dispatch_of bot_user_id) := by
  obtain ⟨json, send_fails⟩ := frame
  cases json with
  | none => simp [handle_frame, event_of]
  | some msg =>
    cases msg with
    | obj envelope =>
      have hack := acknowledge_dispatched s (Json.get envelope "envelope_id" .null)
      simp only [handle_frame, event_of, Dynamic.get, bind, Except.bind]
      cases hf : (Json.get envelope "envelope_id" .null).truthy && send_fails with
      | true => simp
      | false =>
        by_cases ht : (Json.get envelope "type" .null).string = some "events_api"
        · rw [if_neg Bool.false_ne_true, if_pos ht, if_neg Bool.false_ne_true, if_pos ht,
            ← handle_payload, ← hack]
          cases handle_events_api bot_user_id (Json.get envelope "payload" (.obj [])) with
          | ok event => rfl
          | error e => exact (List.append_nil _).symm
        · rw [if_neg Bool.false_ne_true, if_neg ht, if_neg Bool.false_ne_true, if_neg ht, hack]
          exact (List.append_nil _).symm
    | null | bool | num | str | arr => simp [handle_frame, event_of, Dynamic.get]

theorem handle_frames_dispatched (bot_user_id : String) (frames : List Frame) (s : SlackState) :
    (frames.foldl (handle_frame bot_user_id) s).dispatched =
      s.dispatched ++ (frames.filterMap event_of).flatMap (dispatch_of bot_user_id) := by
  induction frames generalizing s with
  | nil => simp
  | cons frame frames ih =>
    rw [List.foldl_cons, ih, handle_frame_dispatched, List.append_assoc]
    cases hev : event_of frame with
    | none => simp [List.filterMap_cons_none hev]
    | some event => simp [List.filterMap_cons_some hev]

theorem connect_dispatched (bot_user_id : String) (s : SlackState) (connection : Connection) :
    (connect bot_user_id s connection).dispatched =
      s.dispatched ++ (connection.frames.filterMap event_of).flatMap (dispatch_of bot_user_id) := by
  cases connection with
  | failed => simp [connect, SlackState.lost, Connection.frames]
  | opened frames lost =>
    have hframes := handle_frames_dispatched bot_user_id frames
      { s with ws_connected := true, reconnect_delay := 1 }
    cases lost with
    | false => exact hframes
    | true => exact hframes

theorem socket_mode_dispatched (bot_user_id : String) (connections : List Connection)
    (s : SlackState) : (connections.foldl (connect bot_user_id) s).dispatched =
      s.dispatched ++ (delivered connections).flatMap (dispatch_of bot_user_id) := by
  induction connections generalizing s with
  | nil => simp [delivered]
  | cons connection connections ih =>
    rw [List.foldl_cons, ih, connect_dispatched, List.append_assoc, delivered, delivered,
      List.flatMap_cons, List.filterMap_append, List.flatMap_append]

theorem flatMap_dispatch_of (bot_user_id : String) (events : List Event) :
    events.flatMap (dispatch_of bot_user_id) =
      (events.filter (user_post bot_user_id)).map channel_event := by
  induction events with
  | nil => rfl
  | cons event events ih =>
    rw [List.flatMap_cons, ih, dispatch_of]
    by_cases h : user_post bot_user_id event = true
    · rw [if_pos h, List.filter_cons_of_pos h, List.map_cons, List.singleton_append]
    · rw [if_neg h, List.filter_cons_of_neg h, List.nil_append]

theorem socket_mode_loop_dispatched (bot_user_id : String) (connections : List Connection) :
    (socket_mode_loop bot_user_id connections).dispatched =
      (posts bot_user_id connections).map channel_event := by
  rw [socket_mode_loop, socket_mode_dispatched, List.nil_append, flatMap_dispatch_of, posts]

theorem count_sent (bot_user_id : String) (connections : List Connection) (channel ts : String) :
    (socket_mode_loop bot_user_id connections).dispatched.countP (sent channel ts) =
      (posts bot_user_id connections).countP (posted channel ts) := by
  rw [socket_mode_loop_dispatched, List.countP_map]
  rfl

theorem each_delivery_dispatched (bot_user_id : String) (connections : List Connection) :
    EachDelivery bot_user_id connections where
  dispatched := socket_mode_loop_dispatched bot_user_id connections
  counted := count_sent bot_user_id connections
  handled_once := by
    simp only [HandledOnce, count_sent]
    constructor
    · intro h channel ts
      by_cases hpos : 0 < (posts bot_user_id connections).countP (posted channel ts)
      · exact le_of_eq (h channel ts hpos)
      · omega
    · intro h channel ts hpos
      have := h channel ts
      omega
  of_users e he := by
    rw [socket_mode_loop_dispatched] at he
    obtain ⟨event, hev, rfl⟩ := List.mem_map.mp he
    obtain ⟨hmem, hpost⟩ := List.mem_filter.mp hev
    simp only [user_post, Bool.and_eq_true, Bool.not_eq_true'] at hpost
    exact ⟨event, hmem, hpost.1.2, hpost.1.1.1.2, rfl⟩

/-! A post that mentions the bot -/

/-- The envelope of an event about the post of `U1` at `100.1`. -/
def sample_frame (envelope_id type : String) : Frame where
  json := some (.obj
    [("envelope_id", .str envelope_id), ("type", .str "events_api"),
      ("payload", .obj [("event", .obj
        [("type", .str type), ("user", .str "U1"), ("channel", .str "C1"), ("ts", .str "100.1"),
          ("text", .str "<@B1> hi")])])])

/-- Slack sends the post as a message and as a mention: it is dispatched twice. -/
theorem mention_dispatched_twice :
    ¬ HandledOnce "B1"
      [.opened [sample_frame "e1" "message", sample_frame "e2" "app_mention"] false] := by
  intro h
  have h := h "C1" "100.1" (by decide)
  exact absurd h (by decide)

end SlackAdapter

end ClawMux
