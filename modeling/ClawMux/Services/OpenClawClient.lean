import ClawMux.Lib.Transition
import ClawMux.Services.GatewayFrames
import ClawMux.Utils.ClawAggregator

namespace ClawMux
set_option autoImplicit true
open Lib

/-- The settings of a client; times are in milliseconds. -/
structure ClientConfig where
  py : Dynamics := {}
  claw_debounce_ms : Nat := 150
  claw_min_valid_text_len : Nat := 5
  openclaw_receive_timeout : Nat := 300000
  on_proactive : Bool := true

/-- What a text comes from: the answer to a request, or an agent run. -/
inductive Origin
  | res (id : Json)
  | run (run_id : Key)

/-- The result of a future, with the origin of its text and of the finals it was chosen from. -/
structure Reply where
  text : Json
  media_paths : List String := []
  origin : Option Origin := none
  rivals : List Origin := []

inductive Future
  | pending
  | result (reply : Reply)
  | failed

/-- The `send_message` that holds `_send_lock`; it has a deadline once its frame is sent. -/
structure Call where
  msg_id : String
  deadline : Option Nat

/-- A scheduled `_delayed_fallback` with what it captured. -/
structure Fallback where
  due : Nat
  msg_id : String
  run_id : Key
  text : Json

inductive Output
  | streamed (msg_id : String) (text : Json) (run_id : Key)
  | proactive (text : Json) (origin : Option Origin)
  | returned (msg_id : String) (reply : Reply)

/-- A client after `connect()`. The future of a request is known by its `msg_id`; `clashes` are the
futures that were to be resolved when they were done already. `begun` tells whether the task of the
listen loop has made its first step, `closing` whether `close()` has been called, and `opened`
whether the last `ws.send` was called on an open socket. -/
structure OpenClawClient where
  now : Nat := 0
  connected : Bool := true
  listening : Bool := true
  begun : Bool := true
  socket_open : Bool := true
  closing : Bool := false
  active_msg_id : Option String := none
  pending_future : Option String := none
  pending_future_msg_id : Option String := none
  timed_out_msg_id : Option String := none
  active_on_stream : Option String := none
  agent_texts : Key → Option Json := fun _ => none
  aggregator : ClawAggregator := {}
  fallbacks : List Fallback := []
  cleanups : List (Nat × Key) := []
  holder : Option Call := none
  future : String → Option Future := fun _ => none
  outputs : List Output := []
  clashes : List String := []
  opened : Bool := false

namespace OpenClawClient

variable (cfg : ClientConfig)

/-- The pending future while it is not done. -/
def live (s : OpenClawClient) : Option String :=
  match s.pending_future with
  | none => none
  | some m =>
    match s.future m with
    | some .pending => some m
    | _ => none

def is_pending (s : OpenClawClient) (m : String) : Bool :=
  match s.future m with
  | some .pending => true
  | _ => false

/-- `set_result` and `set_exception`, which raise `InvalidStateError` on a future that is done. -/
def resolve (s : OpenClawClient) (m : String) (x : Future) : OpenClawClient :=
  { s with
    future := if s.is_pending m then Function.update s.future m (some x) else s.future
    clashes := if s.is_pending m then s.clashes else m :: s.clashes }

def output (s : OpenClawClient) (o : Output) : OpenClawClient :=
  { s with outputs := s.outputs ++ [o] }

/-- The request whose `on_stream` is called. -/
def streaming (s : OpenClawClient) : Option String :=
  match s.active_msg_id with
  | none => none
  | some _ => s.active_on_stream

def stream (s : OpenClawClient) (run_id : Key) (text : Json) : OpenClawClient :=
  match s.streaming with
  | none => s
  | some m => s.output (.streamed m text run_id)

def proactive (s : OpenClawClient) (text : Json) (origin : Option Origin) : OpenClawClient :=
  if cfg.on_proactive then s.output (.proactive text origin) else s

/-! `_dispatch` -/

def chat_send_rejected (s : OpenClawClient) (id error : Json) : OpenClawClient :=
  let s :=
    match s.live with
    | none => s
    | some m =>
      s.resolve m (.result
        { text := .str ("[Error: " ++ error.format cfg.py ++ "]"), origin := some (.res id) })
  { s with active_msg_id := none, pending_future := none, pending_future_msg_id := none }

def assistant (s : OpenClawClient) (run_id : Key) (text : Json) : OpenClawClient :=
  { s with agent_texts := Function.update s.agent_texts run_id (some text) }.stream run_id text

def error_text (existing_text : Option Json) (error : Json) : String :=
  match existing_text with
  | some text =>
    text.format cfg.py ++ "\n\n⚠️ **Generation failure:** " ++ error.format cfg.py
  | none => "[LLM error: " ++ error.format cfg.py ++ "]"

def lifecycle_error (s : OpenClawClient) (run_id : Key) (error : Json) : OpenClawClient :=
  match s.active_msg_id, s.live with
  | some _, some m =>
    s.resolve m (.result
      { text := .str (error_text cfg (s.agent_texts run_id) error), origin := some (.run run_id) })
  | _, _ => s

/-- The text of a fallback; the log takes its length, which ends the dispatch of another value. -/
def fallback_text (s : OpenClawClient) (run_id : Key) : Option Json :=
  (s.agent_texts run_id).filter Json.sized

def lifecycle_end (s : OpenClawClient) (run_id : Key) : OpenClawClient :=
  match s.active_msg_id, s.fallback_text run_id, s.live with
  | some m, some text, some _ =>
    { s with fallbacks := s.fallbacks ++ [⟨s.now + 450, m, run_id, text⟩] }
  | _, _, _ => s

/-- The raw text of the run where there is one. -/
def chat_text (s : OpenClawClient) (run_id : Key) (text : Json) : Json :=
  (s.agent_texts run_id).getD text

/-- What a chat event hands to the aggregator, unless it is no final or raises before. -/
def final_message (s : OpenClawClient) (run_id : Key) (state text seq : Json)
    (payload : List (String × Json)) : Option ClawMessage :=
  if state.string = some "final" then
    (s.chat_text run_id text).string.map fun text =>
      { msg_id := s.active_msg_id.getD "proactive"
        seq := seq
        text := clean_text text
        state := state
        media_paths := media_paths payload text
        run_id := run_id }
  else none

def is_partial (state : Json) : Bool :=
  state.string = some "partial" || state.string = some "delta"

def chat (s : OpenClawClient) (run_id : Key) (state text seq : Json)
    (payload : List (String × Json)) : OpenClawClient :=
  if is_partial state && (s.chat_text run_id text).truthy then
    s.stream run_id (s.chat_text run_id text)
  else
    match s.final_message run_id state text seq payload with
    | none => s
    | some msg =>
      { s with
        aggregator := s.aggregator.add_event cfg.claw_debounce_ms s.now msg
        cleanups :=
          if (s.agent_texts run_id).isSome then s.cleanups ++ [(s.now + 10000, run_id)]
          else s.cleanups }

def handle (s : OpenClawClient) : GatewayFrame → OpenClawClient
  | .ignored => s
  | .rejected id error => s.chat_send_rejected cfg id error
  | .assistant run_id text => s.assistant run_id text
  | .lifecycle_error run_id error => s.lifecycle_error cfg run_id error
  | .lifecycle_end run_id => s.lifecycle_end run_id
  | .chat run_id state text seq payload => s.chat cfg run_id state text seq payload
  | .cron summary => s.proactive cfg summary none

def dispatch (s : OpenClawClient) (parsed : Json) : OpenClawClient :=
  s.handle cfg (GatewayFrame.view parsed)

/-! The timers -/

/-- `_route_aggregated_message` -/
def route (s : OpenClawClient) (msg : ClawMessage) (rivals : List Origin) : OpenClawClient :=
  match s.live with
  | some m =>
    if s.pending_future_msg_id = some msg.msg_id ∧
        s.timed_out_msg_id ≠ s.pending_future_msg_id then
      s.resolve m (.result
        { text := .str msg.text
          media_paths := msg.media_paths
          origin := some (.run msg.run_id)
          rivals := rivals })
    else unsolicited s msg
  | none => unsolicited s msg
where
  unsolicited (s : OpenClawClient) (msg : ClawMessage) : OpenClawClient :=
    let s :=
      if s.timed_out_msg_id = some msg.msg_id then { s with timed_out_msg_id := none } else s
    if msg.text = "" then s else s.proactive cfg (.str msg.text) (some (.run msg.run_id))

/-- `_finalize_later` once its sleep is over. -/
def finalize (s : OpenClawClient) (msg_id : String) : OpenClawClient :=
  let messages := s.aggregator.buffers msg_id
  let s := { s with aggregator := s.aggregator.pop msg_id }
  match select_best cfg.py cfg.claw_min_valid_text_len messages with
  | .ok (some msg) => s.route cfg msg (messages.map fun m => .run m.run_id)
  | _ => s

/-- `_delayed_fallback` once its sleep is over. -/
def delayed_fallback (s : OpenClawClient) (f : Fallback) : OpenClawClient :=
  match s.live with
  | some m =>
    if s.pending_future_msg_id = some f.msg_id then
      s.resolve m (.result { text := f.text, origin := some (.run f.run_id) })
    else s
  | none => s

/-! `send_message` and the end of the connection -/

def timeout_text : String := "[Timeout: OpenClaw did not respond within the allotted time]"

/-- The `finally` block. -/
def finish (s : OpenClawClient) : OpenClawClient :=
  { s with
    holder := none
    active_msg_id := none
    pending_future := none
    pending_future_msg_id := none
    active_on_stream := none }

/-- The end of the listen loop. -/
def disconnected (s : OpenClawClient) : OpenClawClient :=
  let s := { s with connected := false, listening := false, agent_texts := fun _ => none }
  match s.live with
  | none => s
  | some m => s.resolve m .failed

inductive Act
  | tick (ms : Nat)
  | send (msg_id : String) (on_stream : Bool)
  | sent
  | send_failed
  | resume
  | timeout
  | cancel
  | frame (parsed : Json)
  | debounce (msg_id : String)
  | fallback (i : Nat)
  | cleanup (i : Nat)
  | listen
  | socket_lost
  | disconnect
  | close
  | ws_close

def step (s : OpenClawClient) : Act → Option OpenClawClient
  | .tick ms => some { s with now := s.now + ms }
  | .send m on_stream =>
    match s.holder, s.future m with
    | none, none =>
      -- a new uuid is no other request and not the word that stands for none
      if m = "proactive" then none
      else
        some { s with
          holder := some ⟨m, none⟩
          active_msg_id := some m
          pending_future := some m
          pending_future_msg_id := some m
          active_on_stream := if on_stream then some m else none
          future := Function.update s.future m (some .pending)
          opened := s.socket_open }
    | _, _ => none
  | .sent =>
    match s.holder with
    | some ⟨m, none⟩ =>
      -- shield(None) raises when a rejection has dropped the future meanwhile
      if s.pending_future = none then some s.finish
      else some { s with holder := some ⟨m, some (s.now + cfg.openclaw_receive_timeout)⟩ }
    | _ => none
  | .send_failed =>
    match s.holder with
    | some ⟨_, none⟩ => some s.finish
    | _ => none
  | .resume =>
    match s.holder with
    | some ⟨m, some _⟩ =>
      match s.future m with
      | some (.result reply) => some (s.finish.output (.returned m reply))
      | some .failed => some s.finish
      | _ => none
    | _ => none
  | .timeout =>
    match s.holder with
    | some ⟨m, some deadline⟩ =>
      if deadline ≤ s.now then
        some ({ s with timed_out_msg_id := some m }.finish.output
          (.returned m { text := .str timeout_text }))
      else none
    | _ => none
  | .cancel =>
    match s.holder with
    | some _ => some s.finish
    | none => none
  | .frame parsed => if s.connected && s.begun then some (s.dispatch cfg parsed) else none
  | .debounce m =>
    match s.aggregator.tasks m with
    | some due => if due ≤ s.now then some (s.finalize cfg m) else none
    | none => none
  | .fallback i =>
    match s.fallbacks[i]? with
    | some f =>
      if f.due ≤ s.now then
        some ({ s with fallbacks := s.fallbacks.eraseIdx i }.delayed_fallback f)
      else none
    | none => none
  | .cleanup i =>
    match s.cleanups[i]? with
    | some (due, run_id) =>
      if due ≤ s.now then
        some { s with
          cleanups := s.cleanups.eraseIdx i
          agent_texts := Function.update s.agent_texts run_id none }
      else none
    | none => none
  | .listen => if s.listening && !s.begun then some { s with begun := true } else none
  | .socket_lost => some { s with socket_open := false }
  -- the loop ends with the socket, or when `close()` has cancelled it
  | .disconnect =>
    if s.listening && s.begun && !(s.connected && s.socket_open) then some s.disconnected else none
  -- up to the `await` of the listen task; one that is cancelled before its first step never runs
  | .close =>
    some { s with
      connected := false
      listening := s.listening && s.begun
      closing := true
      aggregator := {}
      agent_texts := fun _ => none }
  | .ws_close =>
    if s.closing && !s.listening then some { s with socket_open := false } else none

def Initial (s : OpenClawClient) : Prop := ∃ begun, s = { begun := begun }

end OpenClawClient

end ClawMux
