import ClawMux.Lib.Transition
import ClawMux.Services.Mapping
import ClawMux.Services.SlackEvents

namespace ClawMux
set_option autoImplicit true
open Lib

/-- Where `start` is: in `websockets.connect`, in the `send` of the challenge, in the loop over the
frames, in its `sleep`, or through. -/
inductive MattermostPhase
  | connecting
  | authenticating (ws : Nat)
  | listening (ws : Nat)
  | pausing
  | ended

inductive MattermostFrame
  | authentication_challenge (token : String)
  | user_typing (channel_id parent_id : String)

def MattermostFrame.typing : MattermostFrame → Bool
  | .authentication_challenge _ => false
  | .user_typing .. => true

/-- A frame with its `seq`, given to the `send` of a WebSocket. -/
structure MattermostSent where
  ws : Nat
  seq : Nat
  frame : MattermostFrame

/-- The client, its WebSockets in the order in which they are opened, the frames it has sent, those
that it has read while it was running, and what it has dispatched. -/
structure MattermostClient where
  running : Bool := true
  phase : MattermostPhase := .connecting
  ws : Option Nat := none
  opened : Nat := 0
  is_open : Nat → Bool := fun _ => false
  ws_seq : Nat := 1
  sent : List MattermostSent := []
  read : List String := []
  dispatched : List AdapterEvent := []

namespace MattermostClient

/-! Reading a frame -/

variable (loads : String → Option Json) (bot_user_id : String)

/-- The part of `_handle_ws_event` after the post is read; `len(file_ids)` is in its log. -/
def read_post (post : Json) : Except Raised (Option AdapterEvent) := do
  let user_id ← Dynamic.get "user_id" (.str "") post
  let channel_id ← Dynamic.get "channel_id" (.str "") post
  let text ← Dynamic.get "message" (.str "") post
  let post_id ← Dynamic.get "id" (.str "") post
  let root_id ← Dynamic.get "root_id" (.str "") post
  if user_id.string = some bot_user_id then return none
  let file_ids := Dynamic.either (← Dynamic.get "file_ids" .null post) (.arr [])
  let stripped ← Dynamic.strip text
  if !stripped.truthy && !file_ids.truthy then return none
  let file_ids ← Dynamic.iterate file_ids
  return some
    { provider := DEFAULT_PROVIDER
      user_id := user_id
      channel_id := channel_id
      text := text
      post_id := post_id
      file_ids := file_ids
      root_id := root_id }

def handle_ws_event (data : Json) : Except Raised (Option AdapterEvent) := do
  let event_type ← Dynamic.get "event" .null data
  if event_type.string ≠ some "posted" then return none
  let event_data ← Dynamic.get "data" (.obj []) data
  let post_str ← Dynamic.get "post" .null event_data
  if !post_str.truthy then return none
  match post_str with
  | .str text =>
    match loads text with
    | some post => read_post bot_user_id post
    | none => return none
  | _ => throw .type_error

/-- One frame; whatever it raises is only logged. -/
def handle_frame (raw : String) : List AdapterEvent :=
  match loads raw with
  | some data => SlackAdapter.dispatch (handle_ws_event loads bot_user_id data)
  | none => []

/-- The text of the post in a `posted` event. -/
def post_text (data : Json) : Option String :=
  match data with
  | .obj data =>
    if (Json.get data "event" .null).string = some "posted" then
      match Json.get data "data" (.obj []) with
      | .obj event_data => (Json.get event_data "post" .null).string.filter (· ≠ "")
      | _ => none
    else none
  | _ => none

def object : Json → Option SlackAdapter.Event
  | .obj fields => some fields
  | _ => none

/-- The post of a frame. -/
def post_in (raw : String) : Option SlackAdapter.Event :=
  (((loads raw).bind post_text).bind loads).bind object

def text_of (post : SlackAdapter.Event) : Option String :=
  (Json.get post "message" (.str "")).string

def files_of (post : SlackAdapter.Event) : Option (List Json) :=
  (Dynamic.iterate (Dynamic.either (Json.get post "file_ids" .null) (.arr []))).toOption

/-- A post of a user that has a text or files. -/
def user_post (post : SlackAdapter.Event) : Bool :=
  (Json.get post "user_id" (.str "")).string ≠ some bot_user_id &&
    match text_of post, files_of post with
    | some text, some files => Text.strip text ≠ "" || !files.isEmpty
    | _, _ => false

/-- The event that a post is dispatched as. -/
def channel_event (post : SlackAdapter.Event) : AdapterEvent where
  provider := DEFAULT_PROVIDER
  user_id := Json.get post "user_id" (.str "")
  channel_id := Json.get post "channel_id" (.str "")
  text := Json.get post "message" (.str "")
  post_id := Json.get post "id" (.str "")
  file_ids := (files_of post).getD []
  root_id := Json.get post "root_id" (.str "")

/-- The posts of users in a list of frames. -/
def user_posts (frames : List String) : List SlackAdapter.Event :=
  (frames.filterMap (post_in loads)).filter (user_post bot_user_id)

theorem truthy_iterate {j : Json} (h : Dynamic.iterate j = .ok files) :
    j.truthy = !files.isEmpty := by
  cases j with
  | arr items =>
    cases h
    rfl
  | str s =>
    cases h
    rw [List.isEmpty_map]
    by_cases hs : s = ""
    · rw [hs]
      rfl
    · have hne : s.toList.isEmpty = false := by
        rw [List.isEmpty_eq_false_iff]
        intro he
        exact hs (String.toList_eq_nil_iff.mp he)
      rw [hne, Json.truthy]
      exact decide_eq_true hs
  | obj fields =>
    cases h
    rw [List.isEmpty_map]
    rfl
  | null | bool | num => cases h

theorem dispatch_read_post (post : SlackAdapter.Event) :
    SlackAdapter.dispatch (read_post bot_user_id (.obj post)) =
      if user_post bot_user_id post then [channel_event post] else [] := by
  simp only [read_post, Dynamic.get, bind, Except.bind]
  by_cases hown : (Json.get post "user_id" (.str "")).string = some bot_user_id
  · simp [hown, user_post, SlackAdapter.dispatch, pure, Except.pure]
  · rw [if_neg hown]
    cases ht : Json.get post "message" (.str "") with
    | str text =>
      cases hf : Dynamic.iterate (Dynamic.either (Json.get post "file_ids" .null) (.arr [])) with
      | error e =>
        have hpost : user_post bot_user_id post = false := by
          simp [user_post, text_of, files_of, ht, hf, Except.toOption]
        rw [hpost]
        simp only [Dynamic.strip]
        split <;> rfl
      | ok files =>
        have hpost : user_post bot_user_id post =
            ((Json.str (Text.strip text)).truthy || !files.isEmpty) := by
          rw [user_post, decide_eq_true hown, Bool.true_and, text_of, files_of, ht, hf]
          rfl
        have hevent : (channel_event post).file_ids = files := by
          rw [channel_event, files_of, hf]
          rfl
        rw [hpost]
        simp only [Dynamic.strip, truthy_iterate hf]
        cases (Json.str (Text.strip text)).truthy with
        | true =>
          rw [← hevent, ← ht]
          rfl
        | false =>
          cases files.isEmpty with
          | true => rfl
          | false =>
            rw [← hevent, ← ht]
            rfl
    | null | bool | num | arr | obj =>
      have hpost : user_post bot_user_id post = false := by
        simp [user_post, text_of, ht, Json.string]
      rw [hpost]
      rfl

/-- What is done with the `post` of an event. -/
theorem dispatch_post_str (post_str : Json) :
    SlackAdapter.dispatch (if !post_str.truthy then .ok none else
      match post_str with
      | .str text =>
        match loads text with
        | some post => read_post bot_user_id post
        | none => .ok none
      | _ => .error .type_error) =
      ((post_str.string.filter (· ≠ "")).bind loads).toList.flatMap fun post =>
        SlackAdapter.dispatch (read_post bot_user_id post) := by
  cases post_str with
  | str text =>
    by_cases htext : text = ""
    · subst htext
      rfl
    · have hsome : (some text).filter (· ≠ "") = some text := by simp [htext]
      rw [Json.string, hsome, Option.bind_some, Json.truthy, decide_eq_true htext, Bool.not_true,
        if_neg Bool.false_ne_true]
      dsimp only
      cases loads text with
      | none => rfl
      | some post => exact (List.append_nil _).symm
  | null => rfl
  | bool | num | arr | obj =>
    dsimp only [Json.string, Option.filter]
    split <;> rfl

theorem dispatch_handle_ws_event (data : Json) :
    SlackAdapter.dispatch (handle_ws_event loads bot_user_id data) =
      ((post_text data).bind loads).toList.flatMap fun post =>
        SlackAdapter.dispatch (read_post bot_user_id post) := by
  cases data with
  | obj data =>
    simp only [handle_ws_event, post_text, Dynamic.get, bind, Except.bind]
    by_cases hposted : (Json.get data "event" .null).string = some "posted"
    · rw [if_neg (not_not.mpr hposted), if_pos hposted]
      cases Json.get data "data" (.obj []) with
      | obj event_data => exact dispatch_post_str ..
      | null | bool | num | str | arr => rfl
    · rw [if_pos hposted, if_neg hposted]
      rfl
  | null | bool | num | str | arr => rfl

theorem handle_frame_eq (raw : String) : handle_frame loads bot_user_id raw =
    ((post_in loads raw).toList.filter (user_post bot_user_id)).map channel_event := by
  rw [handle_frame, post_in]
  cases loads raw with
  | none => rfl
  | some data =>
    simp only [dispatch_handle_ws_event, Option.bind_some]
    cases (post_text data).bind loads with
    | none => rfl
    | some post =>
      rw [Option.toList_some, List.flatMap_cons, List.flatMap_nil, List.append_nil]
      cases post with
      | obj post =>
        rw [dispatch_read_post]
        cases hpost : user_post bot_user_id post with
        | true => simp [object, hpost]
        | false => simp [object, hpost]
      | null | bool | num | str | arr => rfl

/-! Connections -/

inductive Act
  | opened
  | refused
  | authenticated
  | unsent
  | frame (raw : String)
  | closed
  | lost
  | slept
  | dropped (ws : Nat)
  | send_typing (channel_id parent_id : String)
  | stop
  | cancel

variable (token : String)

def close (s : MattermostClient) (ws : Nat) : MattermostClient :=
  { s with is_open := Function.update s.is_open ws false }

def send (s : MattermostClient) (ws : Nat) (frame : MattermostFrame) : MattermostClient :=
  { s with ws_seq := s.ws_seq + 1, sent := s.sent ++ [⟨ws, s.ws_seq + 1, frame⟩] }

/-- The test of the loop in `start`, after a session or a `sleep`. -/
def again (s : MattermostClient) : MattermostClient :=
  { s with phase := if s.running then .connecting else .ended }

/-- Its `except` clause. -/
def failed (s : MattermostClient) : MattermostClient :=
  { s with phase := if s.running then .pausing else .ended }

def connected (s : MattermostClient) : MattermostClient :=
  send { s with
    phase := .authenticating s.opened
    ws := some s.opened
    opened := s.opened + 1
    is_open := Function.update s.is_open s.opened true } s.opened (.authentication_challenge token)

def step (s : MattermostClient) : Act → Option MattermostClient
  | .opened =>
    match s.phase with
    | .connecting => some (s.connected token)
    | _ => none
  | .refused =>
    match s.phase with
    | .connecting => some s.failed
    | _ => none
  | .authenticated =>
    match s.phase with
    | .authenticating ws => some { s with phase := .listening ws }
    | _ => none
  | .unsent =>
    match s.phase with
    | .authenticating ws => some (s.close ws).failed
    | _ => none
  | .frame raw =>
    match s.phase with
    | .listening ws =>
      if s.running then
        some { s with
          read := s.read ++ [raw]
          dispatched := s.dispatched ++ handle_frame loads bot_user_id raw }
      else some (s.close ws).again
    | _ => none
  | .closed =>
    match s.phase with
    | .listening ws => some (s.close ws).again
    | _ => none
  | .lost =>
    match s.phase with
    | .listening ws => some (s.close ws).failed
    | _ => none
  | .slept =>
    match s.phase with
    | .pausing => some s.again
    | _ => none
  | .dropped ws => some (s.close ws)
  | .send_typing channel_id parent_id =>
    match s.ws with
    | some ws =>
      if s.is_open ws then some (s.send ws (.user_typing channel_id parent_id)) else some s
    | none => some s
  | .stop =>
    match s.ws with
    | some ws => some ({ s with running := false }.close ws)
    | none => some { s with running := false }
  | .cancel =>
    match s.phase with
    | .authenticating ws | .listening ws => some { s.close ws with phase := .ended }
    | _ => some { s with phase := .ended }

def Initial (s : MattermostClient) : Prop := s = {}

variable {loads bot_user_id token} {s s' : MattermostClient} {a : Act}

/-- What a step does to all but the phase: it opens a WebSocket and sends the challenge, reads a
frame, sends that the bot is typing, or does none of these. -/
inductive Moves (loads : String → Option Json) (bot_user_id token : String) (s : MattermostClient) :
    MattermostClient → Prop
  | connects (h : s.phase = .connecting) : Moves loads bot_user_id token s (s.connected token)
  | reads (raw : String) (h : s.running = true) : Moves loads bot_user_id token s { s with
      read := s.read ++ [raw]
      dispatched := s.dispatched ++ handle_frame loads bot_user_id raw }
  | types (w : Nat) (channel_id parent_id : String) (h : s.ws = some w) :
    Moves loads bot_user_id token s (s.send w (.user_typing channel_id parent_id))
  | moves (running : Bool) (phase : MattermostPhase) (is_open : Nat → Bool)
      (hr : running = true → s.running = true)
      (hp : phase = .connecting → s.running = true ∨ s.phase = .connecting) :
    Moves loads bot_user_id token s
      { s with running := running, phase := phase, is_open := is_open }

theorem moves_again (s : MattermostClient) (is_open : Nat → Bool) :
    Moves loads bot_user_id token s { s with is_open := is_open }.again := by
  refine .moves s.running _ is_open id fun hp => ?_
  dsimp only at hp
  split at hp
  · exact .inl ‹_›
  · cases hp

theorem moves_failed (s : MattermostClient) (is_open : Nat → Bool) :
    Moves loads bot_user_id token s { s with is_open := is_open }.failed := by
  refine .moves s.running _ is_open id fun hp => ?_
  dsimp only at hp
  split at hp <;> cases hp

theorem step_moves (h : step loads bot_user_id token s a = some s') :
    Moves loads bot_user_id token s s' := by
  cases a with
  | opened =>
    rw [step] at h
    split at h
    · cases h
      exact .connects ‹_›
    · cases h
  | refused =>
    rw [step] at h
    split at h
    · cases h
      exact moves_failed s _
    · cases h
  | authenticated =>
    rw [step] at h
    split at h
    · cases h
      exact .moves s.running _ s.is_open id nofun
    · cases h
  | unsent =>
    rw [step] at h
    split at h
    · cases h
      exact moves_failed s _
    · cases h
  | frame raw =>
    rw [step] at h
    split at h
    · split at h
      · cases h
        exact .reads raw ‹_›
      · cases h
        exact moves_again s _
    · cases h
  | closed =>
    rw [step] at h
    split at h
    · cases h
      exact moves_again s _
    · cases h
  | lost =>
    rw [step] at h
    split at h
    · cases h
      exact moves_failed s _
    · cases h
  | slept =>
    rw [step] at h
    split at h
    · cases h
      exact moves_again s s.is_open
    · cases h
  | dropped ws =>
    cases h
    exact .moves s.running s.phase _ id .inr
  | send_typing channel_id parent_id =>
    rw [step] at h
    split at h
    · split at h
      · cases h
        exact .types _ channel_id parent_id ‹_›
      · cases h
        exact .moves s.running s.phase s.is_open id .inr
    · cases h
      exact .moves s.running s.phase s.is_open id .inr
  | stop =>
    rw [step] at h
    split at h
    · cases h
      exact .moves false s.phase _ nofun .inr
    · cases h
      exact .moves false s.phase s.is_open nofun .inr
  | cancel =>
    rw [step] at h
    split at h
    · cases h
      exact .moves s.running _ _ id nofun
    · cases h
      exact .moves s.running _ _ id nofun
    · cases h
      exact .moves s.running _ s.is_open id nofun

/-- The frames that were sent over a WebSocket. -/
def frames_over (ws : Nat) (sent : List MattermostSent) : List MattermostFrame :=
  (sent.filter (·.ws = ws)).map (·.frame)

/-- The frames are numbered through all connections, each WebSocket is authenticated before anything
else is sent over it, and exactly the posts of users are dispatched, in the order of the frames. -/
structure Session (loads : String → Option Json) (bot_user_id token : String)
    (s : MattermostClient) : Prop where
  numbered : s.sent.map (·.seq) = List.range' 2 s.sent.length
  authenticated : ∀ ws < s.opened, ∃ typing : List MattermostFrame,
    frames_over ws s.sent = .authentication_challenge token :: typing ∧
      typing.all MattermostFrame.typing = true
  dispatched : s.dispatched = (user_posts loads bot_user_id s.read).map channel_event

/-- What it needs to be kept. -/
structure Inv (loads : String → Option Json) (bot_user_id token : String)
    (s : MattermostClient) : Prop extends Session loads bot_user_id token s where
  counted : s.ws_seq = s.sent.length + 1
  held : ∀ ws, s.ws = some ws → ws < s.opened
  unopened : ∀ ws, s.opened ≤ ws → frames_over ws s.sent = []

theorem frames_over_snoc (w : Nat) (sent : List MattermostSent) (x : MattermostSent) :
    frames_over w (sent ++ [x]) = frames_over w sent ++ if x.ws = w then [x.frame] else [] := by
  rw [frames_over, List.filter_append, List.map_append, ← frames_over]
  by_cases hw : x.ws = w
  · simp [hw]
  · simp [hw]

theorem numbered_send (h : Inv loads bot_user_id token s) (w : Nat) (frame : MattermostFrame) :
    (s.send w frame).sent.map (·.seq) = List.range' 2 (s.send w frame).sent.length := by
  rw [send, List.map_append, h.numbered, List.length_append, List.length_singleton,
    List.range'_concat, h.counted, Nat.one_mul]
  simp [Nat.add_comm, Nat.add_left_comm]

theorem user_posts_snoc (frames : List String) (raw : String) :
    (user_posts loads bot_user_id (frames ++ [raw])).map channel_event =
      (user_posts loads bot_user_id frames).map channel_event ++
        handle_frame loads bot_user_id raw := by
  rw [user_posts, List.filterMap_append, List.filter_append, List.map_append, handle_frame_eq]
  cases h : post_in loads raw with
  | none => rw [List.filterMap_cons_none h]; rfl
  | some post => rw [List.filterMap_cons_some h]; rfl

theorem Inv.connected (h : Inv loads bot_user_id token s) :
    Inv loads bot_user_id token (s.connected token) := by
  refine ⟨⟨numbered_send h s.opened (.authentication_challenge token), fun w hw => ?_,
    h.dispatched⟩, ?_, fun w hw => ?_, fun w hw => ?_⟩
  · rw [MattermostClient.connected, send, frames_over_snoc]
    dsimp only
    by_cases he : s.opened = w
    · rw [if_pos he, ← he, h.unopened _ (Nat.le_refl _)]
      exact ⟨[], rfl, rfl⟩
    · rw [if_neg he, List.append_nil]
      have hlt : w < s.opened + 1 := hw
      exact h.authenticated w (by omega)
  · rw [MattermostClient.connected, send]
    simp [h.counted]
  · cases hw
    exact Nat.lt_succ_self _
  · have hle : s.opened + 1 ≤ w := hw
    rw [MattermostClient.connected, send, frames_over_snoc, h.unopened w (by omega),
      if_neg (by dsimp only; omega)]
    rfl

theorem Inv.types (h : Inv loads bot_user_id token s) {w : Nat} (hw : s.ws = some w)
    (channel_id parent_id : String) :
    Inv loads bot_user_id token (s.send w (.user_typing channel_id parent_id)) := by
  have hlt := h.held w hw
  refine ⟨⟨numbered_send h w _, fun v hv => ?_, h.dispatched⟩, ?_, h.held, fun v hv => ?_⟩
  · obtain ⟨typing, hover, htyping⟩ := h.authenticated v hv
    rw [send, frames_over_snoc, hover]
    dsimp only
    split
    · refine ⟨typing ++ [.user_typing channel_id parent_id], rfl, ?_⟩
      rw [List.all_append, htyping]
      rfl
    · exact ⟨typing, List.append_nil _, htyping⟩
  · rw [send]
    simp [h.counted]
  · have hle : s.opened ≤ v := hv
    rw [send, frames_over_snoc, h.unopened v hle, if_neg (by dsimp only; omega)]
    rfl

theorem inv_step (h : Inv loads bot_user_id token s)
    (hs : step loads bot_user_id token s a = some s') : Inv loads bot_user_id token s' := by
  cases step_moves hs with
  | connects _ => exact h.connected
  | reads raw _ =>
    refine ⟨⟨h.numbered, h.authenticated, ?_⟩, h.counted, h.held, h.unopened⟩
    rw [user_posts_snoc, ← h.dispatched]
  | types w channel_id parent_id hw => exact h.types hw channel_id parent_id
  | moves running phase is_open _ _ =>
    exact ⟨⟨h.numbered, h.authenticated, h.dispatched⟩, h.counted, h.held, h.unopened⟩

/-- In every run, over any connections and with any `send_typing` calls between. -/
theorem session_kept (h : Reach (step loads bot_user_id token) Any Initial s) :
    Session loads bot_user_id token s := by
  have hinv : Inv loads bot_user_id token s := by
    apply h.invariant
    · rintro s rfl
      exact ⟨⟨rfl, nofun, rfl⟩, rfl, nofun, fun _ _ => rfl⟩
    · exact fun _ _ _ hi _ hs => inv_step hi hs
  exact hinv.toSession

/-- The WebSocket that a client waits for. -/
def waits : MattermostPhase → Nat
  | .connecting => 1
  | _ => 0

/-- What a client that is stopped may still do: open the WebSocket that it waits for. -/
structure Stopped (s s' : MattermostClient) : Prop where
  running : s'.running = false
  dispatched : s'.dispatched = s.dispatched
  opened : s'.opened + waits s'.phase ≤ s.opened + waits s.phase

theorem stopped_step (h : s.running = false) (hs : step loads bot_user_id token s a = some s') :
    Stopped s s' := by
  cases step_moves hs with
  | connects hp =>
    refine ⟨h, rfl, ?_⟩
    rw [hp]
    exact Nat.le_refl _
  | reads raw hr => cases h.symm.trans hr
  | types w channel_id parent_id _ => exact ⟨h, rfl, Nat.le_refl _⟩
  | moves running phase is_open hr hp =>
    refine ⟨?_, rfl, Nat.add_le_add_left ?_ _⟩
    · cases running with
      | false => rfl
      | true => cases h.symm.trans (hr rfl)
    · cases phase with
      | connecting =>
        rcases hp rfl with hr | hp
        · cases h.symm.trans hr
        · exact Nat.le_of_eq (congrArg _ hp.symm)
      | _ => exact Nat.zero_le _

/-- After `stop` nothing is dispatched, whatever still arrives, and no WebSocket is opened but one
that the client waits for at that time. -/
theorem stop_is_final (h : s.running = false)
    (hrun : exec (step loads bot_user_id token) s as = some s') : Stopped s s' := by
  induction as generalizing s with
  | nil =>
    cases hrun
    exact ⟨h, rfl, Nat.le_refl _⟩
  | cons a as ih =>
    obtain ⟨s₁, hs, hrest⟩ := exec_cons.mp hrun
    have hfirst := stopped_step h hs
    have hlater := ih hfirst.running hrest
    exact ⟨hlater.running, hlater.dispatched.trans hfirst.dispatched,
      Nat.le_trans hlater.opened hfirst.opened⟩

/-! A frame before `stop` and one after it -/

def sample_loads (raw : String) : Option Json :=
  if raw = "frame" then
    some (.obj [("event", .str "posted"), ("data", .obj [("post", .str "post")])])
  else if raw = "post" then
    some (.obj [("user_id", .str "u1"), ("channel_id", .str "c1"), ("message", .str "hi")])
  else none

def sample_run : List Act :=
  [.opened, .authenticated, .frame "frame", .send_typing "c1" "", .lost, .slept, .opened,
    .authenticated, .frame "frame"]

theorem session_kept_twice : ∃ s,
    exec (step sample_loads "bot" "token") {} sample_run = some s ∧ s.dispatched.length = 2 ∧
      Session sample_loads "bot" "token" s := by
  have h : ((exec (step sample_loads "bot" "token") {} sample_run).any fun s =>
      s.dispatched.length = 2) = true := by decide +kernel
  obtain ⟨s, hs, htwo⟩ := (Option.any_eq_true _ _).mp h
  exact ⟨s, hs, of_decide_eq_true htwo, session_kept (reach_of_exec rfl hs)⟩

theorem stop_is_final_reading : ∃ s s',
    exec (step sample_loads "bot" "token") {} (sample_run ++ [.stop]) = some s ∧
    exec (step sample_loads "bot" "token") s [.frame "frame"] = some s' ∧ Stopped s s' := by
  have h : ((exec (step sample_loads "bot" "token") {} (sample_run ++ [.stop])).any fun s =>
      !s.running && (exec (step sample_loads "bot" "token") s [.frame "frame"]).isSome) = true := by
    decide +kernel
  obtain ⟨s, hs, hboth⟩ := (Option.any_eq_true _ _).mp h
  rw [Bool.and_eq_true] at hboth
  obtain ⟨hstopped, hsome⟩ := hboth
  obtain ⟨s', hs'⟩ := Option.isSome_iff_exists.mp hsome
  exact ⟨s, s', hs, hs', stop_is_final (by simpa using hstopped) hs'⟩

end MattermostClient

end ClawMux
