import ClawMux.Lib.Program
import ClawMux.Lib.Replace
import ClawMux.Services.Adapters
import ClawMux.Services.LongPolling

namespace ClawMux
set_option autoImplicit true
open Lib Lib.Text

/-- What `except` clauses tell apart: `httpx.HTTPError`, the other exceptions of httpx, the
cancellation of the task, and the rest. -/
inductive BotExnKind
  | http_error
  | httpx
  | cancelled
  | other
  deriving DecidableEq

structure BotExn where
  kind : BotExnKind
  text : String
  deriving DecidableEq

/-- The text may have the URL of the request in it. -/
def BotExn.of_httpx (e : BotExn) : Bool := e.kind = .http_error || e.kind = .httpx

/-- What is passed to the logger: a value, or the text of an exception. -/
inductive Logged
  | value (j : Json)
  | error (e : BotExn)

inductive BotEffect
  | request (url : String) (data : List (String × Json))
  | isfile (path : String)
  | read (path : String)
  | running
  | sleep (seconds : Nat)
  | dispatch (event : AdapterEvent)
  | log (event : String) (fields : List (String × Logged))

/-- `status_error` is the text that `raise_for_status` makes up. -/
structure BotResponse where
  status_code : Nat
  status_error : String
  json : Except String Json

abbrev BotEffect.Answer : BotEffect → Type
  | .request .. => Except BotExn BotResponse
  | .isfile _ | .running => Bool
  | .read _ => Except String Unit
  | .sleep _ | .dispatch _ | .log .. => Unit

/-- A coroutine of an adapter. -/
abbrev Bot (α : Type) := Program BotEffect BotEffect.Answer (Except BotExn α)

/-- What Python makes of values: their texts, the texts of its own exceptions, and the numbers
that `int` reads, where `isdigit` lets it. -/
structure BotPython where
  dynamics : Dynamics := {}
  describe : Raised → String := fun _ => ""
  digits : String → Option (Except String Int) := fun _ => none

namespace Bot

def perform (e : BotEffect) : Program BotEffect BotEffect.Answer e.Answer := .ask e .done

def log (event : String) (fields : List (String × Logged)) : Bot Unit :=
  .ask (.log event fields) fun _ => .done (.ok ())

def sleep (seconds : Nat) : Bot Unit := .ask (.sleep seconds) fun _ => .done (.ok ())

def dispatch_all : List AdapterEvent → Bot Unit
  | [] => .done (.ok ())
  | event :: events => .ask (.dispatch event) fun _ => dispatch_all events

end Bot

/-- `str(e)`, or what a redaction makes of it. -/
inductive Wording
  | raw
  | redacted (token : String)

/-- `text.replace(token, "***") if token else text` -/
def redact (token text : String) : String :=
  if token ≠ "" then
    String.ofList (Replace.replaceAll token.toList "***".toList text.toList)
  else text

def BotExn.shown (e : BotExn) : Wording → BotExn
  | .raw => e
  | .redacted token => { e with text := redact token e.text }

/-- What an `except` clause catches, logs, and raises in its turn. -/
structure ExceptClause where
  catches : BotExnKind → Bool
  logs : Option (String × List (String × Logged) × Wording) := none
  raises : Option Wording := none

def except_exception (k : BotExnKind) : Bool := k ≠ .cancelled

def except_http_error (k : BotExnKind) : Bool := k = .http_error

def ExceptClause.run (h : ExceptClause) (default : α) (e : BotExn) : Bot α :=
  if h.catches e.kind then
    let logged : Bot Unit :=
      match h.logs with
      | some (event, fields, shown) => Bot.log event (fields ++ [("error", .error (e.shown shown))])
      | none => .done (.ok ())
    logged.andThen fun () =>
      match h.raises with
      | some shown => .done (.error (e.shown shown))
      | none => .done (.ok default)
  else .done (.error e)

/-- One request, and what is read off its response. -/
def call (url : String) (data : List (String × Json)) (accept : BotResponse → Except BotExn α) :
    Bot α :=
  (Bot.perform (.request url data)).bind fun answer => .done (answer.bind accept)

def attempt (h : ExceptClause) (url : String) (data : List (String × Json))
    (accept : BotResponse → Except BotExn α) (after : α → Bot β) (default : β) : Bot β :=
  ((call url data accept).andThen after).bind fun result =>
    match result with
    | .ok b => .done (.ok b)
    | .error e => h.run default e

def raise_for_status (r : BotResponse) : Except BotExn Unit :=
  if is_success r.status_code then .ok () else .error ⟨.http_error, r.status_error⟩

def BotResponse.read (r : BotResponse) : Except BotExn Json :=
  r.json.mapError fun text => ⟨.other, text⟩

variable (py : BotPython)

def python (x : Except Raised α) : Except BotExn α := x.mapError fun r => ⟨.other, py.describe r⟩

/-- `int(s) if s.isdigit() else default` -/
def number_or (s : String) (default : Option Json) : Except BotExn (Option Json) :=
  match py.digits s with
  | none => .ok default
  | some (.ok n) => .ok (some (.num n))
  | some (.error text) => .error ⟨.other, text⟩

/-! Polling -/

/-- How a round of a poll loop ends. -/
inductive PollEnd
  | read
  | paused
  | status (status_code : Nat)
  | raised (e : BotExn)

/-- The exception that leaves `read_updates`. -/
def read_raises (next_id : Json → Json → Except Raised Json) (handle : UpdateHandler) :
    List Json → Json → Option Raised
  | [], _ => none
  | update :: updates, cursor =>
    match next_id cursor update with
    | .error r => some r
    | .ok cursor =>
      match handle update with
      | .error r => some r
      | .ok _ => read_raises next_id handle updates cursor

/-- What the two poll loops log, and when they only sleep. -/
structure PollReport where
  offset : Json → Except Raised Json
  silent : Json → Bool
  status_event : String
  error_event : String
  shown : Wording
  asks_running : Bool
  pause : Nat

def poll_end (l : PollLoop) (report : PollReport) (handle : UpdateHandler)
    (answer : Except BotExn BotResponse) (p : Poller) : Poller × PollEnd :=
  match answer with
  | .error e => (p, .raised e)
  | .ok r =>
    if r.status_code ≠ 200 then (p, .status r.status_code)
    else
      match r.read with
      | .error e => (p, .raised e)
      | .ok data =>
        match l.updates (.response 200 (some data)) with
        | .error raised => (p, .raised ⟨.other, py.describe raised⟩)
        | .ok updates =>
          (read_updates l.next_id handle updates p,
            match read_raises l.next_id handle updates p.cursor with
            | some raised => .raised ⟨.other, py.describe raised⟩
            | none => if report.silent data then .paused else .read)

/-- `except Exception`; a cancelled loop breaks, and so does one that was stopped. -/
def poll_failed (report : PollReport) (e : BotExn) (p : Poller) : Bot (Option Poller) :=
  if e.kind = .cancelled then .done (.ok none)
  else
    let running := if report.asks_running then Bot.perform .running else .done true
    running.bind fun running : Bool =>
      if running then
        (Bot.log report.error_event [("error", .error (e.shown report.shown))]).andThen fun () =>
          (Bot.sleep report.pause).andThen fun () => .done (.ok (some p))
      else .done (.ok none)

def poll_ended (report : PollReport) (p : Poller) : PollEnd → Bot (Option Poller)
  | .read => .done (.ok (some p))
  | .paused => (Bot.sleep 3).andThen fun () => .done (.ok (some p))
  | .status status_code =>
    (Bot.log report.status_event [("status_code", .value (.num status_code))]).andThen fun () =>
      (Bot.sleep 3).andThen fun () => .done (.ok (some p))
  | .raised e => poll_failed report e p

def poll_round (l : PollLoop) (report : PollReport) (handle : UpdateHandler) (url : String)
    (params : Json → List (String × Json)) (p : Poller) : Bot (Option Poller) :=
  match report.offset p.cursor with
  | .error raised => poll_failed report ⟨.other, py.describe raised⟩ p
  | .ok offset =>
    (Bot.perform (.request url (params offset))).bind fun answer =>
      let ended := poll_end py l report handle answer p
      (Bot.dispatch_all (ended.1.dispatched.drop p.dispatched.length)).andThen fun () =>
        poll_ended report ended.1 ended.2

/-- The rounds of a loop that is looked at after `n` of them. -/
def poll_rounds (round : Poller → Bot (Option Poller)) : Nat → Poller → Bot Unit
  | 0, _ => .done (.ok ())
  | n + 1, p =>
    (Bot.perform .running).bind fun running : Bool =>
      if running then
        (round p).andThen fun next =>
          match next with
          | some p' => poll_rounds round n p'
          | none => .done (.ok ())
      else .done (.ok ())

/-! Telegram -/

structure TelegramAdapter where
  bot_token : String
  base_url : String := "https://api.telegram.org"

def rstrip_slash (url : String) : String :=
  String.ofList ((url.toList.reverse.dropWhile (· = '/')).reverse)

namespace TelegramAdapter
variable (a : TelegramAdapter)

def api_url : String := rstrip_slash a.base_url ++ "/bot" ++ a.bot_token

/-- `raise_for_status` with a redacted message. -/
def check (r : BotResponse) : Except BotExn Unit :=
  (raise_for_status r).mapError fun e => e.shown (.redacted a.bot_token)

def start : Bot String :=
  attempt { catches := except_exception
            logs := some ("telegram_login_failed", [], .redacted a.bot_token)
            raises := some .raw }
    (a.api_url ++ "/getMe") []
    (fun r => do
      raise_for_status r
      let data ← r.read
      let ok ← python py (Dynamic.get "ok" .null data)
      if !ok.truthy then
        let description ← python py (Dynamic.get "description" .null data)
        throw ⟨.other, "Telegram getMe failed: " ++ description.format py.dynamics⟩
      let me ← python py (Dynamic.get "result" (.obj []) data)
      let id ← python py (Dynamic.get "id" (.str "") me)
      return (id.format py.dynamics, ← python py (Dynamic.get "username" .null me)))
    (fun (bot_id, username) =>
      (Bot.log "telegram_logged_in"
        [("bot_id", .value (.str bot_id)), ("username", .value username)]).andThen fun () =>
          .done (.ok bot_id))
    ""

def report : PollReport where
  offset last_update_id :=
    match TelegramAdapter.offset last_update_id with
    | some n => .ok (.num n)
    | none => .error .type_error
  silent data := !(Json.get data.fields "ok" .null).truthy
  status_event := "telegram_poll_error"
  error_event := "telegram_poll_exception"
  shown := .redacted a.bot_token
  asks_running := true
  pause := 5

def poll (rounds : Nat) (p : Poller) : Bot Unit :=
  poll_rounds (poll_round py (poll_loop py.dynamics) a.report (handle_update py.dynamics)
    (a.api_url ++ "/getUpdates") fun offset =>
      [("offset", offset), ("timeout", .num 20),
        ("allowed_updates", .arr [.str "message", .str "channel_post"])]) rounds p

/-- The task of `_handle_update`, by how the handler of the message ends. -/
def dispatch (result : Except BotExn Unit) : Bot Unit :=
  match result with
  | .ok () => .done (.ok ())
  | .error e =>
    ExceptClause.run
      { catches := except_exception
        logs := some ("telegram_on_message_error", [], .redacted a.bot_token) } () e

/-- The thread of a message, when its id is a number. -/
def thread (root_id : String) : Except BotExn (List (String × Json)) := do
  if root_id = "" then return []
  else return ((← number_or py root_id none).map fun n => ("message_thread_id", n)).toList

def message_id (data : Json) : Except BotExn String := do
  let result ← python py (Dynamic.get "result" (.obj []) data)
  let id ← python py (Dynamic.get "message_id" (.str "") result)
  return id.format py.dynamics

def sent (r : BotResponse) : Except BotExn String := do
  a.check r
  message_id py (← r.read)

def send_reply (channel_id message root_id : String) : Bot String :=
  (.done (thread py root_id) : Bot _).andThen fun thread =>
    attempt { catches := except_http_error
              logs := some ("telegram_send_reply_error",
                [("channel_id", .value (.str channel_id))], .redacted a.bot_token)
              raises := some (.redacted a.bot_token) }
      (a.api_url ++ "/sendMessage")
      ([("chat_id", .str channel_id), ("text", .str message)] ++ thread)
      (a.sent py) (fun post_id => .done (.ok post_id)) ""

def update_reply (post_id message channel_id : String) : Bot Unit :=
  if post_id = "" ∨ channel_id = "" then .done (.ok ())
  else
    (.done (number_or py post_id (some (.str post_id))) : Bot _).andThen fun message_id =>
      attempt { catches := except_http_error
                logs := some ("telegram_update_reply_warning",
                  [("post_id", .value (.str post_id))], .redacted a.bot_token) }
        (a.api_url ++ "/editMessageText")
        [("chat_id", .str channel_id), ("message_id", message_id.getD .null),
          ("text", .str message)]
        (fun r =>
          if r.status_code ≠ 200 ∧ r.status_code ≠ 400 then raise_for_status r else .ok ())
        (fun () => .done (.ok ())) ()

def send_typing (channel_id parent_id : String) : Bot Unit :=
  (.done (thread py parent_id) : Bot _).andThen fun thread =>
    attempt { catches := except_exception
              logs := some ("telegram_typing_error", [], .redacted a.bot_token) }
      (a.api_url ++ "/sendChatAction")
      ([("chat_id", .str channel_id), ("action", .str "typing")] ++ thread)
      (fun _ => .ok ()) (fun () => .done (.ok ())) ()

/-- A file that is there is uploaded, anything else is sent by its id. -/
def send_document (channel_id message item root_id : String) : Bot String :=
  (Bot.perform (.isfile item)).bind fun there : Bool =>
    let opened : Program BotEffect BotEffect.Answer (Except String Unit) :=
      if there then Bot.perform (.read item) else .done (.ok ())
    opened.bind fun content =>
      match content with
      | .error text => .done (.error ⟨.other, text⟩)
      | .ok () =>
        (.done (thread py root_id) : Bot _).andThen fun thread =>
          call (a.api_url ++ "/sendDocument")
            ([("chat_id", .str channel_id), ("document", .str item), ("caption", .str message)] ++
              thread)
            (a.sent py)

/-- Only the first document has the caption. -/
def send_documents (channel_id root_id : String) : String → String → List String → Bot String
  | last_id, _, [] => .done (.ok last_id)
  | _, message, item :: items =>
    (a.send_document py channel_id message item root_id).andThen fun last_id =>
      send_documents channel_id root_id last_id "" items

def send_post_with_files (channel_id message : String) (file_ids_or_paths : List String)
    (root_id : String) : Bot String :=
  a.send_documents py channel_id root_id "" message file_ids_or_paths

def stop : Bot Unit := Bot.log "telegram_stopped" []

end TelegramAdapter

/-! VK Teams -/

structure VkTeamsAdapter where
  bot_token : String
  base_url : String := "https://myteam.mail.ru/bot/v1"

namespace VkTeamsAdapter
variable (a : VkTeamsAdapter)

def token : String := strip a.bot_token

def api_url : String := rstrip_slash a.base_url

def start : Bot String :=
  attempt { catches := except_exception
            logs := some ("vk_teams_login_failed", [], .raw)
            raises := some .raw }
    (a.api_url ++ "/self/get") [("token", .str a.token)]
    (fun r => do
      raise_for_status r
      let data ← r.read
      let ok ← python py (Dynamic.get "ok" .null data)
      if !ok.truthy then
        let description ← python py (Dynamic.get "description" .null data)
        throw ⟨.other, "VK Teams self/get failed: " ++ description.format py.dynamics⟩
      let user_id := Dynamic.either (← python py (Dynamic.get "userId" .null data))
        (← python py (Dynamic.get "userId" (.str "") data))
      return (user_id.format py.dynamics, ← python py (Dynamic.get "nick" .null data)))
    (fun (bot_id, nickname) =>
      (Bot.log "vk_teams_logged_in"
        [("bot_id", .value (.str bot_id)), ("nickname", .value nickname)]).andThen fun () =>
          .done (.ok bot_id))
    ""

def report : PollReport where
  offset last_event_id := .ok last_event_id
  silent _ := false
  status_event := "vk_teams_poll_error"
  error_event := "vk_teams_poll_exception"
  shown := .raw
  asks_running := false
  pause := 3

def poll (bot_user_id : String) (rounds : Nat) (p : Poller) : Bot Unit :=
  poll_rounds (poll_round py poll_loop report (handle_event py.dynamics bot_user_id)
    (a.api_url ++ "/events/get") fun last_event_id =>
      [("token", .str a.token), ("lastEventId", last_event_id), ("pollTime", .num 25)]) rounds p

/-- A refusal of the platform is logged with its description. -/
def send_reply (channel_id message root_id : String) : Bot String :=
  attempt { catches := except_exception
            logs := some ("vk_teams_send_error", [("channel", .value (.str channel_id))], .raw) }
    (a.api_url ++ "/messages/sendText")
    ([("token", .str a.token), ("chatId", .str channel_id), ("text", .str message)] ++
      if root_id = "" then [] else [("replyMsgId", .str root_id)])
    (fun r => do
      raise_for_status r
      let data ← r.read
      let ok ← python py (Dynamic.get "ok" .null data)
      if ok.truthy then
        let id ← python py (Dynamic.get "msgId" (.str "") data)
        return .ok (id.format py.dynamics)
      else return .error (← python py (Dynamic.get "description" .null data)))
    (fun answer : Except Json String =>
      match answer with
      | .ok id => .done (.ok id)
      | .error description =>
        (Bot.log "vk_teams_send_failed" [("error", .value description),
          ("channel", .value (.str channel_id))]).andThen fun () => .done (.ok ""))
    ""

def update_reply (post_id message channel_id : String) : Bot Unit :=
  if post_id = "" ∨ channel_id = "" then .done (.ok ())
  else
    attempt { catches := except_exception
              logs := some ("vk_teams_update_error", [("post_id", .value (.str post_id))], .raw) }
      (a.api_url ++ "/messages/editText")
      [("token", .str a.token), ("chatId", .str channel_id), ("msgId", .str post_id),
        ("text", .str message)]
      raise_for_status (fun () => .done (.ok ())) ()

def send_typing (channel_id _parent_id : String) : Bot Unit :=
  attempt { catches := except_exception }
    (a.api_url ++ "/chats/actionsSend")
    [("token", .str a.token), ("chatId", .str channel_id), ("style", .str "typing")]
    (fun _ => .ok ()) (fun () => .done (.ok ())) ()

def send_post_with_files (channel_id message : String) (file_ids_or_paths : List String)
    (root_id : String) : Bot String :=
  let text := if file_ids_or_paths.isEmpty then message
    else message ++ file_notes "📎 Attachment: " message file_ids_or_paths
  a.send_reply py channel_id text root_id

def stop : Bot Unit := Bot.log "vk_teams_stopped" []

end VkTeamsAdapter

/-! Bitrix24 -/

structure BitrixAdapter where
  webhook_url : String
  bot_id : Int := 0

namespace BitrixAdapter
variable (a : BitrixAdapter)

def url (method : String) : String := rstrip_slash a.webhook_url ++ method

def bot : List (String × Json) := if a.bot_id = 0 then [] else [("BOT_ID", .num a.bot_id)]

def start : Bot Unit := Bot.log "bitrix_adapter_started" [("bot_id", .value (.num a.bot_id))]

def send_reply (channel_id message _root_id : String) : Bot String :=
  attempt { catches := except_http_error
            logs := some ("bitrix_send_reply_error",
              [("channel_id", .value (.str channel_id))], .raw)
            raises := some .raw }
    (a.url "/imbot.message.add.json")
    ([("DIALOG_ID", .str channel_id), ("MESSAGE", .str message)] ++ a.bot)
    (fun r => do
      raise_for_status r
      let result ← python py (Dynamic.get "result" (.str "") (← r.read))
      return result.format py.dynamics)
    (fun message_id => .done (.ok message_id)) ""

def update_reply (post_id message _channel_id : String) : Bot Unit :=
  if post_id = "" then .done (.ok ())
  else
    (.done (number_or py post_id (some (.str post_id))) : Bot _).andThen fun message_id =>
      attempt { catches := except_http_error
                logs := some ("bitrix_update_reply_warning",
                  [("post_id", .value (.str post_id))], .raw) }
        (a.url "/imbot.message.update.json")
        ([("MESSAGE_ID", message_id.getD .null), ("MESSAGE", .str message)] ++ a.bot)
        raise_for_status (fun () => .done (.ok ())) ()

def send_typing (channel_id _parent_id : String) : Bot Unit :=
  attempt { catches := except_exception }
    (a.url "/imbot.chat.startWriting.json") ([("DIALOG_ID", .str channel_id)] ++ a.bot)
    (fun _ => .ok ()) (fun () => .done (.ok ())) ()

def send_post_with_files (channel_id message : String) (file_ids_or_paths : List String)
    (root_id : String) : Bot String :=
  a.send_reply py channel_id (message ++ file_notes "📎 File: " message file_ids_or_paths) root_id

def stop : Bot Unit := Bot.log "bitrix_stopped" []

end BitrixAdapter

/-! All of them -/

inductive BotAdapter
  | telegram (a : TelegramAdapter)
  | vk_teams (a : VkTeamsAdapter)
  | bitrix (a : BitrixAdapter)

/-- The operations of an adapter; the polling, and the tasks that it starts, are looked at after any
number of rounds. -/
inductive BotCall
  | start
  | poll (bot_user_id : String) (rounds : Nat) (p : Poller)
  | dispatch (result : Except BotExn Unit)
  | send_reply (channel_id message root_id : String)
  | update_reply (post_id message channel_id : String)
  | send_typing (channel_id parent_id : String)
  | send_post_with_files (channel_id message : String) (file_ids_or_paths : List String)
      (root_id : String)
  | get_or_create_dm_channel (user_id : String)
  | stop

def Bot.forget (p : Bot α) : Bot Unit := p.andThen fun _ => .done (.ok ())

/-- A call of an adapter; only Telegram and VK Teams poll, and only Telegram looks at how the
handling of a message ends. -/
def BotAdapter.run : BotAdapter → BotCall → Bot Unit
  | .telegram a, .start => (a.start py).forget
  | .telegram a, .poll _ rounds p => a.poll py rounds p
  | .telegram a, .dispatch result => a.dispatch result
  | .telegram a, .send_reply channel_id message root_id =>
    (a.send_reply py channel_id message root_id).forget
  | .telegram a, .update_reply post_id message channel_id =>
    a.update_reply py post_id message channel_id
  | .telegram a, .send_typing channel_id parent_id => a.send_typing py channel_id parent_id
  | .telegram a, .send_post_with_files channel_id message items root_id =>
    (a.send_post_with_files py channel_id message items root_id).forget
  | .telegram _, .stop => TelegramAdapter.stop
  | .vk_teams a, .start => (a.start py).forget
  | .vk_teams a, .poll bot_user_id rounds p => a.poll py bot_user_id rounds p
  | .vk_teams a, .send_reply channel_id message root_id =>
    (a.send_reply py channel_id message root_id).forget
  | .vk_teams a, .update_reply post_id message channel_id =>
    a.update_reply post_id message channel_id
  | .vk_teams a, .send_typing channel_id parent_id => a.send_typing channel_id parent_id
  | .vk_teams a, .send_post_with_files channel_id message items root_id =>
    (a.send_post_with_files py channel_id message items root_id).forget
  | .vk_teams _, .stop => VkTeamsAdapter.stop
  | .bitrix a, .start => a.start
  | .bitrix a, .send_reply channel_id message root_id =>
    (a.send_reply py channel_id message root_id).forget
  | .bitrix a, .update_reply post_id message channel_id =>
    a.update_reply py post_id message channel_id
  | .bitrix a, .send_typing channel_id parent_id => a.send_typing channel_id parent_id
  | .bitrix a, .send_post_with_files channel_id message items root_id =>
    (a.send_post_with_files py channel_id message items root_id).forget
  | .bitrix _, .stop => BitrixAdapter.stop
  | _, _ => .done (.ok ())

end ClawMux
