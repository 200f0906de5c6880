import ClawMux.Core.Models
import ClawMux.Lib.LockSlot
import ClawMux.Lib.Transition

namespace ClawMux
set_option autoImplicit true
open Lib

/-- An `OpenClawClient`: what it was opened with, whether its socket is open and authenticated,
whether its listen loop runs, and the queue for `chat.send`. -/
structure Client where
  info : InstanceInfo
  is_open : Bool
  listening : Bool
  send_lock : FifoLock Nat := {}

def Client.is_connected (c : Client) : Bool := c.is_open && c.listening

/-- One logical send, under the send lock it has taken. -/
structure Send where
  send_lock : Nat
  key : String
  info : InstanceInfo
  retry : Bool

inductive Caller
  | direct (info : InstanceInfo)
  | send (x : Send)

def Caller.info : Caller → InstanceInfo
  | .direct info => info
  | .send x => x.info

/-- The three sections that run under the per-user lock. -/
inductive Job
  | get_or_create (caller : Caller)
  | reconnect (info : InstanceInfo)
  | close_connection

/-- Where a task is suspended. -/
inductive Pc
  | send_wait (sl : Nat) (key : String) (info : InstanceInfo)
  | lock_wait (l : Nat) (job : Job)
  | closing (l : Nat) (job : Job) (cancelled : Bool)
  | connecting (l : Nat) (job : Job)
  | client_wait (x : Send) (c : Nat)
  | sending (x : Send) (c : Nat)
  | awaiting (x : Send) (c : Nat)
  | send_closing (x : Send)
  | close_join (guardian : Nat)
  | guard_new
  | guard_watch (c : Nat)
  | guard_sleep
  | guard_backoff
  | cancelled
  | aborting (l : Nat)
  | done

/-- A `chat.send` frame, with the task that sent it and what its connection was opened with. -/
structure Frame where
  send : Nat
  key : String
  info : InstanceInfo
  deriving DecidableEq, Repr

/-- What `WSConnectionManager` keeps for one user, and the tasks that run for that user; `keys` are
the idempotency keys drawn so far, with the task that drew each. -/
structure Pool where
  objects : Nat → Option Client := fun _ => none
  next_object : Nat := 0
  clients : Option Nat := none
  user_info : Option InstanceInfo := none
  guardian_tasks : Option Nat := none
  locks : LockSlot Nat := {}
  send_locks : LockSlot Nat := {}
  pc : Nat → Option Pc := fun _ => none
  keys : List (Nat × String) := []
  frames : List Frame := []

namespace Pool

def goto (s : Pool) (t : Nat) (p : Pc) : Pool := { s with pc := Function.update s.pc t (some p) }

def is_connected (s : Pool) (c : Nat) : Bool :=
  match s.objects c with
  | some x => x.is_connected
  | none => false

def listening (s : Pool) (c : Nat) : Bool :=
  match s.objects c with
  | some x => x.listening
  | none => false

def set_client (s : Pool) (c : Nat) (f : Client → Client) : Pool :=
  { s with objects := Function.update s.objects c ((s.objects c).map f) }

/-- `client.close()` up to its first suspension; the cancelled listen loop dispatches no more. -/
def close (s : Pool) (c : Nat) : Pool :=
  s.set_client c fun x => { x with is_open := false, listening := false }

def release (s : Pool) (l : Nat) : Pool := { s with locks := s.locks.release l }

/-- The end of a logical send, by its value or by its exception. -/
def finish (s : Pool) (t : Nat) (x : Send) : Pool :=
  { s with send_locks := s.send_locks.release x.send_lock }.goto t .done

/-- `client.send_message` raised. -/
def fail (s : Pool) (t : Nat) (x : Send) (c : Nat) : Pool :=
  if x.retry then s.finish t x else (s.close c).goto t (.send_closing x)

/-- `get_or_create` returned `c`; a send goes on to `client.send_message`. -/
def return_client (s : Pool) (t : Nat) (c : Nat) : Caller → Pool
  | .direct _ => s.goto t .done
  | .send x =>
    match s.objects c with
    | none => s.fail t x c
    | some o =>
      if o.is_connected = false then s.fail t x c
      else if o.send_lock.free then
        (s.set_client c fun o => { o with send_lock := o.send_lock.take t }).goto t (.sending x c)
      else
        (s.set_client c fun o => { o with send_lock := o.send_lock.enqueue t }).goto t
          (.client_wait x c)

/-- The section under the per-user lock `l`, up to its first suspension. -/
def enter (s : Pool) (t l : Nat) : Job → Pool
  | .get_or_create caller =>
    match s.clients with
    | some c =>
      if s.is_connected c then (s.release l).return_client t c caller
      else (s.close c).goto t (.closing l (.get_or_create caller) false)
    | none => s.goto t (.connecting l (.get_or_create caller))
  | .reconnect info =>
    match s.clients with
    | some c => (s.close c).goto t (.closing l (.reconnect info) false)
    | none => s.goto t (.connecting l (.reconnect info))
  | .close_connection =>
    match s.clients with
    | some c =>
      ({ s with clients := none, user_info := none }.close c).goto t
        (.closing l .close_connection false)
    | none =>
      ({ s with user_info := none, locks := s.locks.pop, send_locks := s.send_locks.pop }.release
        l).goto t .done

/-- `lock = self._get_lock(user_id)` and `async with lock`. -/
def acquire (s : Pool) (t : Nat) (job : Job) : Pool :=
  let l := s.locks.get.2
  let s := { s with locks := s.locks.get.1 }
  if (s.locks.heap l).free then { s with locks := s.locks.take l t }.enter t l job
  else { s with locks := s.locks.enqueue l t }.goto t (.lock_wait l job)

/-- The head of the guardian's loop. -/
def guardian_loop (s : Pool) (t : Nat) : Pool :=
  match s.clients with
  | none => s.goto t .done
  | some c => if s.listening c then s.goto t (.guard_watch c) else s.goto t .guard_sleep

/-- `task.cancel()` on a guardian. While it awaits the listen task in `client.close()` the
cancellation may be lost, because the listen loop swallows it. -/
def cancel (s : Pool) (g : Nat) : Pool :=
  match s.pc g with
  | some (.lock_wait l (.reconnect _)) =>
    { s with locks := s.locks.withdraw l g }.goto g .cancelled
  | some (.closing l (.reconnect info) _) => s.goto g (.closing l (.reconnect info) true)
  | some (.connecting l (.reconnect _)) => s.goto g (.aborting l)
  | some .guard_new | some (.guard_watch _) | some .guard_sleep | some .guard_backoff =>
    s.goto g .cancelled
  | _ => s

def start_guardian (s : Pool) (g : Nat) : Pool :=
  let s := match s.guardian_tasks with
    | some e => s.cancel e
    | none => s
  { s with guardian_tasks := some g }.goto g .guard_new

/-- The connection of `client` succeeded: install it, release the lock and go on. -/
def install (s : Pool) (t l g : Nat) (is_open : Bool) (job : Job) : Option Pool :=
  let c := s.next_object
  let new := fun (s : Pool) (info : InstanceInfo) =>
    { s with
      objects := Function.update s.objects c (some ⟨info, is_open, true, {}⟩)
      next_object := c + 1
      clients := some c }
  match job with
  | .get_or_create caller =>
    some (((({ new s caller.info with user_info := some caller.info }).start_guardian g).release
      l).return_client t c caller)
  | .reconnect info => some (((new s info).release l).guardian_loop t)
  | .close_connection => none

inductive Act
  | get_or_create (t : Nat) (info : InstanceInfo)
  | send_message (t : Nat) (key : String) (info : InstanceInfo)
  | close_connection (t : Nat)
  | send_granted (t : Nat)
  | lock_granted (t : Nat)
  | client_granted (t : Nat)
  | closed (t : Nat)
  | connected (t g : Nat) (is_open : Bool)
  | connect_failed (t : Nat)
  | emit (t : Nat)
  | answered (t : Nat)
  | raised (t : Nat)
  | joined (t : Nat)
  | guardian_runs (t : Nat)
  | guardian_timeout (t : Nat)
  | unwind (t : Nat)
  | ws_drop (c : Nat)
  | listen_end (c : Nat)

def step (s : Pool) : Act → Option Pool
  | .get_or_create t info =>
    match s.pc t with
    | none => some (s.acquire t (.get_or_create (.direct info)))
    | some _ => none
  | .send_message t key info =>
    match s.pc t with
    | none =>
      -- `uuid4` never draws a key twice
      if key ∈ s.keys.map (·.2) then none
      else
        let sl := s.send_locks.get.2
        let s := { s with keys := (t, key) :: s.keys, send_locks := s.send_locks.get.1 }
        if (s.send_locks.heap sl).free then
          some ({ s with send_locks := s.send_locks.take sl t }.acquire t
            (.get_or_create (.send ⟨sl, key, info, false⟩)))
        else
          some ({ s with send_locks := s.send_locks.enqueue sl t }.goto t (.send_wait sl key info))
    | some _ => none
  | .close_connection t =>
    match s.pc t with
    | none =>
      match s.guardian_tasks with
      | none => some (s.acquire t .close_connection)
      | some g =>
        let s := { s with guardian_tasks := none }
        match s.pc g with
        | none | some .done => some (s.acquire t .close_connection)
        | some _ => some ((s.cancel g).goto t (.close_join g))
    | some _ => none
  | .send_granted t =>
    match s.pc t with
    | some (.send_wait sl key info) =>
      match s.send_locks.grant sl t with
      | some locks =>
        some ({ s with send_locks := locks }.acquire t
          (.get_or_create (.send ⟨sl, key, info, false⟩)))
      | none => none
    | _ => none
  | .lock_granted t =>
    match s.pc t with
    | some (.lock_wait l job) =>
      match s.locks.grant l t with
      | some locks => some ({ s with locks := locks }.enter t l job)
      | none => none
    | _ => none
  | .client_granted t =>
    match s.pc t with
    | some (.client_wait x c) =>
      match (s.objects c).bind fun o => o.send_lock.grant t with
      | some q => some ((s.set_client c fun o => { o with send_lock := q }).goto t (.sending x c))
      | none => none
    | _ => none
  | .closed t =>
    match s.pc t with
    | some (.closing l .close_connection _) =>
      some (({ s with locks := s.locks.pop, send_locks := s.send_locks.pop }.release l).goto t
        .done)
    | some (.closing l job _) => some (s.goto t (.connecting l job))
    | some (.send_closing x) =>
      some (s.acquire t (.get_or_create (.send { x with retry := true })))
    | _ => none
  | .connected t g is_open =>
    match s.pc t, s.pc g with
    | some (.connecting l job), none => s.install t l g is_open job
    | _, _ => none
  | .connect_failed t =>
    match s.pc t with
    | some (.connecting l (.get_or_create (.direct _))) => some ((s.release l).goto t .done)
    | some (.connecting l (.get_or_create (.send x))) => some ((s.release l).finish t x)
    | some (.connecting l (.reconnect _)) => some ((s.release l).goto t .guard_backoff)
    | _ => none
  | .emit t =>
    match s.pc t with
    | some (.sending x c) =>
      match s.objects c with
      | some o =>
        some ({ s with frames := s.frames ++ [Frame.mk t x.key o.info] }.goto t (.awaiting x c))
      | none => none
    | _ => none
  | .answered t =>
    match s.pc t with
    | some (.awaiting x c) =>
      some ((s.set_client c fun o => { o with send_lock := o.send_lock.release }).finish t x)
    | _ => none
  | .raised t =>
    match s.pc t with
    | some (.sending x c) | some (.awaiting x c) =>
      some ((s.set_client c fun o => { o with send_lock := o.send_lock.release }).fail t x c)
    | _ => none
  | .joined t =>
    match s.pc t with
    | some (.close_join g) =>
      match s.pc g with
      | some .done => some (s.acquire t .close_connection)
      | _ => none
    | _ => none
  | .guardian_runs t =>
    match s.pc t with
    | some .guard_new | some .guard_backoff => some (s.guardian_loop t)
    | some (.guard_watch c) => if s.listening c then none else some (s.goto t .guard_sleep)
    | some .guard_sleep =>
      match s.user_info with
      | none => some (s.goto t .done)
      | some info => some (s.acquire t (.reconnect info))
    | _ => none
  | .guardian_timeout t =>
    match s.pc t with
    | some (.guard_watch _) => some (s.guardian_loop t)
    | _ => none
  | .unwind t =>
    match s.pc t with
    | some .cancelled => some (s.goto t .done)
    | some (.aborting l) => some ((s.release l).goto t .done)
    | some (.closing l (.reconnect _) true) => some ((s.release l).goto t .done)
    | _ => none
  | .ws_drop c => some (s.set_client c fun o => { o with is_open := false })
  | .listen_end c => some (s.close c)

def Initial (s : Pool) : Prop := s = {}

end Pool

end ClawMux
