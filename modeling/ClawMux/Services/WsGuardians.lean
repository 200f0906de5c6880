import ClawMux.Services.WsRouting
import ClawMux.Services.WsTasks

namespace ClawMux
set_option autoImplicit true
open Lib

/-- A guardian that was cancelled while it closed the client. -/
def Pc.stopping : Pc → Bool
  | .closing _ (.reconnect _) true => true
  | _ => false

/-- A guardian that is neither over nor cancelled. -/
def Pc.guards (p : Pc) : Bool := p.kind = .guardian && !p.stopping

/-- In the section that replaces the client, or waiting to enter it. -/
def Pc.reconnecting : Pc → Bool
  | .lock_wait _ (.reconnect _) | .closing _ (.reconnect _) false | .connecting _ (.reconnect _) =>
    true
  | _ => false

/-- On the way to the section, with the client that was lost in the pool. -/
def Pc.waiting : Pc → Bool
  | .guard_sleep | .lock_wait _ (.reconnect _) => true
  | _ => false

/-- In `client.close()` of the client that was lost. -/
def Pc.closes_lost : Pc → Bool
  | .closing _ (.reconnect _) _ => true
  | _ => false

namespace Pool

def stopping (s : Pool) (t : Nat) : Bool := (s.pc t).any Pc.stopping

def guards (s : Pool) (t : Nat) : Bool := (s.pc t).any Pc.guards

def reconnecting (s : Pool) (t : Nat) : Bool := (s.pc t).any Pc.reconnecting

def waiting (s : Pool) (t : Nat) : Bool := (s.pc t).any Pc.waiting

def closes_lost (s : Pool) (t : Nat) : Bool := (s.pc t).any Pc.closes_lost

/-- The listen loop of the client in the pool runs. -/
def listens (s : Pool) : Bool := s.clients.any s.listening

/-- The steps in which a `close_connection` comes to the client. -/
def takes_client (s : Pool) : Act → Bool
  | .close_connection t => s.gets_lock (.close_connection t) && s.lock_free
  | .joined _ => s.lock_free
  | .lock_granted t =>
    match s.pc t with
    | some (.lock_wait _ .close_connection) => true
    | _ => false
  | _ => false

variable {s r s' : Pool}

theorem any_pc {f : Pc → Bool} (h : (s.pc t).any f = true) : ∃ p, s.pc t = some p ∧ f p = true :=
  (Option.any_eq_true ..).mp h

theorem any_of_pc {f : Pc → Bool} {p : Pc} (h : s.pc t = some p) (hf : f p = true) :
    (s.pc t).any f = true := by
  rw [h]
  exact hf

theorem guards_iff : s.guards t = true ↔ s.kind t = some .guardian ∧ s.stopping t = false := by
  rw [guards, kind, stopping]
  cases s.pc t with
  | none => simp
  | some p => simp [Pc.guards]

theorem guards_kind (h : s.guards t = true) : s.kind t = some .guardian := (guards_iff.mp h).1

theorem reconnecting_guards (h : s.reconnecting t = true) : s.guards t = true := by
  obtain ⟨p, hp, hr⟩ := any_pc h
  apply any_of_pc hp
  cases p with
  | lock_wait l job | connecting l job =>
    cases job with
    | reconnect info => rfl
    | get_or_create caller => cases hr
    | close_connection => cases hr
  | closing l job b =>
    cases job with
    | reconnect info =>
      cases b with
      | false => rfl
      | true => cases hr
    | get_or_create caller => cases hr
    | close_connection => cases hr
  | _ => cases hr

theorem waiting_guards (h : s.waiting t = true) : s.guards t = true := by
  obtain ⟨p, hp, hr⟩ := any_pc h
  apply any_of_pc hp
  cases p with
  | guard_sleep => rfl
  | lock_wait l job =>
    cases job with
    | reconnect info => rfl
    | get_or_create caller => cases hr
    | close_connection => cases hr
  | _ => cases hr

theorem closes_lost_kind (h : s.closes_lost t = true) : s.kind t = some .guardian := by
  obtain ⟨p, hp, hr⟩ := any_pc h
  rw [kind_of_pc hp]
  cases p with
  | closing l job b =>
    cases job with
    | reconnect info => rfl
    | get_or_create caller => cases hr
    | close_connection => cases hr
  | _ => cases hr

theorem stopping_closes (h : s.stopping t = true) : s.closes_lost t = true := by
  obtain ⟨p, hp, hr⟩ := any_pc h
  apply any_of_pc hp
  cases p with
  | closing l job b =>
    cases job with
    | reconnect info => rfl
    | get_or_create caller => cases hr
    | close_connection => cases hr
  | _ => cases hr

theorem stopping_kind (h : s.stopping t = true) : s.kind t = some .guardian :=
  closes_lost_kind (stopping_closes h)

/-- A task that has not moved. -/
structure Same (s s' : Pool) (t : Nat) : Prop where
  kind : s'.kind t = s.kind t
  guards : s'.guards t = s.guards t
  stopping : s'.stopping t = s.stopping t
  reconnecting : s'.reconnecting t = s.reconnecting t
  retiring : s'.retiring t = s.retiring t
  waiting : s'.waiting t = s.waiting t
  closes_lost : s'.closes_lost t = s.closes_lost t

theorem same_of_pc (h : s'.pc t = s.pc t) : s.Same s' t := by
  constructor
  · rw [kind, h, kind]
  · rw [guards, h, guards]
  · rw [stopping, h, stopping]
  · rw [reconnecting, h, reconnecting]
  · rw [retiring, h, retiring]
  · rw [waiting, h, waiting]
  · rw [closes_lost, h, closes_lost]

theorem join_retiring (h : s.pc t = some (.close_join g)) : s.retiring t = true := by
  rw [retiring, h]
  rfl

/-! The client and its instance -/

/-- They come and go together, and a guardian puts a client where there was one. -/
inductive Holding (takes : Bool) (s s' : Pool) : Prop
  | same (hc : s'.clients = s.clients) (hi : s'.user_info = s.user_info)
  | taken (ht : takes = true) (hc : s'.clients = none) (hi : s'.user_info = none)
  | stored (hc : s'.clients ≠ none) (hi : s'.user_info ≠ none)
  | renewed (t : Nat) (hr : s.reconnecting t = true) (hc : s'.clients ≠ none)
      (hi : s'.user_info = s.user_info)

theorem Holding.after (h : r.Holding b s') (hp : r.pc = s.pc) (hc : r.clients = s.clients)
    (hi : r.user_info = s.user_info) : s.Holding b s' := by
  cases h with
  | same hc' hi' => exact .same (hc'.trans hc) (hi'.trans hi)
  | taken hb hc' hi' => exact .taken hb hc' hi'
  | stored hc' hi' => exact .stored hc' hi'
  | renewed t hr hc' hi' =>
    refine .renewed t ?_ hc' (hi'.trans hi)
    rw [reconnecting, ← hp]
    exact hr

theorem fail_user_info (x : Send) (c : Nat) : (s.fail t x c).user_info = s.user_info := by
  rw [fail]
  split <;> rfl

theorem return_client_user_info (c : Nat) (caller : Caller) :
    (s.return_client t c caller).user_info = s.user_info := by
  cases caller with
  | direct info => rfl
  | send x =>
    rw [return_client]
    split
    · exact fail_user_info x c
    · split
      · exact fail_user_info x c
      · split <;> rfl

theorem enter_user_info (l : Nat) {job : Job} (h : job ≠ .close_connection) :
    (s.enter t l job).user_info = s.user_info := by
  cases job with
  | get_or_create caller =>
    rw [enter]
    split
    · split
      · exact return_client_user_info _ caller
      · rfl
    · rfl
  | reconnect info =>
    rw [enter]
    split <;> rfl
  | close_connection => exact absurd rfl h

theorem guardian_loop_user_info : (s.guardian_loop t).user_info = s.user_info := by
  rw [guardian_loop]
  split
  · rfl
  · split <;> rfl

theorem cancel_user_info (g : Nat) : (s.cancel g).user_info = s.user_info := by
  rw [cancel]
  split <;> rfl

theorem start_guardian_user_info (g : Nat) : (s.start_guardian g).user_info = s.user_info := by
  simp only [start_guardian]
  split
  · exact cancel_user_info _
  · rfl

theorem holding_acquire {job : Job} (h : job ≠ .close_connection) :
    s.Holding b (s.acquire t job) := by
  refine .same (ran_acquire h).clients ?_
  simp only [acquire]
  split
  · exact enter_user_info _ h
  · rfl

theorem holding_take (l : Nat) : s.Holding true (s.enter t l .close_connection) := by
  rw [enter]
  split
  · exact .taken rfl rfl rfl
  · rename_i hc
    exact .taken rfl hc rfl

theorem holding_close : s.Holding s.lock_free (s.acquire t .close_connection) := by
  rw [acquire]
  dsimp only
  split
  · rename_i hf
    have hfree : s.lock_free = true := hf
    rw [hfree]
    exact (holding_take _).after rfl rfl rfl
  · exact .same rfl rfl

theorem holding_install (ht : s.pc t = some (.connecting l job)) (hg : s.pc g = none)
    (hi : s.install t l g is_open job = some s') : s.Holding b s' := by
  cases job with
  | get_or_create caller =>
    refine .stored (install_replaced hg ht hi).2 ?_
    cases hi
    rw [return_client_user_info, release, start_guardian_user_info]
    exact fun h => by cases h
  | reconnect info =>
    refine .renewed t ?_ (install_reconnected hi).clients ?_
    · rw [reconnecting, ht]
      rfl
    · cases hi
      exact guardian_loop_user_info
  | close_connection => cases hi

theorem step_holding (hs : s.step a = some s') : s.Holding (s.takes_client a) s' := by
  have hget : ∀ caller, Job.get_or_create caller ≠ .close_connection := fun _ h => by cases h
  have hloop : ∀ b t, s.Holding b (s.guardian_loop t) := fun _ _ =>
    .same ran_guardian_loop.clients guardian_loop_user_info
  cases steps_of_step hs with
  | get_or_create ht => exact holding_acquire (hget _)
  | send_message ht hk hf => exact (holding_acquire (hget _)).after rfl rfl rfl
  | @close_connection t ht hg =>
    have htakes : s.takes_client (.close_connection t) = s.lock_free := by
      rw [takes_client, gets_lock_close hg, Bool.true_and]
    rw [htakes]
    exact (holding_close (s := { s with guardian_tasks := none })).after rfl rfl rfl
  | close_joins ht hg hp hd => exact .same (cancelled_cancel _).clients (cancel_user_info _)
  | send_granted ht hg => exact (holding_acquire (hget _)).after rfl rfl rfl
  | @lock_granted t l job ls ht hg =>
    by_cases hj : job = .close_connection
    · subst hj
      have htakes : s.takes_client (.lock_granted t) = true := by
        rw [takes_client, ht]
      rw [htakes]
      exact (holding_take l).after rfl rfl rfl
    · exact .same (ran_enter (s := { s with locks := ls }) l hj).clients (enter_user_info l hj)
  | retries ht => exact holding_acquire (hget _)
  | connected ht hg hi => exact holding_install ht hg hi
  | @send_raised t x c ht | @answer_raised t x c ht =>
    exact .same (ran_fail (t := t) x c).clients (fail_user_info x c)
  | joined ht hg => exact holding_close
  | guardian_runs ht | guardian_retries ht | guardian_timeout ht => exact hloop _ _
  | reconnects ht hi => exact holding_acquire fun h => by cases h
  | _ => exact .same rfl rfl

/-! Listen loops -/

/-- No listen loop starts. -/
def Quieter (s s' : Pool) : Prop := ∀ c, s'.listening c = true → s.listening c = true

theorem quieter_of_objects (h : s'.objects = s.objects) : s.Quieter s' := by
  intro c hc
  rw [listening, h] at hc
  exact hc

theorem quieter_close (c : Nat) : s.Quieter (s.close c) := fun _ h => (close_listening h).2

theorem quieter_set_client {f : Client → Client} (c : Nat)
    (hf : ∀ o, (f o).listening = o.listening) :
    s.Quieter (s.set_client c f) := by
  intro d hd
  rw [set_client_listening hf] at hd
  exact hd

theorem quieter_fail (x : Send) (c : Nat) : s.Quieter (s.fail t x c) := by
  rw [fail]
  split
  · exact quieter_of_objects rfl
  · exact quieter_close c

theorem quieter_return_client (c : Nat) (caller : Caller) :
    s.Quieter (s.return_client t c caller) := by
  cases caller with
  | direct info => exact quieter_of_objects rfl
  | send x =>
    rw [return_client]
    split
    · exact quieter_fail x c
    · split
      · exact quieter_fail x c
      · split
        · exact quieter_set_client c fun _ => rfl
        · exact quieter_set_client c fun _ => rfl

theorem quieter_enter (l : Nat) (job : Job) : s.Quieter (s.enter t l job) := by
  cases job with
  | get_or_create caller =>
    rw [enter]
    split
    · split
      · exact quieter_return_client (s := s.release l) _ caller
      · exact quieter_close _
    · exact quieter_of_objects rfl
  | reconnect info =>
    rw [enter]
    split
    · exact quieter_close _
    · exact quieter_of_objects rfl
  | close_connection =>
    rw [enter]
    split
    · exact quieter_close _
    · exact quieter_of_objects rfl

theorem quieter_acquire (job : Job) : s.Quieter (s.acquire t job) := by
  rw [acquire]
  dsimp only
  split
  · exact quieter_enter _ job
  · exact quieter_of_objects rfl

theorem quieter_guardian_loop : s.Quieter (s.guardian_loop t) := by
  rw [guardian_loop]
  split
  · exact quieter_of_objects rfl
  · split <;> exact quieter_of_objects rfl

theorem quieter_cancel (g : Nat) : s.Quieter (s.cancel g) := by
  rw [cancel]
  split <;> exact quieter_of_objects rfl

theorem step_quieter (hs : s.step a = some s') (ha : ∀ t g b, a ≠ .connected t g b) :
    s.Quieter s' := by
  cases steps_of_step hs with
  | get_or_create ht => exact quieter_acquire _
  | send_message ht hk hf => exact quieter_acquire _
  | close_connection ht hg => exact quieter_acquire _
  | close_joins ht hg hp hd => exact quieter_cancel _
  | send_granted ht hg => exact quieter_acquire _
  | lock_granted ht hg => exact quieter_enter _ _
  | client_granted ht ho hg => exact quieter_set_client _ fun _ => rfl
  | retries ht => exact quieter_acquire _
  | connected ht hg hi => exact absurd rfl (ha _ _ _)
  | answered ht => exact quieter_set_client _ fun _ => rfl
  | @send_raised t x c ht | @answer_raised t x c ht =>
    intro d hd
    have hfail := quieter_fail x c d hd
    exact quieter_set_client (f := fun o => { o with send_lock := o.send_lock.release }) c
      (fun _ => rfl) d hfail
  | joined ht hg => exact quieter_acquire _
  | guardian_runs ht | guardian_retries ht | guardian_timeout ht => exact quieter_guardian_loop
  | reconnects ht hi => exact quieter_acquire _
  | ws_drop => exact quieter_set_client _ fun _ => rfl
  | listen_end => exact quieter_close _
  | _ => exact quieter_of_objects rfl

/-! What a guardian does -/

/-- At the head of its loop: it ends without a client, watches one that listens, or sleeps. -/
theorem guardian_loop_pc (s : Pool) (t : Nat) :
    (s.guardian_loop t).pc t = some .done ∧ s.clients = none ∨
      (∃ c, (s.guardian_loop t).pc t = some (.guard_watch c) ∧ s.clients = some c) ∨
        (s.guardian_loop t).pc t = some .guard_sleep ∧ s.listens = false := by
  rw [guardian_loop]
  split
  · rename_i hc
    exact .inl ⟨goto_pc_self, hc⟩
  · rename_i c hc
    split
    · exact .inr (.inl ⟨c, goto_pc_self, hc⟩)
    · rename_i hl
      refine .inr (.inr ⟨goto_pc_self, ?_⟩)
      rw [listens, hc, Option.any_some]
      exact Bool.eq_false_iff.mpr hl

/-- How a guardian goes on, when it does not put a client into the pool. -/
inductive GoesOn (s : Pool) (t : Nat) (s' : Pool) : Prop
  | guards (hs : s.guards t = true) (hp : s'.pc t = some p) (hg : p.guards = true)
      (hreconnecting : p.reconnecting = true → s.reconnecting t = true ∨ s.user_info ≠ none)
      (hwatch : ∀ c, p = .guard_watch c → s.clients = some c)
      (hwaiting : p.waiting = true → s.listens = false ∨ s.waiting t = true ∨
        ∃ c, s.pc t = some (.guard_watch c) ∧ s.listening c = false)
      (hcloses : p.closes_lost = true → s.waiting t = true)
  | gone (hk : s'.kind t = some .over)
      (hover : s.clients = none ∨ s.user_info = none ∨ s.stopping t = true)

theorem goes_on_loop (hs : s.guards t = true) : s.GoesOn t (s.guardian_loop t) := by
  rcases guardian_loop_pc s t with ⟨hp, hc⟩ | ⟨c, hp, hc⟩ | ⟨hp, hl⟩
  · exact .gone (kind_of_pc hp) (.inl hc)
  · refine .guards hs hp rfl (fun h => by cases h) ?_ (fun h => by cases h) fun h => by cases h
    rintro d ⟨⟩
    exact hc
  · exact .guards hs hp rfl (fun h => by cases h) (fun d hd => by cases hd) (fun _ => .inl hl)
      fun h => by cases h

/-- It waits for the lock, or has entered the section. -/
theorem goes_on_waiting (hw : s.waiting t = true)
    (hi : s.reconnecting t = true ∨ s.user_info ≠ none) (hp : s'.pc t = some p)
    (h : ∃ l info, p = .lock_wait l (.reconnect info) ∨ p = .closing l (.reconnect info) false ∨
      p = .connecting l (.reconnect info)) : s.GoesOn t s' := by
  have hwatch : ∀ c, p = .guard_watch c → s.clients = some c := by
    rintro c rfl
    obtain ⟨l, info, h | h | h⟩ := h <;> cases h
  have hguards : p.guards = true := by
    obtain ⟨l, info, rfl | rfl | rfl⟩ := h <;> rfl
  exact .guards (waiting_guards hw) hp hguards (fun _ => hi) hwatch (fun _ => .inr (.inl hw))
    fun _ => hw

theorem enter_reconnect_pc (s : Pool) (t l : Nat) (info : InstanceInfo) :
    ∃ p, (s.enter t l (.reconnect info)).pc t = some p ∧ ∃ l info,
      p = .lock_wait l (.reconnect info) ∨ p = .closing l (.reconnect info) false ∨
        p = .connecting l (.reconnect info) := by
  rw [enter]
  split
  · exact ⟨_, goto_pc_self, l, info, .inr (.inl rfl)⟩
  · exact ⟨_, goto_pc_self, l, info, .inr (.inr rfl)⟩

theorem acquire_reconnect_pc (s : Pool) (t : Nat) (info : InstanceInfo) :
    ∃ p, (s.acquire t (.reconnect info)).pc t = some p ∧ ∃ l info,
      p = .lock_wait l (.reconnect info) ∨ p = .closing l (.reconnect info) false ∨
        p = .connecting l (.reconnect info) := by
  rw [acquire]
  dsimp only
  split
  · exact enter_reconnect_pc ..
  · exact ⟨_, goto_pc_self, _, info, .inl rfl⟩

/-- A guardian whose cancellation is not lost goes on. -/
theorem step_goes_on (hs : s.step a = some s') (ha : a.task = some t)
    (hk : s.kind t = some .guardian) (hinstall : ∀ g b, a ≠ .connected t g b)
    (hstops : a = .closed t → s.stopping t = false) : s.GoesOn t s' := by
  have hkind : ∀ {p : Pc}, s.pc t = some p → p.kind = .guardian := by
    intro p hp
    rw [kind_of_pc hp] at hk
    exact Option.some.inj hk
  cases steps_of_step hs with
  | get_or_create ht | send_message ht | send_waits ht | close_connection ht | close_joins ht =>
    cases ha
    rw [kind, ht] at hk
    cases hk
  | @lock_granted u l job ls ht hg =>
    cases ha
    cases job with
    | reconnect info =>
      obtain ⟨p, hp, h⟩ := enter_reconnect_pc { s with locks := ls } t l info
      exact goes_on_waiting (any_of_pc ht rfl) (.inl (any_of_pc ht rfl)) hp h
    | get_or_create caller => cases caller <;> cases hkind ht
    | close_connection => cases hkind ht
  | @reopens u l job b ht hj =>
    cases ha
    cases job with
    | reconnect info =>
      have hb : b = false := by
        have hstop := hstops rfl
        rw [stopping, ht] at hstop
        cases b with
        | false => rfl
        | true => cases hstop
      subst hb
      exact .guards (any_of_pc ht rfl) goto_pc_self rfl (fun _ => .inl (any_of_pc ht rfl))
        (fun c hc => by cases hc) (fun h => by cases h) fun h => by cases h
    | get_or_create caller => cases caller <;> cases hkind ht
    | close_connection => cases hkind ht
  | connected ht hg hi =>
    cases ha
    exact absurd rfl (hinstall _ _)
  | reconnect_failed ht =>
    cases ha
    exact .guards (any_of_pc ht rfl) goto_pc_self rfl (fun h => by cases h)
      (fun c hc => by cases hc) (fun h => by cases h) fun h => by cases h
  | guardian_runs ht | guardian_retries ht | guardian_timeout ht =>
    cases ha
    exact goes_on_loop (any_of_pc ht rfl)
  | @guardian_wakes u c ht hl =>
    cases ha
    exact .guards (any_of_pc ht rfl) goto_pc_self rfl (fun h => by cases h)
      (fun d hd => by cases hd) (fun _ => .inr (.inr ⟨c, ht, hl⟩)) fun h => by cases h
  | guardian_ends ht hi =>
    cases ha
    exact .gone (kind_of_pc goto_pc_self) (.inr (.inl hi))
  | @reconnects u info ht hi =>
    cases ha
    obtain ⟨p, hp, h⟩ := acquire_reconnect_pc s t info
    refine goes_on_waiting (any_of_pc ht rfl) (.inr ?_) hp h
    rw [hi]
    exact fun h => by cases h
  | close_cancelled ht =>
    cases ha
    exact .gone (kind_of_pc goto_pc_self) (.inr (.inr (any_of_pc ht rfl)))
  | ws_drop | listen_end => cases ha
  | @connect_failed u l info ht | @send_granted u sl key info ls ht hg
  | @client_granted u x c o q ht ho hg | @closed u l b ht | @retries u x ht | @send_failed u l x ht
  | @emit u x c o ht ho | @answered u x c ht | @send_raised u x c ht | @answer_raised u x c ht
  | @joined u g ht hg | @cancelled u ht | @aborting u l ht =>
    cases ha
    cases hkind ht

/-! What a cancellation does -/

/-- A guardian that is cancelled while it closes a client is marked. -/
theorem cancel_stopping (hk : (s.cancel g).kind g = some .guardian) :
    (s.cancel g).stopping g = true := by
  obtain ⟨l, info, b, hp⟩ := (cancelled_cancel g).stops hk
  have hcancel : s.cancel g = s.goto g (.closing l (.reconnect info) true) := by
    rw [cancel, hp]
  rw [hcancel]
  exact any_of_pc goto_pc_self rfl

theorem cancel_closes (hk : (s.cancel g).kind g = some .guardian) : s.closes_lost g = true := by
  obtain ⟨l, info, b, hp⟩ := (cancelled_cancel g).stops hk
  exact any_of_pc hp rfl

end Pool

end ClawMux
