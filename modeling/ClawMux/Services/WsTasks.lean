import ClawMux.Services.WsSteps

namespace ClawMux
set_option autoImplicit true
open Lib

/-! What one step does to the tasks of a user -/

inductive Kind
  | direct
  | send
  | close
  | guardian
  | over
  deriving DecidableEq, Repr

def Caller.kind : Caller → Kind
  | .direct _ => .direct
  | .send _ => .send

def Job.kind : Job → Kind
  | .get_or_create caller => caller.kind
  | .reconnect _ => .guardian
  | .close_connection => .close

/-- What a task is in; a cancelled task only unwinds. -/
def Pc.kind : Pc → Kind
  | .send_wait .. | .client_wait .. | .sending .. | .awaiting .. | .send_closing _ => .send
  | .lock_wait _ job | .closing _ job _ | .connecting _ job => job.kind
  | .close_join _ => .close
  | .guard_new | .guard_watch _ | .guard_sleep | .guard_backoff => .guardian
  | .cancelled | .aborting _ | .done => .over

/-- A `close_connection` that has not come to the client yet. -/
def Pc.retiring : Pc → Bool
  | .close_join _ | .lock_wait _ .close_connection => true
  | _ => false

namespace Pool

def kind (s : Pool) (t : Nat) : Option Kind := (s.pc t).map Pc.kind

def retiring (s : Pool) (t : Nat) : Bool := (s.pc t).any Pc.retiring

variable {s r s' : Pool}

@[simp] theorem goto_pc_self : (s.goto t p).pc t = some p := Function.update_self ..

theorem goto_pc_other (h : u ≠ t) : (s.goto t p).pc u = s.pc u := Function.update_of_ne h ..

/-- Task `t` of the kind `k` runs, and neither installs nor removes a client. -/
structure Ran (s : Pool) (t : Nat) (k : Kind) (s' : Pool) : Prop where
  self : s'.kind t = some k ∨ s'.kind t = some .over
  others : ∀ u, u ≠ t → s'.pc u = s.pc u
  clients : s'.clients = s.clients
  guardians : s'.guardian_tasks = s.guardian_tasks

/-- Task `t` takes the client from the pool. -/
structure Removed (s : Pool) (t : Nat) (s' : Pool) : Prop where
  self : s'.kind t = some .close ∨ s'.kind t = some .over
  others : ∀ u, u ≠ t → s'.pc u = s.pc u
  entered : s'.retiring t = false
  clients : s'.clients = none
  guardians : s'.guardian_tasks = s.guardian_tasks

theorem Ran.after (h : r.Ran t k s') (hp : r.pc = s.pc) (hc : r.clients = s.clients)
    (hg : r.guardian_tasks = s.guardian_tasks) : s.Ran t k s' := by
  refine ⟨h.self, ?_, h.clients.trans hc, h.guardians.trans hg⟩
  rw [← hp]
  exact h.others

theorem Removed.after (h : r.Removed t s') (hp : r.pc = s.pc)
    (hg : r.guardian_tasks = s.guardian_tasks) : s.Removed t s' := by
  refine ⟨h.self, ?_, h.entered, h.clients, h.guardians.trans hg⟩
  rw [← hp]
  exact h.others

theorem ran_goto (h : p.kind = k ∨ p.kind = .over) : s.Ran t k (s.goto t p) := by
  refine ⟨?_, fun u hu => goto_pc_other hu, rfl, rfl⟩
  rw [kind, goto_pc_self, Option.map_some, Option.some.injEq, Option.some.injEq]
  exact h

/-- What else changes does not matter. -/
theorem ran_move (h : p.kind = k ∨ p.kind = .over) (hp : r.pc = s.pc) (hc : r.clients = s.clients)
    (hg : r.guardian_tasks = s.guardian_tasks) : s.Ran t k (r.goto t p) :=
  (ran_goto h).after hp hc hg

theorem ran_finish (x : Send) : s.Ran t .send (s.finish t x) :=
  ran_move (.inr rfl) rfl rfl rfl

theorem ran_fail (x : Send) (c : Nat) : s.Ran t .send (s.fail t x c) := by
  rw [fail]
  split
  · exact ran_finish x
  · exact ran_move (.inl rfl) rfl rfl rfl

theorem ran_return_client (c : Nat) (caller : Caller) :
    s.Ran t caller.kind (s.return_client t c caller) := by
  cases caller with
  | direct info => exact ran_goto (.inr rfl)
  | send x =>
    rw [return_client]
    split
    · exact ran_fail x c
    · split
      · exact ran_fail x c
      · split
        · exact ran_move (.inl rfl) rfl rfl rfl
        · exact ran_move (.inl rfl) rfl rfl rfl

theorem ran_enter (l : Nat) {job : Job} (h : job ≠ .close_connection) :
    s.Ran t job.kind (s.enter t l job) := by
  cases job with
  | get_or_create caller =>
    rw [enter]
    split
    · split
      · exact (ran_return_client (s := s.release l) _ caller).after rfl rfl rfl
      · exact ran_move (.inl rfl) rfl rfl rfl
    · exact ran_goto (.inl rfl)
  | reconnect info =>
    rw [enter]
    split
    · exact ran_move (.inl rfl) rfl rfl rfl
    · exact ran_goto (.inl rfl)
  | close_connection => exact absurd rfl h

theorem removed_enter (l : Nat) : s.Removed t (s.enter t l .close_connection) := by
  rw [enter]
  split
  · rename_i c hc
    refine ⟨.inl ?_, fun u hu => goto_pc_other hu, ?_, rfl, rfl⟩
    · rw [kind, goto_pc_self]
      rfl
    · rw [retiring, goto_pc_self]
      rfl
  · rename_i hc
    refine ⟨.inr ?_, fun u hu => goto_pc_other hu, ?_, hc, rfl⟩
    · rw [kind, goto_pc_self]
      rfl
    · rw [retiring, goto_pc_self]
      rfl

theorem ran_acquire {job : Job} (h : job ≠ .close_connection) :
    s.Ran t job.kind (s.acquire t job) := by
  simp only [acquire]
  split
  · exact (ran_enter _ h).after rfl rfl rfl
  · exact ran_move (.inl rfl) rfl rfl rfl

theorem acquire_ran {job : Job} (h : job ≠ .close_connection) (hk : job.kind = k)
    (hp : r.pc = s.pc) (hc : r.clients = s.clients) (hg : r.guardian_tasks = s.guardian_tasks) :
    s.Ran t k (r.acquire t job) :=
  hk ▸ (ran_acquire h).after hp hc hg

/-- A `close_connection` waits for the lock, or takes the client at once. -/
def Proceeds (s : Pool) (t : Nat) (s' : Pool) : Prop :=
  s.Ran t .close s' ∧ s'.retiring t = true ∨ s.Removed t s'

theorem Proceeds.self (h : s.Proceeds t s') : s'.kind t = some .close ∨ s'.kind t = some .over :=
  h.elim (fun h => h.1.self) (fun h => h.self)

theorem Proceeds.others (h : s.Proceeds t s') : ∀ u, u ≠ t → s'.pc u = s.pc u :=
  h.elim (fun h => h.1.others) (fun h => h.others)

theorem Proceeds.guardians (h : s.Proceeds t s') : s'.guardian_tasks = s.guardian_tasks :=
  h.elim (fun h => h.1.guardians) (fun h => h.guardians)

theorem acquire_close : s.Proceeds t (s.acquire t .close_connection) := by
  simp only [acquire]
  split
  · exact .inr ((removed_enter _).after rfl rfl)
  · refine .inl ⟨ran_move (.inl rfl) rfl rfl rfl, ?_⟩
    rw [retiring, goto_pc_self]
    rfl

theorem ran_guardian_loop : s.Ran t .guardian (s.guardian_loop t) := by
  rw [guardian_loop]
  split
  · exact ran_goto (.inr rfl)
  · split
    · exact ran_goto (.inl rfl)
    · exact ran_goto (.inl rfl)

/-- A cancelled guardian is over, unless it is closing a client; no other task notices. -/
structure Cancelled (s : Pool) (g : Nat) (s' : Pool) : Prop where
  self : s.kind g = some .guardian ∨ s'.pc g = s.pc g
  kinds : s'.kind g = s.kind g ∨ s'.kind g = some .over
  others : ∀ u, u ≠ g → s'.pc u = s.pc u
  stops : s'.kind g = some .guardian → ∃ l info b, s.pc g = some (.closing l (.reconnect info) b)
  clients : s'.clients = s.clients
  guardians : s'.guardian_tasks = s.guardian_tasks

theorem kind_of_pc {p : Pc} (h : s.pc t = some p) : s.kind t = some p.kind := by
  rw [kind, h, Option.map_some]

theorem kind_of_retiring (h : s.retiring t = true) : s.kind t = some .close := by
  rw [retiring, Option.any_eq_true] at h
  obtain ⟨p, hp, hr⟩ := h
  rw [kind_of_pc hp]
  cases p with
  | close_join g => rfl
  | lock_wait l job =>
    cases job with
    | close_connection => rfl
    | get_or_create caller => cases hr
    | reconnect info => cases hr
  | send_wait | closing | connecting | client_wait | sending | awaiting | send_closing | guard_new
  | guard_watch | guard_sleep | guard_backoff | cancelled | aborting | done => cases hr

theorem cancelled_over {p q : Pc} (h : s.pc g = some p) (hp : p.kind = .guardian)
    (hr : r.pc = s.pc) (hc : r.clients = s.clients) (hg : r.guardian_tasks = s.guardian_tasks)
    (hq : q.kind = .over) : s.Cancelled g (r.goto g q) := by
  have hself : (r.goto g q).kind g = some .over := by
    rw [kind_of_pc goto_pc_self, hq]
  refine ⟨.inl ?_, .inr hself, ?_, ?_, hc, hg⟩
  · rw [kind_of_pc h, hp]
  · intro u hu
    rw [goto_pc_other hu, hr]
  · intro hk
    rw [hself] at hk
    cases hk

theorem cancelled_cancel (g : Nat) : s.Cancelled g (s.cancel g) := by
  rw [cancel]
  split
  · rename_i hg
    exact cancelled_over hg rfl rfl rfl rfl rfl
  · rename_i l info b hg
    refine ⟨.inl (kind_of_pc hg), .inl ?_, fun u hu => goto_pc_other hu,
      fun _ => ⟨l, info, b, hg⟩, rfl, rfl⟩
    rw [kind_of_pc goto_pc_self, kind_of_pc hg]
    rfl
  · rename_i hg
    exact cancelled_over hg rfl rfl rfl rfl rfl
  · rename_i hg
    exact cancelled_over hg rfl rfl rfl rfl rfl
  · rename_i hg
    exact cancelled_over hg rfl rfl rfl rfl rfl
  · rename_i hg
    exact cancelled_over hg rfl rfl rfl rfl rfl
  · rename_i hg
    exact cancelled_over hg rfl rfl rfl rfl rfl
  · rename_i hlock hclosing hconnecting hnew hwatch hsleep hbackoff
    refine ⟨.inr rfl, .inl rfl, fun u _ => rfl, ?_, rfl, rfl⟩
    intro hk
    rw [kind] at hk
    cases hp : s.pc g with
    | none =>
      rw [hp] at hk
      cases hk
    | some p =>
      rw [hp, Option.map_some, Option.some.injEq] at hk
      cases p with
      | lock_wait l job =>
        cases job with
        | get_or_create caller => cases caller <;> cases hk
        | reconnect info => exact absurd hp (hlock l info)
        | close_connection => cases hk
      | closing l job b =>
        cases job with
        | get_or_create caller => cases caller <;> cases hk
        | reconnect info => exact absurd hp (hclosing l info b)
        | close_connection => cases hk
      | connecting l job =>
        cases job with
        | get_or_create caller => cases caller <;> cases hk
        | reconnect info => exact absurd hp (hconnecting l info)
        | close_connection => cases hk
      | guard_new => exact absurd hp hnew
      | guard_watch c => exact absurd hp (hwatch c)
      | guard_sleep => exact absurd hp hsleep
      | guard_backoff => exact absurd hp hbackoff
      | send_wait | client_wait | sending | awaiting | send_closing | close_join | cancelled
      | aborting | done => cases hk

/-- The guardian that there was is replaced by `g`. -/
structure Replaced (s : Pool) (g : Nat) (s' : Pool) : Prop where
  fresh : s'.pc g = some .guard_new
  kinds : ∀ u, u ≠ g → s'.kind u = s.kind u ∨ s'.kind u = some .over
  closes : ∀ u, s.kind u = some .close → s'.pc u = s.pc u
  others : ∀ u, s.kind u = some .guardian → s.guardian_tasks ≠ some u → s'.pc u = s.pc u
  stops : ∀ e, s.guardian_tasks = some e → e ≠ g → s'.kind e = some .guardian →
    ∃ l info b, s.pc e = some (.closing l (.reconnect info) b)
  guardians : s'.guardian_tasks = some g

/-- The guardian `t` installs a client. -/
structure Reconnected (s : Pool) (t : Nat) (s' : Pool) : Prop where
  self : s'.kind t = some .guardian ∨ s'.kind t = some .over
  others : ∀ u, u ≠ t → s'.pc u = s.pc u
  clients : s'.clients ≠ none
  guardians : s'.guardian_tasks = s.guardian_tasks

/-- The call that a step is, with its task. -/
def Act.begins : Act → Option (Nat × Kind)
  | .get_or_create t _ => some (t, .direct)
  | .send_message t _ _ => some (t, .send)
  | .close_connection t => some (t, .close)
  | _ => none

/-- The task that a step is of. -/
def Act.task : Act → Option Nat
  | .get_or_create t _ | .send_message t _ _ | .close_connection t | .send_granted t
  | .lock_granted t | .client_granted t | .closed t | .connected t _ _ | .connect_failed t
  | .emit t | .answered t | .raised t | .joined t | .guardian_runs t | .guardian_timeout t
  | .unwind t => some t
  | .ws_drop _ | .listen_end _ => none

/-- The ways of a step. -/
inductive Moves (s : Pool) (a : Act) (s' : Pool) : Prop
  | world : a.begins = none → s'.pc = s.pc → s'.clients = s.clients →
      s'.guardian_tasks = s.guardian_tasks → Moves s a s'
  | begins (t : Nat) (k : Kind) : a.begins = some (t, k) → k = .direct ∨ k = .send →
      s.pc t = none → s.Ran t k s' → Moves s a s'
  | runs (t : Nat) (k : Kind) : a.begins = none → a.task = some t → k ≠ .close →
      s.kind t = some k → s.Ran t k s' → Moves s a s'
  | closed (t : Nat) : a.begins = none → s.kind t = some .close → s.retiring t = false →
      s.Ran t .close s' → s'.kind t = some .over → Moves s a s'
  | closes (t : Nat) : a.begins = some (t, .close) → s.pc t = none →
      (∀ g, s.guardian_tasks = some g → s.pc g = none ∨ s.pc g = some .done) →
      Proceeds { s with guardian_tasks := none } t s' → Moves s a s'
  | joins (t g : Nat) : a.begins = some (t, .close) → s.pc t = none → s.guardian_tasks = some g →
      (∃ r, Cancelled { s with guardian_tasks := none } g r ∧ r.pc t = none ∧
        s' = r.goto t (.close_join g)) → Moves s a s'
  | joined (t g : Nat) : a.begins = none → s.pc t = some (.close_join g) → s.pc g = some .done →
      s.Proceeds t s' → Moves s a s'
  | enters (t l : Nat) : a.begins = none → s.pc t = some (.lock_wait l .close_connection) →
      s.Removed t s' → Moves s a s'
  | reconnects (t g l : Nat) (info : InstanceInfo) (b : Bool) : a = .connected t g b →
      s.pc t = some (.connecting l (.reconnect info)) → s.Reconnected t s' → Moves s a s'
  | installs (t g l : Nat) (caller : Caller) (b : Bool) : a = .connected t g b →
      s.pc t = some (.connecting l (.get_or_create caller)) → s.pc g = none →
      s.Replaced g s' → s'.clients ≠ none → Moves s a s'

theorem start_guardian_clients (s : Pool) (g : Nat) : (s.start_guardian g).clients = s.clients := by
  simp only [start_guardian]
  split
  · exact (cancelled_cancel _).clients
  · rfl

/-- A new guardian, in a pool with the same tasks as `s`. -/
theorem start_guardian_replaced (hg : s.pc g = none) (hr : r.pc = s.pc)
    (hrg : r.guardian_tasks = s.guardian_tasks) : s.Replaced g (r.start_guardian g) := by
  have hkind : ∀ u, r.kind u = s.kind u := by
    intro u
    rw [kind, hr]
    rfl
  have hfresh : ∀ {u k}, s.kind u = some k → u ≠ g := by
    rintro u k hu rfl
    rw [kind, hg] at hu
    cases hu
  cases he : s.guardian_tasks with
  | none =>
    have hstart : r.start_guardian g = ({ r with guardian_tasks := some g } : Pool).goto g
        .guard_new := by
      simp only [start_guardian, hrg, he]
    rw [hstart]
    have hpc : ∀ u, u ≠ g →
        (({ r with guardian_tasks := some g } : Pool).goto g .guard_new).pc u = s.pc u := by
      intro u hu
      rw [goto_pc_other hu, ← hr]
    refine ⟨goto_pc_self, ?_, ?_, ?_, ?_, rfl⟩
    · intro u hu
      rw [kind, hpc u hu]
      exact .inl rfl
    · exact fun u hu => hpc u (hfresh hu)
    · exact fun u hu _ => hpc u (hfresh hu)
    · intro e h
      rw [he] at h
      cases h
  | some e =>
    have hstart : r.start_guardian g = ({ r.cancel e with guardian_tasks := some g } : Pool).goto g
        .guard_new := by
      simp only [start_guardian, hrg, he]
    rw [hstart]
    have hc := cancelled_cancel (s := r) e
    have hpc : ∀ u, u ≠ g → (({ r.cancel e with guardian_tasks := some g } : Pool).goto g
        .guard_new).pc u = (r.cancel e).pc u := fun u hu => goto_pc_other hu
    have hsame : ∀ u k, s.kind u = some k → k ≠ .guardian → (r.cancel e).pc u = s.pc u := by
      intro u k hu hk
      rw [← hr]
      by_cases hue : u = e
      · subst hue
        rcases hc.self with h | h
        · rw [hkind, hu] at h
          cases h
          exact absurd rfl hk
        · exact h
      · exact hc.others u hue
    refine ⟨goto_pc_self, ?_, ?_, ?_, ?_, rfl⟩
    · intro u hu
      rw [kind, hpc u hu, ← hkind]
      by_cases hue : u = e
      · subst hue
        exact hc.kinds
      · rw [hc.others u hue]
        exact .inl rfl
    · intro u hu
      rw [hpc u (hfresh hu)]
      exact hsame u _ hu fun h => by cases h
    · intro u hu hue
      rw [hpc u (hfresh hu), ← hr]
      refine hc.others u ?_
      rintro rfl
      exact hue he
    · intro e' he' heg hkg
      rw [he] at he'
      cases he'
      rw [kind, hpc e heg] at hkg
      rw [← hr]
      exact hc.stops hkg

/-- The task that installed the client goes on. -/
theorem Replaced.ran (h : s.Replaced g r) (hr : r.Ran t k s') (ht : s.kind t = some k)
    (hclose : k ≠ .close) (hguardian : k ≠ .guardian) (hg : s.pc g = none) : s.Replaced g s' := by
  have htg : g ≠ t := by
    rintro rfl
    rw [kind, hg] at ht
    cases ht
  refine ⟨(hr.others g htg).trans h.fresh, ?_, ?_, ?_, ?_, hr.guardians.trans h.guardians⟩
  · intro u hu
    by_cases hut : u = t
    · subst hut
      rw [ht]
      exact hr.self
    · rw [kind, hr.others u hut]
      exact h.kinds u hu
  · intro u hu
    have hut : u ≠ t := by
      rintro rfl
      rw [ht] at hu
      cases hu
      exact hclose rfl
    rw [hr.others u hut]
    exact h.closes u hu
  · intro u hu hue
    have hut : u ≠ t := by
      rintro rfl
      rw [ht] at hu
      cases hu
      exact hguardian rfl
    rw [hr.others u hut]
    exact h.others u hu hue
  · intro e he heg hkg
    by_cases het : e = t
    · subst het
      rcases hr.self with h' | h'
      · rw [h'] at hkg
        cases hkg
        exact absurd rfl hguardian
      · rw [h'] at hkg
        cases hkg
    · rw [kind, hr.others e het] at hkg
      exact h.stops e he heg hkg

theorem guardian_ran (hs : s.step (.guardian_runs t) = some s') :
    s.kind t = some .guardian ∧ s.Ran t .guardian s' := by
  cases steps_of_step hs with
  | guardian_runs ht => exact ⟨kind_of_pc ht, ran_guardian_loop⟩
  | guardian_retries ht => exact ⟨kind_of_pc ht, ran_guardian_loop⟩
  | guardian_wakes ht hl => exact ⟨kind_of_pc ht, ran_goto (.inl rfl)⟩
  | guardian_ends ht hi => exact ⟨kind_of_pc ht, ran_goto (.inr rfl)⟩
  | reconnects ht hi => exact ⟨kind_of_pc ht, acquire_ran (fun h => by cases h) rfl rfl rfl rfl⟩

theorem timeout_ran (hs : s.step (.guardian_timeout t) = some s') :
    s.kind t = some .guardian ∧ s.Ran t .guardian s' := by
  cases steps_of_step hs with
  | guardian_timeout ht => exact ⟨kind_of_pc ht, ran_guardian_loop⟩

theorem install_reconnected (hs : s.install t l g b (.reconnect info) = some s') :
    s.Reconnected t s' := by
  cases hs
  have hran := ran_guardian_loop (s := Pool.release { s with
    objects := Function.update s.objects s.next_object (some ⟨info, b, true, {}⟩)
    next_object := s.next_object + 1
    clients := some s.next_object } l) (t := t)
  refine ⟨hran.self, hran.others, ?_, hran.guardians⟩
  rw [hran.clients]
  exact fun h => by cases h

theorem install_replaced (hg : s.pc g = none)
    (ht : s.pc t = some (.connecting l (.get_or_create caller)))
    (hs : s.install t l g b (.get_or_create caller) = some s') :
    s.Replaced g s' ∧ s'.clients ≠ none := by
  have hguardian : caller.kind ≠ .guardian := by
    cases caller <;> exact fun h => by cases h
  have hclose : caller.kind ≠ .close := by
    cases caller <;> exact fun h => by cases h
  have hkind : s.kind t = some caller.kind := kind_of_pc ht
  cases hs
  generalize hr : ({ s with
    objects := Function.update s.objects s.next_object (some ⟨caller.info, b, true, {}⟩)
    next_object := s.next_object + 1
    clients := some s.next_object
    user_info := some caller.info } : Pool) = r
  have hrep := start_guardian_replaced (s := s) (r := r) (g := g) hg (by rw [← hr]) (by rw [← hr])
  have hran := (ran_return_client (s := (r.start_guardian g).release l) (t := t)
    s.next_object caller).after (s := r.start_guardian g) rfl rfl rfl
  refine ⟨hrep.ran hran hkind hclose hguardian hg, ?_⟩
  rw [hran.clients, start_guardian_clients, ← hr]
  exact fun h => by cases h

theorem step_moves (hs : s.step a = some s') : s.Moves a s' := by
  have hcaller : ∀ caller : Caller, caller.kind ≠ .close := by
    intro caller
    cases caller <;> exact fun h => by cases h
  have hget : ∀ caller, Job.get_or_create caller ≠ .close_connection := fun _ h => by cases h
  have hkind : ∀ job : Job, job ≠ .close_connection → job.kind ≠ .close := by
    intro job hj
    cases job with
    | close_connection => exact absurd rfl hj
    | get_or_create caller => exact hcaller caller
    | reconnect info => exact fun h => by cases h
  cases steps_of_step hs with
  | @get_or_create t info ht =>
    exact .begins t .direct rfl (.inl rfl) ht (acquire_ran (hget _) rfl rfl rfl rfl)
  | @send_message t key info ht hk hf =>
    refine .begins t .send rfl (.inr rfl) ht ?_
    exact acquire_ran (hget _) rfl rfl rfl rfl
  | @send_waits t key info ht hk hf =>
    exact .begins t .send rfl (.inr rfl) ht (ran_move (.inl rfl) rfl rfl rfl)
  | @close_connection t ht hg => exact .closes t rfl ht hg acquire_close
  | @close_joins t g p ht hg hp hd =>
    refine .joins t g rfl ht hg ⟨_, cancelled_cancel g, ?_, rfl⟩
    have hne : t ≠ g := by
      rintro rfl
      rw [ht] at hp
      cases hp
    exact ((cancelled_cancel (s := { s with guardian_tasks := none }) g).others t hne).trans ht
  | @send_granted t sl key info ls ht hg =>
    refine .runs t .send rfl rfl (by decide) (kind_of_pc ht) ?_
    exact acquire_ran (hget _) rfl rfl rfl rfl
  | @lock_granted t l job ls ht hg =>
    by_cases hj : job = .close_connection
    · subst hj
      exact .enters t l rfl ht ((removed_enter l).after rfl rfl)
    · exact .runs t job.kind rfl rfl (hkind job hj) (kind_of_pc ht)
        ((ran_enter l hj).after rfl rfl rfl)
  | @client_granted t x c o q ht ho hg =>
    refine .runs t .send rfl rfl (by decide) (kind_of_pc ht) ?_
    exact ran_move (.inl rfl) rfl rfl rfl
  | @closed t l b ht =>
    refine .closed t rfl (kind_of_pc ht) ?_ (ran_move (.inr rfl) rfl rfl rfl) ?_
    · rw [retiring, ht]
      rfl
    · exact kind_of_pc goto_pc_self
  | @reopens t l job b ht hj =>
    exact .runs t job.kind rfl rfl (hkind job hj) (kind_of_pc ht)
      (ran_move (.inl rfl) rfl rfl rfl)
  | @retries t x ht =>
    exact .runs t .send rfl rfl (by decide) (kind_of_pc ht) (acquire_ran (hget _) rfl rfl rfl rfl)
  | @connected t l job g b s' ht hg hi =>
    cases job with
    | get_or_create caller =>
      obtain ⟨hrep, hcl⟩ := install_replaced hg ht hi
      exact .installs t g l caller b rfl ht hg hrep hcl
    | reconnect info => exact .reconnects t g l info b rfl ht (install_reconnected hi)
    | close_connection => cases hi
  | @connect_failed t l info ht =>
    exact .runs t .direct rfl rfl (by decide) (kind_of_pc ht) (ran_move (.inr rfl) rfl rfl rfl)
  | @send_failed t l x ht =>
    refine .runs t .send rfl rfl (by decide) (kind_of_pc ht) ?_
    exact (ran_finish x).after rfl rfl rfl
  | @reconnect_failed t l info ht =>
    exact .runs t .guardian rfl rfl (by decide) (kind_of_pc ht) (ran_move (.inl rfl) rfl rfl rfl)
  | @emit t x c o ht ho =>
    exact .runs t .send rfl rfl (by decide) (kind_of_pc ht) (ran_move (.inl rfl) rfl rfl rfl)
  | @answered t x c ht =>
    refine .runs t .send rfl rfl (by decide) (kind_of_pc ht) ?_
    exact (ran_finish x).after rfl rfl rfl
  | @send_raised t x c ht | @answer_raised t x c ht =>
    refine .runs t .send rfl rfl (by decide) (kind_of_pc ht) ?_
    exact (ran_fail x c).after rfl rfl rfl
  | @joined t g ht hg => exact .joined t g rfl ht hg acquire_close
  | @guardian_runs t _ | @guardian_retries t _ | @guardian_wakes t _ _ _ | @guardian_ends t _ _
  | @reconnects t _ _ _ =>
    obtain ⟨hk, hran⟩ := guardian_ran hs
    exact .runs t .guardian rfl rfl (by decide) hk hran
  | @guardian_timeout t c ht =>
    obtain ⟨hk, hran⟩ := timeout_ran hs
    exact .runs t .guardian rfl rfl (by decide) hk hran
  | @cancelled t ht =>
    exact .runs t .over rfl rfl (by decide) (kind_of_pc ht) (ran_goto (.inr rfl))
  | @aborting t l ht =>
    exact .runs t .over rfl rfl (by decide) (kind_of_pc ht) (ran_move (.inr rfl) rfl rfl rfl)
  | @close_cancelled t l info ht =>
    exact .runs t .guardian rfl rfl (by decide) (kind_of_pc ht) (ran_move (.inr rfl) rfl rfl rfl)
  | ws_drop => exact .world rfl rfl rfl rfl
  | listen_end => exact .world rfl rfl rfl rfl

/-- The guardian that looks at `_shutting_down` in a step. -/
def checks (s : Pool) : Act → Option Nat
  | .connected t _ _ =>
    match s.pc t with
    | some (.connecting _ (.reconnect _)) => some t
    | _ => none
  | .guardian_runs t =>
    match s.pc t with
    | some .guard_new | some .guard_backoff | some (.guard_watch _) => some t
    | _ => none
  | .guardian_timeout t => some t
  | _ => none

/-- A step of a task, when the manager may be shutting down. -/
def run (shutting_down : Bool) (s : Pool) (a : Act) : Option Pool :=
  (s.step a).map fun s' =>
    match s.checks a with
    | some t => if shutting_down then s'.goto t .done else s'
    | none => s'

theorem Ran.stop (h : s.Ran t k s') : s.Ran t k (s'.goto t .done) :=
  ⟨.inr (kind_of_pc goto_pc_self), fun u hu => (goto_pc_other hu).trans (h.others u hu),
    h.clients, h.guardians⟩

/-- A guardian that stops has moved all the same. -/
theorem checks_moves (hs : s.step a = some s') (hc : s.checks a = some t) :
    s.Moves a (s'.goto t .done) := by
  cases a with
  | connected u g b =>
    simp only [checks] at hc
    split at hc
    · rename_i l info hu
      cases hc
      simp only [step, hu] at hs
      split at hs
      · rename_i l' job hl hg
        cases hl
        have hrec := install_reconnected hs
        exact .reconnects t g l info b rfl hu ⟨.inr (kind_of_pc goto_pc_self),
          fun v hv => (goto_pc_other hv).trans (hrec.others v hv), hrec.clients, hrec.guardians⟩
      · cases hs
    · cases hc
  | guardian_runs u =>
    obtain ⟨hk, hran⟩ := guardian_ran hs
    simp only [checks] at hc
    split at hc
    · cases hc
      exact .runs t .guardian rfl rfl (by decide) hk hran.stop
    · cases hc
      exact .runs t .guardian rfl rfl (by decide) hk hran.stop
    · cases hc
      exact .runs t .guardian rfl rfl (by decide) hk hran.stop
    · cases hc
  | guardian_timeout u =>
    obtain ⟨hk, hran⟩ := timeout_ran hs
    cases hc
    exact .runs t .guardian rfl rfl (by decide) hk hran.stop
  | get_or_create | send_message | close_connection | send_granted | lock_granted | client_granted
  | closed | connect_failed | emit | answered | raised | joined | unwind | ws_drop | listen_end =>
    cases hc

theorem run_moves (hs : s.run down a = some s') : s.Moves a s' := by
  rw [run, Option.map_eq_some_iff] at hs
  obtain ⟨r, hr, rfl⟩ := hs
  split
  · rename_i t hc
    split
    · exact checks_moves hr hc
    · exact step_moves hr
  · exact step_moves hr

end Pool

end ClawMux
