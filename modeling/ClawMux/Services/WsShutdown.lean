import ClawMux.Services.WsCleanup
import ClawMux.Services.WsLocking

namespace ClawMux
set_option autoImplicit true
open Lib

/-- Where `close_all` is: it awaits the task of `_cleanup_loop`, or the guardian that each user had,
or `client.close()` of a user, with `user_ids` still to come. -/
inductive CloseAll
  | idle
  | joining
  | gathering (guardians : String → Option Nat)
  | closing (user : String) (user_ids : List String)
  | returned

namespace Pool

def cancel_guardian (s : Pool) : Pool :=
  match s.guardian_tasks with
  | some g => s.cancel g
  | none => s

def is_done (s : Pool) (t : Nat) : Bool :=
  match s.pc t with
  | some .done => true
  | _ => false

end Pool

/-- `task.cancel()` on the task of `_cleanup_loop`; `none` where it is not suspended. -/
def Manager.cancel_cleanup (s : Manager) : Option Manager :=
  match s.cleanup with
  | .asleep | .finished => some { s with cleanup := .finished }
  | .closing user t _ =>
    let p := s.users user
    match p.pc t with
    -- what it awaits is cancelled, and its own `CancelledError` is swallowed
    | some (.close_join g) => some (s.set_user user (p.cancel g))
    | some (.lock_wait l _) =>
      some { s.set_user user ({ p with locks := p.locks.withdraw l t }.goto t .done) with
        cleanup := .finished }
    | some (.closing ..) => some s
    | _ => none

/-- A `WSConnectionManager` that is being shut down. -/
structure Shutdown where
  manager : Manager := {}
  closer : CloseAll := .idle

namespace Shutdown

/-- `close_all` goes on to the next of its users, or returns. -/
def close_clients (s : Manager) : List String → Shutdown
  | [] =>
    { manager := { s with users := fun user => { s.users user with
        locks := (s.users user).locks.pop
        send_locks := (s.users user).send_locks.pop } }
      closer := .returned }
  | user :: user_ids =>
    match (s.users user).clients with
    | some c =>
      { manager := s.set_user user (Pool.close { s.users user with clients := none } c)
        closer := .closing user user_ids }
    | none => close_clients s user_ids

inductive Act
  | run (a : Manager.Act)
  | close_all
  | cleanup_stops
  | cleanup_joined
  | gathered (user_ids : List String)
  | client_closed

def step (idle_timeout : Nat) (s : Shutdown) : Act → Option Shutdown
  | .run a => (s.manager.step idle_timeout a).map fun m => { s with manager := m }
  | .close_all =>
    match s.closer with
    | .idle => ({ s.manager with shutting_down := true }.cancel_cleanup).map (⟨·, .joining⟩)
    | _ => none
  -- the `CancelledError` that is not swallowed in `client.close()`
  | .cleanup_stops =>
    match s.closer, s.manager.cleanup with
    | .joining, .closing user t _ =>
      let p := s.manager.users user
      match p.pc t with
      | some (.closing l .close_connection _) =>
        some { s with manager := { s.manager.set_user user ((p.release l).goto t .done) with
          cleanup := .finished } }
      | _ => none
    | _, _ => none
  | .cleanup_joined =>
    match s.closer, s.manager.cleanup with
    | .joining, .finished =>
      some ⟨{ s.manager with users := fun user => (s.manager.users user).cancel_guardian },
        .gathering fun user => (s.manager.users user).guardian_tasks⟩
    | _, _ => none
  | .gathered user_ids =>
    match s.closer with
    | .gathering guardians =>
      if (∀ user ∈ s.manager.known, ∀ g ∈ guardians user, (s.manager.users user).is_done g) ∧
          user_ids.Nodup ∧ (∀ user ∈ user_ids, (s.manager.users user).clients.isSome) ∧
          ∀ user ∈ s.manager.known, (s.manager.users user).clients.isSome → user ∈ user_ids then
        some (close_clients { s.manager with
          users := fun user => { s.manager.users user with guardian_tasks := none } } user_ids)
      else none
    | _ => none
  | .client_closed =>
    match s.closer with
    | .closing _ user_ids => some (close_clients s.manager user_ids)
    | _ => none

/-- With or without `start`. -/
def Initial (s : Shutdown) : Prop := s = {} ∨ s = { manager := { cleanup := .finished } }

/-- `close_all` has taken what it found of the user. -/
def let_go (s : Shutdown) (user : String) : Prop :=
  match s.closer with
  | .closing _ user_ids => user ∉ user_ids
  | .returned => True
  | _ => False

end Shutdown

/-- The lock condition of the steps of the users. -/
def Manager.Retired (s : Manager) : Manager.Act → Prop
  | .send_message user t key info => (s.users user).Retired (.send_message t key info)
  | .task user a => (s.users user).Retired a
  | .wake t (user :: _) => (s.users user).Retired (.close_connection t)
  | .next t => ∀ u d user rest, s.cleanup = .closing u d (user :: rest) →
    (s.users user).Retired (.close_connection t)
  | _ => True

namespace Shutdown

/-- No user has a send in progress when `close_all` lets it go, or calls one afterwards; and a
removed per-user lock is out of use before the next one is made. -/
def Drained (s : Shutdown) : Act → Prop
  | .run a => s.manager.Retired a ∧ ∀ user t key info, a = .send_message user t key info →
    ¬ s.let_go user
  | .gathered user_ids => ∀ user, (user ∈ user_ids → user_ids.head? = some user) →
    ¬ (s.manager.users user).Busy
  | .client_closed => ∀ u user user_ids, s.closer = .closing u (user :: user_ids) →
    ¬ (s.manager.users user).Busy
  | _ => True

/-- No client is kept, and none is connected. -/
structure Shut (s : Shutdown) : Prop where
  clients : ∀ user, (s.manager.users user).clients = none
  connected : ∀ user c, (s.manager.users user).is_connected c = false

end Shutdown

/-- A guardian that looks at `_shutting_down` before it does anything else. -/
def Pc.unarmed : Pc → Bool
  | .guard_new | .guard_watch _ | .guard_backoff => true
  | _ => false

namespace Pool

variable {s r s' : Pool}

/-- Nothing has been done for the user yet. -/
def Fresh (s : Pool) : Prop := (∀ t, s.pc t = none) ∧ s.clients = none

/-- A guardian that may still reconnect. -/
def Armed (s : Pool) (g : Nat) : Prop :=
  ∃ p, s.pc g = some p ∧ p.kind = .guardian ∧ p.unarmed = false

/-- Nobody closes any more, and the guardian that is awaited is the only one that may reconnect. -/
structure Awaited (s : Pool) (guardian : Option Nat) : Prop where
  inv : s.Inv
  sends : ∀ t, s.kind t ≠ some .direct
  closes : ∀ t, s.kind t ≠ some .close
  guardians : ∀ g, s.Armed g → guardian = some g

/-- There is no client, and nobody left to make one. -/
structure Dead (s : Pool) : Prop where
  awaited : s.Awaited none
  clients : s.clients = none
  calm : ¬ s.Busy

theorem Fresh.no_kind (h : s.Fresh) : s.kind t ≠ some k := by
  rw [kind, h.1 t]
  exact fun h => by cases h

theorem Fresh.run (h : s.Fresh) (hb : a.begins = none) (hs : s.run down a = some s') :
    s'.Fresh := by
  have hno : ∀ {t p}, s.pc t ≠ some p := by
    intro t p ht
    rw [h.1 t] at ht
    cases ht
  cases run_moves hs with
  | world _ hp hc => exact ⟨fun t => (congrFun hp t).trans (h.1 t), hc.trans h.2⟩
  | begins t k hbegins => rw [hb] at hbegins; cases hbegins
  | runs t k _ _ _ ht => exact absurd ht h.no_kind
  | closed t _ ht => exact absurd ht h.no_kind
  | closes t hbegins => rw [hb] at hbegins; cases hbegins
  | joins t g hbegins => rw [hb] at hbegins; cases hbegins
  | joined t g _ ht => exact absurd ht hno
  | enters t l _ ht => exact absurd ht hno
  | reconnects t g l info b _ ht => exact absurd ht hno
  | installs t g l caller b _ ht => exact absurd ht hno

/-- What looks at `_shutting_down` does not hold the lock afterwards. -/
theorem checks_rests (hs : s.step a = some s') (hc : s.checks a = some t) :
    ∃ p, s'.pc t = some p ∧ p.holds = none ∧ p.waits = none := by
  have hloop : ∀ r : Pool, ∃ p, (r.guardian_loop t).pc t = some p ∧ p.holds = none ∧
      p.waits = none := by
    intro r
    rw [guardian_loop]
    split
    · exact ⟨_, goto_pc_self, rfl, rfl⟩
    · split
      · exact ⟨_, goto_pc_self, rfl, rfl⟩
      · exact ⟨_, goto_pc_self, rfl, rfl⟩
  cases a with
  | connected u g b =>
    simp only [checks] at hc
    split at hc
    · rename_i l info hu
      cases hc
      simp only [step, hu] at hs
      split at hs
      · rename_i l' job hl hg
        cases hl
        cases hs
        exact hloop _
      · cases hs
    · cases hc
  | guardian_runs u =>
    simp only [checks] at hc
    split at hc
    · rename_i hu
      cases hc
      simp only [step, hu] at hs
      cases hs
      exact hloop s
    · rename_i hu
      cases hc
      simp only [step, hu] at hs
      cases hs
      exact hloop s
    · rename_i c hu
      cases hc
      simp only [step, hu] at hs
      split at hs
      · cases hs
      · cases hs
        exact ⟨_, goto_pc_self, rfl, rfl⟩
    · cases hc
  | guardian_timeout u =>
    cases hc
    simp only [step] at hs
    split at hs
    · cases hs
      exact hloop s
    · cases hs
  | get_or_create | send_message | close_connection | send_granted | lock_granted | client_granted
  | closed | connect_failed | emit | answered | raised | joined | unwind | ws_drop | listen_end =>
    cases hc

theorem run_inv (h : s.Inv) (hr : s.Retired a) (hs : s.run down a = some s') : s'.Inv := by
  rw [run, Option.map_eq_some_iff] at hs
  obtain ⟨r, hr', rfl⟩ := hs
  have hi := step_inv h hr hr'
  split
  · rename_i t hc
    split
    · obtain ⟨p, hp, hh, hw⟩ := checks_rests hr' hc
      have hrest := hi.resume hp hw
      rw [hh] at hrest
      exact hrest.suspend rfl rfl
    · exact hi
  · exact hi

/-- A step makes no guardian but a new one. -/
theorem run_guardian (hb : a.begins = none) (hs : s.run down a = some s')
    (hg : s'.kind g = some .guardian) : s.kind g = some .guardian ∨ s'.pc g = some .guard_new := by
  cases run_moves hs with
  | world _ hp hc hgt => exact .inl ((evolves_of_pc hp hc hgt).kinds g _ hg (by decide))
  | begins t k hbegins => rw [hb] at hbegins; cases hbegins
  | runs t k _ _ _ ht hran =>
    exact .inl (kinds_of_others hran.self ht hran.others g _ hg (by decide))
  | closed t _ ht _ hran => exact .inl (kinds_of_others hran.self ht hran.others g _ hg (by decide))
  | closes t hbegins => rw [hb] at hbegins; cases hbegins
  | joins t g hbegins => rw [hb] at hbegins; cases hbegins
  | joined t e _ ht _ hp =>
    exact .inl (kinds_of_others hp.self (kind_of_pc ht) hp.others g _ hg (by decide))
  | enters t l _ ht hp =>
    exact .inl (kinds_of_others hp.self (kind_of_pc ht) hp.others g _ hg (by decide))
  | reconnects t e l info b _ ht hr =>
    exact .inl (kinds_of_others hr.self (kind_of_pc ht) hr.others g _ hg (by decide))
  | installs t e l caller b _ _ _ hr =>
    by_cases hge : g = e
    · exact .inr (hge ▸ hr.fresh)
    · rcases hr.kinds g hge with h | h
      · exact .inl (h ▸ hg)
      · rw [h] at hg
        cases hg

/-- During a shutdown such a guardian does nothing but stop. -/
theorem unarmed_stops (hs : s.run true a = some s') (ht : a.task = some g) (hg : s.pc g = some p)
    (hp : p.unarmed = true) : s'.kind g = some .over := by
  rw [run, Option.map_eq_some_iff] at hs
  obtain ⟨r, hr, rfl⟩ := hs
  have hchecks : s.checks a = some g := by
    have hcases : p = .guard_new ∨ (∃ c, p = .guard_watch c) ∨ p = .guard_backoff := by
      cases p with
      | guard_new => exact .inl rfl
      | guard_watch c => exact .inr (.inl ⟨c, rfl⟩)
      | guard_backoff => exact .inr (.inr rfl)
      | send_wait | lock_wait | closing | connecting | client_wait | sending | awaiting
      | send_closing | close_join | guard_sleep | cancelled | aborting | done => cases hp
    rcases hcases with rfl | ⟨c, rfl⟩ | rfl <;> cases a <;> cases ht <;>
      simp_all [step, checks]
  rw [hchecks]
  exact kind_of_pc goto_pc_self

theorem run_unarmed (hb : a.begins = none) (hs : s.run true a = some s') (hg : s.pc g = some p)
    (hp : p.unarmed = true) : s'.pc g = some p ∨ s'.kind g = some .over := by
  have hk : p.kind = .guardian := by
    cases p with
    | guard_new | guard_watch | guard_backoff => rfl
    | send_wait | lock_wait | closing | connecting | client_wait | sending | awaiting
    | send_closing | close_join | guard_sleep | cancelled | aborting | done => cases hp
  have hkind : s.kind g = some .guardian := (kind_of_pc hg).trans (congrArg some hk)
  have hsame : ∀ t, (∀ u, u ≠ t → s'.pc u = s.pc u) → s.kind t ≠ some .guardian →
      s'.pc g = some p := by
    intro t hothers ht
    rw [hothers g (by rintro rfl; exact ht hkind)]
    exact hg
  cases run_moves hs with
  | world _ hpc => exact .inl ((congrFun hpc g).trans hg)
  | begins t k hbegins => rw [hb] at hbegins; cases hbegins
  | runs t k _ ht _ _ hran =>
    by_cases hgt : g = t
    · subst hgt
      exact .inr (unarmed_stops hs ht hg hp)
    · exact .inl ((hran.others g hgt).trans hg)
  | closed t _ ht _ hran =>
    refine .inl (hsame t hran.others ?_)
    rw [ht]
    exact fun h => by cases h
  | closes t hbegins => rw [hb] at hbegins; cases hbegins
  | joins t g hbegins => rw [hb] at hbegins; cases hbegins
  | joined t e _ ht _ hproceeds =>
    refine .inl (hsame t hproceeds.others ?_)
    rw [kind_of_pc ht]
    exact fun h => by cases h
  | enters t l _ ht hremoved =>
    refine .inl (hsame t hremoved.others ?_)
    rw [kind_of_pc ht]
    exact fun h => by cases h
  | reconnects t e l info b _ ht hr =>
    have hgt : g ≠ t := by
      rintro rfl
      rw [hg] at ht
      cases ht
      cases hp
    exact .inl ((hr.others g hgt).trans hg)
  | installs t e l caller b _ _ he hr =>
    have hge : g ≠ e := by
      rintro rfl
      rw [he] at hg
      cases hg
    by_cases hcur : s.guardian_tasks = some g
    · rcases hr.kinds g hge with h | h
      · obtain ⟨l', info, b', hclosing⟩ := hr.stops g hcur hge (h.trans hkind)
        rw [hg] at hclosing
        cases hclosing
        cases hp
      · exact .inr h
    · exact .inl ((hr.others g hkind hcur).trans hg)

/-- During a shutdown no guardian comes to reconnect that could not before. -/
theorem run_armed (hb : a.begins = none) (hs : s.run true a = some s') (hg : s'.Armed g) :
    s.Armed g := by
  obtain ⟨q, hq, hk, hu⟩ := hg
  have hguardian : s'.kind g = some .guardian := (kind_of_pc hq).trans (congrArg some hk)
  rcases run_guardian hb hs hguardian with h | h
  · rw [kind, Option.map_eq_some_iff] at h
    obtain ⟨p, hp, hpk⟩ := h
    cases hpu : p.unarmed with
    | false => exact ⟨p, hp, hpk, hpu⟩
    | true =>
      rcases run_unarmed hb hs hp hpu with h | h
      · rw [hq] at h
        cases h
        rw [hu] at hpu
        cases hpu
      · rw [hguardian] at h
        cases h
  · rw [hq] at h
    cases h
    cases hu

/-- A wait for the lock is given up. -/
theorem Inv.withdraw (h : s.Inv) (ht : s.pc t = some (.lock_wait l job)) (hh : p.holds = none)
    (hw : p.waits = none) : ({ s with locks := s.locks.withdraw l t }.goto t p).Inv := by
  have hwaits : s.waits t = some l := by
    rw [waits, ht]
    rfl
  have hholds : s.holds t = none := by
    rw [holds, ht]
    rfl
  refine ⟨?_, ?_, h.stored⟩
  · rw [goto_holds, goto_waits, hh, hw]
    exact h.locks.withdraw hwaits hholds
  · intro u m hu
    rw [goto_holds, hh] at hu
    by_cases hut : u = t
    · rw [hut, Function.update_self] at hu
      cases hu
    · rw [Function.update_of_ne hut] at hu
      exact h.quiet u m hu

theorem Inv.cancel (h : s.Inv) (g : Nat) : (s.cancel g).Inv := by
  have hquiet : ∀ {p : Pc} {l}, s.pc g = some p → p.holds = some l →
      ∀ c, s.listening c = false := by
    intro p l hg hl
    apply h.quiet g l
    rw [holds, hg]
    exact hl
  rw [Pool.cancel]
  split
  · rename_i hg
    exact h.withdraw hg rfl rfl
  · rename_i hg
    exact (h.resume hg rfl).suspend_inside rfl rfl (hquiet hg rfl)
  · rename_i hg
    exact (h.resume hg rfl).suspend_inside rfl rfl (hquiet hg rfl)
  · rename_i hg
    exact (h.resume hg rfl).suspend rfl rfl
  · rename_i hg
    exact (h.resume hg rfl).suspend rfl rfl
  · rename_i hg
    exact (h.resume hg rfl).suspend rfl rfl
  · rename_i hg
    exact (h.resume hg rfl).suspend rfl rfl
  · exact h

theorem Inv.cancel_guardian (h : s.Inv) : s.cancel_guardian.Inv := by
  rw [Pool.cancel_guardian]
  split
  · exact h.cancel _
  · exact h

/-- `close_connection` is aborted in `client.close()`. -/
theorem Inv.stop (h : s.Inv) (ht : s.pc t = some (.closing l job b)) :
    ((s.release l).goto t .done).Inv :=
  (h.resume ht rfl).release.suspend rfl rfl

/-- The stored client, the only one that could listen, is taken. -/
theorem Inv.take (h : s.Inv) (hc : s.clients = some c) :
    (Pool.close { s with clients := none } c).Inv := by
  have hquiet : ∀ d, (Pool.close { s with clients := none } c).listening d = false := by
    intro d
    cases hd : (Pool.close { s with clients := none } c).listening d with
    | false => rfl
    | true =>
      obtain ⟨hne, hl⟩ := close_listening hd
      rw [h.stored d hl] at hc
      cases hc
      exact absurd rfl hne
  refine ⟨h.locks, fun t l _ => hquiet, fun d hd => ?_⟩
  rw [hquiet d] at hd
  cases hd

/-- Only a client that is kept is connected. -/
theorem Inv.disconnected (h : s.Inv) (hc : s.clients = none) (c : Nat) :
    s.is_connected c = false := by
  cases hd : s.is_connected c with
  | false => rfl
  | true =>
    rw [h.stored c (is_connected_listening hd)] at hc
    cases hc

/-- What the `guardian` is awaited for is not touched by what else changes. -/
theorem Awaited.same (h : s.Awaited e) (hi : s'.Inv) (hp : s'.pc = s.pc) : s'.Awaited e := by
  have hkind : ∀ t, s'.kind t = s.kind t := by
    intro t
    rw [kind, hp]
    rfl
  refine ⟨hi, ?_, ?_, ?_⟩
  · intro t ht
    exact h.sends t (hkind t ▸ ht)
  · intro t ht
    exact h.closes t (hkind t ▸ ht)
  · rintro g ⟨p, hg, hk⟩
    exact h.guardians g ⟨p, hp ▸ hg, hk⟩

theorem Awaited.run (h : s.Awaited e) (hr : s.Retired a) (hb : a.begins = none)
    (hs : s.run true a = some s') : s'.Awaited e := by
  have hkinds : ∀ t k, s'.kind t = some k → k = .direct ∨ k = .close → s.kind t = some k := by
    intro t k ht hk
    have ho : k ≠ .over ∧ k ≠ .guardian := by
      rcases hk with rfl | rfl <;> decide
    cases run_moves hs with
    | world _ hp hc hg => exact (evolves_of_pc hp hc hg).kinds t _ ht ho.1
    | begins u k' hbegins => rw [hb] at hbegins; cases hbegins
    | runs u k' _ _ _ hu hran => exact kinds_of_others hran.self hu hran.others t _ ht ho.1
    | closed u _ hu _ hran => exact kinds_of_others hran.self hu hran.others t _ ht ho.1
    | closes u hbegins => rw [hb] at hbegins; cases hbegins
    | joins u g hbegins => rw [hb] at hbegins; cases hbegins
    | joined u g _ hu => exact absurd (kind_of_pc hu) (h.closes u)
    | enters u l _ hu => exact absurd (kind_of_pc hu) (h.closes u)
    | reconnects u g l info b _ hu hr =>
      exact kinds_of_others hr.self (kind_of_pc hu) hr.others t _ ht ho.1
    | installs u g l caller b _ _ _ hr => exact hr.kind ht ho.2 ho.1
  refine ⟨run_inv h.inv hr hs, ?_, ?_, fun g hg => h.guardians g (run_armed hb hs hg)⟩
  · exact fun t ht => h.sends t (hkinds t _ ht (.inl rfl))
  · exact fun t ht => h.closes t (hkinds t _ ht (.inr rfl))

theorem Awaited.send (h : s.Awaited e) (hr : s.Retired (.send_message t key info))
    (hs : s.step (.send_message t key info) = some s') : s'.Awaited e := by
  obtain ⟨ht, hran⟩ := send_ran hs
  refine ⟨step_inv h.inv hr hs, ?_, ?_, ?_⟩
  · exact fun u hu => h.sends u (hran.kind hu (by decide) (by decide))
  · exact fun u hu => h.closes u (hran.kind hu (by decide) (by decide))
  · rintro g ⟨p, hg, hk, hu⟩
    have hkind := hran.kind ((kind_of_pc hg).trans (congrArg some hk)) (by decide) (by decide)
    exact h.guardians g ⟨p, (hran.started ht hkind).symm.trans hg, hk, hu⟩

theorem Dead.run (h : s.Dead) (hr : s.Retired a) (hb : a.begins = none)
    (hs : s.run true a = some s') : s'.Dead := by
  have hawaited := h.awaited.run hr hb hs
  have hdirect : ∀ caller : Caller, ∀ t, s.kind t ≠ some caller.kind := by
    intro caller t ht
    cases caller with
    | direct info => exact h.awaited.sends t ht
    | send x => exact h.calm ⟨t, ht⟩
  cases run_moves hs with
  | world _ hp hc hg =>
    exact ⟨hawaited, hc.trans h.clients,
      fun ⟨t, ht⟩ => h.calm ⟨t, (evolves_of_pc hp hc hg).kinds t _ ht (by decide)⟩⟩
  | begins t k hbegins => rw [hb] at hbegins; cases hbegins
  | runs t k _ _ _ ht hran =>
    exact ⟨hawaited, hran.clients.trans h.clients,
      fun ⟨u, hu⟩ => h.calm ⟨u, kinds_of_others hran.self ht hran.others u _ hu (by decide)⟩⟩
  | closed t _ ht => exact absurd ht (h.awaited.closes t)
  | closes t hbegins => rw [hb] at hbegins; cases hbegins
  | joins t g hbegins => rw [hb] at hbegins; cases hbegins
  | joined t g _ ht => exact absurd (kind_of_pc ht) (h.awaited.closes t)
  | enters t l _ ht => exact absurd (kind_of_pc ht) (h.awaited.closes t)
  | reconnects t g l info b _ ht =>
    have hnone := h.awaited.guardians t ⟨_, ht, rfl, rfl⟩
    cases hnone
  | installs t g l caller b _ ht => exact absurd (kind_of_pc ht) (hdirect caller t)

@[simp] theorem fail_frames : (s.fail t x c).frames = s.frames := by
  rw [fail]
  split <;> rfl

@[simp] theorem return_client_frames : (s.return_client t c caller).frames = s.frames := by
  cases caller with
  | direct info => rfl
  | send x =>
    rw [return_client]
    split
    · exact fail_frames
    · split
      · exact fail_frames
      · split <;> rfl

@[simp] theorem enter_frames : (s.enter t l job).frames = s.frames := by
  cases job with
  | get_or_create caller =>
    rw [enter]
    split
    · split
      · exact return_client_frames
      · rfl
    · rfl
  | reconnect info =>
    rw [enter]
    split <;> rfl
  | close_connection =>
    rw [enter]
    split <;> rfl

@[simp] theorem acquire_frames : (s.acquire t job).frames = s.frames := by
  simp only [acquire]
  split
  · exact enter_frames
  · rfl

@[simp] theorem guardian_loop_frames : (s.guardian_loop t).frames = s.frames := by
  rw [guardian_loop]
  split
  · rfl
  · split <;> rfl

@[simp] theorem cancel_frames : (s.cancel g).frames = s.frames := by
  rw [Pool.cancel]
  split <;> rfl

theorem install_frames (hs : s.install t l g b job = some s') : s'.frames = s.frames := by
  cases job with
  | get_or_create caller =>
    cases hs
    rw [return_client_frames]
    simp only [release, start_guardian]
    split
    · exact cancel_frames
    · rfl
  | reconnect info =>
    cases hs
    exact guardian_loop_frames
  | close_connection => cases hs

/-- Only a send in progress emits a frame. -/
theorem step_frames (hb : ¬ s.Busy) (hs : s.step a = some s') : s'.frames = s.frames := by
  cases steps_of_step hs with
  | get_or_create | send_message | close_connection | send_granted | retries | joined
  | reconnects => exact acquire_frames
  | close_joins => exact cancel_frames
  | lock_granted => exact enter_frames
  | connected ht hg hi => exact install_frames hi
  | @emit t x c o ht ho => exact absurd ⟨t, kind_of_pc ht⟩ hb
  | send_raised | answer_raised => exact fail_frames
  | guardian_runs | guardian_retries | guardian_timeout => exact guardian_loop_frames
  | send_waits | client_granted | closed | reopens | connect_failed | send_failed
  | reconnect_failed | answered | guardian_wakes | guardian_ends | cancelled | aborting
  | close_cancelled | ws_drop | listen_end => rfl

theorem run_frames (hb : ¬ s.Busy) (hs : s.run down a = some s') : s'.frames = s.frames := by
  rw [run, Option.map_eq_some_iff] at hs
  obtain ⟨r, hr, rfl⟩ := hs
  have hf := step_frames hb hr
  split
  · split
    · exact hf
    · exact hf
  · exact hf

/-- The guardian is cancelled; if it can go on all the same, it is awaited. -/
theorem awaited_cancel_guardian (hi : s.Inv) (hsends : ∀ t, s.kind t ≠ some .direct)
    (hcloses : ∀ t, s.kind t ≠ some .close)
    (hguardians : ∀ g, s.kind g = some .guardian → s.guardian_tasks = some g) :
    s.cancel_guardian.Awaited s.guardian_tasks := by
  have hkinds : ∀ t k, s.cancel_guardian.kind t = some k → k ≠ .over → s.kind t = some k := by
    intro t k ht ho
    rw [cancel_guardian] at ht
    split at ht
    · rename_i g hg
      by_cases htg : t = g
      · subst htg
        rcases (cancelled_cancel t).kinds with h | h
        · exact h ▸ ht
        · rw [h] at ht
          cases ht
          exact absurd rfl ho
      · rw [kind, (cancelled_cancel g).others t htg] at ht
        exact ht
    · exact ht
  refine ⟨hi.cancel_guardian, ?_, ?_, ?_⟩
  · exact fun t ht => hsends t (hkinds t _ ht (by decide))
  · exact fun t ht => hcloses t (hkinds t _ ht (by decide))
  · rintro g ⟨p, hg, hk, -⟩
    exact hguardians g (hkinds g _ ((kind_of_pc hg).trans (congrArg some hk)) (by decide))

end Pool

namespace Manager

variable {s s' : Manager} {p : Pool} {idle_timeout : Nat}

/-- Users without a task or a client are unknown, and a pass selects known ones. -/
structure Placed (s : Manager) : Prop where
  known : ∀ user, user ∉ s.known → (s.users user).Fresh
  pass : ∀ u t rest, s.cleanup = .closing u t rest → ∀ v ∈ rest, v ∈ s.known

/-- What holds until the task of `_cleanup_loop` is awaited. -/
structure Ordered (s : Manager) : Prop where
  inv : ∀ user, (s.users user).Inv
  watched : ∀ user, s.Watched user
  placed : s.Placed

theorem close_next_placed (h : s.Placed) (hids : ∀ v ∈ idle_users, v ∈ s.known)
    (hs : s.close_next t idle_users = some s') : s'.Placed := by
  cases idle_users with
  | nil =>
    cases hs
    refine ⟨h.known, ?_⟩
    intro u d rest hc
    dsimp only at hc
    split at hc <;> cases hc
  | cons u rest =>
    rw [close_next, Option.map_eq_some_iff] at hs
    obtain ⟨p, hp, rfl⟩ := hs
    refine ⟨?_, ?_⟩
    · intro user hu
      have hne : user ≠ u := by
        rintro rfl
        exact hu (hids user List.mem_cons_self)
      rw [show ∀ m : Manager, m.users = (s.set_user u p).users → m.users user = s.users user from
        fun m hm => (congrFun hm user).trans (set_user_other hne)]
      · exact h.known user hu
      · rfl
    · intro v d rest' hc w hw
      cases hc
      exact hids w (List.mem_cons_of_mem _ hw)

theorem step_placed (h : s.Placed) (hs : s.step idle_timeout a = some s') : s'.Placed := by
  cases step_advances hs with
  | tick => exact ⟨h.known, h.pass⟩
  | send_message u t key info p hp =>
    have hmem : ∀ v, v ∈ s.known → v ∈ if u ∈ s.known then s.known else u :: s.known := by
      intro v hv
      split
      · exact hv
      · exact List.mem_cons_of_mem _ hv
    have hself : u ∈ if u ∈ s.known then s.known else u :: s.known := by
      split
      · assumption
      · exact List.mem_cons_self
    refine ⟨?_, fun v d rest hc w hw => hmem w (h.pass v d rest hc w hw)⟩
    intro user hu
    have hne : user ≠ u := by
      rintro rfl
      exact hu hself
    have hfresh := h.known user fun hk => hu (hmem user hk)
    rw [← set_user_other (s := s) (p := p) hne] at hfresh
    exact hfresh
  | task u b p hb hp =>
    refine ⟨?_, h.pass⟩
    intro user hu
    by_cases hne : user = u
    · subst hne
      rw [set_user_self]
      exact (h.known user hu).run hb hp
    · rw [set_user_other hne]
      exact h.known user hu
  | stops t idle_users hcl => exact ⟨h.known, fun u d rest hc => by cases hc⟩
  | wakes t idle_users r hcl hidle hr =>
    refine close_next_placed h ?_ hr
    intro v hv
    by_contra hk
    have hi := hidle v hv
    rw [idle, (h.known v hk).2] at hi
    split at hi
    · rw [Bool.and_eq_true] at hi
      exact absurd hi.2 (by decide)
    · cases hi
  | next t u d rest r hcl hdone hr => exact close_next_placed h (h.pass u d rest hcl) hr

/-- The section is exclusive, so a client is not installed while another is being closed. -/
theorem keeps_guardian (h : p.Inv) (a : Pool.Act) : KeepsGuardian p a := by
  cases a with
  | connected t g b =>
    intro e l info b' _ he l' caller ht
    have hte : t = e := by
      apply h.locks.exclusive (l := l') (m := l)
      · rw [Pool.holds, ht]
        rfl
      · rw [Pool.holds, he]
        rfl
    rw [hte, he] at ht
    cases ht
  | get_or_create | send_message | close_connection | send_granted | lock_granted | client_granted
  | closed | connect_failed | emit | answered | raised | joined | unwind | guardian_runs
  | guardian_timeout | ws_drop | listen_end => trivial

theorem close_next_inv (h : ∀ user, (s.users user).Inv)
    (hr : ∀ user rest, idle_users = user :: rest → (s.users user).Retired (.close_connection t))
    (hs : s.close_next t idle_users = some s') (user : String) : (s'.users user).Inv := by
  cases idle_users with
  | nil =>
    cases hs
    exact h user
  | cons u rest =>
    rw [close_next, Option.map_eq_some_iff] at hs
    obtain ⟨p, hp, rfl⟩ := hs
    refine forall_update h ?_ user
    exact Pool.step_inv (h u) (hr u rest rfl) hp

theorem step_inv (h : ∀ user, (s.users user).Inv) (hr : s.Retired a)
    (hs : s.step idle_timeout a = some s') (user : String) : (s'.users user).Inv := by
  cases step_advances hs with
  | tick => exact h user
  | send_message u t key info p hp =>
    refine forall_update h ?_ user
    exact Pool.step_inv (h u) hr hp
  | task u b p hb hp =>
    refine forall_update h ?_ user
    exact Pool.run_inv (h u) hr hp
  | stops t idle_users hcl => exact h user
  | wakes t idle_users r hcl hidle hnext =>
    refine close_next_inv h ?_ hnext user
    rintro v rest rfl
    exact hr
  | next t u d rest r hcl hdone hnext =>
    refine close_next_inv h ?_ hnext user
    rintro v rest' rfl
    exact hr u d v rest' hcl

theorem step_ordered (h : s.Ordered) (hr : s.Retired a) (hs : s.step idle_timeout a = some s') :
    s'.Ordered := by
  refine ⟨step_inv h.inv hr hs, step_watched h.watched ?_ hs, step_placed h.placed hs⟩
  exact fun user b _ => keeps_guardian (h.inv user) b

theorem step_down (hs : s.step idle_timeout a = some s') : s'.shutting_down = s.shutting_down := by
  have hnext : ∀ {t idle_users}, s.close_next t idle_users = some s' →
      s'.shutting_down = s.shutting_down := by
    intro t idle_users hs
    cases idle_users with
    | nil =>
      cases hs
      rfl
    | cons u rest =>
      rw [close_next, Option.map_eq_some_iff] at hs
      obtain ⟨p, hp, rfl⟩ := hs
      rfl
  cases step_advances hs with
  | tick => rfl
  | send_message u t key info p hp => rfl
  | task u b p hb hp => rfl
  | stops t idle_users hcl => rfl
  | wakes t idle_users r hcl hidle hr => exact hnext hr
  | next t u d rest r hcl hdone hr => exact hnext hr

theorem no_close_other (h : s.Watched v) (hc : s.cleanup = .closing user t rest) (hv : v ≠ user)
    (u : Nat) : (s.users v).kind u ≠ some .close := by
  refine h.no_close (fun w rest' hc' => ?_) u
  rw [hc] at hc'
  cases hc'
  exact absurd rfl hv

theorem no_close_finished (h : s.Watched user) (hc : s.cleanup = .finished) (u : Nat) :
    (s.users user).kind u ≠ some .close := by
  refine h.no_close (fun t rest hc' => ?_) u
  rw [hc] at hc'
  cases hc'

theorem Watched.cancel (h : s.Watched user) (g : Nat) :
    (s.set_user user ((s.users user).cancel g)).Watched user := by
  have hcancel := Pool.cancelled_cancel (s := s.users user) g
  have hkinds : ∀ t k, ((s.users user).cancel g).kind t = some k → k ≠ .over →
      (s.users user).kind t = some k := by
    intro t k ht ho
    by_cases htg : t = g
    · subst htg
      rcases hcancel.kinds with h | h
      · exact h ▸ ht
      · rw [h] at ht
        cases ht
        exact absurd rfl ho
    · rw [Pool.kind, hcancel.others t htg] at ht
      exact ht
  constructor
  · rw [set_user_self]
    exact fun t ht => h.sends t (hkinds t _ ht (by decide))
  · rw [set_user_self]
    exact fun t ht => h.closes t (hkinds t _ ht (by decide))
  · rw [set_user_self]
    intro e he
    rcases h.guardians e (hkinds e _ he (by decide)) with hcur | ⟨t, ht⟩
    · exact .inl (hcancel.guardians.trans hcur)
    · refine .inr ⟨t, ?_⟩
      by_cases htg : t = g
      · subst htg
        rcases hcancel.self with hself | hself
        · rw [Pool.kind_of_pc ht] at hself
          cases hself
        · exact hself.trans ht
      · exact (hcancel.others t htg).trans ht

/-- The `close_connection` of the pass is aborted. -/
theorem Watched.stop (h : s.Watched user) (hc : s.cleanup = .closing user t rest)
    (hjoin : ∀ g, (s.users user).pc t ≠ some (.close_join g))
    (hself : (s'.users user).pc t = some .done)
    (hothers : ∀ u, u ≠ t → (s'.users user).pc u = (s.users user).pc u)
    (hg : (s'.users user).guardian_tasks = (s.users user).guardian_tasks) : s'.Watched user := by
  have hkinds : ∀ u k, (s'.users user).kind u = some k → k ≠ .over →
      u ≠ t ∧ (s.users user).kind u = some k := by
    intro u k hu ho
    have hut : u ≠ t := by
      rintro rfl
      rw [Pool.kind_of_pc hself] at hu
      cases hu
      exact ho rfl
    rw [Pool.kind, hothers u hut] at hu
    exact ⟨hut, hu⟩
  have honly : ∀ u, (s.users user).kind u = some .close → u = t := by
    intro u hu
    obtain ⟨rest', hc'⟩ := h.closes u hu
    rw [hc] at hc'
    cases hc'
    rfl
  constructor
  · exact fun u hu => h.sends u (hkinds u _ hu (by decide)).2
  · intro u hu
    obtain ⟨hut, hu⟩ := hkinds u _ hu (by decide)
    exact absurd (honly u hu) hut
  · intro g hk
    rcases h.guardians g (hkinds g _ hk (by decide)).2 with hcur | ⟨u, hu⟩
    · exact .inl (hg.trans hcur)
    · obtain rfl := honly u (Pool.kind_of_pc hu)
      exact absurd hu (hjoin g)

theorem Placed.set_user (h : s.Placed) (ht : (s.users user).pc t = some q)
    (hk : s'.known = s.known) (hu : s'.users = (s.set_user user p).users)
    (hc : s'.cleanup = s.cleanup ∨ s'.cleanup = .finished) : s'.Placed := by
  refine ⟨?_, ?_⟩
  · intro v hv
    rw [hk] at hv
    have hne : v ≠ user := by
      rintro rfl
      rw [(h.known v hv).1 t] at ht
      cases ht
    rw [hu, set_user_other hne]
    exact h.known v hv
  · intro u d rest hcl v hv
    rw [hk]
    rcases hc with hc | hc
    · exact h.pass u d rest (hc ▸ hcl) v hv
    · rw [hc] at hcl
      cases hcl

/-- The loop is stopped in the `close_connection` of a user. -/
theorem Ordered.stop (h : s.Ordered) (hc : s.cleanup = .closing user t rest)
    (ht : (s.users user).pc t = some q) (hjoin : ∀ g, q ≠ .close_join g) (hi : p.Inv)
    (hself : p.pc t = some .done) (hothers : ∀ u, u ≠ t → p.pc u = (s.users user).pc u)
    (hg : p.guardian_tasks = (s.users user).guardian_tasks) :
    Ordered { s.set_user user p with cleanup := .finished } := by
  refine ⟨forall_update h.inv hi, ?_, h.placed.set_user ht rfl rfl (.inr rfl)⟩
  intro v
  by_cases hv : v = user
  · subst hv
    refine (h.watched v).stop hc ?_ ?_ ?_ ?_
    · rw [ht]
      exact fun g hg => hjoin g (Option.some.inj hg)
    · exact (congrArg (·.pc t) set_user_self).trans hself
    · exact fun u hu => (congrArg (·.pc u) set_user_self).trans (hothers u hu)
    · exact (congrArg Pool.guardian_tasks set_user_self).trans hg
  · exact (h.watched v).idle (no_close_other (h.watched v) hc hv) (set_user_other hv)

theorem Ordered.finish (h : s.Ordered) (hno : ∀ user t, (s.users user).kind t ≠ some .close) :
    Ordered { s with cleanup := .finished } := by
  refine ⟨h.inv, fun user => (h.watched user).idle (hno user) rfl, h.placed.known, ?_⟩
  exact fun u t rest hc => by cases hc

theorem cancel_cleanup_ordered (h : s.Ordered) (hs : s.cancel_cleanup = some s') :
    s'.Ordered ∧ s'.shutting_down = s.shutting_down := by
  rw [cancel_cleanup] at hs
  split at hs
  · rename_i hc
    cases hs
    exact ⟨h.finish (no_close_asleep h.watched hc), rfl⟩
  · rename_i hc
    cases hs
    exact ⟨h.finish fun user => no_close_finished (h.watched user) hc, rfl⟩
  · rename_i user t rest hc
    dsimp only at hs
    split at hs
    · rename_i g ht
      cases hs
      refine ⟨⟨forall_update h.inv ((h.inv user).cancel g), ?_, ?_⟩, rfl⟩
      · intro v
        by_cases hv : v = user
        · subst hv
          exact (h.watched v).cancel g
        · exact (h.watched v).same (set_user_other hv) rfl
      · exact h.placed.set_user ht rfl rfl (.inl rfl)
    · rename_i l job ht
      cases hs
      refine ⟨h.stop hc ht (fun g hg => by cases hg) ((h.inv user).withdraw ht rfl rfl) ?_ ?_ rfl,
        rfl⟩
      · exact Pool.goto_pc_self
      · exact fun u hu => Pool.goto_pc_other hu
    · cases hs
      exact ⟨h, rfl⟩
    · cases hs

end Manager

namespace Manager

variable {s s' : Manager} {idle_timeout : Nat}

/-- What a step does to one user once the loop is finished. -/
inductive Serves (s : Manager) (a : Act) (user : String) (p : Pool) : Prop
  | same : p = s.users user → Serves s a user p
  | send (t : Nat) (key : String) (info : InstanceInfo) : a = .send_message user t key info →
      (s.users user).step (.send_message t key info) = some p → Serves s a user p
  | task (b : Pool.Act) : a = .task user b → b.begins = none → (s.users user).run true b = some p →
      Serves s a user p

theorem step_serves (hd : s.shutting_down = true) (hc : s.cleanup = .finished)
    (hs : s.step idle_timeout a = some s') :
    s'.cleanup = .finished ∧ ∀ user, s.Serves a user (s'.users user) := by
  cases step_advances hs with
  | tick => exact ⟨hc, fun user => .same rfl⟩
  | send_message u t key info p hp =>
    refine ⟨hc, fun user => ?_⟩
    by_cases hu : user = u
    · subst hu
      exact .send t key info rfl (hp.trans (congrArg some set_user_self.symm))
    · exact .same (set_user_other hu)
  | task u b p hb hp =>
    refine ⟨hc, fun user => ?_⟩
    by_cases hu : user = u
    · subst hu
      rw [hd] at hp
      exact .task b rfl hb (hp.trans (congrArg some set_user_self.symm))
    · exact .same (set_user_other hu)
  | stops t idle_users hcl => cases hc.symm.trans hcl
  | wakes t idle_users r hcl => cases hc.symm.trans hcl
  | next t u d rest r hcl => cases hc.symm.trans hcl

theorem Serves.awaited {p : Pool} (h : s.Serves a user p) (hr : s.Retired a)
    (hi : (s.users user).Awaited e) : p.Awaited e := by
  cases h with
  | same hp => exact hp ▸ hi
  | send t key info ha hs =>
    subst ha
    exact hi.send hr hs
  | task b ha hb hs =>
    subst ha
    exact hi.run hr hb hs

/-- A client is taken only by `close_connection`. -/
theorem Serves.clients {p : Pool} (h : s.Serves a user p) (hi : (s.users user).Awaited e)
    (hc : (s.users user).clients ≠ none) : p.clients ≠ none := by
  cases h with
  | same hp => exact hp ▸ hc
  | send t key info _ hs =>
    rw [(Pool.send_ran hs).2.clients]
    exact hc
  | task b _ hb hs =>
    cases Pool.run_moves hs with
    | world _ _ hcl =>
      rw [hcl]
      exact hc
    | begins t k hbegins => rw [hb] at hbegins; cases hbegins
    | runs t k _ _ _ _ hran =>
      rw [hran.clients]
      exact hc
    | closed t _ ht => exact absurd ht (hi.closes t)
    | closes t hbegins => rw [hb] at hbegins; cases hbegins
    | joins t g hbegins => rw [hb] at hbegins; cases hbegins
    | joined t g _ ht => exact absurd (Pool.kind_of_pc ht) (hi.closes t)
    | enters t l _ ht => exact absurd (Pool.kind_of_pc ht) (hi.closes t)
    | reconnects t g l info b _ _ hr => exact hr.clients
    | installs t g l caller b _ _ _ _ hcl => exact hcl

theorem Serves.dead {p : Pool} (h : s.Serves a user p) (hr : s.Retired a)
    (hcall : ∀ t key info, a ≠ .send_message user t key info) (hi : (s.users user).Dead) :
    p.Dead := by
  cases h with
  | same hp => exact hp ▸ hi
  | send t key info ha => exact absurd ha (hcall t key info)
  | task b ha hb hs =>
    subst ha
    exact hi.run hr hb hs

theorem Serves.frames {p : Pool} (h : s.Serves a user p)
    (hcall : ∀ t key info, a ≠ .send_message user t key info) (hi : (s.users user).Dead) :
    p.frames = (s.users user).frames := by
  cases h with
  | same hp => rw [hp]
  | send t key info ha => exact absurd ha (hcall t key info)
  | task b _ _ hs => exact Pool.run_frames hi.calm hs

/-- What holds while `close_all` awaits the guardians. -/
structure Gathering (s : Manager) (guardians : String → Option Nat) : Prop where
  down : s.shutting_down = true
  finished : s.cleanup = .finished
  placed : s.Placed
  awaited : ∀ user, (s.users user).Awaited (guardians user)

/-- What holds while `close_all` has still to take the clients of `user_ids`. -/
structure Parting (s : Manager) (user_ids : List String) : Prop where
  down : s.shutting_down = true
  finished : s.cleanup = .finished
  nodup : user_ids.Nodup
  waiting : ∀ user ∈ user_ids, (s.users user).Awaited none ∧ (s.users user).clients ≠ none
  gone : ∀ user, user ∉ user_ids → (s.users user).Dead

theorem Gathering.step (h : s.Gathering guardians) (hr : s.Retired a)
    (hs : s.step idle_timeout a = some s') : s'.Gathering guardians := by
  obtain ⟨hc, hserves⟩ := step_serves h.down h.finished hs
  refine ⟨(step_down hs).trans h.down, hc, step_placed h.placed hs, ?_⟩
  exact fun user => (hserves user).awaited hr (h.awaited user)

theorem Parting.step (h : s.Parting user_ids) (hr : s.Retired a)
    (hcall : ∀ user, user ∉ user_ids → ∀ t key info, a ≠ .send_message user t key info)
    (hs : s.step idle_timeout a = some s') : s'.Parting user_ids := by
  obtain ⟨hc, hserves⟩ := step_serves h.down h.finished hs
  refine ⟨(step_down hs).trans h.down, hc, h.nodup, ?_, ?_⟩
  · intro user hu
    obtain ⟨hawaited, hclients⟩ := h.waiting user hu
    exact ⟨(hserves user).awaited hr hawaited, (hserves user).clients hawaited hclients⟩
  · exact fun user hu => (hserves user).dead hr (hcall user hu) (h.gone user hu)

theorem Ordered.gathering (h : s.Ordered) (hd : s.shutting_down = true)
    (hc : s.cleanup = .finished) :
    Gathering { s with users := fun user => (s.users user).cancel_guardian }
      fun user => (s.users user).guardian_tasks := by
  refine ⟨hd, hc, ⟨?_, h.placed.pass⟩, ?_⟩
  · intro user hu
    have hfresh := h.placed.known user hu
    change ((s.users user).cancel_guardian).Fresh
    rw [Pool.cancel_guardian]
    split
    · rename_i g _
      have hg : (s.users user).cancel g = s.users user := by
        rw [Pool.cancel, hfresh.1 g]
      rw [hg]
      exact hfresh
    · exact hfresh
  · intro user
    have hno := no_close_finished (h.watched user) hc
    refine Pool.awaited_cancel_guardian (h.inv user) (h.watched user).sends hno ?_
    intro g hg
    rcases (h.watched user).guardians g hg with hcur | ⟨t, ht⟩
    · exact hcur
    · exact absurd (Pool.kind_of_pc ht) (hno t)

end Manager

namespace Pool

variable {s : Pool}

theorem Awaited.clear (h : s.Awaited (some g)) (hg : s.is_done g = true) : s.Awaited none := by
  refine ⟨h.inv, h.sends, h.closes, ?_⟩
  rintro e ⟨p, he, hk, hu⟩
  cases h.guardians e ⟨p, he, hk, hu⟩
  rw [is_done, he] at hg
  cases p with
  | done => cases hk
  | send_wait | lock_wait | closing | connecting | client_wait | sending | awaiting | send_closing
  | close_join | guard_new | guard_watch | guard_sleep | guard_backoff | cancelled | aborting =>
    cases hg

end Pool

namespace Shutdown

variable {s s' : Shutdown} {m : Manager} {idle_timeout : Nat}

def Phase (s : Shutdown) : Prop :=
  match s.closer with
  | .idle => s.manager.Ordered
  | .joining => s.manager.Ordered ∧ s.manager.shutting_down = true
  | .gathering guardians => s.manager.Gathering guardians
  | .closing _ user_ids => s.manager.Parting user_ids
  | .returned => s.manager.Parting []

/-- `close_all` takes the next client, of a user without a send in progress. -/
theorem close_clients_phase (h : m.Parting user_ids)
    (hb : ∀ user rest, user_ids = user :: rest → ¬ (m.users user).Busy) :
    (close_clients m user_ids).Phase := by
  cases user_ids with
  | nil =>
    refine ⟨h.down, h.finished, h.nodup, fun user hu => absurd hu List.not_mem_nil, ?_⟩
    intro user hu
    have hdead := h.gone user hu
    have hinv := hdead.awaited.inv
    refine ⟨hdead.awaited.same ⟨hinv.locks.pop, hinv.quiet, hinv.stored⟩ rfl, hdead.clients,
      hdead.calm⟩
  | cons user rest =>
    obtain ⟨hawaited, hclients⟩ := h.waiting user List.mem_cons_self
    obtain ⟨c, hc⟩ := Option.ne_none_iff_exists'.mp hclients
    obtain ⟨hnot, hnodup⟩ := List.nodup_cons.mp h.nodup
    simp only [close_clients, hc]
    refine ⟨h.down, h.finished, hnodup, ?_, ?_⟩
    · intro v hv
      have hne : v ≠ user := by
        rintro rfl
        exact hnot hv
      rw [Manager.set_user_other hne]
      exact h.waiting v (List.mem_cons_of_mem _ hv)
    · intro v hv
      by_cases hne : v = user
      · subst hne
        rw [Manager.set_user_self]
        exact ⟨hawaited.same (hawaited.inv.take hc) rfl, rfl, hb v rest rfl⟩
      · rw [Manager.set_user_other hne]
        exact h.gone v (List.not_mem_cons_of_ne_of_not_mem hne hv)

/-- The guardians are gone; the users without a client are let go at once. -/
theorem gathered_phase (h : m.Gathering guardians)
    (hdone : ∀ user ∈ m.known, ∀ g ∈ guardians user, (m.users user).is_done g)
    (hnodup : user_ids.Nodup) (hids : ∀ user ∈ user_ids, (m.users user).clients.isSome)
    (hall : ∀ user ∈ m.known, (m.users user).clients.isSome → user ∈ user_ids)
    (hb : ∀ user, (user ∈ user_ids → user_ids.head? = some user) → ¬ (m.users user).Busy) :
    (close_clients { m with users := fun user => { m.users user with guardian_tasks := none } }
      user_ids).Phase := by
  have hawaited : ∀ user, (m.users user).Awaited none := by
    intro user
    cases hg : guardians user with
    | none => exact hg ▸ h.awaited user
    | some g =>
      have hi := h.awaited user
      rw [hg] at hi
      by_cases hk : user ∈ m.known
      · exact hi.clear (hdone user hk g hg)
      · refine ⟨hi.inv, hi.sends, hi.closes, ?_⟩
        rintro e ⟨p, he, -⟩
        rw [(h.placed.known user hk).1 e] at he
        cases he
  have hsame : ∀ user, Pool.Awaited { m.users user with guardian_tasks := none } none := by
    intro user
    have hi := (hawaited user).inv
    exact (hawaited user).same ⟨hi.locks, hi.quiet, hi.stored⟩ rfl
  apply close_clients_phase
  · refine ⟨h.down, h.finished, hnodup, ?_, ?_⟩
    · exact fun user hu => ⟨hsame user, Option.isSome_iff_ne_none.mp (hids user hu)⟩
    · intro user hu
      refine ⟨hsame user, ?_, hb user fun h => absurd h hu⟩
      by_cases hk : user ∈ m.known
      · by_contra hc
        exact hu (hall user hk (Option.isSome_iff_ne_none.mpr hc))
      · exact (h.placed.known user hk).2
  · rintro user rest rfl
    exact hb user fun _ => rfl

theorem run_phase (h : s.Phase) (hc : s.Drained (.run a))
    (hs : s.manager.step idle_timeout a = some m) : Phase { s with manager := m } := by
  obtain ⟨hr, hcall⟩ := hc
  have hgone : ∀ {user}, s.let_go user → ∀ t key info, a ≠ .send_message user t key info :=
    fun hgo t key info ha => hcall _ t key info ha hgo
  obtain ⟨manager, closer⟩ := s
  cases closer with
  | idle => exact Manager.step_ordered h hr hs
  | joining => exact ⟨Manager.step_ordered h.1 hr hs, (Manager.step_down hs).trans h.2⟩
  | gathering guardians => exact Manager.Gathering.step h hr hs
  | closing u user_ids => exact Manager.Parting.step h hr (fun user hu => hgone hu) hs
  | returned => exact Manager.Parting.step h hr (fun user _ => hgone trivial) hs

theorem step_phase (h : s.Phase) (hc : s.Drained a) (hs : s.step idle_timeout a = some s') :
    s'.Phase := by
  cases a with
  | run a =>
    rw [step, Option.map_eq_some_iff] at hs
    obtain ⟨m, hm, rfl⟩ := hs
    exact run_phase h hc hm
  | close_all =>
    simp only [step] at hs
    split at hs
    · rename_i hcl
      rw [Option.map_eq_some_iff] at hs
      obtain ⟨m, hm, rfl⟩ := hs
      rw [Phase, hcl] at h
      have hordered : Manager.Ordered { s.manager with shutting_down := true } := by
        refine ⟨h.inv, fun user => (h.watched user).same rfl rfl, h.placed.known, h.placed.pass⟩
      exact Manager.cancel_cleanup_ordered hordered hm
    · cases hs
  | cleanup_stops =>
    simp only [step] at hs
    split at hs
    · rename_i user t rest hcl hc'
      split at hs
      · rename_i l b ht
        cases hs
        rw [Phase, hcl] at h
        rw [Phase, hcl]
        refine ⟨h.1.stop hc' ht (fun g hg => by cases hg) ((h.1.inv user).stop ht) ?_ ?_ rfl, h.2⟩
        · exact Pool.goto_pc_self
        · exact fun u hu => Pool.goto_pc_other hu
      · cases hs
    · cases hs
  | cleanup_joined =>
    simp only [step] at hs
    split at hs
    · rename_i hcl hc'
      cases hs
      rw [Phase, hcl] at h
      exact h.1.gathering h.2 hc'
    · cases hs
  | gathered user_ids =>
    simp only [step] at hs
    split at hs
    · rename_i guardians hcl
      split at hs
      · rename_i hall
        cases hs
        rw [Phase, hcl] at h
        exact gathered_phase h hall.1 hall.2.1 hall.2.2.1 hall.2.2.2 hc
      · cases hs
    · cases hs
  | client_closed =>
    simp only [step] at hs
    split at hs
    · rename_i u user_ids hcl
      cases hs
      rw [Phase, hcl] at h
      refine close_clients_phase h ?_
      rintro user rest rfl
      exact hc u user rest hcl
    · cases hs

theorem initial_phase (h : Initial s) : s.Phase := by
  have hordered : ∀ cleanup : Cleanup, (∀ u t rest, cleanup ≠ .closing u t rest) →
      Manager.Ordered { cleanup := cleanup } := by
    intro cleanup hcl
    refine ⟨fun user => Pool.inv_initial rfl, fun user => Manager.watched_initial rfl, ?_, ?_⟩
    · exact fun user _ => ⟨fun t => rfl, rfl⟩
    · exact fun u t rest hc => absurd hc (hcl u t rest)
  rcases h with rfl | rfl
  · exact hordered .asleep fun u t rest h => by cases h
  · exact hordered .finished fun u t rest h => by cases h

/-- After its return `close_all` is never left. -/
theorem step_returned (hr : s.closer = .returned) (hs : s.step idle_timeout a = some s') :
    ∃ b, a = .run b ∧ s'.closer = .returned ∧ s.manager.step idle_timeout b = some s'.manager := by
  cases a with
  | run b =>
    rw [step, Option.map_eq_some_iff] at hs
    obtain ⟨m, hm, rfl⟩ := hs
    exact ⟨b, rfl, hr, hm⟩
  | close_all | cleanup_stops | cleanup_joined | gathered | client_closed =>
    simp only [step, hr] at hs
    cases hs

theorem shut_of_parting (h : s.manager.Parting []) : s.Shut := by
  have hdead : ∀ user, (s.manager.users user).Dead := fun user => h.gone user List.not_mem_nil
  exact ⟨fun user => (hdead user).clients, fun user =>
    (hdead user).awaited.inv.disconnected (hdead user).clients⟩

/-- After `close_all` the users stay as they are, and send nothing. -/
theorem returned_run (h : Reach (step idle_timeout) Drained (· = s) s')
    (hr : s.closer = .returned) (hp : s.manager.Parting []) :
    s'.closer = .returned ∧ s'.manager.Parting [] ∧
      ∀ user, (s'.manager.users user).frames = (s.manager.users user).frames := by
  refine h.invariant (I := fun s' => s'.closer = .returned ∧ s'.manager.Parting [] ∧
    ∀ user, (s'.manager.users user).frames = (s.manager.users user).frames) ?_ ?_
  · rintro _ rfl
    exact ⟨hr, hp, fun user => rfl⟩
  · rintro s₁ a s₂ ⟨hr₁, hp₁, hf⟩ hc hs
    obtain ⟨b, rfl, hr₂, hb⟩ := step_returned hr₁ hs
    have hcall : ∀ user t key info, b ≠ .send_message user t key info := by
      intro user t key info he
      refine hc.2 user t key info he ?_
      rw [let_go, hr₁]
      trivial
    refine ⟨hr₂, hp₁.step hc.1 (fun user _ => hcall user) hb, fun user => ?_⟩
    obtain ⟨-, hserves⟩ := Manager.step_serves hp₁.down hp₁.finished hb
    rw [(hserves user).frames (hcall user) (hp₁.gone user List.not_mem_nil), hf user]

/-- As long as no send is in progress when its user is let go, and none comes later. -/
theorem shutdown_final (h : Reach (step idle_timeout) Drained Initial s)
    (hr : s.closer = .returned) (hs : Reach (step idle_timeout) Drained (· = s) s') :
    s'.Shut ∧ ∀ user, (s'.manager.users user).frames = (s.manager.users user).frames := by
  have hphase : s.Phase := h.invariant (fun _ => initial_phase) fun _ _ _ hi hc hs =>
    step_phase hi hc hs
  rw [Phase, hr] at hphase
  obtain ⟨-, hp, hf⟩ := returned_run hs hr hphase
  exact ⟨shut_of_parting hp, hf⟩

/-- One message is answered, and `close_all` awaits the guardian. -/
def closing_idle : List Act :=
  (Manager.answered_once.map .run) ++ [.run (.task "a" (.guardian_runs 1)), .close_all,
    .cleanup_joined, .run (.task "a" (.unwind 1))]

theorem meets_closing_idle : Meets (step 1) Drained {} closing_idle := by
  have hrun : ∀ {s : Shutdown} {u b}, s.manager.Retired (.task u b) →
      s.Drained (.run (.task u b)) :=
    fun h => ⟨h, fun _ _ _ _ he => by cases he⟩
  refine ⟨⟨?_, ?_⟩, hrun fun h => ?_, hrun fun h => ?_, hrun fun h => ?_, hrun fun h => ?_, trivial,
    trivial, hrun fun h => ?_, trivial⟩
  · intro _ _ u l hu
    rcases hu with hu | hu <;> cases hu
  · exact fun _ _ _ _ _ h => h
  all_goals cases h

theorem closing_idle_returns : ∃ s₁ s₂ s₃ s₄ guardians, exec (step 1) {} closing_idle = some s₁ ∧
    s₁.closer = .gathering guardians ∧ s₁.manager.known = ["a"] ∧
    ¬ (s₁.manager.users "a").Busy ∧ s₁.step 1 (.gathered ["a"]) = some s₂ ∧
    s₂.closer = .closing "a" [] ∧ s₂.step 1 .client_closed = some s₃ ∧ s₃.closer = .returned ∧
    s₃.step 1 (.run .tick) = some s₄ := by
  refine ⟨_, _, _, _, _, rfl, rfl, rfl, ?_, rfl, rfl, rfl, rfl, rfl⟩
  rintro ⟨t, ht⟩
  rcases t with _ | _ | t <;> cases ht

theorem shutdown_final_idle : ∃ s s', Reach (step 1) Drained Initial s ∧ s.closer = .returned ∧
    s.step 1 (.run .tick) = some s' ∧ s'.Shut := by
  obtain ⟨s₁, s₂, s₃, s₄, guardians, h₁, hg, hknown, hcalm, h₂, hc, h₃, hr, h₄⟩ :=
    closing_idle_returns
  have hi : Initial {} := .inl rfl
  have hreach₁ := (Reach.start hi).exec meets_closing_idle h₁
  have hphase : s₁.Phase := hreach₁.invariant (fun _ => initial_phase) fun _ _ _ hi hc hs =>
    step_phase hi hc hs
  rw [Phase, hg] at hphase
  have hdrained : s₁.Drained (.gathered ["a"]) := by
    intro user _
    by_cases hu : user = "a"
    · exact hu ▸ hcalm
    · rintro ⟨t, ht⟩
      refine (hphase.placed.known user ?_).no_kind ht
      rw [hknown]
      exact fun hm => hu (List.mem_singleton.mp hm)
  have hclosed : s₂.Drained .client_closed := by
    intro u user user_ids hcl
    rw [hc] at hcl
    cases hcl
  have hreach₃ := (hreach₁.next hdrained h₂).next hclosed h₃
  have htick : s₃.Drained (.run .tick) := ⟨trivial, fun _ _ _ _ he => by cases he⟩
  exact ⟨s₃, s₄, hreach₃, hr, h₄, (shutdown_final hreach₃ hr (.next (.start rfl) htick h₄)).1⟩

/-- `close_all` returns. -/
def closed_idle : List Act := closing_idle ++ [.gathered ["a"], .client_closed]

/-- The connection is closed under a send that awaits its answer. -/
def closed_busy : List Act :=
  [.run (.send_message "a" 0 "k" Manager.office), .run (.task "a" (.connected 0 1 true)),
    .run (.task "a" (.emit 0)), .close_all, .cleanup_joined, .run (.task "a" (.unwind 1)),
    .gathered ["a"], .client_closed]

/-- It reconnects and sends again. -/
def sends_again : List Act :=
  [.run (.task "a" (.raised 0)), .run (.task "a" (.closed 0)),
    .run (.task "a" (.connected 0 2 true)), .run (.task "a" (.emit 0))]

/-- A later call does the same. -/
def sends_later : List Act :=
  [.run (.send_message "a" 3 "m" Manager.office), .run (.task "a" (.connected 3 4 true)),
    .run (.task "a" (.emit 3))]

/-- After `close_all` a client is connected, and a frame is sent. -/
def Reopens (s : Shutdown) : Prop :=
  s.closer = .returned ∧ ∃ s', Reach (step 1) Any (· = s) s' ∧ ¬ s'.Shut ∧
    (s'.manager.users "a").frames ≠ (s.manager.users "a").frames

theorem reopens_of_exec (after : List Act) (c : Nat) (hr : s.closer = .returned)
    (hs : exec (step 1) s after = some s')
    (hc : (s'.manager.users "a").is_connected c = true)
    (hf : (s.manager.users "a").frames.length < (s'.manager.users "a").frames.length) :
    s.Reopens := by
  refine ⟨hr, s', reach_of_exec rfl hs, fun h => ?_, fun h => ?_⟩
  · rw [h.connected "a" c] at hc
    cases hc
  · rw [h] at hf
    exact lt_irrefl _ hf

/-- A send that `close_all` finds in progress reopens the manager, and so does a later one. -/
theorem not_shutdown_final :
    (∃ s, Reach (step 1) Any Initial s ∧ (s.manager.users "a").Busy ∧ s.Reopens) ∧
    ∃ s, Reach (step 1) Any Initial s ∧ ¬ (s.manager.users "a").Busy ∧ s.Reopens := by
  have hi : Initial {} := .inl rfl
  have hbusy : ∃ s, exec (step 1) {} closed_busy = some s ∧ (s.manager.users "a").Busy ∧
      s.Reopens :=
    ⟨_, rfl, ⟨0, rfl⟩, reopens_of_exec sends_again 1 rfl rfl rfl (by decide)⟩
  have hcalm : ∃ s, exec (step 1) {} closed_idle = some s ∧ ¬ (s.manager.users "a").Busy ∧
      s.Reopens := by
    refine ⟨_, rfl, ?_, reopens_of_exec sends_later 1 rfl rfl rfl (by decide)⟩
    rintro ⟨t, ht⟩
    rcases t with _ | _ | t <;> cases ht
  constructor
  · obtain ⟨s, hs, hb, hr⟩ := hbusy
    exact ⟨s, reach_of_exec hi hs, hb, hr⟩
  · obtain ⟨s, hs, hb, hr⟩ := hcalm
    exact ⟨s, reach_of_exec hi hs, hb, hr⟩

end Shutdown

end ClawMux
