import ClawMux.Services.WsTasks

namespace ClawMux
set_option autoImplicit true
open Lib

/-- Where the task of `_cleanup_loop` is: a pass has come to `user`, whose `close_connection` runs
as the task `t`, and has still to close the users in `rest`. -/
inductive Cleanup
  | asleep
  | closing (user : String) (t : Nat) (rest : List String)
  | finished

def Cleanup.user : Cleanup → Option String
  | .closing user _ _ => some user
  | _ => none

/-- A `WSConnectionManager` with all its users; `called` is when each of them last sent. -/
structure Manager where
  users : String → Pool := fun _ => {}
  known : List String := []
  last_active : String → Option Nat := fun _ => none
  called : String → Option Nat := fun _ => none
  now : Nat := 0
  shutting_down : Bool := false
  cleanup : Cleanup := .asleep

namespace Manager

def set_user (s : Manager) (user : String) (p : Pool) : Manager :=
  { s with users := Function.update s.users user p }

/-- The users that a pass selects. -/
def idle (idle_timeout : Nat) (s : Manager) (user : String) : Bool :=
  match s.last_active user with
  | some last => last + idle_timeout < s.now && (s.users user).clients.isSome
  | none => false

/-- The pass goes on to the next of its users, or to the next sleep. -/
def close_next (s : Manager) (t : Nat) : List String → Option Manager
  | [] => some { s with cleanup := if s.shutting_down then .finished else .asleep }
  | user :: rest =>
    ((s.users user).step (.close_connection t)).map fun p =>
      { s.set_user user p with
        last_active := Function.update s.last_active user none
        cleanup := .closing user t rest }

inductive Act
  | tick
  | send_message (user : String) (t : Nat) (key : String) (info : InstanceInfo)
  | task (user : String) (a : Pool.Act)
  | wake (t : Nat) (idle_users : List String)
  | next (t : Nat)

def step (idle_timeout : Nat) (s : Manager) : Act → Option Manager
  | .tick => some { s with now := s.now + 1 }
  | .send_message user t key info =>
    ((s.users user).step (.send_message t key info)).map fun p =>
      { s.set_user user p with
        known := if user ∈ s.known then s.known else user :: s.known
        last_active := Function.update s.last_active user (some s.now)
        called := Function.update s.called user (some s.now) }
  | .task user a =>
    if a.begins = none then ((s.users user).run s.shutting_down a).map (s.set_user user) else none
  | .wake t idle_users =>
    match s.cleanup with
    | .asleep =>
      if s.shutting_down then some { s with cleanup := .finished }
      else if (∀ user ∈ idle_users, s.idle idle_timeout user) ∧ idle_users.Nodup ∧
          ∀ user ∈ s.known, s.idle idle_timeout user → user ∈ idle_users then
        s.close_next t idle_users
      else none
    | _ => none
  | .next t =>
    match s.cleanup with
    | .closing user done rest =>
      match (s.users user).pc done with
      | some .done => s.close_next t rest
      | _ => none
    | _ => none

def Initial (s : Manager) : Prop := s = {}

end Manager

/-- A `send_message` is running or queued. -/
def Pool.Busy (s : Pool) : Prop := ∃ t, s.kind t = some .send

/-- There is a client, or a task that may install one. -/
def Pool.Live (s : Pool) : Prop := s.clients ≠ none ∨ s.Busy ∨ ∃ t, s.kind t = some .guardian

namespace Pool

variable {s s' : Pool}

/-- A step in which no task begins and nothing is taken from the pool. -/
structure Evolves (s s' : Pool) : Prop where
  kinds : ∀ t k, s'.kind t = some k → k ≠ .over → s.kind t = some k
  closes : ∀ t, s.kind t = some .close → s'.pc t = s.pc t ∨
    s.retiring t = false ∧ s'.kind t = some .over
  guardians : s'.guardian_tasks = s.guardian_tasks
  live : s'.Live → s.Live

theorem Evolves.retiring (h : s.Evolves s') : s'.retiring t = s.retiring t := by
  cases hs' : s'.retiring t with
  | true =>
    have hk := h.kinds t .close (kind_of_retiring hs') (by decide)
    rcases h.closes t hk with hp | ⟨-, ho⟩
    · rw [Pool.retiring, hp] at hs'
      exact hs'.symm
    · rw [kind_of_retiring hs'] at ho
      cases ho
  | false =>
    cases hs : s.retiring t with
    | false => rfl
    | true =>
      rcases h.closes t (kind_of_retiring hs) with hp | ⟨hf, -⟩
      · rw [Pool.retiring, hp, ← Pool.retiring, hs] at hs'
        cases hs'
      · rw [hs] at hf
        cases hf

theorem live_of_kinds (hc : s'.clients = s.clients)
    (hk : ∀ t k, s'.kind t = some k → k ≠ .over → s.kind t = some k) (h : s'.Live) : s.Live := by
  rcases h with h | ⟨t, h⟩ | ⟨t, h⟩
  · exact .inl (hc ▸ h)
  · exact .inr (.inl ⟨t, hk t _ h (by decide)⟩)
  · exact .inr (.inr ⟨t, hk t _ h (by decide)⟩)

/-- A running task keeps its kind until it is over. -/
theorem kinds_of_others (hself : s'.kind t = some k ∨ s'.kind t = some .over)
    (ht : s.kind t = some k) (hothers : ∀ u, u ≠ t → s'.pc u = s.pc u) (u : Nat) (k' : Kind)
    (hu : s'.kind u = some k') (ho : k' ≠ .over) : s.kind u = some k' := by
  by_cases hut : u = t
  · subst hut
    rcases hself with h | h
    · rw [h] at hu
      rw [ht, hu]
    · rw [h] at hu
      cases hu
      exact absurd rfl ho
  · rw [kind, ← hothers u hut]
    exact hu

theorem Ran.evolves (h : s.Ran t k s') (ht : s.kind t = some k)
    (hk : k = .close → s.retiring t = false ∧ s'.kind t = some .over) : s.Evolves s' := by
  have hkinds := kinds_of_others h.self ht h.others
  refine ⟨hkinds, ?_, h.guardians, live_of_kinds h.clients hkinds⟩
  intro u hu
  by_cases hut : u = t
  · subst hut
    rw [ht] at hu
    cases hu
    exact .inr (hk rfl)
  · exact .inl (h.others u hut)

theorem Reconnected.evolves (h : s.Reconnected t s') (ht : s.kind t = some .guardian) :
    s.Evolves s' := by
  refine ⟨kinds_of_others h.self ht h.others, ?_, h.guardians, fun _ => .inr (.inr ⟨t, ht⟩)⟩
  intro u hu
  refine .inl (h.others u ?_)
  rintro rfl
  rw [ht] at hu
  cases hu

theorem Ran.kind (h : s.Ran t k s') (hu : s'.kind u = some k') (hk : k' ≠ k) (ho : k' ≠ .over) :
    s.kind u = some k' := by
  by_cases hut : u = t
  · subst hut
    rcases h.self with hself | hself
    · rw [hself] at hu
      cases hu
      exact absurd rfl hk
    · rw [hself] at hu
      cases hu
      exact absurd rfl ho
  · rw [Pool.kind, ← h.others u hut]
    exact hu

/-- The other tasks do not notice that a task starts. -/
theorem Ran.started (h : s.Ran t k s') (ht : s.pc t = none) (hu : s.kind u = some k') :
    s'.pc u = s.pc u := by
  apply h.others u
  rintro rfl
  rw [Pool.kind, ht] at hu
  cases hu

theorem Replaced.kind (h : s.Replaced g s') (hu : s'.kind u = some k) (hk : k ≠ .guardian)
    (ho : k ≠ .over) : s.kind u = some k := by
  have hug : u ≠ g := by
    rintro rfl
    rw [kind_of_pc h.fresh] at hu
    cases hu
    exact hk rfl
  rcases h.kinds u hug with he | he
  · exact he ▸ hu
  · rw [he] at hu
    cases hu
    exact absurd rfl ho

/-- `close_connection` is called: the guardian that there was is being joined, or over. -/
structure Turned (s : Pool) (t : Nat) (s' : Pool) : Prop where
  fresh : s.pc t = none
  kinds : ∀ u k, s'.kind u = some k → k ≠ .over → s.kind u = some k ∨ u = t ∧ k = .close
  joined : ∀ g, s.guardian_tasks = some g → s'.kind g = some .guardian →
    s'.pc t = some (.close_join g)
  guardians : s'.guardian_tasks = none
  taken : s'.retiring t = true ∨ s'.clients = none

theorem Proceeds.turned (h : Proceeds { s with guardian_tasks := none } t s') (ht : s.pc t = none)
    (hg : ∀ g, s.guardian_tasks = some g → s.pc g = none ∨ s.pc g = some .done) :
    s.Turned t s' := by
  have hkinds : ∀ u k, s'.kind u = some k → k ≠ .over → s.kind u = some k ∨ u = t ∧ k = .close := by
    intro u k hu ho
    by_cases hut : u = t
    · subst hut
      rcases h.self with hself | hself
      · rw [hself] at hu
        cases hu
        exact .inr ⟨rfl, rfl⟩
      · rw [hself] at hu
        cases hu
        exact absurd rfl ho
    · rw [Pool.kind, h.others u hut] at hu
      exact .inl hu
  refine ⟨ht, hkinds, ?_, h.guardians, h.imp (fun h => h.2) fun h => h.clients⟩
  intro g hgt hk
  rcases hkinds g _ hk (by decide) with hk | ⟨-, hk⟩
  · rw [Pool.kind] at hk
    rcases hg g hgt with hpc | hpc <;> rw [hpc] at hk <;> cases hk
  · cases hk

theorem Cancelled.turned {r : Pool} (hr : Cancelled { s with guardian_tasks := none } g r)
    (ht : s.pc t = none) (hg : s.guardian_tasks = some g) :
    s.Turned t (r.goto t (.close_join g)) := by
  have hself : (r.goto t (.close_join g)).pc t = some (.close_join g) := goto_pc_self
  have hkinds : ∀ u k, (r.goto t (.close_join g)).kind u = some k → k ≠ .over →
      s.kind u = some k ∨ u = t ∧ k = .close := by
    intro u k hu ho
    by_cases hut : u = t
    · subst hut
      rw [kind_of_pc hself] at hu
      cases hu
      exact .inr ⟨rfl, rfl⟩
    · rw [Pool.kind, goto_pc_other hut, ← Pool.kind] at hu
      by_cases hug : u = g
      · subst hug
        rcases hr.kinds with he | he
        · exact .inl (he ▸ hu)
        · rw [he] at hu
          cases hu
          exact absurd rfl ho
      · rw [Pool.kind, hr.others u hug] at hu
        exact .inl hu
  refine ⟨ht, hkinds, ?_, hr.guardians, .inl ?_⟩
  · intro e he _
    rw [hg] at he
    cases he
    exact hself
  · rw [Pool.retiring, hself]
    rfl

theorem step_turned (hs : s.step (.close_connection t) = some s') : s.Turned t s' := by
  cases step_moves hs with
  | begins u k hbegins hk =>
    cases hbegins
    rcases hk with hk | hk <;> cases hk
  | closes u hbegins hu hdead hproceeds =>
    cases hbegins
    exact hproceeds.turned hu hdead
  | joins u g hbegins hu hg hr =>
    cases hbegins
    obtain ⟨r, hr, -, rfl⟩ := hr
    exact hr.turned hu hg
  | world hbegins => cases hbegins
  | runs u k hbegins => cases hbegins
  | closed u hbegins => cases hbegins
  | joined u g hbegins => cases hbegins
  | enters u l hbegins => cases hbegins
  | reconnects u g l info b ha => cases ha
  | installs u g l caller b ha => cases ha

theorem send_ran (hs : s.step (.send_message t key info) = some s') :
    s.pc t = none ∧ s.Ran t .send s' := by
  cases step_moves hs with
  | begins u k hbegins hk hu hran =>
    cases hbegins
    exact ⟨hu, hran⟩
  | closes u hbegins => cases hbegins
  | joins u g hbegins => cases hbegins
  | world hbegins => cases hbegins
  | runs u k hbegins => cases hbegins
  | closed u hbegins => cases hbegins
  | joined u g hbegins => cases hbegins
  | enters u l hbegins => cases hbegins
  | reconnects u g l info b ha => cases ha
  | installs u g l caller b ha => cases ha

theorem evolves_of_pc (hp : s'.pc = s.pc) (hc : s'.clients = s.clients)
    (hg : s'.guardian_tasks = s.guardian_tasks) : s.Evolves s' := by
  have hkinds : ∀ t k, s'.kind t = some k → k ≠ .over → s.kind t = some k := by
    intro t k hk _
    rw [Pool.kind, hp] at hk
    exact hk
  exact ⟨hkinds, fun t _ => .inl (by rw [hp]), hg, live_of_kinds hc hkinds⟩

/-- Where nobody sends or reconnects, nobody does after a `close_connection` has proceeded, and the
client is gone unless it has still to be taken. -/
theorem Proceeds.quiet (h : s.Proceeds t s') (ht : s.kind t = some .close) (hb : ¬ s.Busy)
    (hg : ∀ g, s.kind g ≠ some .guardian) : ¬ s'.Busy ∧ (s'.retiring t = true ∨ ¬ s'.Live) := by
  have hkinds := kinds_of_others h.self ht h.others
  have hb' : ¬ s'.Busy := fun ⟨u, hu⟩ => hb ⟨u, hkinds u _ hu (by decide)⟩
  refine ⟨hb', h.imp (fun h => h.2) fun hr => ?_⟩
  rintro (hc | hbusy | ⟨g, hgk⟩)
  · exact hc hr.clients
  · exact hb' hbusy
  · exact hg g (hkinds g _ hgk (by decide))

end Pool

namespace Manager

/-- The loop is closing the connection of the user, and has not taken the client yet. -/
def retiring (s : Manager) (user : String) : Prop :=
  ∃ t rest, s.cleanup = .closing user t rest ∧ (s.users user).retiring t = true

/-- The pass has selected the user, and has not taken the client yet. -/
def selected (s : Manager) (user : String) : Prop :=
  s.retiring user ∨ ∃ u t rest, s.cleanup = .closing u t rest ∧ user ∈ rest

/-- No send is in progress, and the last one was called longer than the timeout ago. -/
structure Unused (idle_timeout : Nat) (s : Manager) (user : String) : Prop where
  calm : ¬ (s.users user).Busy
  stale : ∀ last, s.called user = some last → last + idle_timeout < s.now

/-- Every user with a client has an entry, but for the one whose client is about to be taken. -/
def Tracked (s : Manager) : Prop :=
  ∀ user, (s.users user).clients ≠ none → s.last_active user ≠ none ∨ s.retiring user

/-- No guardian is replaced while it is closing a client. -/
def KeepsGuardian (p : Pool) : Pool.Act → Prop
  | .connected t _ _ => ∀ e l info b, p.guardian_tasks = some e →
    p.pc e = some (.closing l (.reconnect info) b) →
    ∀ l' caller, p.pc t ≠ some (.connecting l' (.get_or_create caller))
  | _ => True

/-- No user has a send in progress when its turn in the pass comes, or calls one between the
snapshot of the pass and the removal of its client. -/
def Settled (s : Manager) : Act → Prop
  | .send_message user .. => ¬ s.selected user
  | .task user a => KeepsGuardian (s.users user) a
  | .wake _ (user :: _) => ¬ (s.users user).Busy
  | .next _ => ∀ u t user rest, s.cleanup = .closing u t (user :: rest) → ¬ (s.users user).Busy
  | _ => True

/-- Only the pass closes, and a guardian is the one that is kept, or is being joined. -/
structure Watched (s : Manager) (user : String) : Prop where
  sends : ∀ t, (s.users user).kind t ≠ some .direct
  closes : ∀ t, (s.users user).kind t = some .close → ∃ rest, s.cleanup = .closing user t rest
  guardians : ∀ g, (s.users user).kind g = some .guardian →
    (s.users user).guardian_tasks = some g ∨ ∃ t, (s.users user).pc t = some (.close_join g)

/-- A client, or a task that may install one, has an entry; a stale one has been selected. -/
structure Tended (idle_timeout : Nat) (s : Manager) (user : String) : Prop where
  calm : s.retiring user → (s.users user).guardian_tasks = none ∧ ¬ (s.users user).Busy
  live : (s.users user).Live → s.last_active user ≠ none ∨ s.retiring user
  stamps : ∀ last, s.last_active user = some last → s.called user = some last
  stale : s.selected user → ∃ last, s.called user = some last ∧ last + idle_timeout < s.now

variable {s s' : Manager} {p : Pool} {idle_timeout : Nat}

theorem set_user_self : (s.set_user user p).users user = p := Function.update_self ..

theorem set_user_other (h : v ≠ user) : (s.set_user user p).users v = s.users v :=
  Function.update_of_ne h ..

theorem Watched.same (h : s.Watched user) (hp : s'.users user = s.users user)
    (hc : s'.cleanup = s.cleanup) : s'.Watched user := by
  constructor
  · rw [hp]
    exact h.sends
  · rw [hp, hc]
    exact h.closes
  · rw [hp]
    exact h.guardians

theorem Watched.no_close (h : s.Watched user)
    (hno : ∀ t rest, s.cleanup = .closing user t rest → (s.users user).kind t ≠ some .close)
    (t : Nat) : (s.users user).kind t ≠ some .close := by
  intro ht
  obtain ⟨rest, hc⟩ := h.closes t ht
  exact hno t rest hc ht

/-- Where nobody closes, it does not matter where the pass is. -/
theorem Watched.idle (h : s.Watched user) (hno : ∀ t, (s.users user).kind t ≠ some .close)
    (hp : s'.users user = s.users user) : s'.Watched user := by
  constructor
  · rw [hp]
    exact h.sends
  · rw [hp]
    exact fun t ht => absurd ht (hno t)
  · rw [hp]
    exact h.guardians

theorem Watched.evolves (h : s.Watched user) (he : (s.users user).Evolves p) :
    (s.set_user user p).Watched user := by
  constructor
  · rw [set_user_self]
    exact fun t ht => h.sends t (he.kinds t _ ht (by decide))
  · rw [set_user_self]
    exact fun t ht => h.closes t (he.kinds t _ ht (by decide))
  · rw [set_user_self]
    intro g hg
    rcases h.guardians g (he.kinds g _ hg (by decide)) with hg | ⟨t, ht⟩
    · exact .inl (he.guardians.trans hg)
    · refine .inr ⟨t, ?_⟩
      rcases he.closes t (Pool.kind_of_pc ht) with hp | ⟨hf, -⟩
      · exact hp.trans ht
      · rw [Pool.retiring, ht] at hf
        cases hf

/-- The `close_connection` of the pass goes on, once its guardian is joined. -/
theorem Watched.proceeds (h : s.Watched user) (ht : (s.users user).kind t = some .close)
    (hjoin : ∀ g, (s.users user).pc t = some (.close_join g) → (s.users user).pc g = some .done)
    (hp : (s.users user).Proceeds t p) : (s.set_user user p).Watched user := by
  have hkinds := Pool.kinds_of_others hp.self ht hp.others
  constructor
  · rw [set_user_self]
    exact fun u hu => h.sends u (hkinds u _ hu (by decide))
  · rw [set_user_self]
    exact fun u hu => h.closes u (hkinds u _ hu (by decide))
  · rw [set_user_self]
    intro g hg
    rcases h.guardians g (hkinds g _ hg (by decide)) with hg' | ⟨u, hu⟩
    · exact .inl (hp.guardians.trans hg')
    · by_cases hut : u = t
      · subst hut
        have hgt : g ≠ u := by
          rintro rfl
          rw [Pool.kind_of_pc (hjoin g hu)] at ht
          cases ht
        rw [Pool.kind, hp.others g hgt, hjoin g hu] at hg
        cases hg
      · exact .inr ⟨u, (hp.others u hut).trans hu⟩

/-- A send installs a client with a new guardian. -/
theorem Watched.installs (h : s.Watched user)
    (hk : KeepsGuardian (s.users user) (.connected t g b))
    (ht : (s.users user).pc t = some (.connecting l (.get_or_create caller)))
    (hr : (s.users user).Replaced g p) : (s.set_user user p).Watched user := by
  constructor
  · rw [set_user_self]
    exact fun u hu => h.sends u (hr.kind hu (by decide) (by decide))
  · rw [set_user_self]
    exact fun u hu => h.closes u (hr.kind hu (by decide) (by decide))
  · rw [set_user_self]
    intro e he
    by_cases heg : e = g
    · exact .inl (heg ▸ hr.guardians)
    · have hold : (s.users user).kind e = some .guardian := by
        rcases hr.kinds e heg with hsame | hover
        · exact hsame ▸ he
        · rw [hover] at he
          cases he
      rcases h.guardians e hold with hcur | ⟨u, hu⟩
      · obtain ⟨l', info, b', hclosing⟩ := hr.stops e hcur heg he
        exact absurd ht (hk e l' info b' hcur hclosing l caller)
      · exact .inr ⟨u, (hr.closes u (Pool.kind_of_pc hu)).trans hu⟩

theorem Watched.task (h : s.Watched user) (hb : a.begins = none)
    (hk : KeepsGuardian (s.users user) a) (hs : (s.users user).run down a = some p) :
    (s.set_user user p).Watched user := by
  cases Pool.run_moves hs with
  | world _ hpc hc hg => exact h.evolves (Pool.evolves_of_pc hpc hc hg)
  | begins t k hbegins => rw [hb] at hbegins; cases hbegins
  | runs t k _ _ hk ht hran => exact h.evolves (hran.evolves ht fun hc => absurd hc hk)
  | closed t _ ht hret hran hover => exact h.evolves (hran.evolves ht fun _ => ⟨hret, hover⟩)
  | closes t hbegins => rw [hb] at hbegins; cases hbegins
  | joins t g hbegins => rw [hb] at hbegins; cases hbegins
  | joined t g _ ht hg hp =>
    refine h.proceeds (Pool.kind_of_pc ht) (fun e he => ?_) hp
    rw [ht] at he
    cases he
    exact hg
  | enters t l _ ht hp =>
    refine h.proceeds (Pool.kind_of_pc ht) (fun e he => ?_) (.inr hp)
    rw [ht] at he
    cases he
  | reconnects t g l info b _ ht hr => exact h.evolves (hr.evolves (Pool.kind_of_pc ht))
  | installs t g l caller b ha ht hg hr _ =>
    subst ha
    exact h.installs hk ht hr

theorem Watched.called (h : s.Watched user) (ht : (s.users user).pc t = none)
    (hr : (s.users user).Ran t .send p) (hp : s'.users user = p) (hc : s'.cleanup = s.cleanup) :
    s'.Watched user := by
  constructor
  · rw [hp]
    exact fun u hu => h.sends u (hr.kind hu (by decide) (by decide))
  · rw [hp, hc]
    exact fun u hu => h.closes u (hr.kind hu (by decide) (by decide))
  · rw [hp]
    intro g hg
    rcases h.guardians g (hr.kind hg (by decide) (by decide)) with hcur | ⟨u, hu⟩
    · exact .inl (hr.guardians.trans hcur)
    · exact .inr ⟨u, (hr.started ht (Pool.kind_of_pc hu)).trans hu⟩

/-- The loop turns to a user. -/
theorem Watched.close (h : s.Watched user) (hno : ∀ t, (s.users user).kind t ≠ some .close)
    (hs : (s.users user).step (.close_connection t) = some p) (hp : s'.users user = p)
    (hc : s'.cleanup = .closing user t rest) : s'.Watched user := by
  obtain ⟨-, hkinds, hjoined, -, -⟩ := Pool.step_turned hs
  constructor
  · rw [hp]
    intro u hu
    rcases hkinds u _ hu (by decide) with h' | ⟨-, h'⟩
    · exact h.sends u h'
    · cases h'
  · rw [hp]
    intro u hu
    rcases hkinds u _ hu (by decide) with h' | ⟨rfl, -⟩
    · exact absurd h' (hno u)
    · exact ⟨rest, hc⟩
  · rw [hp]
    intro g hg
    rcases hkinds g _ hg (by decide) with h' | ⟨-, h'⟩
    · rcases h.guardians g h' with hcur | ⟨u, hu⟩
      · exact .inr ⟨t, hjoined g hcur hg⟩
      · exact absurd (Pool.kind_of_pc hu) (hno u)
    · cases h'

/-- The loop does not turn to this user. -/
theorem Watched.close_next (h : ∀ user, s.Watched user)
    (hno : ∀ user t, (s.users user).kind t ≠ some .close)
    (hs : s.close_next t idle_users = some s') (user : String) : s'.Watched user := by
  cases idle_users with
  | nil =>
    cases hs
    exact (h user).idle (hno user) rfl
  | cons u rest =>
    rw [Manager.close_next, Option.map_eq_some_iff] at hs
    obtain ⟨p, hp, rfl⟩ := hs
    by_cases hu : user = u
    · subst hu
      exact (h user).close (hno user) hp set_user_self rfl
    · exact (h user).idle (hno user) (set_user_other hu)

/-- At the turns of the loop no `close_connection` is running. -/
theorem no_close_asleep (h : ∀ user, s.Watched user) (hc : s.cleanup = .asleep) (user : String)
    (t : Nat) : (s.users user).kind t ≠ some .close := by
  refine (h user).no_close (fun v rest hc' => ?_) t
  rw [hc] at hc'
  cases hc'

theorem no_close_done (h : ∀ user, s.Watched user) (hc : s.cleanup = .closing u d rest)
    (hd : (s.users u).pc d = some .done) (user : String) (t : Nat) :
    (s.users user).kind t ≠ some .close := by
  refine (h user).no_close (fun v rest' hc' => ?_) t
  rw [hc] at hc'
  cases hc'
  rw [Pool.kind_of_pc hd]
  exact fun h' => by cases h'

/-- What a step of the manager does. -/
inductive Advances (idle_timeout : Nat) (s : Manager) : Act → Manager → Prop
  | tick : Advances idle_timeout s .tick { s with now := s.now + 1 }
  | send_message (u : String) (t : Nat) (key : String) (info : InstanceInfo) (p : Pool)
      (hp : (s.users u).step (.send_message t key info) = some p) :
      Advances idle_timeout s (.send_message u t key info)
        { s.set_user u p with
          known := if u ∈ s.known then s.known else u :: s.known
          last_active := Function.update s.last_active u (some s.now)
          called := Function.update s.called u (some s.now) }
  | task (u : String) (b : Pool.Act) (p : Pool) (hb : b.begins = none)
      (hp : (s.users u).run s.shutting_down b = some p) :
      Advances idle_timeout s (.task u b) (s.set_user u p)
  | stops (t : Nat) (idle_users : List String) (hcl : s.cleanup = .asleep)
      (hdown : s.shutting_down = true) :
      Advances idle_timeout s (.wake t idle_users) { s with cleanup := .finished }
  | wakes (t : Nat) (idle_users : List String) (s' : Manager) (hcl : s.cleanup = .asleep)
      (hidle : ∀ user ∈ idle_users, s.idle idle_timeout user)
      (hs : s.close_next t idle_users = some s') : Advances idle_timeout s (.wake t idle_users) s'
  | next (t : Nat) (u : String) (d : Nat) (rest : List String) (s' : Manager)
      (hcl : s.cleanup = .closing u d rest) (hdone : (s.users u).pc d = some .done)
      (hs : s.close_next t rest = some s') : Advances idle_timeout s (.next t) s'

theorem step_advances (hs : s.step idle_timeout a = some s') : s.Advances idle_timeout a s' := by
  cases a with
  | tick =>
    cases hs
    exact .tick
  | send_message u t key info =>
    rw [step, Option.map_eq_some_iff] at hs
    obtain ⟨p, hp, rfl⟩ := hs
    exact .send_message u t key info p hp
  | task u b =>
    rw [step] at hs
    split at hs
    · rename_i hb
      rw [Option.map_eq_some_iff] at hs
      obtain ⟨p, hp, rfl⟩ := hs
      exact .task u b p hb hp
    · cases hs
  | wake t idle_users =>
    simp only [step] at hs
    split at hs
    · rename_i hcl
      split at hs
      · rename_i hdown
        cases hs
        exact .stops t idle_users hcl hdown
      · split at hs
        · rename_i hidle
          exact .wakes t idle_users s' hcl hidle.1 hs
        · cases hs
    · cases hs
  | next t =>
    simp only [step] at hs
    split at hs
    · rename_i u d rest hcl
      split at hs
      · rename_i hdone
        exact .next t u d rest s' hcl hdone hs
      · cases hs
    · cases hs

theorem step_watched (h : ∀ user, s.Watched user)
    (hk : ∀ user b, a = .task user b → KeepsGuardian (s.users user) b)
    (hs : s.step idle_timeout a = some s') (user : String) : s'.Watched user := by
  cases step_advances hs with
  | tick => exact (h user).same rfl rfl
  | send_message u t key info p hp =>
    by_cases hu : user = u
    · subst hu
      obtain ⟨ht, hran⟩ := Pool.send_ran hp
      exact (h user).called ht hran set_user_self rfl
    · exact (h user).same (set_user_other hu) rfl
  | task u b p hb hp =>
    by_cases hu : user = u
    · subst hu
      exact (h user).task hb (hk user b rfl) hp
    · exact (h user).same (set_user_other hu) rfl
  | stops t idle_users hcl => exact (h user).idle (no_close_asleep h hcl user) rfl
  | wakes t idle_users r hcl hidle hr =>
    exact Watched.close_next h (no_close_asleep h hcl) hr user
  | next t u d rest r hcl hdone hr =>
    exact Watched.close_next h (no_close_done h hcl hdone) hr user

theorem watched_initial (hp : s.users user = {}) : s.Watched user := by
  constructor
  · rw [hp]
    exact fun t h => by cases h
  · rw [hp]
    exact fun t h => by cases h
  · rw [hp]
    exact fun g h => by cases h

/-- What holds of a user depends on its own pool, its entries, the pass and the clock. -/
theorem Tended.same (h : s.Tended idle_timeout user) (hp : s'.users user = s.users user)
    (hl : s'.last_active user = s.last_active user) (hcalled : s'.called user = s.called user)
    (hc : s'.cleanup = s.cleanup) (hn : s.now ≤ s'.now) : s'.Tended idle_timeout user := by
  have hr : s'.retiring user ↔ s.retiring user := by
    rw [retiring, retiring, hc, hp]
  have hsel : s'.selected user → s.selected user := by
    rw [selected, selected, hr, hc]
    exact id
  constructor
  · rw [hp, hr]
    exact h.calm
  · rw [hp, hr, hl]
    exact h.live
  · rw [hl, hcalled]
    exact h.stamps
  · intro hs
    obtain ⟨last, hlast, hlt⟩ := h.stale (hsel hs)
    exact ⟨last, hcalled.trans hlast, lt_of_lt_of_le hlt hn⟩

theorem Tended.evolves (h : s.Tended idle_timeout user) (he : (s.users user).Evolves p) :
    (s.set_user user p).Tended idle_timeout user := by
  have hr : (s.set_user user p).retiring user ↔ s.retiring user := by
    simp only [retiring, set_user_self, he.retiring]
    exact Iff.rfl
  have hsel : (s.set_user user p).selected user → s.selected user := by
    rw [selected, selected, hr]
    exact id
  constructor
  · rw [set_user_self, hr]
    intro hret
    obtain ⟨hg, hb⟩ := h.calm hret
    exact ⟨he.guardians.trans hg, fun ⟨t, ht⟩ => hb ⟨t, he.kinds t _ ht (by decide)⟩⟩
  · rw [set_user_self, hr]
    exact fun hl => h.live (he.live hl)
  · exact h.stamps
  · exact fun hs => h.stale (hsel hs)

/-- Once its guardian is joined, the `close_connection` of the pass has no guardian beside it. -/
theorem Watched.alone (h : s.Watched user) (ht : (s.users user).kind t = some .close)
    (hg : (s.users user).guardian_tasks = none)
    (hjoin : ∀ g, (s.users user).pc t = some (.close_join g) → (s.users user).pc g = some .done)
    (g : Nat) : (s.users user).kind g ≠ some .guardian := by
  intro hk
  obtain ⟨rest, hc⟩ := h.closes t ht
  rcases h.guardians g hk with hcur | ⟨u, hu⟩
  · rw [hg] at hcur
    cases hcur
  · obtain ⟨rest', hc'⟩ := h.closes u (Pool.kind_of_pc hu)
    rw [hc] at hc'
    cases hc'
    rw [Pool.kind_of_pc (hjoin g hu)] at hk
    cases hk

theorem Tended.proceeds (h : s.Tended idle_timeout user) (hw : s.Watched user)
    (ht : (s.users user).retiring t = true)
    (hjoin : ∀ g, (s.users user).pc t = some (.close_join g) → (s.users user).pc g = some .done)
    (hp : (s.users user).Proceeds t p) : (s.set_user user p).Tended idle_timeout user := by
  have hk := Pool.kind_of_retiring ht
  obtain ⟨rest, hc⟩ := hw.closes t hk
  obtain ⟨htasks, hcalm⟩ := h.calm ⟨t, rest, hc, ht⟩
  obtain ⟨hcalm', hrest⟩ := hp.quiet hk hcalm (hw.alone hk htasks hjoin)
  constructor
  · rw [set_user_self]
    exact fun _ => ⟨hp.guardians.trans htasks, hcalm'⟩
  · rw [set_user_self]
    intro hl
    refine .inr ⟨t, rest, hc, ?_⟩
    rw [set_user_self]
    exact hrest.resolve_right (not_not_intro hl)
  · exact h.stamps
  · exact fun _ => h.stale (.inl ⟨t, rest, hc, ht⟩)

theorem Tended.installs (h : s.Tended idle_timeout user) (hw : s.Watched user)
    (ht : (s.users user).pc t = some (.connecting l (.get_or_create caller)))
    (hr : (s.users user).Replaced g p) : (s.set_user user p).Tended idle_timeout user := by
  have hbusy : (s.users user).Busy := by
    refine ⟨t, ?_⟩
    cases caller with
    | direct info => exact absurd (Pool.kind_of_pc ht) (hw.sends t)
    | send x => exact Pool.kind_of_pc ht
  have hnot : ¬ s.retiring user := fun hret => (h.calm hret).2 hbusy
  have hnot' : ¬ (s.set_user user p).retiring user := by
    rintro ⟨u, rest, hc, hu⟩
    rw [set_user_self] at hu
    have hclose := hr.kind (Pool.kind_of_retiring hu) (by decide) (by decide)
    refine hnot ⟨u, rest, hc, ?_⟩
    rw [Pool.retiring, ← hr.closes u hclose]
    exact hu
  constructor
  · exact fun hret => absurd hret hnot'
  · exact fun _ => .inl ((h.live (.inr (.inl hbusy))).resolve_right hnot)
  · exact h.stamps
  · exact fun hsel => h.stale (.inr (hsel.resolve_left hnot'))

theorem Tended.task (h : s.Tended idle_timeout user) (hw : s.Watched user) (hb : a.begins = none)
    (hs : (s.users user).run down a = some p) : (s.set_user user p).Tended idle_timeout user := by
  cases Pool.run_moves hs with
  | world _ hpc hc hg => exact h.evolves (Pool.evolves_of_pc hpc hc hg)
  | begins t k hbegins => rw [hb] at hbegins; cases hbegins
  | runs t k _ _ hk ht hran => exact h.evolves (hran.evolves ht fun hc => absurd hc hk)
  | closed t _ ht hret hran hover => exact h.evolves (hran.evolves ht fun _ => ⟨hret, hover⟩)
  | closes t hbegins => rw [hb] at hbegins; cases hbegins
  | joins t g hbegins => rw [hb] at hbegins; cases hbegins
  | joined t g _ ht hg hp =>
    have hret : (s.users user).retiring t = true := by
      rw [Pool.retiring, ht]
      rfl
    refine h.proceeds hw hret (fun e he => ?_) hp
    rw [ht] at he
    cases he
    exact hg
  | enters t l _ ht hp =>
    have hret : (s.users user).retiring t = true := by
      rw [Pool.retiring, ht]
      rfl
    refine h.proceeds hw hret (fun e he => ?_) (.inr hp)
    rw [ht] at he
    cases he
  | reconnects t g l info b _ ht hr => exact h.evolves (hr.evolves (Pool.kind_of_pc ht))
  | installs t g l caller b _ ht _ hr _ => exact h.installs hw ht hr

/-- A call makes the user active. -/
theorem Tended.called (hsel : ¬ s.selected user) (ht : (s.users user).pc t = none)
    (hr : (s.users user).Ran t .send p) (hp : s'.users user = p)
    (hl : s'.last_active user = some s.now) (hcalled : s'.called user = some s.now)
    (hc : s'.cleanup = s.cleanup) : s'.Tended idle_timeout user := by
  have hret : ¬ s'.retiring user := by
    rintro ⟨u, rest, hcl, hu⟩
    rw [hp] at hu
    have hclose := hr.kind (Pool.kind_of_retiring hu) (by decide) (by decide)
    refine hsel (.inl ⟨u, rest, hc ▸ hcl, ?_⟩)
    rw [Pool.retiring, ← hr.started ht hclose]
    exact hu
  have hsel' : ¬ s'.selected user := by
    rintro (h' | ⟨u, t', rest, hcl, hmem⟩)
    · exact hret h'
    · exact hsel (.inr ⟨u, t', rest, hc ▸ hcl, hmem⟩)
  constructor
  · exact fun h' => absurd h' hret
  · intro _
    rw [hl]
    exact .inl fun h' => by cases h'
  · rw [hl, hcalled]
    exact fun last h' => h'
  · exact fun h' => absurd h' hsel'

/-- The loop turns to a user. -/
theorem Tended.close (hw : s.Watched user) (hno : ∀ t, (s.users user).kind t ≠ some .close)
    (hb : ¬ (s.users user).Busy) (hs : (s.users user).Turned t p) (hp : s'.users user = p)
    (hc : s'.cleanup = .closing user t rest) (hl : s'.last_active user = none)
    (hstale : ∃ last, s'.called user = some last ∧ last + idle_timeout < s'.now) :
    s'.Tended idle_timeout user := by
  have hb' : ¬ p.Busy := by
    rintro ⟨u, hu⟩
    rcases hs.kinds u _ hu (by decide) with h' | ⟨-, h'⟩
    · exact hb ⟨u, h'⟩
    · cases h'
  have hret : p.retiring t = true → s'.retiring user := by
    intro h
    refine ⟨t, rest, hc, ?_⟩
    rw [hp]
    exact h
  constructor
  · rw [hp]
    exact fun _ => ⟨hs.guardians, hb'⟩
  · rw [hp]
    rintro (hcl | hbusy | ⟨g, hg⟩)
    · exact .inr (hret (hs.taken.resolve_right hcl))
    · exact absurd hbusy hb'
    · refine .inr (hret ?_)
      rcases hs.kinds g _ hg (by decide) with h' | ⟨-, h'⟩
      · rcases hw.guardians g h' with hcur | ⟨u, hu⟩
        · rw [Pool.retiring, hs.joined g hcur hg]
          rfl
        · exact absurd (Pool.kind_of_pc hu) (hno u)
      · cases h'
  · rw [hl]
    exact fun last h' => by cases h'
  · exact fun _ => hstale

/-- The loop turns to another user. -/
theorem Tended.other (h : s.Tended idle_timeout user)
    (hno : ∀ t, (s.users user).kind t ≠ some .close) (hp : s'.users user = s.users user)
    (hl : s'.last_active user = s.last_active user) (hcalled : s'.called user = s.called user)
    (hret : ¬ s'.retiring user)
    (hstale : s'.selected user → ∃ last, s'.called user = some last ∧
      last + idle_timeout < s'.now) : s'.Tended idle_timeout user := by
  have hnot : ¬ s.retiring user := by
    rintro ⟨t, rest, -, ht⟩
    exact hno t (Pool.kind_of_retiring ht)
  constructor
  · exact fun h' => absurd h' hret
  · rw [hp, hl]
    exact fun hlive => .inl ((h.live hlive).resolve_right hnot)
  · rw [hl, hcalled]
    exact h.stamps
  · exact hstale

theorem close_next_tended (h : ∀ user, s.Tended idle_timeout user) (hw : ∀ user, s.Watched user)
    (hno : ∀ user t, (s.users user).kind t ≠ some .close)
    (hstale : ∀ user ∈ idle_users, ∃ last, s.called user = some last ∧ last + idle_timeout < s.now)
    (hb : ∀ user rest, idle_users = user :: rest → ¬ (s.users user).Busy)
    (hs : s.close_next t idle_users = some s') (user : String) : s'.Tended idle_timeout user := by
  cases idle_users with
  | nil =>
    cases hs
    have hcl : ∀ u t' rest, (if s.shutting_down then Cleanup.finished else .asleep) ≠
        .closing u t' rest := by
      intro u t' rest
      split <;> exact fun h => by cases h
    refine (h user).other (hno user) rfl rfl rfl ?_ ?_
    · rintro ⟨t', rest, hc, -⟩
      exact hcl _ _ _ hc
    · rintro (⟨t', rest, hc, -⟩ | ⟨u, t', rest, hc, -⟩)
      · exact absurd hc (hcl _ _ _)
      · exact absurd hc (hcl _ _ _)
  | cons u rest =>
    rw [Manager.close_next, Option.map_eq_some_iff] at hs
    obtain ⟨p, hp, rfl⟩ := hs
    by_cases hu : user = u
    · subst hu
      exact Tended.close (hw user) (hno user) (hb user rest rfl) (Pool.step_turned hp) set_user_self
        rfl (Function.update_self ..) (hstale user List.mem_cons_self)
    · refine (h user).other (hno user) (set_user_other hu) (Function.update_of_ne hu ..) rfl ?_ ?_
      · rintro ⟨t', rest', hc, -⟩
        cases hc
        exact hu rfl
      · rintro (⟨t', rest', hc, -⟩ | ⟨v, t', rest', hc, hmem⟩)
        · cases hc
          exact absurd rfl hu
        · cases hc
          exact hstale user (List.mem_cons_of_mem _ hmem)

/-- What a pass selects is stale. -/
theorem Tended.idle (h : s.Tended idle_timeout user) (hi : s.idle idle_timeout user = true) :
    ∃ last, s.called user = some last ∧ last + idle_timeout < s.now := by
  rw [Manager.idle] at hi
  split at hi
  · rename_i last hlast
    rw [Bool.and_eq_true, decide_eq_true_eq] at hi
    exact ⟨last, h.stamps last hlast, hi.1⟩
  · cases hi

theorem step_tended (h : ∀ user, s.Tended idle_timeout user) (hw : ∀ user, s.Watched user)
    (hc : s.Settled a) (hs : s.step idle_timeout a = some s') (user : String) :
    s'.Tended idle_timeout user := by
  cases step_advances hs with
  | tick => exact (h user).same rfl rfl rfl rfl (Nat.le_succ _)
  | send_message u t key info p hp =>
    by_cases hu : user = u
    · subst hu
      obtain ⟨ht, hran⟩ := Pool.send_ran hp
      exact Tended.called hc ht hran set_user_self (Function.update_self ..)
        (Function.update_self ..) rfl
    · exact (h user).same (set_user_other hu) (Function.update_of_ne hu ..)
        (Function.update_of_ne hu ..) rfl (le_refl _)
  | task u b p hb hp =>
    by_cases hu : user = u
    · subst hu
      exact (h user).task (hw user) hb hp
    · exact (h user).same (set_user_other hu) rfl rfl rfl (le_refl _)
  | stops t idle_users hcl =>
    refine (h user).other (no_close_asleep hw hcl user) rfl rfl rfl ?_ ?_
    · rintro ⟨t', rest, hc', -⟩
      cases hc'
    · rintro (⟨t', rest, hc', -⟩ | ⟨u, t', rest, hc', -⟩) <;> cases hc'
  | wakes t idle_users r hcl hidle hr =>
    refine close_next_tended h hw (no_close_asleep hw hcl)
      (fun v hv => (h v).idle (hidle v hv)) ?_ hr user
    rintro v rest rfl
    exact hc
  | next t u d rest r hcl hdone hr =>
    refine close_next_tended h hw (no_close_done hw hcl hdone) ?_ ?_ hr user
    · exact fun v hv => (h v).stale (.inr ⟨u, d, rest, hcl, hv⟩)
    · rintro v rest' rfl
      exact hc u d v rest' hcl

theorem tended_initial (h : Initial s) (user : String) : s.Tended idle_timeout user := by
  cases h
  constructor
  · rintro ⟨t, rest, h, -⟩
    cases h
  · rintro (h | ⟨t, h⟩ | ⟨t, h⟩)
    · exact absurd rfl h
    · cases h
    · cases h
  · exact fun last h => by cases h
  · rintro (⟨t, rest, h, -⟩ | ⟨u, t, rest, h, -⟩) <;> cases h

/-- The last call of a user, wherever it is known to be stale. -/
theorem unused_of_stale (hb : ¬ (s.users user).Busy)
    (h : ∃ last, s.called user = some last ∧ last + idle_timeout < s.now) :
    s.Unused idle_timeout user := by
  obtain ⟨last, hlast, hlt⟩ := h
  refine ⟨hb, fun last' hlast' => ?_⟩
  rw [hlast] at hlast'
  cases hlast'
  exact hlt

/-- Only the `close_connection` of the pass takes a client. -/
theorem Tended.unused (h : s.Tended idle_timeout user) (hw : s.Watched user) (hb : a.begins = none)
    (hs : (s.users user).run down a = some p) (hbefore : (s.users user).clients ≠ none)
    (hafter : p.clients = none) : s.Unused idle_timeout user := by
  have htaken : ∀ t, (s.users user).retiring t = true → s.Unused idle_timeout user := by
    intro t ht
    obtain ⟨rest, hc⟩ := hw.closes t (Pool.kind_of_retiring ht)
    have hret : s.retiring user := ⟨t, rest, hc, ht⟩
    exact unused_of_stale (h.calm hret).2 (h.stale (.inl hret))
  cases Pool.run_moves hs with
  | world _ _ hc => exact absurd (hc ▸ hafter) hbefore
  | begins t k hbegins => rw [hb] at hbegins; cases hbegins
  | runs t k _ _ _ _ hran => exact absurd (hran.clients ▸ hafter) hbefore
  | closed t _ _ _ hran => exact absurd (hran.clients ▸ hafter) hbefore
  | closes t hbegins => rw [hb] at hbegins; cases hbegins
  | joins t g hbegins => rw [hb] at hbegins; cases hbegins
  | joined t g _ ht =>
    apply htaken t
    rw [Pool.retiring, ht]
    rfl
  | enters t l _ ht =>
    apply htaken t
    rw [Pool.retiring, ht]
    rfl
  | reconnects t g l info b _ _ hr => exact absurd hafter hr.clients
  | installs t g l caller b _ _ _ _ hc => exact absurd hafter hc

theorem close_next_unused (hb : ∀ user rest, idle_users = user :: rest → ¬ (s.users user).Busy)
    (hstale : ∀ user ∈ idle_users, ∃ last, s.called user = some last ∧ last + idle_timeout < s.now)
    (hs : s.close_next t idle_users = some s') (hbefore : (s.users user).clients ≠ none)
    (hafter : (s'.users user).clients = none) : s.Unused idle_timeout user := by
  cases idle_users with
  | nil =>
    cases hs
    exact absurd hafter hbefore
  | cons u rest =>
    by_cases hu : user = u
    · subst hu
      exact unused_of_stale (hb user rest rfl) (hstale user List.mem_cons_self)
    · rw [close_next, Option.map_eq_some_iff] at hs
      obtain ⟨p, hp, rfl⟩ := hs
      exact absurd (set_user_other hu ▸ hafter) hbefore

/-- A step takes a client only from a user that does not use it. -/
theorem step_unused (h : ∀ user, s.Tended idle_timeout user) (hw : ∀ user, s.Watched user)
    (hc : s.Settled a) (hs : s.step idle_timeout a = some s')
    (hbefore : (s.users user).clients ≠ none) (hafter : (s'.users user).clients = none) :
    s.Unused idle_timeout user := by
  cases step_advances hs with
  | tick => exact absurd hafter hbefore
  | send_message u t key info p hp =>
    by_cases hu : user = u
    · subst hu
      have hclients : p.clients = none := by
        rw [← hafter]
        exact congrArg Pool.clients set_user_self.symm
      exact absurd ((Pool.send_ran hp).2.clients ▸ hclients) hbefore
    · have hother : (s.users user).clients = none := by
        rw [← hafter]
        exact congrArg Pool.clients (set_user_other hu).symm
      exact absurd hother hbefore
  | task u b p hb hp =>
    by_cases hu : user = u
    · subst hu
      rw [set_user_self] at hafter
      exact (h user).unused (hw user) hb hp hbefore hafter
    · rw [set_user_other hu] at hafter
      exact absurd hafter hbefore
  | stops t idle_users hcl => exact absurd hafter hbefore
  | wakes t idle_users r hcl hidle hr =>
    refine close_next_unused ?_ (fun v hv => (h v).idle (hidle v hv)) hr hbefore hafter
    rintro v rest rfl
    exact hc
  | next t u d rest r hcl hdone hr =>
    refine close_next_unused ?_ ?_ hr hbefore hafter
    · rintro v rest' rfl
      exact hc u d v rest' hcl
    · exact fun v hv => (h v).stale (.inr ⟨u, d, rest, hcl, hv⟩)

/-- The loop takes the client of a user, in a step to `s'`, only when the user does not use it; and
no user with a client escapes the later passes. -/
structure CleansIdle (idle_timeout : Nat) (s : Manager) : Prop where
  closes : ∀ a s' user, s.Settled a → s.step idle_timeout a = some s' →
    (s.users user).clients ≠ none → (s'.users user).clients = none → s.Unused idle_timeout user
  tracked : s.Tracked

theorem Settled.keeps (h : s.Settled a) (user : String) (b : Pool.Act) (ha : a = .task user b) :
    KeepsGuardian (s.users user) b := by
  subst ha
  exact h

/-- As long as the users of a pass are settled when their turns come. -/
theorem cleanup_idle_only (h : Reach (step idle_timeout) Settled Initial s) :
    s.CleansIdle idle_timeout := by
  have hi : (∀ user, s.Watched user) ∧ ∀ user, s.Tended idle_timeout user := by
    refine h.invariant (I := fun s => (∀ user, s.Watched user) ∧ ∀ user, s.Tended idle_timeout user)
      ?_ ?_
    · intro s hs
      exact ⟨fun user => watched_initial (by rw [hs]), tended_initial hs⟩
    · rintro s a s' ⟨hw, ht⟩ hc hs
      exact ⟨step_watched hw hc.keeps hs, step_tended ht hw hc hs⟩
  refine ⟨fun a s' user hc hs => step_unused hi.2 hi.1 hc hs, ?_⟩
  intro user hclients
  exact (hi.2 user).live (.inl hclients)

def office : InstanceInfo := ⟨"ws://a", ⟨"d", "p", "s", "t", "g"⟩⟩

/-- One message, answered at once. -/
def answered_once : List Act :=
  [.send_message "a" 0 "k" office, .task "a" (.connected 0 1 true), .task "a" (.emit 0),
    .task "a" (.answered 0)]

/-- Two ticks later the connection is closed. -/
def closed_idle : List Act :=
  answered_once ++ [.tick, .tick, .wake 2 ["a"], .task "a" (.unwind 1), .task "a" (.joined 2),
    .task "a" (.closed 2), .next 3]

theorem meets_closed_idle : Meets (step 1) Settled {} closed_idle := by
  refine ⟨?_, ?_, trivial, trivial, trivial, trivial, ?_, trivial, trivial, trivial, ?_, trivial⟩
  · rintro (⟨t, rest, h, -⟩ | ⟨u, t, rest, h, -⟩) <;> cases h
  · intro e l info b he
    cases he
  · rintro ⟨t, ht⟩
    rcases t with _ | _ | t <;> cases ht
  · intro u t user rest h
    cases h

theorem cleanup_idle_only_closed : ∃ s, exec (step 1) {} closed_idle = some s ∧
    (s.users "a").clients = none ∧ s.CleansIdle 1 := by
  have h : ((exec (step 1) {} closed_idle).any fun s => (s.users "a").clients.isNone) = true := by
    decide
  obtain ⟨s, hs, hc⟩ := (Option.any_eq_true _ _).mp h
  have hi : Initial {} := rfl
  exact ⟨s, hs, Option.isNone_iff_eq_none.mp hc,
    cleanup_idle_only ((Reach.start hi).exec meets_closed_idle hs)⟩

/-- The answer takes longer than the timeout. -/
def busy : List Act :=
  [.send_message "a" 0 "k" office, .task "a" (.connected 0 1 true), .task "a" (.emit 0), .tick,
    .tick, .wake 2 ["a"], .task "a" (.unwind 1)]

/-- The send fails and reconnects after the pass. -/
def reconnects : List Act :=
  busy ++ [.task "a" (.joined 2), .task "a" (.closed 2), .next 3, .task "a" (.raised 0),
    .task "a" (.closed 0), .task "a" (.connected 0 4 true)]

/-- The loop closes the connection of a running send, whose retry makes one without an entry. -/
theorem not_cleanup_idle_only :
    (∃ s s', Reach (step 1) Any Initial s ∧ s.step 1 (.task "a" (.joined 2)) = some s' ∧
      (s.users "a").clients ≠ none ∧ (s'.users "a").clients = none ∧ (s.users "a").Busy) ∧
    ∃ s, Reach (step 1) Any Initial s ∧ ¬ s.Tracked := by
  constructor
  · have h : ((exec (step 1) {} busy).any fun s => (s.step 1 (.task "a" (.joined 2))).any fun s' =>
        (s.users "a").clients.isSome && (s'.users "a").clients.isNone &&
          decide ((s.users "a").kind 0 = some .send)) = true := by
      decide
    obtain ⟨s, hs, h⟩ := (Option.any_eq_true _ _).mp h
    obtain ⟨s', hs', h⟩ := (Option.any_eq_true _ _).mp h
    rw [Bool.and_eq_true, Bool.and_eq_true, decide_eq_true_eq] at h
    obtain ⟨⟨hbefore, hafter⟩, hbusy⟩ := h
    exact ⟨s, s', reach_of_exec rfl hs, hs', Option.isSome_iff_ne_none.mp hbefore,
      Option.isNone_iff_eq_none.mp hafter, 0, hbusy⟩
  · have h : ((exec (step 1) {} reconnects).any fun s => (s.users "a").clients.isSome &&
        (s.last_active "a").isNone && s.cleanup.user.isNone) = true := by
      decide
    obtain ⟨s, hs, h⟩ := (Option.any_eq_true _ _).mp h
    rw [Bool.and_eq_true, Bool.and_eq_true] at h
    obtain ⟨⟨hc, hl⟩, hu⟩ := h
    refine ⟨s, reach_of_exec rfl hs, fun ht => ?_⟩
    rcases ht "a" (Option.isSome_iff_ne_none.mp hc) with h | ⟨t, rest, h, -⟩
    · exact h (Option.isNone_iff_eq_none.mp hl)
    · rw [h] at hu
      cases hu

end Manager

end ClawMux
