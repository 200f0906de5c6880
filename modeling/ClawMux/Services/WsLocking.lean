import ClawMux.Services.WsSteps

namespace ClawMux
set_option autoImplicit true
open Lib

/-- The per-user lock that a suspended task holds. -/
def Pc.holds : Pc → Option Nat
  | .closing l _ _ | .connecting l _ | .aborting l => some l
  | _ => none

def Pc.waits : Pc → Option Nat
  | .lock_wait l _ => some l
  | _ => none

namespace Pool

def holds (s : Pool) (t : Nat) : Option Nat := (s.pc t).bind Pc.holds

def waits (s : Pool) (t : Nat) : Option Nat := (s.pc t).bind Pc.waits

theorem goto_holds (s : Pool) : (s.goto t p).holds = Function.update s.holds t p.holds := by
  funext u
  by_cases hu : u = t
  · subst hu
    simp [holds, goto]
  · simp [holds, goto, hu]

theorem goto_waits (s : Pool) : (s.goto t p).waits = Function.update s.waits t p.waits := by
  funext u
  by_cases hu : u = t
  · subst hu
    simp [waits, goto]
  · simp [waits, goto, hu]

theorem close_listening {s : Pool} (h : (s.close c).listening d = true) :
    d ≠ c ∧ s.listening d = true := by
  by_cases hd : d = c
  · subst hd
    simp only [close, set_client, listening, Function.update_self] at h
    cases ho : s.objects d <;> simp [ho] at h
  · simp only [close, set_client, listening, Function.update_of_ne hd] at h
    exact ⟨hd, h⟩

theorem set_client_listening {s : Pool} {f : Client → Client}
    (hf : ∀ o, (f o).listening = o.listening) : (s.set_client c f).listening d = s.listening d := by
  by_cases hd : d = c
  · subst hd
    simp only [set_client, listening, Function.update_self]
    cases s.objects d <;> simp [hf]
  · simp only [set_client, listening, Function.update_of_ne hd]

theorem is_connected_listening {s : Pool} (h : s.is_connected c = true) : s.listening c = true := by
  unfold is_connected at h
  unfold listening
  cases ho : s.objects c with
  | none => simp [ho] at h
  | some o =>
    simp only [ho, Client.is_connected, Bool.and_eq_true] at h
    exact h.2

/-- While a task is in the section nobody listens, and only the stored client ever does. -/
structure Inv (s : Pool) : Prop where
  locks : s.locks.Ok s.holds s.waits
  quiet : ∀ t l, s.holds t = some l → ∀ c, s.listening c = false
  stored : ∀ c, s.listening c = true → s.clients = some c

/-- The invariant inside a step of task `t`, which has lock `x` and will be suspended anew. -/
structure Running (s : Pool) (t : Nat) (x : Option Nat) : Prop where
  locks : s.locks.Ok (Function.update s.holds t x) (Function.update s.waits t none)
  quiet : ∀ u l, u ≠ t → s.holds u = some l → ∀ c, s.listening c = false
  stored : ∀ c, s.listening c = true → s.clients = some c

theorem Inv.running {s : Pool} (h : s.Inv) (hx : s.holds t = x) (hw : s.waits t = none) :
    s.Running t x := by
  refine ⟨?_, fun u l _ hu => h.quiet u l hu, h.stored⟩
  rw [← hx, ← hw, Function.update_eq_self, Function.update_eq_self]
  exact h.locks

theorem Running.suspend {s : Pool} (h : s.Running t none) (hh : p.holds = none)
    (hw : p.waits = none) : (s.goto t p).Inv := by
  refine ⟨?_, ?_, h.stored⟩
  · rw [goto_holds, goto_waits, hh, hw]
    exact h.locks
  · intro u l hu
    rw [goto_holds, hh] at hu
    by_cases he : u = t
    · subst he
      rw [Function.update_self] at hu
      cases hu
    · rw [Function.update_of_ne he] at hu
      exact h.quiet u l he hu

/-- A task is suspended inside the section only when nobody listens. -/
theorem Running.suspend_inside {s : Pool} (h : s.Running t (some l)) (hh : p.holds = some l)
    (hw : p.waits = none) (hq : ∀ c, s.listening c = false) : (s.goto t p).Inv := by
  refine ⟨?_, fun _ _ _ => hq, h.stored⟩
  rw [goto_holds, goto_waits, hh, hw]
  exact h.locks

theorem Running.wait {s : Pool} (h : s.Running t none) (hs : s.locks.slot = some l)
    (hw : p.waits = some l) (hh : p.holds = none) :
    ({ s with locks := s.locks.enqueue l t }.goto t p).Inv := by
  have hfree : ∀ m, ¬ LockSlot.Uses (Function.update s.holds t none)
      (Function.update s.waits t none) t m := by
    intro m hm
    simp [LockSlot.Uses] at hm
  refine ⟨?_, ?_, h.stored⟩
  · rw [goto_holds, goto_waits, hh, hw]
    have := h.locks.enqueue hs hfree
    rwa [Function.update_idem, Function.update_idem] at this
  · intro u m hu
    rw [goto_holds, hh] at hu
    by_cases he : u = t
    · subst he
      rw [Function.update_self] at hu
      cases hu
    · rw [Function.update_of_ne he] at hu
      exact h.quiet u m he hu

theorem Running.take {s : Pool} (h : s.Running t none) (hs : s.locks.slot = some l)
    (hf : (s.locks.heap l).free = true) :
    Running { s with locks := s.locks.take l t } t (some l) := by
  have hfree : ∀ m, ¬ LockSlot.Uses (Function.update s.holds t none)
      (Function.update s.waits t none) t m := by
    intro m hm
    simp [LockSlot.Uses] at hm
  refine ⟨?_, h.quiet, h.stored⟩
  have := h.locks.take hs ((FifoLock.free_iff _).mp hf).1 hfree
  rwa [Function.update_idem, Function.update_idem] at this

theorem Running.release {s : Pool} (h : s.Running t (some l)) : (s.release l).Running t none := by
  refine ⟨?_, h.quiet, h.stored⟩
  have := h.locks.release (t := t) (l := l) (Function.update_self ..) (Function.update_self ..)
  rwa [Function.update_idem, Function.update_idem] at this

/-- The running task changes the clients, but wakes no listen loop. -/
theorem Running.clients {s s' : Pool} (h : s.Running t x) (hl : s'.locks = s.locks)
    (hp : s'.pc = s.pc) (hq : ∀ c, s'.listening c = true → s.listening c = true)
    (hs : ∀ c, s'.listening c = true → s'.clients = some c) : s'.Running t x := by
  have hh : s'.holds = s.holds := by funext u; simp only [holds, hp]
  have hw : s'.waits = s.waits := by funext u; simp only [waits, hp]
  refine ⟨?_, ?_, hs⟩
  · rw [hl, hh, hw]
    exact h.locks
  · intro u l hu hl c
    rw [hh] at hl
    cases hc : s'.listening c with
    | false => rfl
    | true => exact absurd ((h.quiet u l hu hl c).symm.trans (hq c hc)) (by simp)

theorem Running.close {s : Pool} (h : s.Running t x) (c : Nat) : (s.close c).Running t x :=
  h.clients rfl rfl (fun _ hd => (close_listening hd).2) fun d hd =>
    h.stored d (close_listening hd).2

theorem Running.set_client {s : Pool} {f : Client → Client} (h : s.Running t x)
    (hf : ∀ o, (f o).listening = o.listening) : (s.set_client c f).Running t x :=
  h.clients rfl rfl (fun _ hd => set_client_listening hf ▸ hd) fun d hd =>
    h.stored d (set_client_listening hf ▸ hd)

/-- Only the stored client listens, so closing it makes all quiet. -/
theorem Running.close_stored {s : Pool} (h : s.Running t x) (hc : s.clients = some c) (d : Nat) :
    (s.close c).listening d = false := by
  cases hd : (s.close c).listening d with
  | false => rfl
  | true =>
    obtain ⟨hne, hl⟩ := close_listening hd
    exact absurd (Option.some.inj ((h.stored d hl).symm.trans hc)) hne

theorem Running.quiet_none {s : Pool} (h : s.Running t x) (hc : s.clients = none) (d : Nat) :
    s.listening d = false := by
  cases hd : s.listening d with
  | false => rfl
  | true =>
    have hnone := (h.stored d hd).symm.trans hc
    cases hnone

theorem Running.finish {s : Pool} (h : s.Running t none) (x : Send) : (s.finish t x).Inv :=
  Running.suspend (s := { s with send_locks := s.send_locks.release x.send_lock })
    ⟨h.locks, h.quiet, h.stored⟩ rfl rfl

theorem Running.fail {s : Pool} (h : s.Running t none) (x : Send) (c : Nat) :
    (s.fail t x c).Inv := by
  unfold Pool.fail
  split
  · exact h.finish x
  · exact (h.close c).suspend rfl rfl

theorem Running.return_client {s : Pool} (h : s.Running t none) (c : Nat) (caller : Caller) :
    (s.return_client t c caller).Inv := by
  cases caller with
  | direct info => exact h.suspend rfl rfl
  | send x =>
    simp only [Pool.return_client]
    split
    · exact h.fail x c
    · split
      · exact h.fail x c
      · split
        · exact (h.set_client (by simp)).suspend rfl rfl
        · exact (h.set_client (by simp)).suspend rfl rfl

theorem Running.enter {s : Pool} (h : s.Running t (some l)) (job : Job) :
    (s.enter t l job).Inv := by
  cases job with
  | get_or_create caller =>
    simp only [Pool.enter]
    split
    · rename_i c hc
      split
      · exact h.release.return_client c caller
      · exact (h.close c).suspend_inside rfl rfl (h.close_stored hc)
    · rename_i hc
      exact h.suspend_inside rfl rfl (h.quiet_none hc)
  | reconnect info =>
    simp only [Pool.enter]
    split
    · rename_i c hc
      exact (h.close c).suspend_inside rfl rfl (h.close_stored hc)
    · rename_i hc
      exact h.suspend_inside rfl rfl (h.quiet_none hc)
  | close_connection =>
    simp only [Pool.enter]
    split
    · rename_i c hc
      have hq := h.close_stored hc
      refine Running.suspend_inside (h.clients rfl rfl ?_ ?_) rfl rfl hq
      · exact fun _ hd => (close_listening hd).2
      · exact fun d hd => absurd ((hq d).symm.trans hd) (by simp)
    · rename_i hc
      have hr : Running
          { s with user_info := none, locks := s.locks.pop, send_locks := s.send_locks.pop } t
          (some l) := ⟨h.locks.pop, h.quiet, h.stored⟩
      exact hr.release.suspend rfl rfl

theorem Running.acquire {s : Pool} (h : s.Running t none)
    (hc : s.locks.slot = none → ∀ u l, u ≠ t → ¬ LockSlot.Uses s.holds s.waits u l) (job : Job) :
    (s.acquire t job).Inv := by
  have hget := h.locks.get (by
    intro hn u l hu
    rcases LockSlot.uses_update hu with ⟨-, hm | hm⟩ | ⟨hne, hm⟩
    · cases hm
    · cases hm
    · exact hc hn u l hne hm)
  have hr : Running { s with locks := s.locks.get.1 } t none := ⟨hget.1, h.quiet, h.stored⟩
  unfold Pool.acquire
  dsimp only
  split
  · rename_i hf
    exact (hr.take hget.2 hf).enter job
  · exact hr.wait hget.2 rfl rfl

theorem Running.guardian_loop {s : Pool} (h : s.Running t none) : (s.guardian_loop t).Inv := by
  unfold Pool.guardian_loop
  split
  · exact h.suspend rfl rfl
  · split
    · exact h.suspend rfl rfl
    · exact h.suspend rfl rfl

/-- What another task holds and awaits may change while `t` runs. -/
theorem Running.other {s : Pool} (h : s.Running t x) (hg : g ≠ t) (ls : LockSlot Nat)
    (hl : ls.Ok (Function.update (Function.update s.holds t x) g p.holds)
      (Function.update (Function.update s.waits t none) g p.waits))
    (hh : p.holds = s.holds g ∨ p.holds = none) :
    Running ({ s with locks := ls }.goto g p) t x := by
  refine ⟨?_, ?_, h.stored⟩
  · rw [goto_holds, goto_waits, Function.update_comm hg, Function.update_comm hg]
    exact hl
  · intro u l hu hul
    rw [goto_holds] at hul
    by_cases he : u = g
    · subst he
      rw [Function.update_self] at hul
      rcases hh with hh | hh
      · exact h.quiet u l hu (hh ▸ hul)
      · rw [hh] at hul
        cases hul
    · rw [Function.update_of_ne he] at hul
      exact h.quiet u l hu hul

theorem Running.other_same {s : Pool} (h : s.Running t x) (hg : g ≠ t)
    (hh : p.holds = s.holds g) (hw : p.waits = s.waits g) : (s.goto g p).Running t x := by
  refine h.other hg s.locks ?_ (.inl hh)
  rw [hh, hw, ← Function.update_of_ne hg x s.holds, ← Function.update_of_ne hg none s.waits,
    Function.update_eq_self, Function.update_eq_self]
  exact h.locks

theorem Running.cancel_other {s : Pool} (h : s.Running t x) (hg : g ≠ t) :
    (s.cancel g).Running t x := by
  have hold : ∀ {p : Pc}, s.pc g = some p → s.holds g = p.holds := fun hp => by simp [holds, hp]
  have hwait : ∀ {p : Pc}, s.pc g = some p → s.waits g = p.waits := fun hp => by simp [waits, hp]
  have hsame : ∀ {p q : Pc}, s.pc g = some p → q.holds = p.holds → q.waits = p.waits →
      (s.goto g q).Running t x := fun hp hh hw =>
    h.other_same hg (hh.trans (hold hp).symm) (hw.trans (hwait hp).symm)
  unfold Pool.cancel
  split
  · rename_i l job hp
    refine h.other hg _ (h.locks.withdraw ?_ ?_) (.inr rfl)
    · rw [Function.update_of_ne hg, hwait hp]
      rfl
    · rw [Function.update_of_ne hg, hold hp]
      rfl
  · rename_i hp
    exact hsame hp rfl rfl
  · rename_i hp
    exact hsame hp rfl rfl
  · rename_i hp
    exact hsame hp rfl rfl
  · rename_i hp
    exact hsame hp rfl rfl
  · rename_i hp
    exact hsame hp rfl rfl
  · rename_i hp
    exact hsame hp rfl rfl
  · exact h

theorem Running.cancel {s : Pool} (h : s.Running t x) (hp : s.pc t = some (.connecting l job))
    (g : Nat) : (s.cancel g).Running t x := by
  by_cases hg : g = t
  · subst hg
    cases job with
    | get_or_create caller => simpa only [Pool.cancel, hp] using h
    | close_connection => simpa only [Pool.cancel, hp] using h
    | reconnect info =>
      simp only [Pool.cancel, hp]
      refine ⟨?_, ?_, h.stored⟩
      · rw [goto_holds, goto_waits, Function.update_idem, Function.update_idem]
        exact h.locks
      · intro u m hu hum
        rw [goto_holds, Function.update_of_ne hu] at hum
        exact h.quiet u m hu hum
  · exact h.cancel_other hg

theorem cancel_pc_none {s : Pool} (h : s.pc g = none) (e : Nat) : (s.cancel e).pc g = none := by
  have hgoto : ∀ {s : Pool} {p q : Pc}, s.pc g = none → s.pc e = some q →
      (s.goto e p).pc g = none := by
    intro s p q hg he
    have hne : g ≠ e := fun heq => by simp [heq ▸ hg] at he
    simpa only [goto, Function.update_of_ne hne] using hg
  unfold Pool.cancel
  split <;> first | exact hgoto h ‹_› | exact h

theorem Running.start_guardian {s : Pool} (h : s.Running t x)
    (hp : s.pc t = some (.connecting l job)) (hg : s.pc g = none) :
    (s.start_guardian g).Running t x := by
  have hgt : g ≠ t := fun he => by simp [he ▸ hg] at hp
  have hstart : ∀ {s : Pool}, s.Running t x → s.pc g = none →
      ({ s with guardian_tasks := some g }.goto g .guard_new).Running t x := by
    intro s h hg
    have hr : Running { s with guardian_tasks := some g } t x := ⟨h.locks, h.quiet, h.stored⟩
    refine hr.other_same hgt ?_ ?_
    · simp [holds, hg, Pc.holds]
    · simp [waits, hg, Pc.waits]
  unfold Pool.start_guardian
  dsimp only
  split
  · exact hstart (h.cancel hp _) (cancel_pc_none hg _)
  · exact hstart h hg

/-- The holder of the lock may install a listening client, because nobody else listens. -/
theorem Running.new_client {s s' : Pool} (h : s.Running t (some l))
    (hq : ∀ c, s.listening c = false) (hl : s'.locks = s.locks) (hp : s'.pc = s.pc)
    (ho : ∀ d, d ≠ c → s'.listening d = s.listening d) (hc : s'.clients = some c) :
    s'.Running t (some l) := by
  have hh : s'.holds = s.holds := by funext u; simp only [holds, hp]
  have hw : s'.waits = s.waits := by funext u; simp only [waits, hp]
  refine ⟨?_, ?_, ?_⟩
  · rw [hl, hh, hw]
    exact h.locks
  · intro u m hu hm
    rw [hh] at hm
    have he := h.locks.exclusive (t := u) (u := t) (l := m) (m := l)
      (by rw [Function.update_of_ne hu]; exact hm) (Function.update_self ..)
    exact absurd he hu
  · intro d hd
    by_cases he : d = c
    · rw [hc, he]
    · rw [ho d he, hq d] at hd
      cases hd

theorem Running.install {s s' : Pool} (h : s.Running t (some l))
    (hq : ∀ c, s.listening c = false) (hp : s.pc t = some (.connecting l job))
    (hg : s.pc g = none) (hi : s.install t l g is_open job = some s') : s'.Inv := by
  have ho : ∀ (info : InstanceInfo) (d : Nat), d ≠ s.next_object →
      listening { s with
        objects := Function.update s.objects s.next_object (some ⟨info, is_open, true, {}⟩) } d =
        s.listening d := by
    intro info d hd
    simp only [listening, Function.update_of_ne hd]
  cases job with
  | get_or_create caller =>
    cases hi
    have hn : Running
        { s with
          objects := Function.update s.objects s.next_object (some ⟨caller.info, is_open, true, {}⟩)
          next_object := s.next_object + 1
          clients := some s.next_object
          user_info := some caller.info } t (some l) :=
      h.new_client hq rfl rfl (ho caller.info) rfl
    exact (hn.start_guardian hp hg).release.return_client _ caller
  | reconnect info =>
    cases hi
    have hn : Running
        { s with
          objects := Function.update s.objects s.next_object (some ⟨info, is_open, true, {}⟩)
          next_object := s.next_object + 1
          clients := some s.next_object } t (some l) :=
      h.new_client hq rfl rfl (ho info) rfl
    exact hn.release.guardian_loop
  | close_connection => cases hi

/-- The steps that call `_get_lock`. -/
def gets_lock (s : Pool) : Act → Bool
  | .get_or_create _ _ | .send_granted _ | .joined _ => true
  | .send_message _ _ _ => (s.send_locks.get.1.heap s.send_locks.get.2).free
  | .close_connection _ =>
    match s.guardian_tasks.bind s.pc with
    | none | some .done => true
    | some _ => false
  | .closed t =>
    match s.pc t with
    | some (.send_closing _) => true
    | _ => false
  | .guardian_runs t =>
    match s.pc t with
    | some .guard_sleep => s.user_info.isSome
    | _ => false
  | _ => false

/-- A lock is made only while no task holds or awaits the one that was removed. -/
def Retired (s : Pool) (a : Act) : Prop :=
  s.locks.slot = none → s.gets_lock a = true → ∀ u l, ¬ LockSlot.Uses s.holds s.waits u l

theorem Inv.begin {s : Pool} (h : s.Inv) (ht : s.pc t = none) : s.Running t none :=
  h.running (by simp [holds, ht]) (by simp [waits, ht])

theorem Inv.resume {s : Pool} (h : s.Inv) (ht : s.pc t = some p) (hw : p.waits = none) :
    s.Running t p.holds :=
  h.running (by simp [holds, ht]) (by simp [waits, ht, hw])

/-- A change that touches neither the tasks, the locks nor the clients. -/
theorem Running.frame {s s' : Pool} (h : s.Running t x) (hl : s'.locks = s.locks)
    (hp : s'.pc = s.pc) (ho : s'.objects = s.objects) (hc : s'.clients = s.clients) :
    s'.Running t x :=
  h.clients hl hp (fun c hd => by simpa only [listening, ho] using hd)
    fun c hd => hc.trans (h.stored c (by simpa only [listening, ho] using hd))

/-- A close gets the lock when no guardian of its is left to await. -/
theorem gets_lock_close {s : Pool}
    (hg : ∀ g, s.guardian_tasks = some g → s.pc g = none ∨ s.pc g = some .done) :
    s.gets_lock (.close_connection t) = true := by
  rw [gets_lock]
  cases he : s.guardian_tasks with
  | none => rfl
  | some g =>
    rw [Option.bind_some]
    rcases hg g he with hp | hp
    · rw [hp]
    · rw [hp]

theorem step_inv {s s' : Pool} (h : s.Inv) (hc : s.Retired a) (hs : s.step a = some s') :
    s'.Inv := by
  have hnew : ∀ t, s.gets_lock a = true → s.locks.slot = none →
      ∀ u l, u ≠ t → ¬ LockSlot.Uses s.holds s.waits u l :=
    fun t hg hn u l _ => hc hn hg u l
  cases steps_of_step hs with
  | @get_or_create t info ht => exact (h.begin ht).acquire (hnew t rfl) _
  | @send_message t key info ht hk hf =>
    apply Running.acquire
    · exact (h.begin ht).frame rfl rfl rfl rfl
    · exact hnew t hf
  | send_waits ht hk hf =>
    exact Running.suspend (Running.frame (h.begin ht) rfl rfl rfl rfl) rfl rfl
  | @close_connection t ht hg =>
    apply Running.acquire
    · exact (h.begin ht).frame rfl rfl rfl rfl
    · exact hnew t (gets_lock_close hg)
  | @close_joins t g p ht hg hp hd =>
    have hgt : g ≠ t := by
      rintro rfl
      rw [ht] at hp
      cases hp
    exact Running.suspend (Running.cancel_other (Running.frame (h.begin ht) rfl rfl rfl rfl)
      hgt) rfl rfl
  | @send_granted t sl key info ls ht hg =>
    apply Running.acquire
    · exact (h.resume ht rfl).frame rfl rfl rfl rfl
    · exact hnew t rfl
  | @lock_granted t l job ls ht hg =>
    have hr : Running { s with locks := ls } t (some l) :=
      ⟨h.locks.grant hg, fun u m _ => h.quiet u m, h.stored⟩
    exact hr.enter job
  | client_granted ht ho hg => exact ((h.resume ht rfl).set_client (by simp)).suspend rfl rfl
  | @closed t l b ht =>
    have hr := h.resume ht rfl
    have hpop : Running
        { s with locks := s.locks.pop, send_locks := s.send_locks.pop } t (some l) :=
      ⟨hr.locks.pop, hr.quiet, hr.stored⟩
    exact hpop.release.suspend rfl rfl
  | @reopens t l job b ht hj =>
    exact (h.resume ht rfl).suspend_inside rfl rfl (h.quiet t l (by simp [holds, ht, Pc.holds]))
  | @retries t x ht =>
    exact (h.resume ht rfl).acquire (hnew t (by simp [gets_lock, ht])) _
  | @connected t l job g is_open s' ht hg hi =>
    exact (h.resume ht rfl).install (h.quiet t l (by simp [holds, ht, Pc.holds])) ht hg hi
  | connect_failed ht => exact (h.resume ht rfl).release.suspend rfl rfl
  | send_failed ht => exact (h.resume ht rfl).release.finish _
  | reconnect_failed ht => exact (h.resume ht rfl).release.suspend rfl rfl
  | emit ht ho => exact Running.suspend (Running.frame (h.resume ht rfl) rfl rfl rfl rfl) rfl rfl
  | answered ht => exact ((h.resume ht rfl).set_client (by simp)).finish _
  | send_raised ht => exact ((h.resume ht rfl).set_client (by simp)).fail _ _
  | answer_raised ht => exact ((h.resume ht rfl).set_client (by simp)).fail _ _
  | @joined t g ht hg => exact (h.resume ht rfl).acquire (hnew t rfl) _
  | guardian_runs ht => exact (h.resume ht rfl).guardian_loop
  | guardian_retries ht => exact (h.resume ht rfl).guardian_loop
  | guardian_wakes ht hl => exact (h.resume ht rfl).suspend rfl rfl
  | guardian_ends ht hi => exact (h.resume ht rfl).suspend rfl rfl
  | @reconnects t info ht hi =>
    exact (h.resume ht rfl).acquire (hnew t (by simp [gets_lock, ht, hi])) _
  | guardian_timeout ht => exact (h.resume ht rfl).guardian_loop
  | cancelled ht => exact (h.resume ht rfl).suspend rfl rfl
  | aborting ht => exact (h.resume ht rfl).release.suspend rfl rfl
  | close_cancelled ht => exact (h.resume ht rfl).release.suspend rfl rfl
  | @ws_drop c =>
    have hl : ∀ d, (s.set_client c fun o => { o with is_open := false }).listening d =
        s.listening d := fun d => set_client_listening (by simp)
    exact ⟨h.locks, fun t l ht d => (hl d).trans (h.quiet t l ht d),
      fun d hd => h.stored d ((hl d).symm.trans hd)⟩
  | @listen_end c =>
    refine ⟨h.locks, ?_, fun d hd => h.stored d (close_listening hd).2⟩
    intro t l ht d
    cases hd : (s.close c).listening d with
    | false => rfl
    | true => exact absurd ((h.quiet t l ht d).symm.trans (close_listening hd).2) (by simp)

theorem inv_initial {s : Pool} (h : Initial s) : s.Inv := by
  subst h
  refine ⟨⟨?_, ?_, ?_, ?_, ?_⟩, ?_, ?_⟩ <;> simp [LockSlot.Uses, holds, waits, listening]

/-- One task at a time runs the section, one client is connected, and it is the stored one. -/
structure OneLive (s : Pool) : Prop where
  section_exclusive : ∀ t u l m, s.holds t = some l → s.holds u = some m → t = u
  one_connected : ∀ c d, s.is_connected c = true → s.is_connected d = true → c = d
  stored : ∀ c, s.listening c = true → s.clients = some c

theorem Inv.one_live {s : Pool} (h : s.Inv) : s.OneLive := by
  refine ⟨fun t u l m ht hu => h.locks.exclusive ht hu, ?_, h.stored⟩
  intro c d hc hd
  have hc := h.stored c (is_connected_listening hc)
  have hd := h.stored d (is_connected_listening hd)
  exact Option.some.inj (hc.symm.trans hd)

/-- As long as a removed per-user lock is out of use before the next one is made. -/
theorem one_live_connection {s : Pool} (h : Reach step Retired Initial s) : s.OneLive :=
  (h.invariant (fun _ => inv_initial) fun _ _ _ hi hc hs => step_inv hi hc hs).one_live

def home : InstanceInfo := ⟨"ws://a", ⟨"d", "p", "s", "t", "g"⟩⟩

/-- A connection, its loss, the guardian's reconnect, and a `close_connection`. -/
def renewed : List Act :=
  [.get_or_create 0 home, .connected 0 1 true, .guardian_runs 1, .listen_end 0, .guardian_runs 1,
    .guardian_runs 1, .closed 1, .connected 1 2 true, .close_connection 3, .unwind 1, .joined 3,
    .closed 3]

def emptied : Pool := (exec step {} renewed).get (by decide)

/-- The next connection, under a lock of its own. -/
def reopened : List Act := [.get_or_create 4 home, .connected 4 5 true]

theorem emptied_idle (u : Nat) : emptied.holds u = none ∧ emptied.waits u = none := by
  match u with
  | 0 | 1 | 2 | 3 => exact ⟨rfl, rfl⟩
  | n + 4 => exact ⟨rfl, rfl⟩

theorem meets_renewed : Meets step Retired {} renewed := by
  refine ⟨?_, fun h => ?_, fun h => ?_, fun h => ?_, fun h => ?_, fun h => ?_, fun h => ?_,
    fun h => ?_, fun h => ?_, fun h => ?_, fun h => ?_, fun h => ?_, trivial⟩
  · intro _ _ u l hu
    simp [LockSlot.Uses, holds, waits] at hu
  all_goals exact absurd h (by decide)

theorem meets_reopened : Meets step Retired emptied reopened := by
  refine ⟨fun _ _ u l hu => ?_, fun h => absurd h (by decide), trivial⟩
  rcases hu with hu | hu
  · cases hu.symm.trans (emptied_idle u).1
  · cases hu.symm.trans (emptied_idle u).2

/-- The lock that `close_connection` has removed is out of use when the next one is made. -/
theorem one_live_connection_reopened : ∃ s, exec step emptied reopened = some s ∧
    emptied.locks.slot = none ∧ s.is_connected 2 = true ∧ s.OneLive := by
  have h : ((exec step emptied reopened).any fun s => s.is_connected 2) = true := by decide
  obtain ⟨s, hs, hc⟩ := (Option.any_eq_true _ _).mp h
  have hi : Initial {} := rfl
  have hrun : exec step {} renewed = some emptied := (Option.some_get _).symm
  have hr : Reach step Retired Initial emptied := (Reach.start hi).exec meets_renewed hrun
  exact ⟨s, hs, rfl, hc, one_live_connection (hr.exec meets_reopened hs)⟩

/-- Task 3 queues while task 2 closes; task 4 comes after the lock was removed. -/
def overlap : List Act :=
  [.get_or_create 0 home, .connected 0 1 true, .close_connection 2, .unwind 1, .joined 2,
    .get_or_create 3 home, .closed 2, .lock_granted 3, .get_or_create 4 home,
    .connected 3 5 true, .connected 4 6 true]

theorem not_one_live_connection : ∃ s, Reach step Any Initial s ∧ ¬ s.OneLive := by
  have h : ((exec step {} overlap).any fun s => s.is_connected 1 && s.is_connected 2) = true := by
    decide
  obtain ⟨s, hs, hc⟩ := (Option.any_eq_true _ _).mp h
  rw [Bool.and_eq_true] at hc
  refine ⟨s, reach_of_exec rfl hs, fun hl => ?_⟩
  exact absurd (hl.one_connected 1 2 hc.1 hc.2) (by decide)

end Pool

end ClawMux
