import ClawMux.Services.WsLocking

namespace ClawMux
set_option autoImplicit true
open Lib

/-- The frames that an attempt may have behind it when it starts. -/
def Send.before (x : Send) : Nat := if x.retry then 1 else 0

def Job.send : Job → Option Send
  | .get_or_create (.send x) => some x
  | _ => none

/-- The logical send a task is in, and how many frames it has emitted at most. -/
def Pc.progress : Pc → Option (Send × Nat)
  | .lock_wait _ job | .closing _ job _ | .connecting _ job => job.send.map fun x => (x, x.before)
  | .client_wait x _ | .sending x _ => some (x, x.before)
  | .awaiting x _ => some (x, x.before + 1)
  | .send_closing x => some (x, 1)
  | _ => none

def Pc.send_holds (p : Pc) : Option Nat := p.progress.map fun y => y.1.send_lock

def Pc.send_waits : Pc → Option Nat
  | .send_wait sl _ _ => some sl
  | _ => none

namespace Pool

def send_holds (s : Pool) (t : Nat) : Option Nat := (s.pc t).bind Pc.send_holds

def send_waits (s : Pool) (t : Nat) : Option Nat := (s.pc t).bind Pc.send_waits

/-- The frames of one send. -/
def own (frames : List Frame) (t : Nat) : List Frame := frames.filter (·.send = t)

/-- What a suspended task has emitted and drawn, by where it is suspended. -/
def Progress (frames : List Frame) (keys : List (Nat × String)) (t : Nat) : Option Pc → Prop
  | none => own frames t = [] ∧ ∀ k, (t, k) ∉ keys
  | some (.send_wait _ key _) => own frames t = [] ∧ (t, key) ∈ keys
  | some p => ∀ x n, p.progress = some (x, n) →
    (own frames t).length ≤ n ∧ own frames t <:+ frames ∧ (t, x.key) ∈ keys

/-- The frames of every send are at most two, stand together and carry the key of that send. -/
structure Whole (frames : List Frame) (keys : List (Nat × String)) : Prop where
  at_most_two : ∀ t, (own frames t).length ≤ 2
  contiguous : ∀ t, own frames t <:+: frames
  drawn : ∀ f ∈ frames, (f.send, f.key) ∈ keys
  one_key : ∀ t k k', (t, k) ∈ keys → (t, k') ∈ keys → k = k'
  one_send : ∀ t t' k, (t, k) ∈ keys → (t', k) ∈ keys → t = t'

structure SendInv (s : Pool) : Prop where
  locks : s.send_locks.Ok s.send_holds s.send_waits
  whole : Whole s.frames s.keys
  progress : ∀ t, Progress s.frames s.keys t (s.pc t)

/-- The invariant inside a step of task `t`, in the logical send `x` after at most `n` frames. -/
structure Sending (s : Pool) (t : Nat) (x : Option Send) (n : Nat) : Prop where
  locks : s.send_locks.Ok (Function.update s.send_holds t (x.map (·.send_lock)))
    (Function.update s.send_waits t none)
  whole : Whole s.frames s.keys
  others : ∀ u, u ≠ t → Progress s.frames s.keys u (s.pc u)
  self : ∀ y, x = some y →
    (own s.frames t).length ≤ n ∧ own s.frames t <:+ s.frames ∧ (t, y.key) ∈ s.keys

theorem goto_send_holds (s : Pool) :
    (s.goto t p).send_holds = Function.update s.send_holds t p.send_holds := by
  funext u
  by_cases hu : u = t
  · subst hu
    simp [send_holds, goto]
  · simp [send_holds, goto, hu]

theorem goto_send_waits (s : Pool) :
    (s.goto t p).send_waits = Function.update s.send_waits t p.send_waits := by
  funext u
  by_cases hu : u = t
  · subst hu
    simp [send_waits, goto]
  · simp [send_waits, goto, hu]

/-- A task is suspended outside every logical send. -/
theorem Sending.suspend {s : Pool} (h : s.Sending t none n) (hp : p.progress = none)
    (hw : p.send_waits = none) : (s.goto t p).SendInv := by
  refine ⟨?_, h.whole, ?_⟩
  · rw [goto_send_holds, goto_send_waits, Pc.send_holds, hp, hw]
    exact h.locks
  · intro u
    by_cases hu : u = t
    · subst hu
      simp only [goto, Function.update_self]
      cases p with
      | send_wait sl key info => cases hw
      | _ => intro x m hx; rw [hp] at hx; cases hx
    · simp only [goto, Function.update_of_ne hu]
      exact h.others u hu

/-- A task is suspended inside its logical send. -/
theorem Sending.suspend_inside {s : Pool} (h : s.Sending t (some x) n)
    (hp : p.progress = some (y, m)) (hl : y.send_lock = x.send_lock) (hk : y.key = x.key)
    (hn : n ≤ m) (hw : p.send_waits = none) : (s.goto t p).SendInv := by
  refine ⟨?_, h.whole, ?_⟩
  · rw [goto_send_holds, goto_send_waits, Pc.send_holds, hp, hw]
    have := h.locks
    simp only [Option.map_some, ← hl] at this
    exact this
  · intro u
    by_cases hu : u = t
    · subst hu
      simp only [goto, Function.update_self]
      obtain ⟨hlen, hsuf, hkey⟩ := h.self x rfl
      have hall : ∀ z k, p.progress = some (z, k) →
          (own s.frames u).length ≤ k ∧ own s.frames u <:+ s.frames ∧ (u, z.key) ∈ s.keys := by
        intro z k hz
        cases hp.symm.trans hz
        exact ⟨Nat.le_trans hlen hn, hsuf, hk ▸ hkey⟩
      cases p with
      | send_wait sl key info => cases hw
      | _ => exact hall
    · simp only [goto, Function.update_of_ne hu]
      exact h.others u hu

/-- The running task changes what no send depends on. -/
theorem Sending.frame {s r : Pool} (h : s.Sending t x n) (hl : r.send_locks = s.send_locks)
    (hp : r.pc = s.pc) (hf : r.frames = s.frames) (hk : r.keys = s.keys) : r.Sending t x n := by
  have hh : r.send_holds = s.send_holds := by funext u; simp only [send_holds, hp]
  have hw : r.send_waits = s.send_waits := by funext u; simp only [send_waits, hp]
  constructor
  · rw [hl, hh, hw]
    exact h.locks
  · rw [hf, hk]
    exact h.whole
  · rw [hf, hk, hp]
    exact h.others
  · rw [hf, hk]
    exact h.self

theorem Sending.release {s : Pool} (h : s.Sending t (some x) n) :
    Sending { s with send_locks := s.send_locks.release x.send_lock } t none n := by
  refine ⟨?_, h.whole, h.others, fun y hy => by cases hy⟩
  have := h.locks.release (t := t) (l := x.send_lock) (Function.update_self ..)
    (Function.update_self ..)
  rwa [Function.update_idem, Function.update_idem] at this

theorem Sending.finish {s : Pool} (h : s.Sending t (some x) n) : (s.finish t x).SendInv :=
  h.release.suspend rfl rfl

theorem Sending.fail {s : Pool} (h : s.Sending t (some x) n) (hn : n ≤ x.before + 1) (c : Nat) :
    (s.fail t x c).SendInv := by
  unfold Pool.fail
  split
  · exact h.finish
  · rename_i hr
    refine Sending.suspend_inside (h.frame rfl rfl rfl rfl) rfl rfl rfl ?_ rfl
    rwa [Send.before, if_neg hr] at hn

theorem Sending.return_client {s : Pool} {caller : Caller}
    (h : s.Sending t (Job.get_or_create caller).send n)
    (hn : ∀ x, caller = .send x → n ≤ x.before) (c : Nat) :
    (s.return_client t c caller).SendInv := by
  cases caller with
  | direct info => exact h.suspend rfl rfl
  | send x =>
    have hx := hn x rfl
    simp only [Pool.return_client]
    split
    · exact Sending.fail h (Nat.le_succ_of_le hx) c
    · split
      · exact Sending.fail h (Nat.le_succ_of_le hx) c
      · split
        · exact Sending.suspend_inside (h.frame rfl rfl rfl rfl) rfl rfl rfl hx rfl
        · exact Sending.suspend_inside (h.frame rfl rfl rfl rfl) rfl rfl rfl hx rfl

/-- A task is suspended in or for the section of its job. -/
theorem Sending.suspend_job {s : Pool} {job : Job} (h : s.Sending t job.send n)
    (hn : ∀ x, job.send = some x → n ≤ x.before)
    (hp : p.progress = job.send.map fun x => (x, x.before)) (hw : p.send_waits = none) :
    (s.goto t p).SendInv := by
  cases hj : job.send with
  | none =>
    rw [hj] at h hp
    exact h.suspend hp hw
  | some x =>
    rw [hj] at h hp
    exact h.suspend_inside hp rfl rfl (hn x hj) hw

theorem Sending.enter {s : Pool} {job : Job} (h : s.Sending t job.send n)
    (hn : ∀ x, job.send = some x → n ≤ x.before) (l : Nat) : (s.enter t l job).SendInv := by
  cases job with
  | get_or_create caller =>
    simp only [Pool.enter]
    split
    · rename_i c hc
      split
      · apply Sending.return_client
        · exact h.frame rfl rfl rfl rfl
        · exact fun x hx => hn x (by rw [hx]; rfl)
      · exact Sending.suspend_job (h.frame rfl rfl rfl rfl) hn rfl rfl
    · exact h.suspend_job hn rfl rfl
  | reconnect info =>
    simp only [Pool.enter]
    split
    · exact Sending.suspend (h.frame rfl rfl rfl rfl) rfl rfl
    · exact h.suspend rfl rfl
  | close_connection =>
    simp only [Pool.enter]
    split
    · exact Sending.suspend (h.frame rfl rfl rfl rfl) rfl rfl
    · have hpop : Sending { s with send_locks := s.send_locks.pop } t none n :=
        ⟨h.locks.pop, h.whole, h.others, h.self⟩
      exact Sending.suspend (hpop.frame rfl rfl rfl rfl) rfl rfl

theorem Sending.acquire {s : Pool} {job : Job} (h : s.Sending t job.send n)
    (hn : ∀ x, job.send = some x → n ≤ x.before) : (s.acquire t job).SendInv := by
  unfold Pool.acquire
  dsimp only
  split
  · apply Sending.enter
    · exact h.frame rfl rfl rfl rfl
    · exact hn
  · exact Sending.suspend_job (h.frame rfl rfl rfl rfl) hn rfl rfl

theorem Sending.guardian_loop {s : Pool} (h : s.Sending t none n) :
    (s.guardian_loop t).SendInv := by
  unfold Pool.guardian_loop
  split
  · exact h.suspend rfl rfl
  · split
    · exact h.suspend rfl rfl
    · exact h.suspend rfl rfl

theorem SendInv.begin {s : Pool} (h : s.SendInv) (ht : s.pc t = none) : s.Sending t none 0 := by
  have hh : s.send_holds t = none := by simp [send_holds, ht]
  have hw : s.send_waits t = none := by simp [send_waits, ht]
  refine ⟨?_, h.whole, fun u _ => h.progress u, fun y hy => by cases hy⟩
  rw [Option.map_none, update_of_eq hh, update_of_eq hw]
  exact h.locks

theorem SendInv.resume {s : Pool} (h : s.SendInv) (ht : s.pc t = some p)
    (hp : p.progress = some (x, n)) (hw : p.send_waits = none) : s.Sending t (some x) n := by
  have hh : s.send_holds t = some x.send_lock := by simp [send_holds, ht, Pc.send_holds, hp]
  have hw' : s.send_waits t = none := by simp [send_waits, ht, hw]
  refine ⟨?_, h.whole, fun u _ => h.progress u, ?_⟩
  · rw [Option.map_some, update_of_eq hh, update_of_eq hw']
    exact h.locks
  · intro y hy
    cases hy
    have := h.progress t
    rw [ht] at this
    cases p with
    | send_wait sl key info => cases hw
    | _ => exact this x n hp

theorem SendInv.resume_outside {s : Pool} (h : s.SendInv) (ht : s.pc t = some p)
    (hp : p.progress = none) (hw : p.send_waits = none) : s.Sending t none 0 := by
  have hh : s.send_holds t = none := by simp [send_holds, ht, Pc.send_holds, hp]
  have hw' : s.send_waits t = none := by simp [send_waits, ht, hw]
  refine ⟨?_, h.whole, fun u _ => h.progress u, fun y hy => by cases hy⟩
  rw [Option.map_none, update_of_eq hh, update_of_eq hw']
  exact h.locks

theorem SendInv.resume_job {s : Pool} (h : s.SendInv) (job : Job) (ht : s.pc t = some p)
    (hp : p.progress = job.send.map fun x => (x, x.before)) (hw : p.send_waits = none) :
    ∃ n, s.Sending t job.send n ∧ ∀ x, job.send = some x → n ≤ x.before := by
  cases hj : job.send with
  | none => exact ⟨0, h.resume_outside ht (by rw [hp, hj]; rfl) hw, fun x hx => by cases hx⟩
  | some x =>
    refine ⟨x.before, h.resume ht (by rw [hp, hj]; rfl) hw, ?_⟩
    intro y hy
    cases hy
    exact Nat.le_refl _

/-- A task outside every send moves on beside the running one. -/
theorem Sending.other {s : Pool} (h : s.Sending t x n) (hh : g ≠ t → s.send_holds g = none)
    (hw : g ≠ t → s.send_waits g = none) (hp : p.progress = none) (hpw : p.send_waits = none) :
    (s.goto g p).Sending t x n := by
  have hph : p.send_holds = none := by rw [Pc.send_holds, hp]; rfl
  refine ⟨?_, h.whole, ?_, h.self⟩
  · rw [goto_send_holds, goto_send_waits, hph, hpw]
    by_cases hg : g = t
    · subst hg
      rw [Function.update_idem, Function.update_idem]
      exact h.locks
    · rw [update_of_eq (hh hg), update_of_eq (hw hg)]
      exact h.locks
  · intro u hu
    by_cases hg : u = g
    · subst hg
      simp only [goto, Function.update_self]
      cases p with
      | send_wait sl key info => cases hpw
      | _ => intro y m hy; rw [hp] at hy; cases hy
    · simp only [goto, Function.update_of_ne hg]
      exact h.others u hu

theorem Sending.cancel {s : Pool} (h : s.Sending t x n) (g : Nat) : (s.cancel g).Sending t x n := by
  have hgoto : ∀ (p q : Pc), s.pc g = some q → q.progress = none → q.send_waits = none →
      p.progress = none → p.send_waits = none → (s.goto g p).Sending t x n := by
    intro p q hg hq hqw hp hpw
    exact h.other (fun _ => by simp [send_holds, hg, Pc.send_holds, hq])
      (fun _ => by simp [send_waits, hg, hqw]) hp hpw
  unfold Pool.cancel
  split
  · rename_i hp
    exact (hgoto .cancelled _ hp rfl rfl rfl rfl).frame rfl rfl rfl rfl
  all_goals first | exact hgoto _ _ ‹_› rfl rfl rfl rfl | exact h

theorem Sending.start_guardian {s : Pool} (h : s.Sending t x n) (hg : s.pc g = none) :
    (s.start_guardian g).Sending t x n := by
  have hstart : ∀ {s : Pool}, s.Sending t x n → s.pc g = none →
      ({ s with guardian_tasks := some g }.goto g .guard_new).Sending t x n := by
    intro s h hg
    apply Sending.other
    · exact h.frame rfl rfl rfl rfl
    · exact fun _ => by simp [send_holds, hg]
    · exact fun _ => by simp [send_waits, hg]
    · rfl
    · rfl
  unfold Pool.start_guardian
  dsimp only
  split
  · exact hstart (h.cancel _) (cancel_pc_none hg _)
  · exact hstart h hg

theorem Sending.install {s r : Pool} {job : Job} (h : s.Sending t job.send n)
    (hn : ∀ x, job.send = some x → n ≤ x.before) (hg : s.pc g = none)
    (hi : s.install t l g is_open job = some r) : r.SendInv := by
  cases job with
  | get_or_create caller =>
    cases hi
    refine Sending.return_client (n := n) ?_ (fun x hx => hn x (by rw [hx]; rfl)) _
    refine Sending.frame (Sending.start_guardian ?_ ?_) rfl rfl rfl rfl
    · exact h.frame rfl rfl rfl rfl
    · exact hg
  | reconnect info =>
    cases hi
    apply Sending.guardian_loop
    exact h.frame rfl rfl rfl rfl
  | close_connection => cases hi

/-- The running send emits a frame: nobody else is in a send, so it joins its own frames. -/
theorem Sending.emit {s : Pool} (h : s.Sending t (some x) n) (hn : n ≤ 1) (info : InstanceInfo) :
    Sending { s with frames := s.frames ++ [⟨t, x.key, info⟩] } t (some x) (n + 1) := by
  obtain ⟨hlen, hsuf, hkey⟩ := h.self x rfl
  have hown : own (s.frames ++ [⟨t, x.key, info⟩]) t = own s.frames t ++ [⟨t, x.key, info⟩] := by
    simp [own, List.filter_append]
  have hother : ∀ u, u ≠ t → own (s.frames ++ [⟨t, x.key, info⟩]) u = own s.frames u := by
    intro u hu
    simp [own, List.filter_append, Ne.symm hu]
  obtain ⟨front, hfront⟩ := hsuf
  have hsuf' : own (s.frames ++ [⟨t, x.key, info⟩]) t <:+ s.frames ++ [⟨t, x.key, info⟩] := by
    refine ⟨front, ?_⟩
    rw [hown, ← List.append_assoc, hfront]
  refine ⟨h.locks, ⟨?_, ?_, ?_, h.whole.one_key, h.whole.one_send⟩, ?_, ?_⟩
  · intro u
    by_cases hu : u = t
    · rw [hu, hown, List.length_append, List.length_singleton]
      omega
    · rw [hother u hu]
      exact h.whole.at_most_two u
  · intro u
    by_cases hu : u = t
    · rw [hu]
      exact hsuf'.isInfix
    · rw [hother u hu]
      exact (h.whole.contiguous u).trans (List.prefix_append ..).isInfix
  · intro f hf
    rcases List.mem_append.mp hf with hf | hf
    · exact h.whole.drawn f hf
    · rw [List.mem_singleton.mp hf]
      exact hkey
  · intro u hu
    have hp := h.others u hu
    change Progress _ s.keys u (s.pc u)
    cases hpc : s.pc u with
    | none =>
      rw [hpc] at hp
      exact ⟨(hother u hu).trans hp.1, hp.2⟩
    | some p =>
      rw [hpc] at hp
      have hout : ∀ y m, p.progress ≠ some (y, m) := by
        intro y m hy
        have he := h.locks.exclusive (t := u) (u := t) (l := y.send_lock) (m := x.send_lock)
          (by rw [Function.update_of_ne hu]; simp [send_holds, hpc, Pc.send_holds, hy])
          (Function.update_self ..)
        exact hu he
      cases p with
      | send_wait sl key info => exact ⟨(hother u hu).trans hp.1, hp.2⟩
      | _ => exact fun y m hy => absurd hy (hout y m)
  · intro y hy
    cases hy
    refine ⟨?_, hsuf', hkey⟩
    rw [hown, List.length_append, List.length_singleton]
    omega

/-- A send lock is made only while no send holds or awaits the one that was removed. -/
def SendsRetired (s : Pool) : Act → Prop
  | .send_message _ _ _ =>
    s.send_locks.slot = none → ∀ u l, ¬ LockSlot.Uses s.send_holds s.send_waits u l
  | _ => True

theorem Progress.draw
    {frames : List Frame} {keys : List (Nat × String)} (h : Progress frames keys u p) (hu : u ≠ t) :
    Progress frames ((t, key) :: keys) u p := by
  have hmem : ∀ k, (u, k) ∈ keys → (u, k) ∈ (t, key) :: keys := fun k => List.mem_cons_of_mem _
  cases p with
  | none =>
    refine ⟨h.1, fun k hk => ?_⟩
    rcases List.mem_cons.mp hk with he | hk
    · exact hu (Prod.mk.inj he).1
    · exact h.2 k hk
  | some p =>
    cases p with
    | send_wait sl k info => exact ⟨h.1, hmem k h.2⟩
    | _ => exact fun x n hx => ⟨(h x n hx).1, (h x n hx).2.1, hmem _ (h x n hx).2.2⟩

/-- A new logical send draws its key. -/
theorem SendInv.draw {s : Pool} (h : s.SendInv) (ht : s.pc t = none)
    (hk : key ∉ s.keys.map (·.2))
    (hc : s.send_locks.slot = none → ∀ u l, ¬ LockSlot.Uses s.send_holds s.send_waits u l) :
    Sending { s with keys := (t, key) :: s.keys, send_locks := s.send_locks.get.1 } t none 0 ∧
      own s.frames t = [] := by
  have hr := h.begin ht
  have hp := h.progress t
  rw [ht] at hp
  have hfresh : ∀ u, (u, key) ∉ s.keys := fun u hu => hk (List.mem_map.mpr ⟨_, hu, rfl⟩)
  refine ⟨⟨?_, ⟨hr.whole.at_most_two, hr.whole.contiguous, ?_, ?_, ?_⟩, ?_,
    fun y hy => by cases hy⟩, hp.1⟩
  · refine (hr.locks.get ?_).1
    intro hn u l hu
    rcases LockSlot.uses_update hu with ⟨-, hm | hm⟩ | ⟨-, hm⟩
    · cases hm
    · cases hm
    · exact hc hn u l hm
  · exact fun f hf => List.mem_cons_of_mem _ (hr.whole.drawn f hf)
  · intro u k k' hm hm'
    rcases List.mem_cons.mp hm with he | hm <;> rcases List.mem_cons.mp hm' with he' | hm'
    · rw [(Prod.mk.inj he).2, (Prod.mk.inj he').2]
    · exact absurd hm' ((Prod.mk.inj he).1 ▸ hp.2 k')
    · exact absurd hm ((Prod.mk.inj he').1 ▸ hp.2 k)
    · exact hr.whole.one_key u k k' hm hm'
  · intro u u' k hm hm'
    rcases List.mem_cons.mp hm with he | hm <;> rcases List.mem_cons.mp hm' with he' | hm'
    · rw [(Prod.mk.inj he).1, (Prod.mk.inj he').1]
    · exact absurd hm' ((Prod.mk.inj he).2 ▸ hfresh u')
    · exact absurd hm ((Prod.mk.inj he').2 ▸ hfresh u)
    · exact hr.whole.one_send u u' k hm hm'
  · exact fun u hu => (h.progress u).draw hu

theorem SendInv.begin_send
    {s r : Pool} (h : s.SendInv) (hc : s.SendsRetired (.send_message t key info))
    (hs : s.step (.send_message t key info) = some r) : r.SendInv := by
  have hslot := (h.locks.get hc).2
  have hkey : (t, key) ∈ (t, key) :: s.keys := List.mem_cons_self
  have hidle : ∀ m, ¬ LockSlot.Uses (Function.update s.send_holds t none)
      (Function.update s.send_waits t none) t m := by
    intro m hm
    simp [LockSlot.Uses] at hm
  cases steps_of_step hs with
  | send_message ht hk hf =>
    obtain ⟨hd, hown⟩ := h.draw ht hk hc
    have hl := hd.locks.take hslot ((FifoLock.free_iff _).mp hf).1 hidle
    rw [Function.update_idem, Function.update_idem] at hl
    refine Sending.acquire (n := 0) ⟨hl, hd.whole, hd.others, ?_⟩ (fun x _ => Nat.zero_le _)
    intro y hy
    cases hy
    exact ⟨Nat.le_of_eq (by rw [hown]; rfl), by rw [hown]; exact List.nil_suffix, hkey⟩
  | send_waits ht hk hf =>
    obtain ⟨hd, hown⟩ := h.draw ht hk hc
    have hl := hd.locks.enqueue hslot hidle
    rw [Function.update_idem, Function.update_idem] at hl
    refine ⟨?_, hd.whole, ?_⟩
    · rw [goto_send_holds, goto_send_waits]
      exact hl
    · intro u
      by_cases hu : u = t
      · subst hu
        simp only [goto, Function.update_self]
        exact ⟨hown, hkey⟩
      · simp only [goto, Function.update_of_ne hu]
        exact hd.others u hu

theorem SendInv.grant {s : Pool} (h : s.SendInv) (ht : s.pc t = some (.send_wait sl key info))
    (hg : s.send_locks.grant sl t = some ls) :
    Sending { s with send_locks := ls } t (some ⟨sl, key, info, false⟩) 0 := by
  have hp := h.progress t
  rw [ht] at hp
  refine ⟨h.locks.grant hg, h.whole, fun u _ => h.progress u, ?_⟩
  intro y hy
  cases hy
  exact ⟨Nat.le_of_eq (by rw [hp.1]; rfl), by rw [hp.1]; exact List.nil_suffix, hp.2⟩

theorem step_send_inv {s s' : Pool} (h : s.SendInv) (hc : s.SendsRetired a)
    (hs : s.step a = some s') : s'.SendInv := by
  cases steps_of_step hs with
  | send_message ht hk hf => exact h.begin_send hc hs
  | send_waits ht hk hf => exact h.begin_send hc hs
  | get_or_create ht => exact Sending.acquire (n := 0) (h.begin ht) fun x _ => Nat.zero_le _
  | close_connection ht hg =>
    refine Sending.acquire (n := 0) ?_ fun x _ => Nat.zero_le _
    exact (h.begin ht).frame rfl rfl rfl rfl
  | close_joins ht hg hp hd =>
    refine Sending.suspend (n := 0) (Sending.cancel ?_ _) rfl rfl
    exact (h.begin ht).frame rfl rfl rfl rfl
  | send_granted ht hg =>
    exact Sending.acquire (n := 0) (h.grant ht hg) fun x _ => Nat.zero_le _
  | @lock_granted t l job ls ht hg =>
    obtain ⟨n, hr, hn⟩ := h.resume_job job ht rfl rfl
    refine Sending.enter ?_ hn l
    exact hr.frame rfl rfl rfl rfl
  | client_granted ht ho hg =>
    refine Sending.suspend_inside ?_ rfl rfl rfl (Nat.le_refl _) rfl
    exact (h.resume ht rfl rfl).frame rfl rfl rfl rfl
  | @closed t l b ht =>
    have hr := h.resume_outside ht rfl rfl
    have hpop : Sending { s with send_locks := s.send_locks.pop } t none 0 :=
      ⟨hr.locks.pop, hr.whole, hr.others, hr.self⟩
    exact Sending.suspend (hpop.frame rfl rfl rfl rfl) rfl rfl
  | @reopens t l job b ht hj =>
    obtain ⟨n, hr, hn⟩ := h.resume_job job ht rfl rfl
    exact hr.suspend_job hn rfl rfl
  | @retries t x ht =>
    have hr := h.resume ht rfl rfl
    refine Sending.acquire (n := 1) ⟨hr.locks, hr.whole, hr.others, ?_⟩ ?_
    · intro y hy
      cases hy
      exact hr.self x rfl
    · intro y hy
      cases hy
      exact Nat.le_refl _
  | @connected t l job g is_open s' ht hg hi =>
    obtain ⟨n, hr, hn⟩ := h.resume_job job ht rfl rfl
    exact hr.install hn hg hi
  | connect_failed ht | reconnect_failed ht | aborting ht | close_cancelled ht =>
    exact Sending.suspend ((h.resume_outside ht rfl rfl).frame rfl rfl rfl rfl) rfl rfl
  | send_failed ht => exact Sending.finish ((h.resume ht rfl rfl).frame rfl rfl rfl rfl)
  | @emit t x c o ht ho =>
    have hb : x.before ≤ 1 := by
      unfold Send.before
      split <;> omega
    exact ((h.resume ht rfl rfl).emit hb o.info).suspend_inside rfl rfl rfl (Nat.le_refl _) rfl
  | answered ht => exact Sending.finish ((h.resume ht rfl rfl).frame rfl rfl rfl rfl)
  | @send_raised t x c ht =>
    refine Sending.fail ?_ (Nat.le_succ _) c
    exact (h.resume ht rfl rfl).frame rfl rfl rfl rfl
  | @answer_raised t x c ht =>
    refine Sending.fail ?_ (Nat.le_refl _) c
    exact (h.resume ht rfl rfl).frame rfl rfl rfl rfl
  | joined ht hg =>
    exact Sending.acquire (n := 0) (h.resume_outside ht rfl rfl) fun x _ => Nat.zero_le _
  | guardian_runs ht | guardian_retries ht | guardian_timeout ht =>
    exact (h.resume_outside ht rfl rfl).guardian_loop
  | guardian_wakes ht hl | guardian_ends ht hi =>
    exact (h.resume_outside ht rfl rfl).suspend rfl rfl
  | reconnects ht hi =>
    exact Sending.acquire (n := 0) (h.resume_outside ht rfl rfl) fun x _ => Nat.zero_le _
  | cancelled ht => exact (h.resume_outside ht rfl rfl).suspend rfl rfl
  | ws_drop => exact ⟨h.locks, h.whole, h.progress⟩
  | listen_end => exact ⟨h.locks, h.whole, h.progress⟩

theorem send_inv_initial {s : Pool} (h : Initial s) : s.SendInv := by
  subst h
  refine ⟨⟨?_, ?_, ?_, ?_, ?_⟩, ⟨?_, ?_, ?_, ?_, ?_⟩, ?_⟩ <;>
    simp [LockSlot.Uses, send_holds, send_waits, own, Progress]

/-- At most two frames a send, a key of its own for each send, and no other frame in between. -/
structure Serialized (frames : List Frame) : Prop where
  at_most_two : ∀ t, (own frames t).length ≤ 2
  same_key : ∀ f ∈ frames, ∀ g ∈ frames, f.send = g.send ↔ f.key = g.key
  contiguous : ∀ t, own frames t <:+: frames

theorem Whole.serialized {frames : List Frame} {keys : List (Nat × String)}
    (h : Whole frames keys) : Serialized frames := by
  refine ⟨h.at_most_two, fun f hf g hg => ⟨fun he => ?_, fun he => ?_⟩, h.contiguous⟩
  · exact h.one_key _ _ _ (h.drawn f hf) (he ▸ h.drawn g hg)
  · exact h.one_send _ _ _ (h.drawn f hf) (he ▸ h.drawn g hg)

/-- As long as a removed send lock is out of use before the next one is made. -/
theorem sends_serialized {s : Pool} (h : Reach step SendsRetired Initial s) :
    Serialized s.frames :=
  (h.invariant (fun _ => send_inv_initial) fun _ _ _ hi hc hs =>
    step_send_inv hi hc hs).whole.serialized

/-- Two concurrent sends, the first of which drops after its frame and is retried. -/
def retried : List Act :=
  [.send_message 0 "k" home, .connected 0 1 true, .emit 0, .send_message 2 "m" home, .raised 0,
    .closed 0, .closed 0, .connected 0 3 true, .emit 0, .answered 0, .send_granted 2, .emit 2]

theorem meets_retried : Meets step SendsRetired {} retried := by
  refine ⟨?_, trivial, trivial, fun h => ?_, trivial, trivial, trivial, trivial, trivial, trivial,
    trivial, trivial, trivial⟩
  · intro _ u l hu
    simp [LockSlot.Uses, send_holds, send_waits] at hu
  · exact absurd h (by decide)

theorem sends_serialized_retried : ∃ s, exec step {} retried = some s ∧
    s.frames.map (·.key) = ["k", "k", "m"] ∧ Serialized s.frames := by
  have h : ((exec step {} retried).any fun s => s.frames.map (·.key) = ["k", "k", "m"]) = true := by
    decide
  obtain ⟨s, hs, hk⟩ := (Option.any_eq_true _ _).mp h
  have hi : Initial {} := rfl
  exact ⟨s, hs, of_decide_eq_true hk, sends_serialized ((Reach.start hi).exec meets_retried hs)⟩

/-- Task 4 sends between the attempts of task 0, whose send lock task 2 removed. -/
def interleaved : List Act :=
  [.send_message 0 "k" home, .connected 0 1 true, .emit 0, .close_connection 2, .unwind 1,
    .joined 2, .closed 2, .raised 0, .send_message 4 "m" home, .connected 4 5 true, .emit 4,
    .closed 0, .answered 4, .client_granted 0, .emit 0]

theorem not_sends_serialized : ∃ s, Reach step Any Initial s ∧ ¬ Serialized s.frames := by
  have h : ((exec step {} interleaved).any fun s =>
      s.frames = [⟨0, "k", home⟩, ⟨4, "m", home⟩, ⟨0, "k", home⟩]) = true := by decide
  obtain ⟨s, hs, hf⟩ := (Option.any_eq_true _ _).mp h
  refine ⟨s, reach_of_exec rfl hs, fun hser => ?_⟩
  have hc := hser.contiguous 0
  rw [of_decide_eq_true hf] at hc
  revert hc
  decide

end Pool

end ClawMux
