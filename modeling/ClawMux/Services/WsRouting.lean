import ClawMux.Services.WsSends

namespace ClawMux
set_option autoImplicit true
open Lib

/-- The instance that a task's logical send is meant for. -/
def Pc.intent : Pc → Option InstanceInfo
  | .send_wait _ _ info => some info
  | p => p.progress.map fun y => y.1.info

/-- The client over which a task's logical send goes. -/
def Pc.target : Pc → Option Nat
  | .client_wait _ c | .sending _ c | .awaiting _ c => some c
  | _ => none

theorem Pc.intent_of_progress {p : Pc} (h : p.progress = some (x, n)) :
    p.intent = some x.info := by
  cases p with
  | send_wait sl key info => cases h
  | _ => exact congrArg (Option.map fun y => y.1.info) h

namespace Pool

/-- A new `_get_lock(user_id)` would find the lock free. -/
def lock_free (s : Pool) : Bool := (s.locks.get.1.heap s.locks.get.2).free

/-- The logical send that enters the section of `get_or_create` in a step. -/
def entering (s : Pool) : Act → Option Nat
  | .send_message t _ _ =>
    if (s.send_locks.get.1.heap s.send_locks.get.2).free && s.lock_free then some t else none
  | .send_granted t => if s.lock_free then some t else none
  | .lock_granted t =>
    match s.pc t with
    | some (.lock_wait _ (.get_or_create (.send _))) => some t
    | _ => none
  | .closed t =>
    match s.pc t with
    | some (.send_closing _) => if s.lock_free then some t else none
    | _ => none
  | _ => none

/-- The task and the client when `get_or_create` returns the client that is connected already. -/
def reuses (s : Pool) (a : Act) : Option (Nat × Nat) :=
  match s.clients with
  | none => none
  | some c => if s.is_connected c then (s.entering a).map fun t => (t, c) else none

variable {G G' : Nat → InstanceInfo → Prop}

/-- The instance of every logical send and of the client it has chosen is one that `G` allows. -/
def TaskOk (G : Nat → InstanceInfo → Prop) (objects : Nat → Option Client) (t : Nat) :
    Option Pc → Prop
  | none => True
  | some p => (∀ info ∈ p.intent, G t info) ∧ ∀ c ∈ p.target, ∃ o, objects c = some o ∧ G t o.info

/-- `G` allows the instances of the logical sends, their clients and the frames. -/
structure Routed (G : Nat → InstanceInfo → Prop) (s : Pool) : Prop where
  objects : s.objects s.next_object = none ∧ ∀ c, s.next_object < c → s.objects c = none
  task : ∀ t, TaskOk G s.objects t (s.pc t)
  frames : ∀ f ∈ s.frames, G f.send f.info

theorem Routed.mono {s : Pool} (h : s.Routed G) (hG : ∀ t info, G t info → G' t info) :
    s.Routed G' := by
  refine ⟨h.objects, fun t => ?_, fun f hf => hG _ _ (h.frames f hf)⟩
  have ht := h.task t
  cases hp : s.pc t with
  | none => trivial
  | some p =>
    rw [hp] at ht
    refine ⟨fun info hi => hG t info (ht.1 info hi), fun c hc => ?_⟩
    obtain ⟨o, ho, hg⟩ := ht.2 c hc
    exact ⟨o, ho, hG t _ hg⟩

/-- A step changes nothing that the instances depend on. -/
theorem Routed.frame {s r : Pool} (h : s.Routed G) (ho : r.objects = s.objects)
    (hn : r.next_object = s.next_object) (hp : r.pc = s.pc) (hf : r.frames = s.frames) :
    r.Routed G := by
  refine ⟨?_, ?_, ?_⟩
  · rw [ho, hn]
    exact h.objects
  · rw [ho, hp]
    exact h.task
  · rw [hf]
    exact h.frames

theorem Routed.goto {s : Pool} (h : s.Routed G) (hp : TaskOk G s.objects t (some p)) :
    (s.goto t p).Routed G := by
  refine ⟨h.objects, fun u => ?_, h.frames⟩
  by_cases hu : u = t
  · subst hu
    simp only [Pool.goto, Function.update_self]
    exact hp
  · simp only [Pool.goto, Function.update_of_ne hu]
    exact h.task u

theorem Routed.idle {s : Pool} (h : s.Routed G) (hi : p.intent = none) (ht : p.target = none) :
    (s.goto t p).Routed G := by
  refine h.goto ⟨?_, ?_⟩
  · rw [hi]
    exact fun info hm => by cases hm
  · rw [ht]
    exact fun c hm => by cases hm

/-- A logical send is suspended before it has a client. -/
theorem Routed.suspend {s : Pool} (h : s.Routed G) (hi : ∀ info ∈ p.intent, G t info)
    (ht : p.target = none) : (s.goto t p).Routed G := by
  refine h.goto ⟨hi, ?_⟩
  rw [ht]
  exact fun c hm => by cases hm

theorem Routed.set_client {s : Pool} (h : s.Routed G) (c : Nat) {f : Client → Client}
    (hf : ∀ o, (f o).info = o.info) : (s.set_client c f).Routed G := by
  have hobj : ∀ d, s.objects d = none →
      Function.update s.objects c ((s.objects c).map f) d = none := by
    intro d hd
    by_cases hdc : d = c
    · subst hdc
      rw [Function.update_self, hd, Option.map_none]
    · rwa [Function.update_of_ne hdc]
  refine ⟨⟨hobj _ h.objects.1, fun d hd => hobj d (h.objects.2 d hd)⟩, fun t => ?_, h.frames⟩
  have ht := h.task t
  simp only [Pool.set_client]
  cases hp : s.pc t with
  | none => trivial
  | some p =>
    rw [hp] at ht
    refine ⟨ht.1, fun d hd => ?_⟩
    obtain ⟨o, ho, hg⟩ := ht.2 d hd
    by_cases hdc : d = c
    · subst hdc
      refine ⟨f o, ?_, (hf o).symm ▸ hg⟩
      rw [Function.update_self, ho, Option.map_some]
    · exact ⟨o, by rw [Function.update_of_ne hdc, ho], hg⟩

theorem Routed.close {s : Pool} (h : s.Routed G) (c : Nat) : (s.close c).Routed G :=
  h.set_client c fun _ => rfl

theorem Routed.release {s : Pool} (h : s.Routed G) (l : Nat) : (s.release l).Routed G :=
  h.frame rfl rfl rfl rfl

theorem Routed.finish {s : Pool} (h : s.Routed G) (t : Nat) (x : Send) : (s.finish t x).Routed G :=
  Routed.idle (h.frame rfl rfl rfl rfl) rfl rfl

theorem Routed.fail {s : Pool} (h : s.Routed G) (hx : G t x.info) (c : Nat) :
    (s.fail t x c).Routed G := by
  unfold Pool.fail
  split
  · exact h.finish t x
  · refine (h.close c).suspend ?_ rfl
    rintro _ ⟨⟩
    exact hx

/-- A logical send goes on with the client `c`. -/
theorem Routed.attach {s : Pool} {x : Send} (h : s.Routed G) {f : Client → Client}
    (hf : ∀ o, (f o).info = o.info) (hx : G t x.info) (hc : s.objects c = some o)
    (ho : G t o.info) (hi : p.intent = some x.info) (ht : p.target = some c) :
    ((s.set_client c f).goto t p).Routed G := by
  refine (h.set_client c hf).goto ⟨?_, ?_⟩
  · rw [hi]
    rintro _ ⟨⟩
    exact hx
  · rw [ht]
    rintro _ ⟨⟩
    refine ⟨f o, ?_, (hf o).symm ▸ ho⟩
    simp [Pool.set_client, hc]

theorem Routed.return_client {s : Pool} (h : s.Routed G) (caller : Caller)
    (hx : ∀ x, caller = .send x → G t x.info)
    (hc : ∀ x, caller = .send x → ∀ o, s.objects c = some o → G t o.info) :
    (s.return_client t c caller).Routed G := by
  cases caller with
  | direct info => exact h.idle rfl rfl
  | send x =>
    have hx := hx x rfl
    have hc := hc x rfl
    simp only [Pool.return_client]
    split
    · exact h.fail hx c
    · rename_i o ho
      split
      · exact h.fail hx c
      · split
        · exact h.attach (fun _ => rfl) hx ho (hc o ho) rfl rfl
        · exact h.attach (fun _ => rfl) hx ho (hc o ho) rfl rfl

theorem Routed.suspend_job {s : Pool} {job : Job} (h : s.Routed G)
    (hx : ∀ x, job.send = some x → G t x.info)
    (hp : p.intent = job.send.map fun x => x.info) (ht : p.target = none) :
    (s.goto t p).Routed G := by
  refine h.suspend ?_ ht
  rw [hp]
  intro info hi
  obtain ⟨x, hj, rfl⟩ := Option.map_eq_some_iff.mp hi
  exact hx x hj

theorem job_intent (job : Job) :
    (Pc.lock_wait l job).intent = job.send.map fun x => x.info := by
  simp only [Pc.intent, Pc.progress, Option.map_map]
  rfl

theorem Routed.enter {s : Pool} (h : s.Routed G) (l : Nat) (job : Job)
    (hx : ∀ x, job.send = some x → G t x.info)
    (hc : ∀ x c, job.send = some x → s.clients = some c → s.is_connected c = true →
      ∀ o, s.objects c = some o → G t o.info) : (s.enter t l job).Routed G := by
  cases job with
  | get_or_create caller =>
    have hcaller : ∀ x, caller = .send x → (Job.get_or_create caller).send = some x := by
      rintro x rfl
      rfl
    simp only [Pool.enter]
    split
    · rename_i c hcl
      split
      · rename_i hconn
        exact (h.release l).return_client caller (fun x he => hx x (hcaller x he))
          fun x he => hc x c (hcaller x he) hcl hconn
      · exact (h.close c).suspend_job hx (job_intent (l := l) _) rfl
    · exact h.suspend_job hx (job_intent (l := l) _) rfl
  | reconnect info =>
    simp only [Pool.enter]
    split
    · exact (h.close _).idle rfl rfl
    · exact h.idle rfl rfl
  | close_connection =>
    simp only [Pool.enter]
    split
    · refine Routed.idle (Routed.close (Routed.frame h ?_ ?_ ?_ ?_) _) rfl rfl <;> rfl
    · exact Routed.idle (h.frame rfl rfl rfl rfl) rfl rfl

theorem Routed.acquire {s : Pool} (h : s.Routed G) (job : Job)
    (hx : ∀ x, job.send = some x → G t x.info)
    (hc : ∀ x c, job.send = some x → s.lock_free = true → s.clients = some c →
      s.is_connected c = true → ∀ o, s.objects c = some o → G t o.info) :
    (s.acquire t job).Routed G := by
  unfold Pool.acquire
  dsimp only
  split
  · rename_i hf
    refine Routed.enter ?_ _ job hx fun x c hj hcl hconn => hc x c hj hf hcl hconn
    exact h.frame rfl rfl rfl rfl
  · exact Routed.suspend_job (h.frame rfl rfl rfl rfl) hx (job_intent _) rfl

theorem Routed.guardian_loop {s : Pool} (h : s.Routed G) (t : Nat) :
    (s.guardian_loop t).Routed G := by
  unfold Pool.guardian_loop
  split
  · exact h.idle rfl rfl
  · split
    · exact h.idle rfl rfl
    · exact h.idle rfl rfl

theorem Routed.cancel {s : Pool} (h : s.Routed G) (g : Nat) : (s.cancel g).Routed G := by
  unfold Pool.cancel
  split
  · exact Routed.idle (h.frame rfl rfl rfl rfl) rfl rfl
  all_goals first | exact h.idle rfl rfl | exact h

theorem Routed.start_guardian {s : Pool} (h : s.Routed G) (g : Nat) :
    (s.start_guardian g).Routed G := by
  unfold Pool.start_guardian
  dsimp only
  split
  · exact Routed.idle ((h.cancel _).frame rfl rfl rfl rfl) rfl rfl
  · exact Routed.idle (h.frame rfl rfl rfl rfl) rfl rfl

/-- A new client is an object that no task has. -/
theorem Routed.new_client {s : Pool} (h : s.Routed G) (o : Client) :
    Routed G { s with
      objects := Function.update s.objects s.next_object (some o)
      next_object := s.next_object + 1
      clients := some s.next_object } := by
  have hold : ∀ d, d ≠ s.next_object →
      Function.update s.objects s.next_object (some o) d = s.objects d :=
    fun d hd => Function.update_of_ne hd ..
  refine ⟨⟨?_, fun d hd => ?_⟩, fun t => ?_, h.frames⟩
  · exact (hold _ (Nat.succ_ne_self _)).trans (h.objects.2 _ (Nat.lt_succ_self _))
  · have hlt : s.next_object < d := Nat.lt_of_succ_lt hd
    exact (hold d (Nat.ne_of_gt hlt)).trans (h.objects.2 d hlt)
  · have ht := h.task t
    dsimp only
    cases hp : s.pc t with
    | none => trivial
    | some p =>
      rw [hp] at ht
      refine ⟨ht.1, fun c hc => ?_⟩
      obtain ⟨x, hx, hg⟩ := ht.2 c hc
      refine ⟨x, (hold c ?_).trans hx, hg⟩
      rintro rfl
      rw [h.objects.1] at hx
      cases hx

theorem start_guardian_objects (s : Pool) (g : Nat) : (s.start_guardian g).objects = s.objects := by
  have hcancel : ∀ e, (s.cancel e).objects = s.objects := by
    intro e
    unfold Pool.cancel
    split <;> rfl
  unfold Pool.start_guardian
  dsimp only
  split
  · exact hcancel _
  · rfl

theorem Routed.install {s r : Pool} (h : s.Routed G) (job : Job)
    (hx : ∀ x, job.send = some x → G t x.info) (hi : s.install t l g is_open job = some r) :
    r.Routed G := by
  cases job with
  | get_or_create caller =>
    cases hi
    have hcaller : ∀ x, caller = .send x → G t x.info := by
      rintro x rfl
      exact hx x rfl
    have hnew := h.new_client ⟨caller.info, is_open, true, {}⟩
    refine Routed.return_client (Routed.release (Routed.start_guardian ?_ g) l) caller hcaller ?_
    · exact hnew.frame rfl rfl rfl rfl
    · rintro x rfl o ho
      simp only [Pool.release, start_guardian_objects, Function.update_self,
        Option.some.injEq] at ho
      subst ho
      exact hx x rfl
  | reconnect info =>
    cases hi
    exact Routed.guardian_loop (Routed.release (h.new_client _) l) t
  | close_connection => cases hi

theorem reuses_eq {s : Pool} (hcl : s.clients = some c) (hconn : s.is_connected c = true)
    (he : s.entering a = some t) : s.reuses a = some (t, c) := by
  simp only [reuses, hcl, hconn, if_true, he, Option.map_some]

/-- The logical send that enters the section begins in the step or is one of the pool. -/
theorem Routed.entering {s s' : Pool} (h : s.Routed G) (hs : s.step a = some s')
    (he : s.entering a = some t) :
    (∃ key info, a = .send_message t key info) ∨ ∃ info, G t info := by
  cases a with
  | send_message u key info =>
    simp only [Pool.entering] at he
    split at he
    · cases he
      exact .inl ⟨key, info, rfl⟩
    · cases he
  | send_granted u =>
    simp only [Pool.entering] at he
    split at he
    · cases he
      simp only [step] at hs
      split at hs
      · rename_i sl key info ht
        have htask := h.task t
        rw [ht] at htask
        exact .inr ⟨info, htask.1 info rfl⟩
      · cases hs
    · cases he
  | lock_granted u =>
    simp only [Pool.entering] at he
    split at he
    · rename_i l x ht
      cases he
      have htask := h.task t
      rw [ht] at htask
      exact .inr ⟨x.info, htask.1 x.info rfl⟩
    · cases he
  | closed u =>
    simp only [Pool.entering] at he
    split at he
    · rename_i x ht
      split at he
      · cases he
        have htask := h.task t
        rw [ht] at htask
        exact .inr ⟨x.info, htask.1 x.info rfl⟩
      · cases he
    · cases he
  | _ => cases he

theorem reuses_entering {s : Pool} (h : s.reuses a = some (t, c)) : s.entering a = some t := by
  unfold reuses at h
  split at h
  · cases h
  · split at h
    · obtain ⟨u, hu, he⟩ := Option.map_eq_some_iff.mp h
      cases he
      exact hu
    · cases h

/-- A step keeps the instances right when the instance it is given and the client it reuses are. -/
theorem step_routed {s s' : Pool} (h : s.Routed G)
    (hsend : ∀ t key info, a = .send_message t key info → G t info)
    (hreuse : ∀ t c, s.reuses a = some (t, c) → ∀ o, s.objects c = some o → G t o.info)
    (hs : s.step a = some s') : s'.Routed G := by
  have hjob : ∀ {t p job}, s.pc t = some p → p.intent = (Pc.lock_wait 0 job).intent →
      ∀ x, job.send = some x → G t x.info := by
    intro t p job ht he x hx
    have htask := h.task t
    rw [ht] at htask
    apply htask.1
    rw [he]
    exact Pc.intent_of_progress (by rw [Pc.progress, hx]; rfl)
  have hclose : ∀ {p : Pool} {t : Nat}, p.Routed G → (p.acquire t .close_connection).Routed G :=
    fun hp => hp.acquire _ (fun x hx => by cases hx) fun x c hx => by cases hx
  cases steps_of_step hs with
  | get_or_create ht => exact h.acquire _ (fun x hx => by cases hx) fun x c hx => by cases hx
  | send_message ht hk hf =>
    apply Routed.acquire
    · exact h.frame rfl rfl rfl rfl
    · rintro _ ⟨⟩
      exact hsend _ _ _ rfl
    · rintro _ c ⟨⟩ hlock hcl hconn
      apply hreuse _ c (reuses_eq hcl hconn ?_)
      have hlock : s.lock_free = true := hlock
      simp only [entering, hf, hlock, Bool.and_self, if_true]
  | send_waits ht hk hf =>
    refine Routed.suspend (h.frame rfl rfl rfl rfl) ?_ rfl
    rintro _ ⟨⟩
    exact hsend _ _ _ rfl
  | close_connection ht hg => exact hclose (h.frame rfl rfl rfl rfl)
  | close_joins ht hg hp hd =>
    refine Routed.idle (Routed.cancel ?_ _) rfl rfl
    exact h.frame rfl rfl rfl rfl
  | @send_granted t sl key info ls ht hg =>
    have htask := h.task t
    rw [ht] at htask
    apply Routed.acquire
    · exact h.frame rfl rfl rfl rfl
    · rintro _ ⟨⟩
      exact htask.1 _ rfl
    · rintro _ c ⟨⟩ hlock hcl hconn
      apply hreuse _ c (reuses_eq hcl hconn ?_)
      have hlock : s.lock_free = true := hlock
      simp only [entering, hlock, if_true]
  | @lock_granted t l job ls ht hg =>
    apply Routed.enter
    · exact h.frame rfl rfl rfl rfl
    · exact hjob ht rfl
    · intro x c hx hcl hconn
      apply hreuse t c (reuses_eq hcl hconn ?_)
      cases job with
      | get_or_create caller =>
        cases caller with
        | direct info => cases hx
        | send y => simp only [entering, ht]
      | reconnect info => cases hx
      | close_connection => cases hx
  | @client_granted t x c o q ht ho hg =>
    have htask := h.task t
    rw [ht] at htask
    obtain ⟨o', ho', hinfo⟩ := htask.2 c rfl
    exact h.attach (fun _ => rfl) (htask.1 x.info rfl) ho' hinfo rfl rfl
  | closed ht => exact Routed.idle (h.frame rfl rfl rfl rfl) rfl rfl
  | @reopens t l job b ht hj => exact h.suspend_job (hjob ht rfl) (job_intent (l := l) job) rfl
  | @retries t x ht =>
    have htask := h.task t
    rw [ht] at htask
    apply h.acquire
    · rintro _ ⟨⟩
      exact htask.1 x.info rfl
    · rintro _ c ⟨⟩ hlock hcl hconn
      apply hreuse t c (reuses_eq hcl hconn ?_)
      simp only [entering, ht, hlock, if_true]
  | connected ht hg hi => exact h.install _ (hjob ht rfl) hi
  | connect_failed ht => exact (h.release _).idle rfl rfl
  | send_failed ht => exact (h.release _).finish _ _
  | reconnect_failed ht => exact (h.release _).idle rfl rfl
  | @emit t x c o ht ho =>
    have htask := h.task t
    rw [ht] at htask
    obtain ⟨o', ho', hg⟩ := htask.2 c rfl
    cases ho.symm.trans ho'
    have hemit : Routed G { s with frames := s.frames ++ [⟨t, x.key, o.info⟩] } := by
      refine ⟨h.objects, h.task, fun f hf => ?_⟩
      rcases List.mem_append.mp hf with hf | hf
      · exact h.frames f hf
      · rw [List.mem_singleton.mp hf]
        exact hg
    refine hemit.goto ⟨htask.1, ?_⟩
    rintro _ ⟨⟩
    exact ⟨o, ho, hg⟩
  | answered ht =>
    apply Routed.finish
    exact h.set_client _ fun _ => rfl
  | @send_raised t x c ht | @answer_raised t x c ht =>
    have htask := h.task t
    rw [ht] at htask
    apply Routed.fail _ (htask.1 x.info rfl)
    exact h.set_client _ fun _ => rfl
  | joined ht hg => exact hclose h
  | guardian_runs ht | guardian_retries ht | guardian_timeout ht => exact h.guardian_loop _
  | guardian_wakes ht hl => exact h.idle rfl rfl
  | guardian_ends ht hi => exact h.idle rfl rfl
  | reconnects ht hi => exact h.acquire _ (fun x hx => by cases hx) fun x c hx => by cases hx
  | cancelled ht => exact h.idle rfl rfl
  | aborting ht | close_cancelled ht => exact (h.release _).idle rfl rfl
  | ws_drop => exact h.set_client _ fun _ => rfl
  | listen_end => exact h.close _

end Pool

end ClawMux
