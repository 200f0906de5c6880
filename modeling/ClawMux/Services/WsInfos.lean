import ClawMux.Services.WsSteps

namespace ClawMux
set_option autoImplicit true
open Lib

def Job.info : Job → Option InstanceInfo
  | .get_or_create caller => some caller.info
  | .reconnect info => some info
  | .close_connection => none

/-- The instance that a suspended task goes on with. -/
def Pc.info : Pc → Option InstanceInfo
  | .send_wait _ _ info => some info
  | .lock_wait _ job | .closing _ job _ | .connecting _ job => job.info
  | .client_wait x _ | .sending x _ | .awaiting x _ | .send_closing x => some x.info
  | _ => none

namespace Pool

/-- Everything in the pool is about instances that `P` holds of. -/
structure Within (P : InstanceInfo → Prop) (s : Pool) : Prop where
  objects : ∀ c o, s.objects c = some o → P o.info
  user_info : ∀ info, s.user_info = some info → P info
  task : ∀ t p, s.pc t = some p → ∀ info ∈ p.info, P info
  frames : ∀ f ∈ s.frames, P f.info

/-- The instance that a call brings into the pool. -/
def Act.given : Act → Option InstanceInfo
  | .get_or_create _ info | .send_message _ _ info => some info
  | _ => none

variable {P Q : InstanceInfo → Prop} {s r s' : Pool}

theorem Within.mono (h : s.Within P) (hPQ : ∀ info, P info → Q info) : s.Within Q :=
  ⟨fun c o ho => hPQ _ (h.objects c o ho), fun i hi => hPQ _ (h.user_info i hi),
    fun t p hp i hi => hPQ _ (h.task t p hp i hi), fun f hf => hPQ _ (h.frames f hf)⟩

theorem Within.frame (h : s.Within P) (ho : r.objects = s.objects) (hu : r.user_info = s.user_info)
    (hp : r.pc = s.pc) (hf : r.frames = s.frames) : r.Within P := by
  refine ⟨?_, ?_, ?_, ?_⟩
  · rw [ho]
    exact h.objects
  · rw [hu]
    exact h.user_info
  · rw [hp]
    exact h.task
  · rw [hf]
    exact h.frames

theorem Within.goto (h : s.Within P) (hp : ∀ info ∈ p.info, P info) : (s.goto t p).Within P :=
  ⟨h.objects, h.user_info, forall_update_some h.task hp, h.frames⟩

theorem Within.idle (h : s.Within P) (hp : p.info = none) : (s.goto t p).Within P := by
  apply h.goto
  rw [hp]
  intro info hi
  cases hi

theorem Within.set_client (h : s.Within P) (c : Nat) {f : Client → Client}
    (hf : ∀ o, (f o).info = o.info) : (s.set_client c f).Within P := by
  refine ⟨fun d o ho => ?_, h.user_info, h.task, h.frames⟩
  by_cases hd : d = c
  · subst hd
    simp only [Pool.set_client, Function.update_self] at ho
    obtain ⟨o', ho', rfl⟩ := Option.map_eq_some_iff.mp ho
    rw [hf]
    exact h.objects d o' ho'
  · simp only [Pool.set_client, Function.update_of_ne hd] at ho
    exact h.objects d o ho

theorem Within.close (h : s.Within P) (c : Nat) : (s.close c).Within P :=
  h.set_client c fun _ => rfl

theorem Within.release (h : s.Within P) (l : Nat) : (s.release l).Within P :=
  h.frame rfl rfl rfl rfl

theorem Within.finish (h : s.Within P) (t : Nat) (x : Send) : (s.finish t x).Within P :=
  Within.idle (h.frame rfl rfl rfl rfl) rfl

theorem Within.send (h : s.Within P) {x : Send} (hx : P x.info) (hp : p.info = some x.info) :
    (s.goto t p).Within P := by
  apply h.goto
  rw [hp]
  rintro _ ⟨⟩
  exact hx

theorem Within.fail (h : s.Within P) {x : Send} (hx : P x.info) (c : Nat) :
    (s.fail t x c).Within P := by
  rw [Pool.fail]
  split
  · exact h.finish t x
  · exact (h.close c).send hx rfl

theorem Within.return_client (h : s.Within P) (caller : Caller) (hc : P caller.info) :
    (s.return_client t c caller).Within P := by
  cases caller with
  | direct info => exact h.idle rfl
  | send x =>
    simp only [Pool.return_client]
    split
    · exact h.fail hc c
    · split
      · exact h.fail hc c
      · split
        · apply Within.send (x := x) _ hc rfl
          exact h.set_client c fun _ => rfl
        · apply Within.send (x := x) _ hc rfl
          exact h.set_client c fun _ => rfl

theorem Within.job (h : s.Within P) {job : Job} (hj : ∀ info ∈ job.info, P info)
    (hp : p.info = job.info) : (s.goto t p).Within P := by
  apply h.goto
  rw [hp]
  exact hj

theorem Within.enter (h : s.Within P) (l : Nat) (job : Job) (hj : ∀ info ∈ job.info, P info) :
    (s.enter t l job).Within P := by
  cases job with
  | get_or_create caller =>
    simp only [Pool.enter]
    split
    · split
      · exact (h.release l).return_client caller (hj _ rfl)
      · exact (h.close _).job hj rfl
    · exact h.job hj rfl
  | reconnect info =>
    simp only [Pool.enter]
    split
    · exact (h.close _).job hj rfl
    · exact h.job hj rfl
  | close_connection =>
    have hnone : Within P { s with clients := none, user_info := none } :=
      ⟨h.objects, (fun _ hi => by cases hi), h.task, h.frames⟩
    simp only [Pool.enter]
    split
    · exact (hnone.close _).idle rfl
    · exact Within.idle (hnone.frame rfl rfl rfl rfl) rfl

theorem Within.acquire (h : s.Within P) (job : Job) (hj : ∀ info ∈ job.info, P info) :
    (s.acquire t job).Within P := by
  simp only [Pool.acquire]
  split
  · apply Within.enter _ _ job hj
    exact h.frame rfl rfl rfl rfl
  · exact Within.job (h.frame rfl rfl rfl rfl) hj rfl

theorem Within.guardian_loop (h : s.Within P) (t : Nat) : (s.guardian_loop t).Within P := by
  rw [Pool.guardian_loop]
  split
  · exact h.idle rfl
  · split <;> exact h.idle rfl

theorem Within.cancel (h : s.Within P) (g : Nat) : (s.cancel g).Within P := by
  unfold Pool.cancel
  split
  · exact Within.idle (h.frame rfl rfl rfl rfl) rfl
  · rename_i l info b hg
    refine h.goto fun i hi => h.task g _ hg i hi
  all_goals first | exact h.idle rfl | exact h

theorem Within.start_guardian (h : s.Within P) (g : Nat) : (s.start_guardian g).Within P := by
  simp only [Pool.start_guardian]
  split
  · exact Within.idle ((h.cancel _).frame rfl rfl rfl rfl) rfl
  · exact Within.idle (h.frame rfl rfl rfl rfl) rfl

theorem Within.new_client (h : s.Within P) (hi : P info) (is_open : Bool) (c n : Nat)
    (x : Option Nat) :
    Within P { s with
      objects := Function.update s.objects c (some ⟨info, is_open, true, {}⟩)
      next_object := n
      clients := x } :=
  ⟨forall_update_some h.objects hi, h.user_info, h.task, h.frames⟩

theorem Within.install (h : s.Within P) (job : Job) (hj : ∀ info ∈ job.info, P info)
    (hi : s.install t l g is_open job = some r) : r.Within P := by
  cases job with
  | get_or_create caller =>
    cases hi
    have hc : P caller.info := hj _ rfl
    have hnew := h.new_client hc is_open s.next_object (s.next_object + 1) (some s.next_object)
    refine Within.return_client (Within.release (Within.start_guardian ?_ g) l) caller hc
    refine ⟨hnew.objects, ?_, hnew.task, hnew.frames⟩
    rintro _ ⟨⟩
    exact hc
  | reconnect info =>
    cases hi
    exact Within.guardian_loop (Within.release (h.new_client (hj _ rfl) _ _ _ _) l) t
  | close_connection => cases hi

theorem step_within (h : s.Within P) (hg : ∀ info ∈ a.given, P info) (hs : s.step a = some s') :
    s'.Within P := by
  have hfixed : ∀ {u p}, s.pc u = some p → ∀ info ∈ p.info, P info := fun hp => h.task _ _ hp
  have hclose : ∀ {p : Pool} {t : Nat}, p.Within P → (p.acquire t .close_connection).Within P :=
    fun hp => hp.acquire _ fun _ hi => by cases hi
  cases steps_of_step hs with
  | get_or_create ht => exact h.acquire _ hg
  | send_message ht hk hf =>
    apply Within.acquire
    · exact h.frame rfl rfl rfl rfl
    · exact hg
  | send_waits ht hk hf =>
    apply Within.goto
    · exact h.frame rfl rfl rfl rfl
    · exact hg
  | close_connection ht hg => exact hclose (h.frame rfl rfl rfl rfl)
  | close_joins ht hg hp hd =>
    refine Within.idle (Within.cancel ?_ _) rfl
    exact h.frame rfl rfl rfl rfl
  | send_granted ht hg =>
    apply Within.acquire
    · exact h.frame rfl rfl rfl rfl
    · exact hfixed ht
  | lock_granted ht hg =>
    apply Within.enter _ _ _ (hfixed ht)
    exact h.frame rfl rfl rfl rfl
  | @client_granted t x c o q ht ho hg =>
    apply Within.send (x := x) _ (hfixed ht _ rfl) rfl
    exact h.set_client c fun _ => rfl
  | closed ht => exact Within.idle (h.frame rfl rfl rfl rfl) rfl
  | reopens ht hj => exact h.job (hfixed ht) rfl
  | retries ht => exact h.acquire _ (hfixed ht)
  | connected ht hg hi => exact h.install _ (hfixed ht) hi
  | connect_failed ht | reconnect_failed ht | aborting ht | close_cancelled ht =>
    exact (h.release _).idle rfl
  | send_failed ht => exact (h.release _).finish _ _
  | @emit t x c o ht ho =>
    have hemit : Within P { s with frames := s.frames ++ [⟨t, x.key, o.info⟩] } := by
      refine ⟨h.objects, h.user_info, h.task, fun f hf => ?_⟩
      rcases List.mem_append.mp hf with hf | hf
      · exact h.frames f hf
      · rw [List.mem_singleton.mp hf]
        exact h.objects c o ho
    exact hemit.send (hfixed ht _ rfl) rfl
  | answered ht =>
    apply Within.finish
    exact h.set_client _ fun _ => rfl
  | send_raised ht | answer_raised ht =>
    apply Within.fail _ (hfixed ht _ rfl)
    exact h.set_client _ fun _ => rfl
  | joined ht hg => exact hclose h
  | @guardian_runs t ht | @guardian_retries t ht | @guardian_timeout t c ht =>
    exact h.guardian_loop t
  | guardian_wakes ht hl | guardian_ends ht hi | cancelled ht => exact h.idle rfl
  | @reconnects t info ht hi =>
    apply h.acquire
    rintro _ ⟨⟩
    exact h.user_info info hi
  | @ws_drop c => exact h.set_client c fun _ => rfl
  | @listen_end c => exact h.close c

end Pool

end ClawMux
