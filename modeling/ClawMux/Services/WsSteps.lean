import ClawMux.Services.WsManager

namespace ClawMux
set_option autoImplicit true
open Lib

namespace Pool

/-- All that a step can do, and where its task was suspended. -/
inductive Steps (s : Pool) : Act → Pool → Prop
  | get_or_create (ht : s.pc t = none) :
    Steps s (.get_or_create t info) (s.acquire t (.get_or_create (.direct info)))
  | send_message (ht : s.pc t = none) (hk : key ∉ s.keys.map (·.2))
      (hf : (s.send_locks.get.1.heap s.send_locks.get.2).free = true) :
    Steps s (.send_message t key info)
      (acquire { s with
          keys := (t, key) :: s.keys
          send_locks := s.send_locks.get.1.take s.send_locks.get.2 t } t
        (.get_or_create (.send ⟨s.send_locks.get.2, key, info, false⟩)))
  | send_waits (ht : s.pc t = none) (hk : key ∉ s.keys.map (·.2))
      (hf : (s.send_locks.get.1.heap s.send_locks.get.2).free = false) :
    Steps s (.send_message t key info)
      (goto { s with
          keys := (t, key) :: s.keys
          send_locks := s.send_locks.get.1.enqueue s.send_locks.get.2 t } t
        (.send_wait s.send_locks.get.2 key info))
  | close_connection (ht : s.pc t = none) (hg : ∀ g, s.guardian_tasks = some g →
      s.pc g = none ∨ s.pc g = some .done) :
    Steps s (.close_connection t) (acquire { s with guardian_tasks := none } t .close_connection)
  | close_joins (ht : s.pc t = none) (hg : s.guardian_tasks = some g) (hp : s.pc g = some p)
      (hd : p ≠ .done) :
    Steps s (.close_connection t)
      ((cancel { s with guardian_tasks := none } g).goto t (.close_join g))
  | send_granted (ht : s.pc t = some (.send_wait sl key info))
      (hg : s.send_locks.grant sl t = some ls) :
    Steps s (.send_granted t)
      (acquire { s with send_locks := ls } t
        (.get_or_create (.send ⟨sl, key, info, false⟩)))
  | lock_granted (ht : s.pc t = some (.lock_wait l job)) (hg : s.locks.grant l t = some ls) :
    Steps s (.lock_granted t) (enter { s with locks := ls } t l job)
  | client_granted (ht : s.pc t = some (.client_wait x c)) (ho : s.objects c = some o)
      (hg : o.send_lock.grant t = some q) :
    Steps s (.client_granted t)
      ((s.set_client c fun o => { o with send_lock := q }).goto t (.sending x c))
  | closed (ht : s.pc t = some (.closing l .close_connection b)) :
    Steps s (.closed t) ((release { s with
        locks := s.locks.pop
        send_locks := s.send_locks.pop } l).goto t .done)
  | reopens (ht : s.pc t = some (.closing l job b)) (hj : job ≠ .close_connection) :
    Steps s (.closed t) (s.goto t (.connecting l job))
  | retries (ht : s.pc t = some (.send_closing x)) :
    Steps s (.closed t) (s.acquire t (.get_or_create (.send { x with retry := true })))
  | connected (ht : s.pc t = some (.connecting l job)) (hg : s.pc g = none)
      (hi : s.install t l g is_open job = some s') :
    Steps s (.connected t g is_open) s'
  | connect_failed (ht : s.pc t = some (.connecting l (.get_or_create (.direct info)))) :
    Steps s (.connect_failed t) ((s.release l).goto t .done)
  | send_failed (ht : s.pc t = some (.connecting l (.get_or_create (.send x)))) :
    Steps s (.connect_failed t) ((s.release l).finish t x)
  | reconnect_failed (ht : s.pc t = some (.connecting l (.reconnect info))) :
    Steps s (.connect_failed t) ((s.release l).goto t .guard_backoff)
  | emit (ht : s.pc t = some (.sending x c)) (ho : s.objects c = some o) :
    Steps s (.emit t)
      (goto { s with frames := s.frames ++ [Frame.mk t x.key o.info] } t (.awaiting x c))
  | answered (ht : s.pc t = some (.awaiting x c)) :
    Steps s (.answered t)
      ((s.set_client c fun o => { o with send_lock := o.send_lock.release }).finish t x)
  | send_raised (ht : s.pc t = some (.sending x c)) :
    Steps s (.raised t)
      ((s.set_client c fun o => { o with send_lock := o.send_lock.release }).fail t x c)
  | answer_raised (ht : s.pc t = some (.awaiting x c)) :
    Steps s (.raised t)
      ((s.set_client c fun o => { o with send_lock := o.send_lock.release }).fail t x c)
  | joined (ht : s.pc t = some (.close_join g)) (hg : s.pc g = some .done) :
    Steps s (.joined t) (s.acquire t .close_connection)
  | guardian_runs (ht : s.pc t = some .guard_new) : Steps s (.guardian_runs t) (s.guardian_loop t)
  | guardian_retries (ht : s.pc t = some .guard_backoff) :
    Steps s (.guardian_runs t) (s.guardian_loop t)
  | guardian_wakes (ht : s.pc t = some (.guard_watch c)) (hl : s.listening c = false) :
    Steps s (.guardian_runs t) (s.goto t .guard_sleep)
  | guardian_ends (ht : s.pc t = some .guard_sleep) (hi : s.user_info = none) :
    Steps s (.guardian_runs t) (s.goto t .done)
  | reconnects (ht : s.pc t = some .guard_sleep) (hi : s.user_info = some info) :
    Steps s (.guardian_runs t) (s.acquire t (.reconnect info))
  | guardian_timeout (ht : s.pc t = some (.guard_watch c)) :
    Steps s (.guardian_timeout t) (s.guardian_loop t)
  | cancelled (ht : s.pc t = some .cancelled) : Steps s (.unwind t) (s.goto t .done)
  | aborting (ht : s.pc t = some (.aborting l)) : Steps s (.unwind t) ((s.release l).goto t .done)
  | close_cancelled (ht : s.pc t = some (.closing l (.reconnect info) true)) :
    Steps s (.unwind t) ((s.release l).goto t .done)
  | ws_drop : Steps s (.ws_drop c) (s.set_client c fun o => { o with is_open := false })
  | listen_end : Steps s (.listen_end c) (s.close c)

theorem steps_of_step {s s' : Pool} (hs : s.step a = some s') : s.Steps a s' := by
  cases a with
  | get_or_create t info =>
    simp only [step] at hs
    split at hs
    · rename_i ht
      cases hs
      exact .get_or_create ht
    · cases hs
  | send_message t key info =>
    simp only [step] at hs
    split at hs
    · rename_i ht
      split at hs
      · cases hs
      · rename_i hk
        split at hs
        · rename_i hf
          cases hs
          exact .send_message ht hk hf
        · rename_i hf
          cases hs
          exact .send_waits ht hk (Bool.eq_false_iff.mpr hf)
    · cases hs
  | close_connection t =>
    simp only [step] at hs
    split at hs
    · rename_i ht
      split at hs
      · rename_i hg
        cases hs
        have h := Steps.close_connection ht fun g he => by
          rw [hg] at he
          cases he
        rw [← hg] at h
        exact h
      · rename_i g hg
        have hone : ∀ e, s.guardian_tasks = some e → e = g := fun e he =>
          Option.some.inj (he.symm.trans hg)
        split at hs
        · rename_i hp
          cases hs
          exact .close_connection ht fun e he => .inl (hone e he ▸ hp)
        · rename_i hp
          cases hs
          exact .close_connection ht fun e he => .inr (hone e he ▸ hp)
        · rename_i p hd hp
          cases hs
          exact .close_joins ht hg hp hd
    · cases hs
  | send_granted t =>
    simp only [step] at hs
    split at hs
    · rename_i ht
      split at hs
      · rename_i hg
        cases hs
        exact .send_granted ht hg
      · cases hs
    · cases hs
  | lock_granted t =>
    simp only [step] at hs
    split at hs
    · rename_i ht
      split at hs
      · rename_i hg
        cases hs
        exact .lock_granted ht hg
      · cases hs
    · cases hs
  | client_granted t =>
    simp only [step] at hs
    split at hs
    · rename_i ht
      split at hs
      · rename_i q hq
        obtain ⟨o, ho, hg⟩ := Option.bind_eq_some_iff.mp hq
        cases hs
        exact .client_granted ht ho hg
      · cases hs
    · cases hs
  | closed t =>
    simp only [step] at hs
    split at hs
    · rename_i ht
      cases hs
      exact .closed ht
    · rename_i hj ht
      cases hs
      exact .reopens ht hj
    · rename_i ht
      cases hs
      exact .retries ht
    · cases hs
  | connected t g is_open =>
    simp only [step] at hs
    split at hs
    · rename_i ht hg
      exact .connected ht hg hs
    · cases hs
  | connect_failed t =>
    simp only [step] at hs
    split at hs
    · rename_i ht
      cases hs
      exact .connect_failed ht
    · rename_i ht
      cases hs
      exact .send_failed ht
    · rename_i ht
      cases hs
      exact .reconnect_failed ht
    · cases hs
  | emit t =>
    simp only [step] at hs
    split at hs
    · rename_i ht
      split at hs
      · rename_i ho
        cases hs
        exact .emit ht ho
      · cases hs
    · cases hs
  | answered t =>
    simp only [step] at hs
    split at hs
    · rename_i ht
      cases hs
      exact .answered ht
    · cases hs
  | raised t =>
    simp only [step] at hs
    split at hs
    · rename_i ht
      cases hs
      exact .send_raised ht
    · rename_i ht
      cases hs
      exact .answer_raised ht
    · cases hs
  | joined t =>
    simp only [step] at hs
    split at hs
    · rename_i ht
      split at hs
      · rename_i hg
        cases hs
        exact .joined ht hg
      · cases hs
    · cases hs
  | guardian_runs t =>
    simp only [step] at hs
    split at hs
    · rename_i ht
      cases hs
      exact .guardian_runs ht
    · rename_i ht
      cases hs
      exact .guardian_retries ht
    · rename_i ht
      split at hs
      · cases hs
      · rename_i hl
        cases hs
        exact .guardian_wakes ht (Bool.eq_false_iff.mpr hl)
    · rename_i ht
      split at hs
      · rename_i hi
        cases hs
        exact .guardian_ends ht hi
      · rename_i hi
        cases hs
        exact .reconnects ht hi
    · cases hs
  | guardian_timeout t =>
    simp only [step] at hs
    split at hs
    · rename_i ht
      cases hs
      exact .guardian_timeout ht
    · cases hs
  | unwind t =>
    simp only [step] at hs
    split at hs
    · rename_i ht
      cases hs
      exact .cancelled ht
    · rename_i ht
      cases hs
      exact .aborting ht
    · rename_i ht
      cases hs
      exact .close_cancelled ht
    · cases hs
  | ws_drop c =>
    cases hs
    exact .ws_drop
  | listen_end c =>
    cases hs
    exact .listen_end

end Pool

end ClawMux
