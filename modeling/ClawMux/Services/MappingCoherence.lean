import ClawMux.Services.MappingSessions
import ClawMux.Services.MappingBind

namespace ClawMux
set_option autoImplicit true
open Lib

def Db.version (db : Db) : Nat := db.mapping_state.getD 0

/-- The answer of a query in a committed state, when it has one. -/
def answer (run : Tables → String × String → Except MappingError V) (key : String × String)
    (db : Db) : Option V := (run db.toTables key).toOption

theorem answer_eq_some {run : Tables → String × String → Except MappingError V} {db : Db} :
    answer run key db = some v ↔ run db.toTables key = .ok v := by
  unfold answer
  cases run db.toTables key <;> simp [Except.toOption]

/-- Commits grow the version, and the singleton row is there in every committed state. -/
structure Committed (history : List Db) : Prop where
  versions : Increasing Db.version history
  row : ∀ db ∈ history, db.mapping_state.isSome = true

theorem Committed.version_eq
    {n : Nat} {db : Db} (h : Committed history) (hn : history[n]? = some db) :
    db.mapping_state = some db.version := by
  have hr := h.row db (List.mem_of_getElem? hn)
  obtain ⟨v, hv⟩ := Option.isSome_iff_exists.mp hr
  rw [Db.version, hv]
  rfl

theorem Committed.append (h : Committed history) (hlast : history.getLast? = some db)
    (hb : bind_user_instance F k db a = .ok db') : Committed (history ++ [db']) := by
  obtain ⟨front, rfl⟩ := List.getLast?_eq_some_iff.mp hlast
  have hv : db.mapping_state = some db.version := h.version_eq (n := front.length) (by simp)
  have hs := bind_mapping_state hb
  rw [hv] at hs
  have hv' : db'.version = db.version + 1 := by rw [Db.version, hs]; rfl
  constructor
  · apply h.versions.append
    intro c hc
    rw [hv']
    rcases List.mem_append.mp hc with hc | hc
    · have := (List.pairwise_append.mp h.versions).2.2 c hc db (List.mem_singleton_self _)
      omega
    · rw [List.mem_singleton.mp hc]
      omega
  · intro c hc
    rcases List.mem_append.mp hc with hc | hc
    · exact h.row c hc
    · rw [List.mem_singleton.mp hc, hs]
      rfl

/-- Every entry is tagged with a version that is not newer than the state it was read from. -/
def CacheSound (run : Tables → String × String → Except MappingError V) (history : List Db)
    (cache : Cache (String × String) V) : Prop :=
  ∀ key entry, cache.lookup key = some entry →
    Sound Db.version (answer run key) history entry.version entry.value

theorem CacheSound.append {run : Tables → String × String → Except MappingError V}
    (h : CacheSound run history cache) (later : List Db) :
    CacheSound run (history ++ later) cache :=
  fun key entry he => (h key entry he).append later

theorem cacheSound_empty {run : Tables → String × String → Except MappingError V} :
    CacheSound run history ∅ := by
  intro key entry he
  cases he

/-- A state no older than the newest commit when the call began. -/
def Snapshot (history : List Db) (start n : Nat) (db : Db) : Prop :=
  start ≤ n ∧ history[n]? = some db

/-- What a lookup knows between its statements. -/
def Session.Ok (run : Tables → String × String → Except MappingError V)
    (history : List Db) (x : Session V) : Prop :=
  match x.phase with
  | .opened => True
  | .creating _ => False
  | .versioned n v | .missed n v => ∃ db, Snapshot history x.start n db ∧ db.version = v
  | .fetched v n row => ∃ m a b, Snapshot history x.start m a ∧ a.version = v ∧
      Snapshot history m n b ∧ row = run b.toTables x.key
  | .done r => ∃ n db, Snapshot history x.start n db ∧ r = run db.toTables x.key

theorem Session.Ok.append {run : Tables → String × String → Except MappingError V}
    {x : Session V} (h : x.Ok run history) (later : List Db) : x.Ok run (history ++ later) := by
  have hs : ∀ {start n db}, Snapshot history start n db → Snapshot (history ++ later) start n db :=
    fun hs => ⟨hs.1, getElem?_append_of_some hs.2 later⟩
  unfold Session.Ok at *
  split at h
  · trivial
  · exact h.elim
  · obtain ⟨db, hd, hv⟩ := h
    exact ⟨db, hs hd, hv⟩
  · obtain ⟨db, hd, hv⟩ := h
    exact ⟨db, hs hd, hv⟩
  · obtain ⟨m, a, b, ha, hv, hb, hr⟩ := h
    exact ⟨m, a, b, hs ha, hv, hs hb, hr⟩
  · obtain ⟨n, db, hd, hr⟩ := h
    exact ⟨n, db, hs hd, hr⟩

/-- Another phase of one lookup. -/
structure Session.Same (x x' : Session V) : Prop where
  key : x'.key = x.key
  start : x'.start = x.start
  replica : x'.replica = x.replica

theorem Session.Same.refl (x : Session V) : x.Same x := ⟨rfl, rfl, rfl⟩

theorem Session.Same.trans {x y z : Session V} (h : x.Same y) (h' : y.Same z) : x.Same z :=
  ⟨h'.key.trans h.key, h'.start.trans h.start, h'.replica.trans h.replica⟩

theorem session_step_same {run : Tables → String × String → Except MappingError V}
    {x x' : Session V}
    (h : MappingSystem.session_step ttl history run cache x act = some (x', cache')) :
    x.Same x' := by
  cases MappingSystem.session_steps h <;> exact ⟨rfl, rfl, rfl⟩

/-- One step of a lookup keeps what it knows and keeps the cache of its replica sound. -/
theorem session_step_ok {run : Tables → String × String → Except MappingError V}
    {x x' : Session V} (hc : Committed history) (hx : x.Ok run history)
    (hs : CacheSound run history cache)
    (h : MappingSystem.session_step ttl history run cache x act = some (x', cache')) :
    x'.Ok run history ∧ CacheSound run history cache' := by
  unfold Session.Ok at hx
  cases MappingSystem.session_steps h with
  | reads n v db hp hn hle hv =>
    cases hv.symm.trans (hc.version_eq hn)
    exact ⟨⟨db, ⟨hle, hn⟩, rfl⟩, hs⟩
  | lacks n db hp hn hle hv => cases hv.symm.trans (hc.version_eq hn)
  | creates m n db hp hn hle => simp only [hp] at hx
  | hits now n v value hp hg =>
    simp only [hp] at hx
    obtain ⟨db, hd, hv⟩ := hx
    obtain ⟨entry, hl, ht, rfl⟩ := cache_get_hit hg
    obtain ⟨j, b, hj, hb, hr⟩ := (hs _ _ hl).hit hc.versions hd.2 (hv.trans ht.symm)
    refine ⟨⟨j, b, ⟨Nat.le_trans hd.1 hj, hb⟩, (answer_eq_some.mp hr).symm⟩, ?_⟩
    exact fun k e he => hs k e (cache_get_lookup he)
  | misses now n v hp =>
    simp only [hp] at hx
    exact ⟨hx, fun k e he => hs k e (cache_get_lookup he)⟩
  | fetches m n v db hp hn hle =>
    simp only [hp] at hx
    obtain ⟨a, ha, hv⟩ := hx
    exact ⟨⟨m, a, db, ha, hv, ⟨hle, hn⟩, rfl⟩, hs⟩
  | stores now n v value hp =>
    simp only [hp] at hx
    obtain ⟨m, a, b, ha, hv, hb, hr⟩ := hx
    refine ⟨⟨n, b, ⟨Nat.le_trans ha.1 hb.1, hb.2⟩, hr⟩, ?_⟩
    intro k e he
    rcases cache_put_lookup he with ⟨rfl, ht, hval⟩ | he
    · refine ⟨m, n, a, b, hb.1, ha.2, hb.2, hv.trans ht.symm, ?_⟩
      rw [hval]
      exact answer_eq_some.mpr hr.symm
    · exact hs k e he
  | raises now n v e hp =>
    simp only [hp] at hx
    obtain ⟨m, a, b, ha, hv, hb, hr⟩ := hx
    exact ⟨⟨n, b, ⟨Nat.le_trans ha.1 hb.1, hb.2⟩, hr⟩, hs⟩

namespace MappingSystem

/-- Both caches of a process are sound. -/
structure StorageSound (F : Fernet) (k : String) (history : List Db) (m : MappingStorage) :
    Prop where
  identity : CacheSound (Tables.instance_by_identity F k) history m.identity_cache
  external : CacheSound (Tables.instance_by_external_id F k) history m.external_id_cache

/-- The invariant of the replicas over one database. -/
structure Inv (F : Fernet) (k : String) (s : MappingSystem) : Prop where
  committed : Committed s.history
  storage : ∀ r, StorageSound F k s.history (s.storage r)
  identity : ∀ i x, s.identity_sessions i = some x →
    x.Ok (Tables.instance_by_identity F k) s.history
  external : ∀ i x, s.external_sessions i = some x →
    x.Ok (Tables.instance_by_external_id F k) s.history

theorem inv_initial {s : MappingSystem} (h : Initial s) : Inv F k s := by
  obtain ⟨hp, hrow, hst, hid, hex⟩ := h
  have hh : s.history = [s.current] := by rw [history, hp, List.nil_append]
  constructor
  · rw [hh]
    refine ⟨List.pairwise_singleton _ _, ?_⟩
    intro db hdb
    rw [List.mem_singleton.mp hdb]
    exact hrow
  · intro r
    rw [hst]
    exact ⟨cacheSound_empty, cacheSound_empty⟩
  · intro i x hx
    rw [hid] at hx
    cases hx
  · intro i x hx
    rw [hex] at hx
    cases hx

theorem history_getLast? (s : MappingSystem) : s.history.getLast? = some s.current := by
  rw [history, List.getLast?_append, List.getLast?_singleton, Option.some_or]

theorem Inv.commit {s : MappingSystem} (h : Inv F k s)
    (hb : bind_user_instance F k s.current a = .ok db) :
    Inv F k { s with past := s.past ++ [s.current], current := db } := by
  have hh : history { s with past := s.past ++ [s.current], current := db } =
      s.history ++ [db] := rfl
  constructor
  · rw [hh]
    exact h.committed.append s.history_getLast? hb
  · rw [hh]
    exact fun r => ⟨(h.storage r).identity.append _, (h.storage r).external.append _⟩
  · rw [hh]
    exact fun i x hx => (h.identity i x hx).append _
  · rw [hh]
    exact fun i x hx => (h.external i x hx).append _

theorem step_inv {s s' : MappingSystem} (h : Inv F k s) (hs : step F k ttl s act = some s') :
    Inv F k s' := by
  cases steps_of_step hs with
  | bind hb => exact h.commit hb
  | invalidate =>
    exact ⟨h.committed, forall_update h.storage ⟨cacheSound_empty, cacheSound_empty⟩, h.identity,
      h.external⟩
  | open_identity hn hp =>
    exact ⟨h.committed, h.storage, forall_update_some h.identity trivial, h.external⟩
  | open_external hn hp =>
    exact ⟨h.committed, h.storage, h.identity, forall_update_some h.external trivial⟩
  | @identity i x act x' cache hx hstep =>
    obtain ⟨hok, hsound⟩ := session_step_ok h.committed (h.identity i x hx)
      (h.storage x.replica).identity hstep
    exact ⟨h.committed, forall_update h.storage ⟨hsound, (h.storage x.replica).external⟩,
      forall_update_some h.identity hok, h.external⟩
  | @external i x act x' cache hx hstep =>
    obtain ⟨hok, hsound⟩ := session_step_ok h.committed (h.external i x hx)
      (h.storage x.replica).external hstep
    exact ⟨h.committed, forall_update h.storage ⟨(h.storage x.replica).identity, hsound⟩,
      h.identity, forall_update_some h.external hok⟩

theorem reach_inv {s : MappingSystem} (h : Reach (step F k ttl) Any Initial s) : Inv F k s :=
  h.invariant (fun _ => inv_initial) fun _ _ _ hi _ hs => step_inv hi hs

/-- Sessions are never dropped, and keep their key, their replica and the commit they began at. -/
structure Kept (s s' : MappingSystem) : Prop where
  past : s.past.length ≤ s'.past.length
  identity : ∀ i x, s.identity_sessions i = some x →
    ∃ x', s'.identity_sessions i = some x' ∧ x.Same x'
  external : ∀ i x, s.external_sessions i = some x →
    ∃ x', s'.external_sessions i = some x' ∧ x.Same x'

theorem Kept.refl (s : MappingSystem) : Kept s s :=
  ⟨Nat.le_refl _, fun _ x hx => ⟨x, hx, .refl x⟩, fun _ x hx => ⟨x, hx, .refl x⟩⟩

theorem Kept.trans {s₁ s₂ s₃ : MappingSystem} (h : Kept s₁ s₂) (h' : Kept s₂ s₃) :
    Kept s₁ s₃ := by
  refine ⟨Nat.le_trans h.past h'.past, ?_, ?_⟩
  · intro i x hx
    obtain ⟨y, hy, hsame⟩ := h.identity i x hx
    obtain ⟨z, hz, hsame'⟩ := h'.identity i y hy
    exact ⟨z, hz, hsame.trans hsame'⟩
  · intro i x hx
    obtain ⟨y, hy, hsame⟩ := h.external i x hx
    obtain ⟨z, hz, hsame'⟩ := h'.external i y hy
    exact ⟨z, hz, hsame.trans hsame'⟩

/-- A new or a moved session leaves the others. -/
theorem update_kept {f : Nat → Option (Session V)} {y : Session V}
    (h : ∀ x, f i = some x → x.Same y) (j : Nat) (x : Session V) (hx : f j = some x) :
    ∃ x', Function.update f i (some y) j = some x' ∧ x.Same x' := by
  by_cases hj : j = i
  · subst hj
    exact ⟨y, Function.update_self .., h x hx⟩
  · exact ⟨x, by rw [Function.update_of_ne hj, hx], .refl x⟩

theorem step_kept {s s' : MappingSystem} (hs : step F k ttl s act = some s') : Kept s s' := by
  have hself : ∀ {V : Type} {f : Nat → Option (Session V)} (i : Nat) (x : Session V),
      f i = some x → ∃ x', f i = some x' ∧ x.Same x' :=
    fun i x hx => ⟨x, hx, .refl x⟩
  cases steps_of_step hs with
  | bind hb =>
    refine ⟨?_, hself, hself⟩
    rw [List.length_append]
    omega
  | invalidate => exact ⟨Nat.le_refl _, hself, hself⟩
  | open_identity hn hp => exact ⟨Nat.le_refl _, update_kept (by simp [hn]), hself⟩
  | open_external hn hp => exact ⟨Nat.le_refl _, hself, update_kept (by simp [hn])⟩
  | identity hx hstep =>
    refine ⟨Nat.le_refl _, update_kept ?_, hself⟩
    intro y hy
    cases hx.symm.trans hy
    exact session_step_same hstep
  | external hx hstep =>
    refine ⟨Nat.le_refl _, hself, update_kept ?_⟩
    intro y hy
    cases hx.symm.trans hy
    exact session_step_same hstep

theorem reach_kept {s s' : MappingSystem} (h : Reach (step F k ttl) Any (· = s) s') : Kept s s' :=
  h.invariant (fun _ he => he ▸ Kept.refl _) fun _ _ _ hi _ hs => hi.trans (step_kept hs)

theorem Inv.identity_done {s : MappingSystem} (h : Inv F k s) (hx : s.identity_sessions i = some x)
    (hd : x.phase = .done res) :
    ∃ n db, x.start ≤ n ∧ s.history[n]? = some db ∧
      res = db.instance_by_identity F k x.key := by
  have hok := h.identity i x hx
  simp only [Session.Ok, hd] at hok
  obtain ⟨n, db, hs, hr⟩ := hok
  exact ⟨n, db, hs.1, hs.2, hr⟩

theorem Inv.external_done {s : MappingSystem} (h : Inv F k s) (hx : s.external_sessions i = some x)
    (hd : x.phase = .done res) :
    ∃ n db, x.start ≤ n ∧ s.history[n]? = some db ∧
      res = db.instance_by_external_id F k x.key := by
  have hok := h.external i x hx
  simp only [Session.Ok, hd] at hok
  obtain ⟨n, db, hs, hr⟩ := hok
  exact ⟨n, db, hs.1, hs.2, hr⟩

/-- A lookup that begins after a committed bind answers, whatever runs beside it, what a database
state at least as new as that commit holds. -/
theorem lookup_after_bind {s s₁ s₂ : MappingSystem}
    (h : Reach (step F k ttl) Any Initial s) (hb : step F k ttl s (.bind a) = some s₁)
    (h₁ : Reach (step F k ttl) Any (· = s₁) s₂) :
    (∀ i r p v s₃ s₄ x res, step F k ttl s₂ (.open_identity i r p v) = some s₃ →
      Reach (step F k ttl) Any (· = s₃) s₄ → s₄.identity_sessions i = some x →
      x.phase = .done res →
      ∃ n db q, s₁.past.length ≤ n ∧ s₄.history[n]? = some db ∧ validate_provider p = .ok q ∧
        res = db.instance_by_identity F k (q, v)) ∧
    (∀ i r e p s₃ s₄ x res, step F k ttl s₂ (.open_external i r e p) = some s₃ →
      Reach (step F k ttl) Any (· = s₃) s₄ → s₄.external_sessions i = some x →
      x.phase = .done res →
      ∃ n db q, s₁.past.length ≤ n ∧ s₄.history[n]? = some db ∧ validate_provider p = .ok q ∧
        res = db.instance_by_external_id F k (e, q)) := by
  have hr₂ := (Reach.next h trivial hb).append h₁
  have hpast := (reach_kept h₁).past
  constructor
  · intro i r p v s₃ s₄ x res ho h₃ hx hd
    obtain ⟨n, db, hn, hdb, hres⟩ :=
      (reach_inv ((hr₂.next trivial ho).append h₃)).identity_done hx hd
    cases steps_of_step ho with
    | open_identity hnone hq =>
      obtain ⟨x', hx', hkey, hstart, -⟩ := (reach_kept h₃).identity i _ (Function.update_self ..)
      cases hx.symm.trans hx'
      rw [hstart] at hn
      rw [hkey] at hres
      exact ⟨n, db, _, Nat.le_trans hpast hn, hdb, hq, hres⟩
  · intro i r e p s₃ s₄ x res ho h₃ hx hd
    obtain ⟨n, db, hn, hdb, hres⟩ :=
      (reach_inv ((hr₂.next trivial ho).append h₃)).external_done hx hd
    cases steps_of_step ho with
    | open_external hnone hq =>
      obtain ⟨x', hx', hkey, hstart, -⟩ := (reach_kept h₃).external i _ (Function.update_self ..)
      cases hx.symm.trans hx'
      rw [hstart] at hn
      rw [hkey] at hres
      exact ⟨n, db, _, Nat.le_trans hpast hn, hdb, hq, hres⟩

def fresh : MappingSystem := { current := ⟨{ mapping_state := some 1 }, by decide⟩ }

def binding : BindArgs where
  provider := "telegram"
  provider_user_id := "7"
  instance_uuid := "a"
  instance_url := "ws://a"
  credentials := ⟨"d", "p", "s", "t", "g"⟩

def rebinding : BindArgs := { binding with instance_uuid := "b", instance_url := "ws://b" }

def lookup (i snapshot : Nat) : List Act :=
  [.identity i (.version snapshot), .identity i (.probe 0), .identity i (.fetch snapshot),
    .identity i (.store 0)]

theorem fresh_initial : Initial fresh := ⟨rfl, rfl, fun _ => rfl, fun _ => rfl, fun _ => rfl⟩

/-- The user is bound and looked up once. -/
def looked_up : List Act := [.bind binding, .open_identity 0 0 "telegram" "7"] ++ lookup 0 1

def cached : MappingSystem := (exec (step Fernet.clear "" 300) fresh looked_up).get (by decide)

/-- After the second bind; with a lookup begun; with its answer. -/
def bound : MappingSystem := (step Fernet.clear "" 300 cached (.bind rebinding)).get (by decide)

def opened : MappingSystem :=
  (step Fernet.clear "" 300 bound (.open_identity 1 0 "telegram" "7")).get (by decide)

def answered : MappingSystem :=
  (exec (step Fernet.clear "" 300) opened (lookup 1 2)).get (by decide)

/-- The replica of the lookup still has the row of the first bind in its cache. -/
theorem lookup_after_bind_stale : ∃ x n db,
    (bound.storage 0).identity_cache.lookup ("telegram", "7") = some ⟨2, 300, binding.info⟩ ∧
    answered.identity_sessions 1 = some x ∧
    x.phase = .done (.ok rebinding.info) ∧ bound.past.length ≤ n ∧
    answered.history[n]? = some db ∧
    Tables.instance_by_identity Fernet.clear "" db.toTables ("telegram", "7") =
      .ok rebinding.info := by
  have hc : exec (step Fernet.clear "" 300) fresh looked_up = some cached :=
    (Option.some_get _).symm
  have hb : step Fernet.clear "" 300 cached (.bind rebinding) = some bound :=
    (Option.some_get _).symm
  have ho : step Fernet.clear "" 300 bound (.open_identity 1 0 "telegram" "7") = some opened :=
    (Option.some_get _).symm
  have he : exec (step Fernet.clear "" 300) opened (lookup 1 2) = some answered :=
    (Option.some_get _).symm
  have hx : answered.identity_sessions 1 =
      some ⟨0, ("telegram", "7"), 2, .done (.ok rebinding.info)⟩ := rfl
  have hstale : (bound.storage 0).identity_cache.lookup ("telegram", "7") =
      some ⟨2, 300, binding.info⟩ := rfl
  obtain ⟨n, db, q, hn, hdb, hq, hres⟩ :=
    (lookup_after_bind (reach_of_exec fresh_initial hc) hb (.start rfl)).1 1 0 "telegram" "7" opened
      answered _ _ ho (reach_of_exec rfl he) hx rfl
  have hq' : q = "telegram" := by
    have : validate_provider "telegram" = .ok "telegram" := by decide
    exact (Except.ok.inj (this.symm.trans hq)).symm
  exact ⟨_, n, db, hstale, hx, rfl, hn, hdb, hq' ▸ hres.symm⟩

end MappingSystem

end ClawMux
