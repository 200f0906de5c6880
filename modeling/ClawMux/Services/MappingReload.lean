import ClawMux.Services.MappingCoherence

namespace ClawMux
set_option autoImplicit true
open Lib

/-! Edits from outside, and the reload endpoint -/

inductive ReloadPhase
  | opened
  | creating (snapshot : Nat)
  | read (version : Nat)

/-- A call of `reload_cache_version`. -/
structure Reload where
  replica : Nat
  start : Nat
  phase : ReloadPhase

/-- The replicas with the clock of each process and the reloads that are running. -/
structure ReloadSystem where
  mapping : MappingSystem
  clock : Nat → Int := fun _ => 0
  reloads : Nat → Option Reload := fun _ => none

/-- Drop the entries of another version. -/
def evict {K V : Type} [DecidableEq K] (cache : Cache K V) (version : Nat) : Cache K V :=
  (cache.keys.filter fun key => (cache.lookup key).any (·.version ≠ version)).foldl
    (fun c key => c.erase key) cache

def MappingSystem.SessionAct.now : MappingSystem.SessionAct → Option Int
  | .probe now | .store now => some now
  | _ => none

/-- The process whose clock a step reads, and what it reads. -/
def MappingSystem.ticks (s : MappingSystem) : MappingSystem.Act → Option (Nat × Int)
  | .identity i act => do
    let x ← s.identity_sessions i
    let now ← act.now
    return (x.replica, now)
  | .external i act => do
    let x ← s.external_sessions i
    let now ← act.now
    return (x.replica, now)
  | _ => none

namespace ReloadSystem

inductive Act
  | mapping (act : MappingSystem.Act)
  | edit (db : Db)
  | reload (id replica : Nat)
  | version (id snapshot : Nat)
  | create (id snapshot : Nat)
  | evict (id : Nat)

variable (F : Fernet) (credential_encryption_key : String) (mapping_cache_ttl_sec : Int)

/-- Another phase of reload `i`. -/
def set (s : ReloadSystem) (i : Nat) (x : Option Reload) : ReloadSystem :=
  { s with reloads := Function.update s.reloads i x }

def step (s : ReloadSystem) : Act → Option ReloadSystem
  | .mapping act =>
    match s.mapping.step F credential_encryption_key mapping_cache_ttl_sec act,
      s.mapping.ticks act with
    | some m, none => some { s with mapping := m }
    | some m, some (r, now) =>
      if s.clock r ≤ now then
        some { s with mapping := m, clock := Function.update s.clock r now }
      else none
    | none, _ => none
  | .edit db =>
    some { s with
      mapping := { s.mapping with past := s.mapping.past ++ [s.mapping.current], current := db } }
  | .reload i r =>
    match s.reloads i with
    | none => some (s.set i (some ⟨r, s.mapping.past.length, .opened⟩))
    | some _ => none
  | .version i snapshot =>
    match s.reloads i, s.mapping.history[snapshot]? with
    | some ⟨r, start, .opened⟩, some db =>
      if start ≤ snapshot then
        match db.mapping_state with
        | some v => some (s.set i (some ⟨r, start, .read v⟩))
        | none => some (s.set i (some ⟨r, start, .creating snapshot⟩))
      else none
    | _, _ => none
  | .create i snapshot =>
    match s.reloads i, s.mapping.history[snapshot]? with
    | some ⟨r, start, .creating last⟩, some db =>
      if last ≤ snapshot then
        some (s.set i (some ⟨r, start, .read (db.mapping_state.getD 1)⟩))
      else none
    | _, _ => none
  | .evict i =>
    match s.reloads i with
    | some ⟨r, _, .read v⟩ =>
      some { s.set i none with
        mapping := { s.mapping with
          storage := Function.update s.mapping.storage r
            ⟨ClawMux.evict (s.mapping.storage r).identity_cache v,
              ClawMux.evict (s.mapping.storage r).external_id_cache v⟩ } }
    | _ => none

/-- All that a step can do, and in which state. -/
inductive Steps (s : ReloadSystem) : Act → ReloadSystem → Prop
  | quiet (hm : s.mapping.step F credential_encryption_key mapping_cache_ttl_sec act = some m)
      (ht : s.mapping.ticks act = none) :
    Steps s (.mapping act) { s with mapping := m }
  | ticks (hm : s.mapping.step F credential_encryption_key mapping_cache_ttl_sec act = some m)
      (ht : s.mapping.ticks act = some (r, now)) (hle : s.clock r ≤ now) :
    Steps s (.mapping act) { s with mapping := m, clock := Function.update s.clock r now }
  | edit : Steps s (.edit db) { s with
      mapping := { s.mapping with past := s.mapping.past ++ [s.mapping.current], current := db } }
  | reload (hx : s.reloads i = none) :
    Steps s (.reload i r) (s.set i (some ⟨r, s.mapping.past.length, .opened⟩))
  | version (hx : s.reloads i = some ⟨r, start, .opened⟩)
      (hdb : s.mapping.history[snapshot]? = some db) (hle : start ≤ snapshot)
      (hv : db.mapping_state = some v) :
    Steps s (.version i snapshot) (s.set i (some ⟨r, start, .read v⟩))
  | misses (hx : s.reloads i = some ⟨r, start, .opened⟩)
      (hdb : s.mapping.history[snapshot]? = some db) (hle : start ≤ snapshot)
      (hv : db.mapping_state = none) :
    Steps s (.version i snapshot) (s.set i (some ⟨r, start, .creating snapshot⟩))
  | create (hx : s.reloads i = some ⟨r, start, .creating last⟩)
      (hdb : s.mapping.history[snapshot]? = some db) (hle : last ≤ snapshot) :
    Steps s (.create i snapshot) (s.set i (some ⟨r, start, .read (db.mapping_state.getD 1)⟩))
  | evict (hx : s.reloads i = some ⟨r, start, .read v⟩) :
    Steps s (.evict i) { s.set i none with
      mapping := { s.mapping with
        storage := Function.update s.mapping.storage r
          ⟨ClawMux.evict (s.mapping.storage r).identity_cache v,
            ClawMux.evict (s.mapping.storage r).external_id_cache v⟩ } }

theorem steps_of_step {F : Fernet} {credential_encryption_key : String}
    {mapping_cache_ttl_sec : Int} {s s' : ReloadSystem}
    (h : step F credential_encryption_key mapping_cache_ttl_sec s act = some s') :
    Steps F credential_encryption_key mapping_cache_ttl_sec s act s' := by
  rw [step.eq_def] at h
  split at h
  · split at h
    · rename_i hm ht
      cases h
      exact .quiet hm ht
    · rename_i hm ht
      split at h
      · rename_i hle
        cases h
        exact .ticks hm ht hle
      · cases h
    · cases h
  · cases h
    exact .edit
  · split at h
    · rename_i hx
      cases h
      exact .reload hx
    · cases h
  · split at h
    · rename_i hx hdb
      split at h
      · rename_i hle
        split at h
        · rename_i hv
          cases h
          exact .version hx hdb hle hv
        · rename_i hv
          cases h
          exact .misses hx hdb hle hv
      · cases h
    · cases h
  · split at h
    · rename_i hx hdb
      split at h
      · rename_i hle
        cases h
        exact .create hx hdb hle
      · cases h
    · cases h
  · split at h
    · rename_i hx
      cases h
      exact .evict hx
    · cases h

def Initial (s : ReloadSystem) : Prop := s.mapping.Initial ∧ ∀ i, s.reloads i = none

end ReloadSystem

/-! Keys in use -/

/-- A lookup in this phase may still store what it reads under the version. -/
def Phase.Pending (version : Nat) : Phase V → Prop
  | .opened | .creating _ => True
  | .versioned _ v | .missed _ v => v = version
  | .fetched v _ (.ok _) => v = version
  | .fetched _ _ (.error _) | .done _ => False

/-- A replica holds a live entry of the version for the key, or a lookup on it is reading it. -/
def InUse (replica version : Nat) (now : Int) (cache : Cache (String × String) V)
    (sessions : Nat → Option (Session V)) (key : String × String) : Prop :=
  (∃ entry, cache.lookup key = some entry ∧ entry.version = version ∧ now ≤ entry.expires_at) ∨
  ∃ i x, sessions i = some x ∧ x.replica = replica ∧ x.key = key ∧ x.phase.Pending version

namespace ReloadSystem

/-- The edit raises the version, or it keeps the version and the answer for every key that the
replica uses. -/
structure Announced (F : Fernet) (k : String) (replica : Nat) (s : ReloadSystem) (db : Db) :
    Prop where
  row : db.mapping_state.isSome
  version : s.mapping.current.version < db.version ∨
    db.version = s.mapping.current.version ∧
      (∀ key, InUse replica db.version (s.clock replica)
        (s.mapping.storage replica).identity_cache s.mapping.identity_sessions key →
        db.instance_by_identity F k key = s.mapping.current.instance_by_identity F k key) ∧
      ∀ key, InUse replica db.version (s.clock replica)
        (s.mapping.storage replica).external_id_cache s.mapping.external_sessions key →
        db.instance_by_external_id F k key = s.mapping.current.instance_by_external_id F k key

def Act.edited : Act → Option Db
  | .edit db => some db
  | _ => none

/-- Every edit from outside is announced to the replica. -/
def Edits (F : Fernet) (k : String) (replica : Nat) (s : ReloadSystem) (act : Act) : Prop :=
  ∀ db ∈ act.edited, s.Announced F k replica db

theorem edits_quiet {s : ReloadSystem} {act : Act} (h : act.edited.isNone = true) :
    Edits F k replica s act := by
  intro db hdb
  rw [Option.isNone_iff_eq_none.mp h] at hdb
  cases hdb

theorem meets_quiet {s : ReloadSystem} {acts : List Act}
    (h : acts.all (·.edited.isNone) = true) :
    Meets (step F k ttl) (Edits F k replica) s acts := by
  induction acts generalizing s with
  | nil => trivial
  | cons a acts ih =>
    rw [List.all_cons, Bool.and_eq_true] at h
    refine ⟨edits_quiet h.1, ?_⟩
    split
    · exact ih h.2
    · trivial

end ReloadSystem

/-! What a lookup and a cache know -/

structure Versioned (history : List Db) : Prop where
  versions : Rising Db.version history
  row : ∀ db ∈ history, db.mapping_state.isSome = true

theorem Versioned.version_eq {n : Nat} {db : Db} (h : Versioned history)
    (hn : history[n]? = some db) : db.mapping_state = some db.version := by
  have hr := h.row db (List.mem_of_getElem? hn)
  obtain ⟨v, hv⟩ := Option.isSome_iff_exists.mp hr
  rw [Db.version, hv]
  rfl

/-- Live entries are backed by the history. -/
def CacheBacked (run : Tables → String × String → Except MappingError V) (history : List Db)
    (now : Int) (cache : Cache (String × String) V) : Prop :=
  ∀ key entry, cache.lookup key = some entry → now ≤ entry.expires_at →
    Backed Db.version (fun db => run db.toTables key) history entry.version (.ok entry.value)

/-- What a lookup in flight may rely on. -/
def Session.Steady (run : Tables → String × String → Except MappingError V) (history : List Db)
    (x : Session V) : Prop :=
  match x.phase with
  | .opened | .creating _ => ∀ n a, x.start ≤ n → history[n]? = some a →
      Settled Db.version (fun db => run db.toTables x.key) history n a.version
        (run a.toTables x.key)
  | .versioned n v | .missed n v => ∀ a, history[n]? = some a →
      Settled Db.version (fun db => run db.toTables x.key) history n v (run a.toTables x.key)
  | .fetched v n (.ok value) =>
      Settled Db.version (fun db => run db.toTables x.key) history n v (.ok value)
  | .fetched _ _ (.error _) | .done _ => True

theorem cacheBacked_empty {run : Tables → String × String → Except MappingError V} :
    CacheBacked run history now ∅ := by
  intro key entry he
  cases he

theorem CacheBacked.later {run : Tables → String × String → Except MappingError V}
    (h : CacheBacked run history now cache) (hle : now ≤ now') :
    CacheBacked run history now' cache :=
  fun key entry he hlive => h key entry he (Int.le_trans hle hlive)

/-- One step of a lookup keeps what it knows, and keeps the entries of its replica backed. -/
theorem session_step_steady {run : Tables → String × String → Except MappingError V}
    {x x' : Session V} {clock : Int} (hv : Versioned history) (hx : x.Ok run history)
    (hs : x.Steady run history) (hc : CacheBacked run history clock cache)
    (hle : ∀ now ∈ act.now, clock ≤ now)
    (h : MappingSystem.session_step ttl history run cache x act = some (x', cache')) :
    x'.Ok run history ∧ x'.Steady run history ∧
      CacheBacked run history (act.now.getD clock) cache' := by
  unfold Session.Ok at hx
  unfold Session.Steady at hs
  cases MappingSystem.session_steps h with
  | reads n v db hp hn hstart hver =>
    simp only [hp] at hs
    cases hver.symm.trans (hv.version_eq hn)
    refine ⟨⟨db, ⟨hstart, hn⟩, rfl⟩, ?_, hc⟩
    intro a ha
    cases hn.symm.trans ha
    exact hs n db hstart hn
  | lacks n db hp hn hstart hver => cases hver.symm.trans (hv.version_eq hn)
  | creates m n db hp hn hmn => simp only [hp] at hx
  | hits now n v value hp hg =>
    simp only [hp] at hx hs
    obtain ⟨db, hd, hver⟩ := hx
    have hlater := hc.later (hle now rfl)
    obtain ⟨entry, hl, ht, rfl⟩ := cache_get_hit hg
    have hlive : now ≤ entry.expires_at := cache_get_live hg hl
    obtain ⟨j, b, hj, hb, hr⟩ := (hlater _ _ hl hlive).hit hd.2 (hver.trans ht.symm)
    refine ⟨⟨j, b, ⟨Nat.le_trans hd.1 hj, hb⟩, hr.symm⟩, trivial, ?_⟩
    exact fun k e he => hlater k e (cache_get_lookup he)
  | misses now n v hp =>
    simp only [hp] at hx hs
    have hlater := hc.later (hle now rfl)
    exact ⟨hx, hs, fun k e he => hlater k e (cache_get_lookup he)⟩
  | fetches m n v db hp hn hmn =>
    simp only [hp] at hx hs
    obtain ⟨a, ha, hver⟩ := hx
    refine ⟨⟨m, a, db, ha, hver, ⟨hmn, hn⟩, rfl⟩, ?_, hc⟩
    simp only [Session.Steady]
    cases hrow : run db.toTables x.key with
    | error e => trivial
    | ok value =>
      intro q c hq hcq hcv
      have hlow := hv.versions.le hmn ha.2 hn
      have hhigh := hv.versions.le hq hn hcq
      have hdb : run db.toTables x.key = run a.toTables x.key :=
        hs a ha.2 n db hmn hn (by omega)
      rw [← hrow, hdb]
      exact hs a ha.2 q c (Nat.le_trans hmn hq) hcq hcv
  | stores now n v value hp =>
    simp only [hp] at hx hs
    obtain ⟨m, a, b, ha, hver, hb, hr⟩ := hx
    refine ⟨⟨n, b, ⟨Nat.le_trans ha.1 hb.1, hb.2⟩, hr⟩, trivial, ?_⟩
    intro k e he hlive
    rcases cache_put_lookup he with ⟨rfl, ht, hval⟩ | he
    · rw [ht, hval]
      exact ⟨⟨a, List.mem_of_getElem? ha.2, hver⟩, n, b, hb.2, hr.symm, hs⟩
    · exact hc.later (hle now rfl) k e he hlive
  | raises now n v e hp =>
    simp only [hp] at hx
    obtain ⟨m, a, b, ha, hver, hb, hr⟩ := hx
    exact ⟨⟨n, b, ⟨Nat.le_trans ha.1 hb.1, hb.2⟩, hr⟩, trivial, hc.later (hle now rfl)⟩

theorem evict_lookup {K V : Type} [DecidableEq K] {cache : Cache K V} {k : K} {e : CacheEntry V}
    (h : (evict cache v).lookup k = some e) : cache.lookup k = some e := by
  rw [evict] at h
  generalize cache.keys.filter _ = keys at h
  induction keys generalizing cache with
  | nil => exact h
  | cons key keys ih =>
    have hkeep := ih h
    by_cases hk : k = key
    · rw [hk, AList.lookup_erase] at hkeep
      cases hkeep
    · rwa [AList.lookup_erase_ne hk] at hkeep

theorem CacheBacked.evict {run : Tables → String × String → Except MappingError V}
    (h : CacheBacked run history now cache) : CacheBacked run history now (evict cache v) :=
  fun key entry he hlive => h key entry (evict_lookup he) hlive

/-- A new commit that leaves the keys in use alone. -/
theorem CacheBacked.append {run : Tables → String × String → Except MappingError V}
    (h : CacheBacked run history now cache) (hlast : history.getLast? = some last)
    (hnew : (∀ a ∈ history, a.version < db.version) ∨
      ∀ key entry, cache.lookup key = some entry → entry.version = db.version →
        now ≤ entry.expires_at → last.version = db.version ∧
          run db.toTables key = run last.toTables key) :
    CacheBacked run (history ++ [db]) now cache := by
  intro key entry he hlive
  have hb := h key entry he hlive
  apply hb.append
  intro hver
  rcases hnew with hraise | hsame
  · obtain ⟨⟨a, ha, hat⟩, -⟩ := hb
    have := hraise a ha
    omega
  · obtain ⟨hlv, hrun⟩ := hsame key entry he hver.symm hlive
    obtain ⟨front, rfl⟩ := List.getLast?_eq_some_iff.mp hlast
    obtain ⟨-, j, b, hj, hr, hset⟩ := hb
    have hlt := (List.getElem?_eq_some_iff.mp hj).1
    rw [List.length_append, List.length_singleton] at hlt
    rw [hrun]
    exact hset front.length last (by omega) (by simp) (hlv.trans hver)

/-- What was settled stays so, when the version of the commit is that of a state in use. -/
theorem Session.settled_commit {run : Tables → String × String → Except MappingError V}
    {x : Session V} {front : List Db} {last db : Db}
    (hnew : (∀ a ∈ front ++ [last], a.version < db.version) ∨ last.version = db.version ∧
      (x.phase.Pending db.version → run db.toTables x.key = run last.toTables x.key))
    (hn : (front ++ [last])[n]? = some b) (ha : a ∈ front ++ [last]) (hav : a.version = v)
    (hp : v = db.version → x.phase.Pending db.version)
    (h : Settled Db.version (fun db => run db.toTables x.key) (front ++ [last]) n v r) :
    Settled Db.version (fun db => run db.toTables x.key) (front ++ [last] ++ [db]) n v r := by
  have hlast : (front ++ [last])[front.length]? = some last := List.getElem?_concat_length ..
  have hle : n ≤ front.length := by
    have hlt := (List.getElem?_eq_some_iff.mp hn).1
    rw [List.length_append, List.length_singleton] at hlt
    exact Nat.le_of_lt_succ hlt
  apply h.append
  intro hver
  rcases hnew with hraise | ⟨hlv, hrun⟩
  · have hlt := hraise a ha
    omega
  · rw [hrun (hp hver.symm)]
    exact h front.length last hle hlast (hlv.trans hver)

theorem Session.Steady.append {run : Tables → String × String → Except MappingError V}
    {x : Session V} (hok : x.Ok run history) (h : x.Steady run history)
    (hlast : history.getLast? = some last)
    (hnew : (∀ a ∈ history, a.version < db.version) ∨ last.version = db.version ∧
      (x.phase.Pending db.version → run db.toTables x.key = run last.toTables x.key)) :
    x.Steady run (history ++ [db]) := by
  obtain ⟨front, rfl⟩ := List.getLast?_eq_some_iff.mp hlast
  have hkept : ∀ {n : Nat} {a b : Db}, (front ++ [last])[n]? = some b →
      (front ++ [last] ++ [db])[n]? = some a → (front ++ [last])[n]? = some a := by
    intro n a b hb ha
    rw [getElem?_append_of_some hb [db]] at ha
    exact ha ▸ hb
  unfold Session.Ok at hok
  unfold Session.Steady at h ⊢
  cases hp : x.phase with
  | opened =>
    simp only [hp] at h ⊢
    intro n a hstart hn
    rcases Nat.lt_or_ge n (front ++ [last]).length with hlt | hge
    · rw [List.getElem?_append_left hlt] at hn
      refine Session.settled_commit hnew hn (List.mem_of_getElem? hn) rfl (fun _ => ?_)
        (h n a hstart hn)
      rw [hp]
      trivial
    · intro m c hm hc _
      have hnl := (List.getElem?_eq_some_iff.mp hn).1
      have hml := (List.getElem?_eq_some_iff.mp hc).1
      simp only [List.length_append, List.length_singleton] at hge hnl hml
      obtain rfl : m = n := by omega
      rw [Option.some.inj (hn.symm.trans hc)]
  | creating n => simp only [hp] at hok
  | versioned n v | missed n v =>
    simp only [hp] at h hok ⊢
    obtain ⟨b, hb, hver⟩ := hok
    intro a ha
    refine Session.settled_commit hnew hb.2 (List.mem_of_getElem? hb.2) hver (fun hv => ?_)
      (h a (hkept hb.2 ha))
    rw [hp]
    exact hv
  | fetched v n row =>
    cases row with
    | error e => trivial
    | ok value =>
      simp only [hp] at h hok ⊢
      obtain ⟨m, a, b, ha, hver, hb, -⟩ := hok
      refine Session.settled_commit hnew hb.2 (List.mem_of_getElem? ha.2) hver (fun hv => ?_) h
      rw [hp]
      exact hv
  | done r => trivial

namespace ReloadSystem

/-- The replica, while every edit is announced to it. -/
structure Inv (F : Fernet) (k : String) (replica : Nat) (s : ReloadSystem) : Prop where
  versioned : Versioned s.mapping.history
  identity_cache : CacheBacked (Tables.instance_by_identity F k) s.mapping.history
    (s.clock replica) (s.mapping.storage replica).identity_cache
  external_id_cache : CacheBacked (Tables.instance_by_external_id F k) s.mapping.history
    (s.clock replica) (s.mapping.storage replica).external_id_cache
  identity : ∀ i x, s.mapping.identity_sessions i = some x → x.replica = replica →
    x.Ok (Tables.instance_by_identity F k) s.mapping.history ∧
      x.Steady (Tables.instance_by_identity F k) s.mapping.history
  external : ∀ i x, s.mapping.external_sessions i = some x → x.replica = replica →
    x.Ok (Tables.instance_by_external_id F k) s.mapping.history ∧
      x.Steady (Tables.instance_by_external_id F k) s.mapping.history

theorem inv_initial {s : ReloadSystem} (h : Initial s) : Inv F k replica s := by
  obtain ⟨⟨hp, hrow, hst, hid, hex⟩, -⟩ := h
  have hh : s.mapping.history = [s.mapping.current] := by
    rw [MappingSystem.history, hp, List.nil_append]
  refine ⟨?_, ?_, ?_, ?_, ?_⟩
  · rw [hh]
    refine ⟨List.pairwise_singleton _ _, ?_⟩
    intro db hdb
    rw [List.mem_singleton.mp hdb]
    exact hrow
  · rw [hst]
    exact cacheBacked_empty
  · rw [hst]
    exact cacheBacked_empty
  · intro i x hx
    rw [hid] at hx
    cases hx
  · intro i x hx
    rw [hex] at hx
    cases hx

theorem Versioned.last_le (h : Versioned history) (hlast : history.getLast? = some last) :
    ∀ a ∈ history, a.version ≤ last.version := by
  obtain ⟨front, rfl⟩ := List.getLast?_eq_some_iff.mp hlast
  intro a ha
  rcases List.mem_append.mp ha with ha | ha
  · exact (List.pairwise_append.mp h.versions).2.2 a ha last (List.mem_singleton_self _)
  · rw [List.mem_singleton.mp ha]

theorem Inv.commit {s : ReloadSystem} (h : Inv F k replica s)
    (hdb : s.Announced F k replica db) :
    Inv F k replica { s with mapping := { s.mapping with
      past := s.mapping.past ++ [s.mapping.current], current := db } } := by
  have hlast := s.mapping.history_getLast?
  have hle := Versioned.last_le h.versioned hlast
  have hh : MappingSystem.history { s.mapping with
      past := s.mapping.past ++ [s.mapping.current], current := db } =
      s.mapping.history ++ [db] := rfl
  have hraise : s.mapping.current.version < db.version →
      ∀ a ∈ s.mapping.history, a.version < db.version :=
    fun hlt a ha => Nat.lt_of_le_of_lt (hle a ha) hlt
  refine ⟨?_, ?_, ?_, ?_, ?_⟩
  · rw [hh]
    refine ⟨h.versioned.versions.append ?_, ?_⟩
    · intro a ha
      have := hle a ha
      rcases hdb.version with hlt | ⟨he, -⟩
      · exact Nat.le_of_lt (hraise hlt a ha)
      · omega
    · intro c hc
      rcases List.mem_append.mp hc with hc | hc
      · exact h.versioned.row c hc
      · rw [List.mem_singleton.mp hc]
        exact hdb.row
  · rw [hh]
    apply h.identity_cache.append hlast
    rcases hdb.version with hlt | ⟨he, hid, -⟩
    · exact .inl (hraise hlt)
    · refine .inr fun key entry hk hv hlive => ⟨he.symm, hid key (.inl ⟨entry, hk, hv, hlive⟩)⟩
  · rw [hh]
    apply h.external_id_cache.append hlast
    rcases hdb.version with hlt | ⟨he, -, hex⟩
    · exact .inl (hraise hlt)
    · refine .inr fun key entry hk hv hlive => ⟨he.symm, hex key (.inl ⟨entry, hk, hv, hlive⟩)⟩
  · intro i x hx hreplica
    rw [hh]
    obtain ⟨hok, hsteady⟩ := h.identity i x hx hreplica
    refine ⟨hok.append [db], hsteady.append hok hlast ?_⟩
    rcases hdb.version with hlt | ⟨he, hid, -⟩
    · exact .inl (hraise hlt)
    · exact .inr ⟨he.symm, fun hp => hid x.key (.inr ⟨i, x, hx, hreplica, rfl, hp⟩)⟩
  · intro i x hx hreplica
    rw [hh]
    obtain ⟨hok, hsteady⟩ := h.external i x hx hreplica
    refine ⟨hok.append [db], hsteady.append hok hlast ?_⟩
    rcases hdb.version with hlt | ⟨he, -, hex⟩
    · exact .inl (hraise hlt)
    · exact .inr ⟨he.symm, fun hp => hex x.key (.inr ⟨i, x, hx, hreplica, rfl, hp⟩)⟩

theorem bind_announced {s : ReloadSystem} (h : Inv F k replica s)
    (hb : bind_user_instance F k s.mapping.current a = .ok db) : s.Announced F k replica db := by
  have hcur : s.mapping.history[s.mapping.past.length]? = some s.mapping.current := by
    simp [MappingSystem.history]
  have hs := bind_mapping_state hb
  rw [h.versioned.version_eq hcur] at hs
  refine ⟨by rw [hs]; rfl, .inl ?_⟩
  have hv : db.version = s.mapping.current.version + 1 := by
    rw [Db.version, hs]
    rfl
  omega

/-- A lookup that begins has seen nothing. -/
theorem opened_steady {run : Tables → String × String → Except MappingError V}
    (m : MappingSystem) (r : Nat) (key : String × String) :
    Session.Steady run m.history ⟨r, key, m.past.length, .opened⟩ := by
  intro n a hn ha q c hq hc _
  have hlt := (List.getElem?_eq_some_iff.mp hc).1
  rw [MappingSystem.history, List.length_append, List.length_singleton] at hlt
  simp only at hn
  obtain rfl : q = n := by omega
  rw [Option.some.inj (ha.symm.trans hc)]

/-- Another storage of one process. -/
theorem backed_update {run : Tables → String × String → Except MappingError V}
    {storage : Nat → MappingStorage} (get : MappingStorage → Cache (String × String) V)
    (h : CacheBacked run history now (get (storage q)))
    (hr : q = r → CacheBacked run history now (get m)) :
    CacheBacked run history now (get (Function.update storage r m q)) := by
  by_cases hq : q = r
  · subst hq
    rw [Function.update_self]
    exact hr rfl
  · rw [Function.update_of_ne hq]
    exact h

theorem step_mapping {s s' : ReloadSystem} (h : step F k ttl s (.mapping act) = some s') :
    ∃ m, s.mapping.step F k ttl act = some m ∧ s'.mapping = m ∧
      (s.mapping.ticks act = none → s'.clock = s.clock) ∧
      ∀ r now, s.mapping.ticks act = some (r, now) →
        s.clock r ≤ now ∧ s'.clock = Function.update s.clock r now := by
  cases steps_of_step h with
  | @quiet act m hm ht =>
    refine ⟨m, hm, rfl, fun _ => rfl, ?_⟩
    intro r now he
    cases ht.symm.trans he
  | @ticks act m r now hm ht hle =>
    refine ⟨m, hm, rfl, (fun he => by cases ht.symm.trans he), ?_⟩
    intro r' now' he
    cases ht.symm.trans he
    exact ⟨hle, rfl⟩

/-- What the step of a lookup does to the clock of its replica. -/
theorem clock_update {clock clock' : Nat → Int} {act : MappingSystem.SessionAct}
    (ht : ticks = act.now.map fun now => (r, now)) (hn : ticks = none → clock' = clock)
    (hs : ∀ q now, ticks = some (q, now) → clock q ≤ now ∧ clock' = Function.update clock q now) :
    clock' = Function.update clock r (act.now.getD (clock r)) ∧ ∀ now ∈ act.now, clock r ≤ now := by
  cases ha : act.now with
  | none =>
    rw [ha] at ht
    refine ⟨?_, fun now h => by cases h⟩
    rw [hn ht, Option.getD_none, Function.update_eq_self]
  | some now =>
    rw [ha] at ht
    obtain ⟨hle, he⟩ := hs r now ht
    refine ⟨he, ?_⟩
    intro now' h
    cases h
    exact hle

theorem ticks_identity {s : MappingSystem} (hx : s.identity_sessions i = some x)
    (act : MappingSystem.SessionAct) :
    s.ticks (.identity i act) = act.now.map fun now => (x.replica, now) := by
  simp only [MappingSystem.ticks, hx]
  cases act.now <;> rfl

theorem ticks_external {s : MappingSystem} (hx : s.external_sessions i = some x)
    (act : MappingSystem.SessionAct) :
    s.ticks (.external i act) = act.now.map fun now => (x.replica, now) := by
  simp only [MappingSystem.ticks, hx]
  cases act.now <;> rfl

/-- Another clock, and moves of one lookup and of the cache of its replica. -/
theorem Inv.moved {s s' : ReloadSystem} (h : Inv F k replica s)
    (hh : s'.mapping.history = s.mapping.history)
    (hid : CacheBacked (Tables.instance_by_identity F k) s.mapping.history
      (s'.clock replica) (s'.mapping.storage replica).identity_cache)
    (hex : CacheBacked (Tables.instance_by_external_id F k) s.mapping.history
      (s'.clock replica) (s'.mapping.storage replica).external_id_cache)
    (his : ∀ i x, s'.mapping.identity_sessions i = some x → x.replica = replica →
      x.Ok (Tables.instance_by_identity F k) s.mapping.history ∧
        x.Steady (Tables.instance_by_identity F k) s.mapping.history)
    (hes : ∀ i x, s'.mapping.external_sessions i = some x → x.replica = replica →
      x.Ok (Tables.instance_by_external_id F k) s.mapping.history ∧
        x.Steady (Tables.instance_by_external_id F k) s.mapping.history) : Inv F k replica s' := by
  constructor
  · exact hh ▸ h.versioned
  · exact hh ▸ hid
  · exact hh ▸ hex
  · exact hh ▸ his
  · exact hh ▸ hes

theorem clock_le {clock : Nat → Int} {now : Option Int} (hle : ∀ t ∈ now, clock r₀ ≤ t) (r : Nat) :
    clock r ≤ Function.update clock r₀ (now.getD (clock r₀)) r := by
  by_cases hr : r = r₀
  · subst hr
    rw [Function.update_self]
    cases now with
    | none => exact Int.le_refl _
    | some t => exact hle t rfl
  · exact Int.le_of_eq (Function.update_of_ne hr ..).symm

/-- What a step does to one lookup, and to the cache and the clock of its replica. -/
theorem session_moved {run : Tables → String × String → Except MappingError V}
    {x x' : Session V} {storage : Nat → MappingStorage} {clock clock' : Nat → Int}
    {cache' : Cache (String × String) V} (get : MappingStorage → Cache (String × String) V)
    (hv : Versioned history)
    (hx : x.replica = replica → x.Ok run history ∧ x.Steady run history)
    (hcache : CacheBacked run history (clock replica) (get (storage replica)))
    (hle : ∀ now ∈ act.now, clock x.replica ≤ now)
    (hclock : clock' = Function.update clock x.replica (act.now.getD (clock x.replica)))
    (hstep : MappingSystem.session_step ttl history run (get (storage x.replica)) x act =
      some (x', cache')) :
    (x'.replica = replica → x'.Ok run history ∧ x'.Steady run history) ∧
      ∀ m, get m = cache' → CacheBacked run history (clock' replica)
        (get (Function.update storage x.replica m replica)) := by
  have hlater : clock replica ≤ clock' replica := by
    rw [hclock]
    exact clock_le hle replica
  by_cases hr : x.replica = replica
  · subst hr
    obtain ⟨hok, hsteady⟩ := hx rfl
    obtain ⟨hok', hsteady', hbacked⟩ := session_step_steady hv hok hsteady hcache hle hstep
    refine ⟨fun _ => ⟨hok', hsteady'⟩, fun m hget => ?_⟩
    rw [hclock, Function.update_self, Function.update_self, hget]
    exact hbacked
  · refine ⟨fun he => absurd ((session_step_same hstep).replica.symm.trans he) hr, fun m _ => ?_⟩
    rw [Function.update_of_ne (Ne.symm hr)]
    exact hcache.later hlater

theorem mapping_inv {s s' : ReloadSystem} (h : Inv F k replica s)
    (hs : step F k ttl s (.mapping act) = some s') : Inv F k replica s' := by
  obtain ⟨m, hm, hmap, hquiet, hclock⟩ := step_mapping hs
  cases MappingSystem.steps_of_step hm with
  | bind hb =>
    have hinv := h.commit (bind_announced h hb)
    have hc := hquiet rfl
    obtain ⟨mapping', clock', reloads'⟩ := s'
    simp only at hmap hc
    subst hmap hc
    exact ⟨hinv.versioned, hinv.identity_cache, hinv.external_id_cache, hinv.identity,
      hinv.external⟩
  | invalidate =>
    apply h.moved
    · rw [hmap]
      rfl
    · rw [hmap, hquiet rfl]
      exact backed_update MappingStorage.identity_cache h.identity_cache fun _ =>
        cacheBacked_empty
    · rw [hmap, hquiet rfl]
      exact backed_update MappingStorage.external_id_cache h.external_id_cache fun _ =>
        cacheBacked_empty
    · rw [hmap]
      exact h.identity
    · rw [hmap]
      exact h.external
  | open_identity hn hp =>
    apply h.moved
    · rw [hmap]
      rfl
    · rw [hmap, hquiet rfl]
      exact h.identity_cache
    · rw [hmap, hquiet rfl]
      exact h.external_id_cache
    · rw [hmap]
      exact forall_update_some h.identity fun _ => ⟨trivial, opened_steady s.mapping _ _⟩
    · rw [hmap]
      exact h.external
  | open_external hn hp =>
    apply h.moved
    · rw [hmap]
      rfl
    · rw [hmap, hquiet rfl]
      exact h.identity_cache
    · rw [hmap, hquiet rfl]
      exact h.external_id_cache
    · rw [hmap]
      exact h.identity
    · rw [hmap]
      exact forall_update_some h.external fun _ => ⟨trivial, opened_steady s.mapping _ _⟩
  | @identity i x act x' cache hx hstep =>
    obtain ⟨hc, hle⟩ := clock_update (ticks_identity hx act) hquiet hclock
    obtain ⟨hsession, hbacked⟩ := session_moved MappingStorage.identity_cache h.versioned
      (h.identity i x hx) h.identity_cache hle hc hstep
    have hex := h.external_id_cache.later (clock_le hle replica)
    apply h.moved
    · rw [hmap]
      rfl
    · rw [hmap]
      exact hbacked _ rfl
    · rw [hmap, hc]
      refine backed_update MappingStorage.external_id_cache hex fun hr => ?_
      subst hr
      exact hex
    · rw [hmap]
      exact forall_update_some h.identity hsession
    · rw [hmap]
      exact h.external
  | @external i x act x' cache hx hstep =>
    obtain ⟨hc, hle⟩ := clock_update (ticks_external hx act) hquiet hclock
    obtain ⟨hsession, hbacked⟩ := session_moved MappingStorage.external_id_cache h.versioned
      (h.external i x hx) h.external_id_cache hle hc hstep
    have hid := h.identity_cache.later (clock_le hle replica)
    apply h.moved
    · rw [hmap]
      rfl
    · rw [hmap, hc]
      refine backed_update MappingStorage.identity_cache hid fun hr => ?_
      subst hr
      exact hid
    · rw [hmap]
      exact hbacked _ rfl
    · rw [hmap]
      exact h.identity
    · rw [hmap]
      exact forall_update_some h.external hsession

theorem step_inv {s s' : ReloadSystem} (h : Inv F k replica s) (hc : Edits F k replica s act)
    (hs : step F k ttl s act = some s') : Inv F k replica s' := by
  have hset : ∀ i x, Inv F k replica (s.set i x) := fun i x =>
    ⟨h.versioned, h.identity_cache, h.external_id_cache, h.identity, h.external⟩
  cases steps_of_step hs with
  | quiet | ticks => exact mapping_inv h hs
  | @edit db => exact h.commit (hc db rfl)
  | reload | version | misses | create => exact hset _ _
  | evict hx =>
    apply h.moved
    · rfl
    · refine backed_update MappingStorage.identity_cache h.identity_cache fun hr => ?_
      rw [← hr]
      exact h.identity_cache.evict
    · refine backed_update MappingStorage.external_id_cache h.external_id_cache fun hr => ?_
      rw [← hr]
      exact h.external_id_cache.evict
    · exact h.identity
    · exact h.external

theorem reach_inv {s : ReloadSystem} (h : Reach (step F k ttl) (Edits F k replica) Initial s) :
    Inv F k replica s :=
  h.invariant (fun _ => inv_initial) fun _ _ _ hi hc hs => step_inv hi hc hs

theorem step_kept {s s' : ReloadSystem} (hs : step F k ttl s act = some s') :
    MappingSystem.Kept s.mapping s'.mapping := by
  cases steps_of_step hs with
  | quiet hm ht => exact MappingSystem.step_kept hm
  | ticks hm ht hle => exact MappingSystem.step_kept hm
  | edit =>
    refine ⟨?_, fun _ x hx => ⟨x, hx, .refl x⟩, fun _ x hx => ⟨x, hx, .refl x⟩⟩
    rw [List.length_append]
    omega
  | reload | version | misses | create => exact .refl _
  | evict hx =>
    exact ⟨Nat.le_refl _, fun _ x hx => ⟨x, hx, .refl x⟩, fun _ x hx => ⟨x, hx, .refl x⟩⟩

theorem reach_kept {s s' : ReloadSystem} (h : Reach (step F k ttl) C (· = s) s') :
    MappingSystem.Kept s.mapping s'.mapping := by
  induction h with
  | start he => exact he ▸ MappingSystem.Kept.refl _
  | next _ _ ht ih => exact ih.trans (step_kept ht)

/-- A lookup that begins on a replica after a reload has returned, while every edit is announced to
that replica, answers what the database holds at some moment after its beginning. -/
theorem reload_busts_edits {s s₁ s₂ : ReloadSystem}
    (h : Reach (step F k ttl) (Edits F k r) Initial s) (hr : step F k ttl s (.evict n) = some s₁)
    (h₁ : Reach (step F k ttl) (Edits F k r) (· = s₁) s₂) :
    (∀ i p v s₃ s₄ x res, step F k ttl s₂ (.mapping (.open_identity i r p v)) = some s₃ →
      Reach (step F k ttl) (Edits F k r) (· = s₃) s₄ →
      s₄.mapping.identity_sessions i = some x → x.phase = .done res →
      ∃ n db q, s₂.mapping.past.length ≤ n ∧ s₄.mapping.history[n]? = some db ∧
        validate_provider p = .ok q ∧ res = db.instance_by_identity F k (q, v)) ∧
    (∀ i e p s₃ s₄ x res, step F k ttl s₂ (.mapping (.open_external i r e p)) = some s₃ →
      Reach (step F k ttl) (Edits F k r) (· = s₃) s₄ →
      s₄.mapping.external_sessions i = some x → x.phase = .done res →
      ∃ n db q, s₂.mapping.past.length ≤ n ∧ s₄.mapping.history[n]? = some db ∧
        validate_provider p = .ok q ∧ res = db.instance_by_external_id F k (e, q)) := by
  have hr₂ := (h.next (edits_quiet rfl) hr).append h₁
  constructor
  · intro i p v s₃ s₄ x res ho h₃ hx hd
    obtain ⟨m, hm, hmap, -⟩ := step_mapping ho
    cases MappingSystem.steps_of_step hm with
    | @open_identity i p q r v hi hq =>
      have hopened : s₃.mapping.identity_sessions i =
          some ⟨r, (q, v), s₂.mapping.past.length, .opened⟩ := by
        rw [hmap]
        exact Function.update_self ..
      obtain ⟨x', hx', hkey, hstart, hreplica⟩ := (reach_kept h₃).identity i _ hopened
      cases hx.symm.trans hx'
      obtain ⟨hok, -⟩ :=
        (reach_inv ((hr₂.next (edits_quiet rfl) ho).append h₃)).identity i x hx hreplica
      simp only [Session.Ok, hd] at hok
      obtain ⟨n, db, hsnap, hres⟩ := hok
      rw [hkey] at hres
      rw [Snapshot, hstart] at hsnap
      exact ⟨n, db, q, hsnap.1, hsnap.2, hq, hres⟩
  · intro i e p s₃ s₄ x res ho h₃ hx hd
    obtain ⟨m, hm, hmap, -⟩ := step_mapping ho
    cases MappingSystem.steps_of_step hm with
    | @open_external i p q r e hi hq =>
      have hopened : s₃.mapping.external_sessions i =
          some ⟨r, (e, q), s₂.mapping.past.length, .opened⟩ := by
        rw [hmap]
        exact Function.update_self ..
      obtain ⟨x', hx', hkey, hstart, hreplica⟩ := (reach_kept h₃).external i _ hopened
      cases hx.symm.trans hx'
      obtain ⟨hok, -⟩ :=
        (reach_inv ((hr₂.next (edits_quiet rfl) ho).append h₃)).external i x hx hreplica
      simp only [Session.Ok, hd] at hok
      obtain ⟨n, db, hsnap, hres⟩ := hok
      rw [hkey] at hres
      rw [Snapshot, hstart] at hsnap
      exact ⟨n, db, q, hsnap.1, hsnap.2, hq, hres⟩

def quiet : ReloadSystem := { mapping := MappingSystem.fresh }

theorem quiet_initial : Initial quiet := ⟨MappingSystem.fresh_initial, fun _ => rfl⟩

/-- A bind and a lookup, which caches the row. -/
def cached : List Act :=
  (.bind MappingSystem.binding :: .open_identity 0 0 "telegram" "7" ::
    MappingSystem.lookup 0 1).map .mapping

/-- The row with another url, edited by hand. -/
def rehosted (version : Nat) : Tables where
  instances := [⟨"a", "ws://b", "d", "p", "s", "t", "g"⟩]
  app_users := [⟨"telegram:7", some "telegram:7", some "user"⟩]
  user_identities := [⟨"telegram:7", "telegram", "7"⟩]
  user_instances := [⟨"a", "telegram:7"⟩]
  mapping_state := some version

def reload : List Act := [.reload 0 0, .version 0 2]

/-- A second lookup, by the replica that was told to reload. -/
def again : List Act :=
  [.mapping (.identity 1 (.version 2)), .mapping (.identity 1 (.probe 0))]

def reread : List Act :=
  again ++ [.mapping (.identity 1 (.fetch 2)), .mapping (.identity 1 (.store 0))]

def new_info : InstanceInfo := { MappingSystem.binding.info with instance_url := "ws://b" }

theorem not_reload_busts_edits : ∃ s,
    exec (step Fernet.clear "" 300) quiet (cached ++ .edit ⟨rehosted 2, by decide⟩ :: reload ++
      .evict 0 :: .mapping (.open_identity 1 0 "telegram" "7") :: again) = some s ∧
    (s.mapping.identity_sessions 1).map (·.phase) = some (.done (.ok MappingSystem.binding.info)) ∧
    s.mapping.current.instance_by_identity Fernet.clear "" ("telegram", "7") = .ok new_info := by
  exact ⟨_, rfl, rfl, rfl⟩

/-- Before the edit; with the edit that raises the version and the version read again; after the
reload; with the second lookup begun; with its answer. -/
def served : ReloadSystem := (exec (step Fernet.clear "" 300) quiet cached).get (by decide)

def raised : ReloadSystem :=
  (exec (step Fernet.clear "" 300) served (.edit ⟨rehosted 3, by decide⟩ :: reload)).get (by decide)

def reloaded : ReloadSystem := (step Fernet.clear "" 300 raised (.evict 0)).get (by decide)

def reopened : ReloadSystem :=
  (step Fernet.clear "" 300 reloaded (.mapping (.open_identity 1 0 "telegram" "7"))).get (by decide)

def answered : ReloadSystem := (exec (step Fernet.clear "" 300) reopened reread).get (by decide)

theorem raised_reach :
    Reach (step Fernet.clear "" 300) (Edits Fernet.clear "" 0) Initial raised := by
  have hc : exec (step Fernet.clear "" 300) quiet cached = some served := (Option.some_get _).symm
  have he : exec (step Fernet.clear "" 300) served (.edit ⟨rehosted 3, by decide⟩ :: reload) =
      some raised := (Option.some_get _).symm
  have hs : Reach (step Fernet.clear "" 300) (Edits Fernet.clear "" 0) Initial served :=
    (Reach.start quiet_initial).exec (meets_quiet (by decide)) hc
  have hm : Meets (step Fernet.clear "" 300) (Edits Fernet.clear "" 0) served
      (.edit ⟨rehosted 3, by decide⟩ :: reload) := by
    refine ⟨?_, meets_quiet (by decide)⟩
    intro db hdb
    cases hdb
    exact ⟨rfl, .inl (by decide)⟩
  exact hs.exec hm he

theorem reload_busts_edits_raised : ∃ x n db, answered.mapping.identity_sessions 1 = some x ∧
    x.phase = .done (.ok new_info) ∧ 2 ≤ n ∧ answered.mapping.history[n]? = some db ∧
    db.instance_by_identity Fernet.clear "" ("telegram", "7") = .ok new_info := by
  have hr : step Fernet.clear "" 300 raised (.evict 0) = some reloaded := (Option.some_get _).symm
  have ho : step Fernet.clear "" 300 reloaded (.mapping (.open_identity 1 0 "telegram" "7")) =
      some reopened := (Option.some_get _).symm
  have ha : exec (step Fernet.clear "" 300) reopened reread = some answered :=
    (Option.some_get _).symm
  have hx : answered.mapping.identity_sessions 1 =
      some ⟨0, ("telegram", "7"), 2, .done (.ok new_info)⟩ := rfl
  have hrun : Reach (step Fernet.clear "" 300) (Edits Fernet.clear "" 0) (· = reopened) answered :=
    Reach.exec (.start rfl) (meets_quiet (by decide)) ha
  obtain ⟨n, db, q, hn, hdb, hq, hres⟩ :=
    (reload_busts_edits raised_reach hr (.start rfl)).1 1 "telegram" "7" reopened answered _ _ ho
      hrun hx rfl
  have hq' : validate_provider "telegram" = .ok "telegram" := by decide
  cases hq'.symm.trans hq
  exact ⟨_, n, db, hx, rfl, hn, hdb, hres.symm⟩

end ReloadSystem

end ClawMux
