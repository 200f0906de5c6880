import ClawMux.Services.Mapping
import ClawMux.Lib.Transition
import ClawMux.Lib.VersionedCache

namespace ClawMux
set_option autoImplicit true
open Lib Lib.Text

/-- `_identity_cache` and `_external_id_cache` of one process. -/
structure MappingStorage where
  identity_cache : Cache (String × String) InstanceInfo := ∅
  external_id_cache : Cache (String × String) (String × InstanceInfo) := ∅

/-- Where a lookup is between its statements. Snapshots are positions in the commit history. -/
inductive Phase (V : Type)
  | opened
  | creating (snapshot : Nat)
  | versioned (snapshot version : Nat)
  | missed (snapshot version : Nat)
  | fetched (version snapshot : Nat) (row : Except MappingError V)
  | done (result : Except MappingError V)

/-- One call of a lookup method; `start` is the newest commit when the call began. -/
structure Session (V : Type) where
  replica : Nat
  key : String × String
  start : Nat
  phase : Phase V

/-- The lookup methods running on every replica over one database. -/
structure MappingSystem where
  past : List Db := []
  current : Db
  storage : Nat → MappingStorage := fun _ => {}
  identity_sessions : Nat → Option (Session InstanceInfo) := fun _ => none
  external_sessions : Nat → Option (Session (String × InstanceInfo)) := fun _ => none

namespace MappingSystem

def history (s : MappingSystem) : List Db := s.past ++ [s.current]

/-- The step of one lookup. A statement may see any snapshot that is no older than the one the
session saw before. -/
inductive SessionAct
  | version (snapshot : Nat)
  | create (snapshot : Nat)
  | probe (now : Int)
  | fetch (snapshot : Nat)
  | store (now : Int)

inductive Act
  | bind (a : BindArgs)
  | invalidate (replica : Nat)
  | open_identity (id replica : Nat) (provider provider_user_id : String)
  | open_external (id replica : Nat) (external_user_id provider : String)
  | identity (id : Nat) (act : SessionAct)
  | external (id : Nat) (act : SessionAct)

/-- One step of a lookup with query `run`, on the cache of its replica. -/
def session_step (ttl : Int) (history : List Db)
    (run : Tables → String × String → Except MappingError V)
    (cache : Cache (String × String) V) (x : Session V) :
    SessionAct → Option (Session V × Cache (String × String) V)
  | .version snapshot =>
    match x.phase, history[snapshot]? with
    | .opened, some db =>
      if x.start ≤ snapshot then
        match db.mapping_state with
        | some v => some ({ x with phase := .versioned snapshot v }, cache)
        | none => some ({ x with phase := .creating snapshot }, cache)
      else none
    | _, _ => none
  | .create snapshot =>
    match x.phase, history[snapshot]? with
    | .creating last, some db =>
      -- the session's own uncommitted row holds version 1
      if last ≤ snapshot then
        some ({ x with phase := .versioned snapshot (db.mapping_state.getD 1) }, cache)
      else none
    | _, _ => none
  | .probe now =>
    match x.phase with
    | .versioned snapshot v =>
      match cache_get cache x.key v now with
      | (some value, cache') => some ({ x with phase := .done (.ok value) }, cache')
      | (none, cache') => some ({ x with phase := .missed snapshot v }, cache')
    | _ => none
  | .fetch snapshot =>
    match x.phase, history[snapshot]? with
    | .missed last v, some db =>
      if last ≤ snapshot then
        some ({ x with phase := .fetched v snapshot (run db.toTables x.key) }, cache)
      else none
    | _, _ => none
  | .store now =>
    match x.phase with
    | .fetched v _ (.ok value) =>
      some ({ x with phase := .done (.ok value) }, cache_put ttl cache x.key v now value)
    | .fetched _ _ (.error e) => some ({ x with phase := .done (.error e) }, cache)
    | _ => none

variable (F : Fernet) (credential_encryption_key : String) (mapping_cache_ttl_sec : Int)

def step (s : MappingSystem) : Act → Option MappingSystem
  | .bind a =>
    match bind_user_instance F credential_encryption_key s.current a with
    | .ok db => some { s with past := s.past ++ [s.current], current := db }
    | .error _ => none
  | .invalidate r => some { s with storage := Function.update s.storage r {} }
  | .open_identity id r provider provider_user_id =>
    match s.identity_sessions id, validate_provider provider with
    | none, .ok p =>
      some { s with
        identity_sessions := Function.update s.identity_sessions id
          (some ⟨r, (p, provider_user_id), s.past.length, .opened⟩) }
    | _, _ => none
  | .open_external id r external_user_id provider =>
    match s.external_sessions id, validate_provider provider with
    | none, .ok p =>
      some { s with
        external_sessions := Function.update s.external_sessions id
          (some ⟨r, (external_user_id, p), s.past.length, .opened⟩) }
    | _, _ => none
  | .identity id act =>
    match s.identity_sessions id with
    | none => none
    | some x =>
      match session_step mapping_cache_ttl_sec s.history
          (Tables.instance_by_identity F credential_encryption_key)
          (s.storage x.replica).identity_cache x act with
      | none => none
      | some (x', cache) =>
        some { s with
          identity_sessions := Function.update s.identity_sessions id (some x')
          storage := Function.update s.storage x.replica
            { s.storage x.replica with identity_cache := cache } }
  | .external id act =>
    match s.external_sessions id with
    | none => none
    | some x =>
      match session_step mapping_cache_ttl_sec s.history
          (Tables.instance_by_external_id F credential_encryption_key)
          (s.storage x.replica).external_id_cache x act with
      | none => none
      | some (x', cache) =>
        some { s with
          external_sessions := Function.update s.external_sessions id (some x')
          storage := Function.update s.storage x.replica
            { s.storage x.replica with external_id_cache := cache } }

/-- All that a step can do, and in which state. -/
inductive Steps (s : MappingSystem) : Act → MappingSystem → Prop
  | bind (hb : bind_user_instance F credential_encryption_key s.current a = .ok db) :
    Steps s (.bind a) { s with past := s.past ++ [s.current], current := db }
  | invalidate : Steps s (.invalidate r) { s with storage := Function.update s.storage r {} }
  | open_identity (hx : s.identity_sessions i = none)
      (hp : validate_provider provider = .ok p) :
    Steps s (.open_identity i r provider user_id) { s with
      identity_sessions := Function.update s.identity_sessions i
        (some ⟨r, (p, user_id), s.past.length, .opened⟩) }
  | open_external (hx : s.external_sessions i = none)
      (hp : validate_provider provider = .ok p) :
    Steps s (.open_external i r external_user_id provider) { s with
      external_sessions := Function.update s.external_sessions i
        (some ⟨r, (external_user_id, p), s.past.length, .opened⟩) }
  | identity (hx : s.identity_sessions i = some x)
      (hs : session_step mapping_cache_ttl_sec s.history
        (Tables.instance_by_identity F credential_encryption_key)
        (s.storage x.replica).identity_cache x act = some (x', cache)) :
    Steps s (.identity i act) { s with
      identity_sessions := Function.update s.identity_sessions i (some x')
      storage := Function.update s.storage x.replica
        { s.storage x.replica with identity_cache := cache } }
  | external (hx : s.external_sessions i = some x)
      (hs : session_step mapping_cache_ttl_sec s.history
        (Tables.instance_by_external_id F credential_encryption_key)
        (s.storage x.replica).external_id_cache x act = some (x', cache)) :
    Steps s (.external i act) { s with
      external_sessions := Function.update s.external_sessions i (some x')
      storage := Function.update s.storage x.replica
        { s.storage x.replica with external_id_cache := cache } }

variable {F credential_encryption_key mapping_cache_ttl_sec}

theorem steps_of_step {s s' : MappingSystem}
    (h : step F credential_encryption_key mapping_cache_ttl_sec s act = some s') :
    Steps F credential_encryption_key mapping_cache_ttl_sec s act s' := by
  rw [step.eq_def] at h
  split at h
  · split at h
    · rename_i hb
      cases h
      exact .bind hb
    · cases h
  · cases h
    exact .invalidate
  · split at h
    · rename_i hp hx
      cases h
      exact .open_identity hp hx
    · cases h
  · split at h
    · rename_i hp hx
      cases h
      exact .open_external hp hx
    · cases h
  · split at h
    · cases h
    · rename_i hx
      split at h
      · cases h
      · rename_i hs
        cases h
        exact .identity hx hs
  · split at h
    · cases h
    · rename_i hx
      split at h
      · cases h
      · rename_i hs
        cases h
        exact .external hx hs

/-- All that a step of a lookup can do, and in which phase. -/
inductive SessionSteps (ttl : Int) (history : List Db)
    (run : Tables → String × String → Except MappingError V)
    (cache : Cache (String × String) V) (x : Session V) :
    SessionAct → Session V → Cache (String × String) V → Prop
  | reads (n v : Nat) (db : Db) (hp : x.phase = .opened) (hn : history[n]? = some db)
      (hle : x.start ≤ n) (hv : db.mapping_state = some v) :
    SessionSteps ttl history run cache x (.version n) { x with phase := .versioned n v } cache
  | lacks (n : Nat) (db : Db) (hp : x.phase = .opened) (hn : history[n]? = some db)
      (hle : x.start ≤ n) (hv : db.mapping_state = none) :
    SessionSteps ttl history run cache x (.version n) { x with phase := .creating n } cache
  | creates (m n : Nat) (db : Db) (hp : x.phase = .creating m) (hn : history[n]? = some db)
      (hle : m ≤ n) :
    SessionSteps ttl history run cache x (.create n)
      { x with phase := .versioned n (db.mapping_state.getD 1) } cache
  | hits (now : Int) (n v : Nat) (value : V) (hp : x.phase = .versioned n v)
      (hg : (cache_get cache x.key v now).1 = some value) :
    SessionSteps ttl history run cache x (.probe now) { x with phase := .done (.ok value) }
      (cache_get cache x.key v now).2
  | misses (now : Int) (n v : Nat) (hp : x.phase = .versioned n v) :
    SessionSteps ttl history run cache x (.probe now) { x with phase := .missed n v }
      (cache_get cache x.key v now).2
  | fetches (m n v : Nat) (db : Db) (hp : x.phase = .missed m v) (hn : history[n]? = some db)
      (hle : m ≤ n) :
    SessionSteps ttl history run cache x (.fetch n)
      { x with phase := .fetched v n (run db.toTables x.key) } cache
  | stores (now : Int) (n v : Nat) (value : V) (hp : x.phase = .fetched v n (.ok value)) :
    SessionSteps ttl history run cache x (.store now) { x with phase := .done (.ok value) }
      (cache_put ttl cache x.key v now value)
  | raises (now : Int) (n v : Nat) (e : MappingError) (hp : x.phase = .fetched v n (.error e)) :
    SessionSteps ttl history run cache x (.store now) { x with phase := .done (.error e) } cache

theorem session_steps {history : List Db}
    {run : Tables → String × String → Except MappingError V} {x x' : Session V}
    (h : session_step ttl history run cache x act = some (x', cache')) :
    SessionSteps ttl history run cache x act x' cache' := by
  cases act with
  | version n =>
    simp only [session_step] at h
    split at h
    · rename_i db hp hn
      split at h
      · rename_i hle
        split at h
        · rename_i v hv
          cases h
          exact .reads n v db hp hn hle hv
        · rename_i hv
          cases h
          exact .lacks n db hp hn hle hv
      · cases h
    · cases h
  | create n =>
    simp only [session_step] at h
    split at h
    · rename_i m db hp hn
      split at h
      · rename_i hle
        cases h
        exact .creates m n db hp hn hle
      · cases h
    · cases h
  | probe now =>
    simp only [session_step] at h
    split at h
    · rename_i n v hp
      split at h
      · rename_i value c hg
        cases h
        have hfirst : (cache_get cache x.key v now).1 = some value := by rw [hg]
        have hrest : (cache_get cache x.key v now).2 = cache' := by rw [hg]
        exact hrest ▸ .hits now n v value hp hfirst
      · rename_i c hg
        cases h
        have hrest : (cache_get cache x.key v now).2 = cache' := by rw [hg]
        exact hrest ▸ .misses now n v hp
    · cases h
  | fetch n =>
    simp only [session_step] at h
    split at h
    · rename_i m v db hp hn
      split at h
      · rename_i hle
        cases h
        exact .fetches m n v db hp hn hle
      · cases h
    · cases h
  | store now =>
    simp only [session_step] at h
    split at h
    · rename_i v n value hp
      cases h
      exact .stores now n v value hp
    · rename_i v n e hp
      cases h
      exact .raises now n v e hp
    · cases h

/-- One committed state, whose singleton row exists, and no lookup yet. -/
def Initial (s : MappingSystem) : Prop :=
  s.past = [] ∧ s.current.mapping_state.isSome ∧ (∀ r, s.storage r = {}) ∧
    (∀ id, s.identity_sessions id = none) ∧ ∀ id, s.external_sessions id = none

end MappingSystem

end ClawMux
