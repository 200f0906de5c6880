import ClawMux.Core.Models
import Mathlib.Data.List.AList

namespace ClawMux
open Lib.Text

def DEFAULT_PROVIDER : String := "mattermost"

def SUPPORTED_PROVIDERS : List String :=
  ["mattermost", "telegram", "bitrix", "slack", "vk_teams", "teams"]

def MAX_CACHE_ENTRIES : Nat := 1000

inductive MappingError
  | unsupportedProvider (provider : String)
  | instanceNotFound (identifier : String)
  | multipleResultsFound
  | credential (e : CredentialEncryptionError)
  | integrity
  deriving DecidableEq, Repr

def validate_provider (provider : String) : Except MappingError String :=
  let normalized := lower (strip provider)
  if normalized ∈ SUPPORTED_PROVIDERS then .ok normalized
  else .error (.unsupportedProvider provider)

/-! The process-local caches -/

/-- A cached value with the global mapping version it was read under and its expiry. -/
structure CacheEntry (V : Type) where
  version : Nat
  expires_at : Int
  value : V

abbrev Cache (K V : Type) := AList fun _ : K => CacheEntry V

def cache_get {K V : Type} [DecidableEq K] (cache : Cache K V) (key : K) (version : Nat)
    (now : Int) : Option V × Cache K V :=
  match cache.lookup key with
  | none => (none, cache)
  | some entry =>
    if now > entry.expires_at ∨ entry.version ≠ version then (none, cache.erase key)
    else (some entry.value, cache)

def cache_put {K V : Type} [DecidableEq K] (ttl : Int) (cache : Cache K V) (key : K)
    (version : Nat) (now : Int) (value : V) : Cache K V :=
  (if MAX_CACHE_ENTRIES ≤ cache.keys.length then ∅ else cache).insert key
    ⟨version, now + ttl, value⟩

theorem cache_get_hit {K V : Type} [DecidableEq K] {cache : Cache K V} {key : K} {version : Nat}
    {now : Int} {value : V} (h : (cache_get cache key version now).1 = some value) :
    ∃ entry, cache.lookup key = some entry ∧ entry.version = version ∧ entry.value = value := by
  unfold cache_get at h
  split at h
  · cases h
  · rename_i entry he
    split at h
    · cases h
    · rename_i hn
      refine ⟨entry, he, ?_, Option.some.inj h⟩
      by_contra hv
      exact hn (.inr hv)

theorem cache_get_live {K V : Type} [DecidableEq K] {cache : Cache K V} {key : K} {version : Nat}
    {now : Int} {value : V} {entry : CacheEntry V}
    (h : (cache_get cache key version now).1 = some value) (he : cache.lookup key = some entry) :
    now ≤ entry.expires_at := by
  simp only [cache_get, he] at h
  split at h
  · cases h
  · rename_i hn
    by_contra hlt
    exact hn (.inl (Int.not_le.mp hlt))

/-- A probe adds nothing to a cache. -/
theorem cache_get_lookup {K V : Type} [DecidableEq K] {cache : Cache K V} {key k : K}
    {version : Nat} {now : Int} {entry : CacheEntry V}
    (h : (cache_get cache key version now).2.lookup k = some entry) :
    cache.lookup k = some entry := by
  unfold cache_get at h
  split at h
  · exact h
  · split at h
    · by_cases hk : k = key
      · subst k
        rw [AList.lookup_erase] at h
        cases h
      · rwa [AList.lookup_erase_ne hk] at h
    · exact h

theorem cache_put_lookup {K V : Type} [DecidableEq K] {ttl : Int} {cache : Cache K V} {key k : K}
    {version : Nat} {now : Int} {value : V} {entry : CacheEntry V}
    (h : (cache_put ttl cache key version now value).lookup k = some entry) :
    k = key ∧ entry.version = version ∧ entry.value = value ∨ cache.lookup k = some entry := by
  unfold cache_put at h
  by_cases hk : k = key
  · subst k
    rw [AList.lookup_insert] at h
    cases h
    exact .inl ⟨rfl, rfl, rfl⟩
  · rw [AList.lookup_insert_ne hk] at h
    split at h
    · cases h
    · exact .inr h

/-! The queries of the lookups -/

def one_or_none {α : Type} : List α → Except MappingError (Option α)
  | [] => .ok none
  | [a] => .ok (some a)
  | _ => .error .multipleResultsFound

/-- `select(Instance)` joined with user_instance, app_user and user_identity. -/
def Tables.by_identity (t : Tables) (provider provider_user_id : String) : List Instance :=
  t.instances.flatMap fun i =>
    (t.user_instances.filter (·.instance_uuid = i.instance_uuid)).flatMap fun a =>
      (t.app_users.filter (·.id = a.user_id)).flatMap fun u =>
        (t.user_identities.filter fun d => d.user_id = u.id ∧ d.provider = provider ∧
          d.provider_user_id = provider_user_id).map fun _ => i

/-- `select(AppUser, UserIdentity.provider_user_id, Instance)` joined in the other order. -/
def Tables.by_external_id (t : Tables) (external_user_id provider : String) :
    List (AppUser × String × Instance) :=
  (t.app_users.filter (·.external_user_id = some external_user_id)).flatMap fun u =>
    (t.user_identities.filter fun d => d.user_id = u.id ∧ d.provider = provider).flatMap fun d =>
      (t.user_instances.filter (·.user_id = u.id)).flatMap fun a =>
        (t.instances.filter (·.instance_uuid = a.instance_uuid)).map fun i =>
          (u, d.provider_user_id, i)

variable (F : Fernet) (credential_encryption_key : String)

/-- What loading a row of `instance` through the ORM yields. -/
def Instance.load (i : Instance) : Except MappingError InstanceInfo :=
  let read := fun v => (process_result_value F credential_encryption_key v).mapError .credential
  do
    let private_key_b64 ← read i.private_key_b64
    let device_token ← read i.device_token
    let gateway_token ← read i.gateway_token
    return ⟨i.instance_url, i.device_id, i.public_key_b64, private_key_b64, device_token,
      gateway_token⟩

/-- The row that `get_instance_by_identity` reads for a validated provider. -/
def Tables.instance_by_identity (t : Tables) (key : String × String) :
    Except MappingError InstanceInfo := do
  match ← one_or_none (t.by_identity key.1 key.2) with
  | none => throw (.instanceNotFound (key.1 ++ ":" ++ key.2))
  | some i => i.load F credential_encryption_key

/-- The row that `get_instance_by_external_id` reads; the key is (external_user_id, provider). -/
def Tables.instance_by_external_id (t : Tables) (key : String × String) :
    Except MappingError (String × InstanceInfo) := do
  match ← one_or_none (t.by_external_id key.1 key.2) with
  | none => throw (.instanceNotFound (key.2 ++ ":" ++ key.1))
  | some (_, provider_user_id, i) =>
    let info ← i.load F credential_encryption_key
    return (provider_user_id, info)

/-! `bind_user_instance` -/

structure BindArgs where
  provider : String
  provider_user_id : String
  instance_uuid : String
  instance_url : String
  credentials : DeviceCredentials
  external_user_id : Option String := none
  role : Option String := some "user"
  deriving DecidableEq, Repr

def BindArgs.info (a : BindArgs) : InstanceInfo := ⟨a.instance_url, a.credentials⟩

def app_user_id (provider provider_user_id : String) : String :=
  provider ++ ":" ++ provider_user_id

/-- `external_user_id or app_user_id` -/
def BindArgs.ext_user_id (a : BindArgs) (app_user_id : String) : String :=
  match a.external_user_id with
  | some e => if e = "" then app_user_id else e
  | none => app_user_id

/-- A changed secret is encrypted anew, an unchanged one keeps its stored form. -/
def store_secret (old : Option (String × String)) (new : String) : Except MappingError String :=
  match old with
  | some (stored, value) =>
    if value = new then .ok stored
    else (process_bind_param F credential_encryption_key new).mapError .credential
  | none => (process_bind_param F credential_encryption_key new).mapError .credential

def upsert_instance (t : Tables) (a : BindArgs) : Except MappingError Tables := do
  match ← one_or_none (t.instances.filter (·.instance_uuid = a.instance_uuid)) with
  | none =>
    let private_key_b64 ←
      store_secret F credential_encryption_key none a.credentials.private_key_b64
    let device_token ← store_secret F credential_encryption_key none a.credentials.device_token
    let gateway_token ← store_secret F credential_encryption_key none a.credentials.gateway_token
    return { t with instances := t.instances ++ [⟨a.instance_uuid, a.instance_url,
      a.credentials.device_id, a.credentials.public_key_b64, private_key_b64, device_token,
      gateway_token⟩] }
  | some i =>
    let loaded ← i.load F credential_encryption_key
    let private_key_b64 ← store_secret F credential_encryption_key
      (some (i.private_key_b64, loaded.credentials.private_key_b64)) a.credentials.private_key_b64
    let device_token ← store_secret F credential_encryption_key
      (some (i.device_token, loaded.credentials.device_token)) a.credentials.device_token
    let gateway_token ← store_secret F credential_encryption_key
      (some (i.gateway_token, loaded.credentials.gateway_token)) a.credentials.gateway_token
    let updated : Instance := ⟨a.instance_uuid, a.instance_url, a.credentials.device_id,
      a.credentials.public_key_b64, private_key_b64, device_token, gateway_token⟩
    return { t with instances := t.instances.map fun j =>
      if j.instance_uuid = a.instance_uuid then updated else j }

def upsert_app_user (t : Tables) (uid ext_user_id : String) (role : Option String) : Tables :=
  match t.app_users.find? (·.id = uid) with
  | none => { t with app_users := t.app_users ++ [⟨uid, some ext_user_id, role⟩] }
  | some _ => { t with app_users := t.app_users.map fun u =>
      if u.id = uid ∧ u.role = none then { u with role := role } else u }

def upsert_identity (t : Tables) (user_id provider provider_user_id : String) : Tables :=
  match t.user_identities.find? fun d => d.user_id = user_id ∧ d.provider = provider with
  | none =>
    { t with user_identities := t.user_identities ++ [⟨user_id, provider, provider_user_id⟩] }
  | some _ => t

def upsert_user_instance (t : Tables) (user_id instance_uuid : String) : Tables :=
  match t.user_instances.find? (·.user_id = user_id) with
  | none => { t with user_instances := t.user_instances ++ [⟨instance_uuid, user_id⟩] }
  | some _ => { t with user_instances := t.user_instances.map fun a =>
      if a.user_id = user_id then { a with instance_uuid := instance_uuid } else a }

/-- INSERT of version 1, or increment of the version in the row. -/
def bumped (version : Option Nat) : Nat :=
  match version with
  | none => 1
  | some v => v + 1

def bump_version (t : Tables) : Tables := { t with mapping_state := some (bumped t.mapping_state) }

/-- The transaction commits only when the schema accepts what it wrote. -/
def commit (t : Tables) : Except MappingError Db :=
  if h : t.Valid then .ok ⟨t, h⟩ else .error .integrity

/-- The transaction of `bind_user_instance`: the next committed state, or an error and no change. -/
def bind_user_instance (db : Db) (a : BindArgs) : Except MappingError Db := do
  let provider ← validate_provider a.provider
  let uid := app_user_id provider a.provider_user_id
  let t₁ ← upsert_instance F credential_encryption_key db.toTables a
  let t₂ := upsert_app_user t₁ uid (a.ext_user_id uid) a.role
  let t₃ := upsert_identity t₂ uid provider a.provider_user_id
  let t₄ := upsert_user_instance t₃ uid a.instance_uuid
  commit (bump_version t₄)

end ClawMux
