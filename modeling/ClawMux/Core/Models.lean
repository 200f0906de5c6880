import ClawMux.Core.Crypto

namespace ClawMux
open Lib.Text

/-- Credentials needed to authenticate with an OpenClaw instance. -/
structure DeviceCredentials where
  device_id : String
  public_key_b64 : String
  private_key_b64 : String
  device_token : String
  gateway_token : String
  deriving DecidableEq, Repr

/-- Result of a mapping lookup. -/
structure InstanceInfo where
  instance_url : String
  credentials : DeviceCredentials
  deriving DecidableEq, Repr

/-- A row of `instance`; the three secrets are in their stored form. -/
structure Instance where
  instance_uuid : String
  instance_url : String
  device_id : String
  public_key_b64 : String
  private_key_b64 : String
  device_token : String
  gateway_token : String
  deriving DecidableEq, Repr

structure AppUser where
  id : String
  external_user_id : Option String
  role : Option String
  deriving DecidableEq, Repr

structure UserIdentity where
  user_id : String
  provider : String
  provider_user_id : String
  deriving DecidableEq, Repr

structure UserInstance where
  instance_uuid : String
  user_id : String
  deriving DecidableEq, Repr

structure UserChannel where
  provider : String
  provider_user_id : String
  channel_id : String
  deriving DecidableEq, Repr

/-- The tables; `mapping_state` is the version in its row with id 1, if that row exists. -/
structure Tables where
  instances : List Instance := []
  app_users : List AppUser := []
  user_identities : List UserIdentity := []
  user_instances : List UserInstance := []
  user_channels : List UserChannel := []
  mapping_state : Option Nat := none
  deriving DecidableEq, Repr

/-- A `String(n)` column holds at most `n` characters. -/
def Fits (n : Nat) (s : String) : Prop := s.toList.length ≤ n

instance (n : Nat) (s : String) : Decidable (Fits n s) := inferInstanceAs (Decidable (_ ≤ _))

/-- Column widths of the schema. -/
structure Tables.Widths (t : Tables) : Prop where
  instances : ∀ i ∈ t.instances, Fits 36 i.instance_uuid ∧ Fits 64 i.device_id
  app_users : ∀ u ∈ t.app_users, Fits 64 u.id ∧ (∀ e ∈ u.external_user_id, Fits 128 e) ∧
    ∀ r ∈ u.role, Fits 64 r
  identities : ∀ d ∈ t.user_identities, Fits 64 d.user_id ∧ Fits 32 d.provider ∧
    Fits 128 d.provider_user_id
  assignments : ∀ a ∈ t.user_instances, Fits 36 a.instance_uuid ∧ Fits 64 a.user_id
  channels : ∀ c ∈ t.user_channels, Fits 32 c.provider ∧ Fits 128 c.provider_user_id ∧
    Fits 128 c.channel_id

/-- Primary keys, unique constraints and foreign keys of the schema. -/
structure Tables.Valid (t : Tables) : Prop where
  widths : t.Widths
  instance_key : (t.instances.map (·.instance_uuid)).Nodup
  app_user_key : (t.app_users.map (·.id)).Nodup
  external_unique : (t.app_users.filterMap (·.external_user_id)).Nodup
  identity_key : (t.user_identities.map fun d => (d.provider, d.provider_user_id)).Nodup
  identity_unique : (t.user_identities.map fun d => (d.user_id, d.provider)).Nodup
  identity_user : ∀ d ∈ t.user_identities, ∃ u ∈ t.app_users, u.id = d.user_id
  assignment_key : (t.user_instances.map (·.instance_uuid)).Nodup
  assignment_unique : (t.user_instances.map (·.user_id)).Nodup
  assignment_instance : ∀ a ∈ t.user_instances, ∃ i ∈ t.instances,
    i.instance_uuid = a.instance_uuid
  assignment_user : ∀ a ∈ t.user_instances, ∃ u ∈ t.app_users, u.id = a.user_id
  channel_key : (t.user_channels.map fun c => (c.provider, c.provider_user_id)).Nodup

/-- The keys, unique constraints and foreign keys alone. -/
structure Tables.Keyed (t : Tables) : Prop where
  instance_key : (t.instances.map (·.instance_uuid)).Nodup
  app_user_key : (t.app_users.map (·.id)).Nodup
  external_unique : (t.app_users.filterMap (·.external_user_id)).Nodup
  identity_key : (t.user_identities.map fun d => (d.provider, d.provider_user_id)).Nodup
  identity_unique : (t.user_identities.map fun d => (d.user_id, d.provider)).Nodup
  identity_user : ∀ d ∈ t.user_identities, ∃ u ∈ t.app_users, u.id = d.user_id
  assignment_key : (t.user_instances.map (·.instance_uuid)).Nodup
  assignment_unique : (t.user_instances.map (·.user_id)).Nodup
  assignment_instance : ∀ a ∈ t.user_instances, ∃ i ∈ t.instances,
    i.instance_uuid = a.instance_uuid
  assignment_user : ∀ a ∈ t.user_instances, ∃ u ∈ t.app_users, u.id = a.user_id
  channel_key : (t.user_channels.map fun c => (c.provider, c.provider_user_id)).Nodup

theorem Tables.Valid.keyed {t : Tables} (h : t.Valid) : t.Keyed :=
  ⟨h.instance_key, h.app_user_key, h.external_unique, h.identity_key, h.identity_unique,
    h.identity_user, h.assignment_key, h.assignment_unique, h.assignment_instance,
    h.assignment_user, h.channel_key⟩

instance (t : Tables) : Decidable t.Widths :=
  decidable_of_iff
    ((∀ i ∈ t.instances, Fits 36 i.instance_uuid ∧ Fits 64 i.device_id) ∧
      (∀ u ∈ t.app_users, Fits 64 u.id ∧ (∀ e ∈ u.external_user_id, Fits 128 e) ∧
        ∀ r ∈ u.role, Fits 64 r) ∧
      (∀ d ∈ t.user_identities, Fits 64 d.user_id ∧ Fits 32 d.provider ∧
        Fits 128 d.provider_user_id) ∧
      (∀ a ∈ t.user_instances, Fits 36 a.instance_uuid ∧ Fits 64 a.user_id) ∧
      ∀ c ∈ t.user_channels, Fits 32 c.provider ∧ Fits 128 c.provider_user_id ∧
        Fits 128 c.channel_id)
    ⟨fun ⟨h₁, h₂, h₃, h₄, h₅⟩ => ⟨h₁, h₂, h₃, h₄, h₅⟩,
      fun ⟨h₁, h₂, h₃, h₄, h₅⟩ => ⟨h₁, h₂, h₃, h₄, h₅⟩⟩

instance (t : Tables) : Decidable t.Valid :=
  decidable_of_iff
    (t.Widths ∧ (t.instances.map (·.instance_uuid)).Nodup ∧ (t.app_users.map (·.id)).Nodup ∧
      (t.app_users.filterMap (·.external_user_id)).Nodup ∧
      (t.user_identities.map fun d => (d.provider, d.provider_user_id)).Nodup ∧
      (t.user_identities.map fun d => (d.user_id, d.provider)).Nodup ∧
      (∀ d ∈ t.user_identities, ∃ u ∈ t.app_users, u.id = d.user_id) ∧
      (t.user_instances.map (·.instance_uuid)).Nodup ∧
      (t.user_instances.map (·.user_id)).Nodup ∧
      (∀ a ∈ t.user_instances, ∃ i ∈ t.instances, i.instance_uuid = a.instance_uuid) ∧
      (∀ a ∈ t.user_instances, ∃ u ∈ t.app_users, u.id = a.user_id) ∧
      (t.user_channels.map fun c => (c.provider, c.provider_user_id)).Nodup)
    ⟨fun ⟨h₁, h₂, h₃, h₄, h₅, h₆, h₇, h₈, h₉, h₁₀, h₁₁, h₁₂⟩ =>
        ⟨h₁, h₂, h₃, h₄, h₅, h₆, h₇, h₈, h₉, h₁₀, h₁₁, h₁₂⟩,
      fun ⟨h₁, h₂, h₃, h₄, h₅, h₆, h₇, h₈, h₉, h₁₀, h₁₁, h₁₂⟩ =>
        ⟨h₁, h₂, h₃, h₄, h₅, h₆, h₇, h₈, h₉, h₁₀, h₁₁, h₁₂⟩⟩

/-- A committed database state. -/
structure Db extends Tables where
  valid : toTables.Valid

end ClawMux
