import ClawMux.Services.MappingBind

namespace ClawMux
set_option autoImplicit true
open Lib Lib.Text

/-! The rows that `bind_user_instance` writes -/

def BindArgs.new_instance (a : BindArgs) (private_key_b64 device_token gateway_token : String) :
    Instance where
  instance_uuid := a.instance_uuid
  instance_url := a.instance_url
  device_id := a.credentials.device_id
  public_key_b64 := a.credentials.public_key_b64
  private_key_b64 := private_key_b64
  device_token := device_token
  gateway_token := gateway_token

def AppUser.assume (u : AppUser) (uid : String) (role : Option String) : AppUser :=
  if u.id = uid ∧ u.role = none then { u with role := role } else u

def UserInstance.assign (x : UserInstance) (uid uuid : String) : UserInstance :=
  if x.user_id = uid then { x with instance_uuid := uuid } else x

theorem AppUser.assume_id (u : AppUser) (uid : String) (role : Option String) :
    (u.assume uid role).id = u.id := by
  rw [assume]
  split <;> rfl

theorem AppUser.assume_external (u : AppUser) (uid : String) (role : Option String) :
    (u.assume uid role).external_user_id = u.external_user_id := by
  rw [assume]
  split <;> rfl

theorem UserInstance.assign_user (x : UserInstance) (uid uuid : String) :
    (x.assign uid uuid).user_id = x.user_id := by
  rw [assign]
  split <;> rfl

/-- A uuid that no instance has is inserted with its secrets in stored form. -/
theorem upsert_instance_fresh {t t' : Tables}
    (hf : ∀ i ∈ t.instances, i.instance_uuid ≠ a.instance_uuid) :
    upsert_instance F k t a = .ok t' ↔ ∃ private_key_b64 device_token gateway_token,
      process_bind_param F k a.credentials.private_key_b64 = .ok private_key_b64 ∧
      process_bind_param F k a.credentials.device_token = .ok device_token ∧
      process_bind_param F k a.credentials.gateway_token = .ok gateway_token ∧
      t' = { t with instances :=
        t.instances ++ [a.new_instance private_key_b64 device_token gateway_token] } := by
  have hnil : t.instances.filter (·.instance_uuid = a.instance_uuid) = [] := by
    rw [List.filter_eq_nil_iff]
    intro i hi he
    exact hf i hi (of_decide_eq_true he)
  have hnew : ∀ v, store_secret F k none v = (process_bind_param F k v).mapError .credential :=
    fun _ => rfl
  simp only [upsert_instance, hnil, one_or_none, hnew]
  cases process_bind_param F k a.credentials.private_key_b64 with
  | error e => simp [Except.mapError, bind, Except.bind]
  | ok priv =>
    cases process_bind_param F k a.credentials.device_token with
    | error e => simp [Except.mapError, bind, Except.bind]
    | ok tok =>
      cases process_bind_param F k a.credentials.gateway_token with
      | error e => simp [Except.mapError, bind, Except.bind]
      | ok gw =>
        simp only [Except.mapError, bind, Except.bind, pure, Except.pure, Except.ok.injEq]
        constructor
        · rintro rfl
          exact ⟨priv, tok, gw, rfl, rfl, rfl, rfl⟩
        · rintro ⟨_, _, _, rfl, rfl, rfl, rfl⟩
          rfl

theorem upsert_app_user_cases (t : Tables) (uid ext : String) (role : Option String) :
    (∀ u ∈ t.app_users, u.id ≠ uid) ∧
        (upsert_app_user t uid ext role).app_users = t.app_users ++ [⟨uid, some ext, role⟩] ∨
      (∃ u ∈ t.app_users, u.id = uid) ∧
        (upsert_app_user t uid ext role).app_users = t.app_users.map (·.assume uid role) := by
  rw [upsert_app_user]
  cases hfind : t.app_users.find? (·.id = uid) with
  | none =>
    refine .inl ⟨fun u hu he => ?_, rfl⟩
    exact List.find?_eq_none.mp hfind u hu (decide_eq_true he)
  | some u =>
    have hk := List.find?_some hfind
    exact .inr ⟨⟨u, List.mem_of_find?_eq_some hfind, of_decide_eq_true hk⟩, rfl⟩

theorem upsert_identity_cases (t : Tables) (uid p v : String) :
    (∀ d ∈ t.user_identities, d.user_id = uid → d.provider ≠ p) ∧
        upsert_identity t uid p v =
          { t with user_identities := t.user_identities ++ [⟨uid, p, v⟩] } ∨
      (∃ d ∈ t.user_identities, d.user_id = uid ∧ d.provider = p) ∧
        upsert_identity t uid p v = t := by
  rw [upsert_identity]
  cases hfind : t.user_identities.find? fun d => d.user_id = uid ∧ d.provider = p with
  | none =>
    refine .inl ⟨fun d hd hu hp => ?_, rfl⟩
    exact List.find?_eq_none.mp hfind d hd (decide_eq_true ⟨hu, hp⟩)
  | some d =>
    have hk := List.find?_some hfind
    exact .inr ⟨⟨d, List.mem_of_find?_eq_some hfind, of_decide_eq_true hk⟩, rfl⟩

theorem upsert_user_instance_cases (t : Tables) (uid uuid : String) :
    (∀ x ∈ t.user_instances, x.user_id ≠ uid) ∧
        (upsert_user_instance t uid uuid).user_instances = t.user_instances ++ [⟨uuid, uid⟩] ∨
      (∃ x ∈ t.user_instances, x.user_id = uid) ∧
        (upsert_user_instance t uid uuid).user_instances =
          t.user_instances.map (·.assign uid uuid) := by
  rw [upsert_user_instance]
  cases hfind : t.user_instances.find? (·.user_id = uid) with
  | none =>
    refine .inl ⟨fun x hx he => ?_, rfl⟩
    exact List.find?_eq_none.mp hfind x hx (decide_eq_true he)
  | some x =>
    have hk := List.find?_some hfind
    exact .inr ⟨⟨x, List.mem_of_find?_eq_some hfind, of_decide_eq_true hk⟩, rfl⟩

/-! What the schema accepts of it -/

theorem nodup_append_single {f : α → κ} {l : List α} (h : (l.map f).Nodup)
    (hy : ∀ x ∈ l, f x ≠ f y) : ((l ++ [y]).map f).Nodup := by
  rw [List.map_append, List.map_singleton, List.nodup_append]
  refine ⟨h, List.nodup_singleton _, ?_⟩
  intro a ha b hb
  obtain ⟨x, hx, rfl⟩ := List.mem_map.mp ha
  rw [List.mem_singleton.mp hb]
  exact hy x hx

theorem Tables.Valid.insert_instance {t : Tables} (h : t.Valid) (hw : Fits 36 i.instance_uuid)
    (hd : Fits 64 i.device_id) (hf : ∀ j ∈ t.instances, j.instance_uuid ≠ i.instance_uuid) :
    Tables.Valid { t with instances := t.instances ++ [i] } where
  widths := by
    refine ⟨fun j hj => ?_, h.widths.app_users, h.widths.identities, h.widths.assignments,
      h.widths.channels⟩
    rcases List.mem_append.mp hj with hj | hj
    · exact h.widths.instances j hj
    · rw [List.mem_singleton.mp hj]
      exact ⟨hw, hd⟩
  instance_key := nodup_append_single h.instance_key hf
  app_user_key := h.app_user_key
  external_unique := h.external_unique
  identity_key := h.identity_key
  identity_unique := h.identity_unique
  identity_user := h.identity_user
  assignment_key := h.assignment_key
  assignment_unique := h.assignment_unique
  assignment_instance a ha := by
    obtain ⟨j, hj, he⟩ := h.assignment_instance a ha
    exact ⟨j, List.mem_append_left _ hj, he⟩
  assignment_user := h.assignment_user
  channel_key := h.channel_key

/-- What inserting or updating the row of `app_user` asks for. -/
structure Tables.TakesUser (t : Tables) (uid ext : String) (role : Option String) : Prop where
  id : Fits 64 uid
  inserted : (∀ u ∈ t.app_users, u.id ≠ uid) → Fits 128 ext ∧ (∀ r ∈ role, Fits 64 r) ∧
    ∀ u ∈ t.app_users, u.external_user_id ≠ some ext
  assumed : ∀ u ∈ t.app_users, u.id = uid → u.role = none → ∀ r ∈ role, Fits 64 r

theorem Tables.Valid.upsert_app_user {t : Tables} (h : t.Valid) (hu : t.TakesUser uid ext role) :
    (upsert_app_user t uid ext role).Valid := by
  obtain ⟨-, hkeep, hi, hd, ha, -⟩ := upsert_app_user_frame t uid ext role
  have hc : (ClawMux.upsert_app_user t uid ext role).user_channels = t.user_channels := by
    rw [ClawMux.upsert_app_user]
    split <;> rfl
  generalize ht : ClawMux.upsert_app_user t uid ext role = t' at hkeep hi hd ha hc ⊢
  have hwidths : ∀ u ∈ t'.app_users, Fits 64 u.id ∧ (∀ e ∈ u.external_user_id, Fits 128 e) ∧
      ∀ r ∈ u.role, Fits 64 r := by
    intro w hw
    rcases upsert_app_user_cases t uid ext role with ⟨hn, he⟩ | ⟨-, he⟩
    · rw [ht] at he
      rcases List.mem_append.mp (he ▸ hw) with hw | hw
      · exact h.widths.app_users w hw
      · rw [List.mem_singleton.mp hw]
        obtain ⟨hext, hrole, -⟩ := hu.inserted hn
        refine ⟨hu.id, ?_, hrole⟩
        rintro _ ⟨⟩
        exact hext
    · rw [ht] at he
      obtain ⟨u, hmem, rfl⟩ := List.mem_map.mp (he ▸ hw)
      have hold := h.widths.app_users u hmem
      rw [AppUser.assume_id, AppUser.assume_external]
      refine ⟨hold.1, hold.2.1, ?_⟩
      rw [AppUser.assume]
      split
      · rename_i hc
        exact hu.assumed u hmem hc.1 hc.2
      · exact hold.2.2
  have hids : (t'.app_users.map (·.id)).Nodup := by
    rcases upsert_app_user_cases t uid ext role with ⟨hn, he⟩ | ⟨-, he⟩
    · rw [← ht, he]
      exact nodup_append_single h.app_user_key hn
    · have hsame : t.app_users.map ((·.id) ∘ (·.assume uid role)) = t.app_users.map (·.id) :=
        List.map_congr_left fun u _ => AppUser.assume_id u uid role
      rw [← ht, he, List.map_map, hsame]
      exact h.app_user_key
  have hexts : (t'.app_users.filterMap (·.external_user_id)).Nodup := by
    rcases upsert_app_user_cases t uid ext role with ⟨hn, he⟩ | ⟨-, he⟩
    · rw [← ht, he, List.filterMap_append, List.nodup_append]
      refine ⟨h.external_unique, List.nodup_singleton _, ?_⟩
      intro x hx y hy
      obtain ⟨u, hmem, hux⟩ := List.mem_filterMap.mp hx
      rw [List.mem_singleton.mp hy]
      rintro rfl
      exact (hu.inserted hn).2.2 u hmem hux
    · have hsame : t.app_users.filterMap ((·.external_user_id) ∘ (·.assume uid role)) =
          t.app_users.filterMap (·.external_user_id) :=
        List.filterMap_congr fun u _ => AppUser.assume_external u uid role
      rw [← ht, he, List.filterMap_map, hsame]
      exact h.external_unique
  refine ⟨⟨?_, hwidths, ?_, ?_, ?_⟩, ?_, hids, hexts, ?_, ?_, ?_, ?_, ?_, ?_, ?_, ?_⟩
  · exact hi ▸ h.widths.instances
  · exact hd ▸ h.widths.identities
  · exact ha ▸ h.widths.assignments
  · exact hc ▸ h.widths.channels
  · exact hi ▸ h.instance_key
  · exact hd ▸ h.identity_key
  · exact hd ▸ h.identity_unique
  · intro d hmem
    obtain ⟨u, hum, hue⟩ := h.identity_user d (hd ▸ hmem)
    obtain ⟨w, hw, hwe⟩ := hkeep u hum
    exact ⟨w, hw, hwe.trans hue⟩
  · exact ha ▸ h.assignment_key
  · exact ha ▸ h.assignment_unique
  · rw [ha, hi]
    exact h.assignment_instance
  · intro x hmem
    obtain ⟨u, hum, hue⟩ := h.assignment_user x (ha ▸ hmem)
    obtain ⟨w, hw, hwe⟩ := hkeep u hum
    exact ⟨w, hw, hwe.trans hue⟩
  · exact hc ▸ h.channel_key

/-- What inserting the row of `user_identity` asks for. -/
structure Tables.TakesIdentity (t : Tables) (uid p v : String) : Prop where
  fits : Fits 64 uid ∧ Fits 32 p ∧ Fits 128 v
  user : ∃ u ∈ t.app_users, u.id = uid
  owner : ∀ d ∈ t.user_identities, d.provider = p → (d.provider_user_id = v ↔ d.user_id = uid)

theorem Tables.Valid.upsert_identity {t : Tables} (h : t.Valid) (hd : t.TakesIdentity uid p v) :
    (upsert_identity t uid p v).Valid := by
  rcases upsert_identity_cases t uid p v with ⟨hn, he⟩ | ⟨-, he⟩
  · rw [he]
    refine { h with
      widths := ⟨h.widths.instances, h.widths.app_users, ?_, h.widths.assignments,
        h.widths.channels⟩
      identity_key := nodup_append_single h.identity_key ?_
      identity_unique := nodup_append_single h.identity_unique ?_
      identity_user := ?_ }
    · intro d hmem
      rcases List.mem_append.mp hmem with hmem | hmem
      · exact h.widths.identities d hmem
      · rw [List.mem_singleton.mp hmem]
        exact hd.fits
    · intro d hmem hk
      obtain ⟨hp, hv⟩ := Prod.mk.inj hk
      exact hn d hmem ((hd.owner d hmem hp).mp hv) hp
    · intro d hmem hk
      obtain ⟨hu, hp⟩ := Prod.mk.inj hk
      exact hn d hmem hu hp
    · intro d hmem
      rcases List.mem_append.mp hmem with hmem | hmem
      · exact h.identity_user d hmem
      · rw [List.mem_singleton.mp hmem]
        exact hd.user
  · rw [he]
    exact h

/-- What writing the row of `user_instance` asks for. -/
structure Tables.TakesAssignment (t : Tables) (uid uuid : String) : Prop where
  fits : Fits 36 uuid ∧ Fits 64 uid
  user : ∃ u ∈ t.app_users, u.id = uid
  target : ∃ i ∈ t.instances, i.instance_uuid = uuid
  free : ∀ x ∈ t.user_instances, x.instance_uuid ≠ uuid

theorem nodup_update {l : List UserInstance} (hu : (l.map (·.user_id)).Nodup)
    (hk : (l.map (·.instance_uuid)).Nodup) (hf : ∀ x ∈ l, x.instance_uuid ≠ uuid) :
    ((l.map (·.assign uid uuid)).map (·.instance_uuid)).Nodup := by
  rw [List.map_map]
  refine List.Nodup.map_on ?_ (List.Nodup.of_map _ hk)
  intro x hx y hy he
  simp only [Function.comp_apply, UserInstance.assign] at he
  split at he
  · rename_i hxu
    split at he
    · rename_i hyu
      exact key_inj hu hx hy (hxu.trans hyu.symm)
    · exact absurd he.symm (hf y hy)
  · split at he
    · exact absurd he (hf x hx)
    · exact key_inj hk hx hy he

/-- The rows of `user_instance` after a bind. -/
theorem upsert_user_instance_mem {t : Tables}
    (hx : x ∈ (upsert_user_instance t uid uuid).user_instances) :
    x ∈ t.user_instances ∨ x = ⟨uuid, uid⟩ := by
  rcases upsert_user_instance_cases t uid uuid with ⟨-, he⟩ | ⟨-, he⟩
  · rw [he] at hx
    simpa using hx
  · obtain ⟨y, hy, rfl⟩ := List.mem_map.mp (he ▸ hx)
    rw [UserInstance.assign]
    split
    · rename_i hyu
      rw [← hyu]
      exact .inr rfl
    · exact .inl hy

theorem Tables.Valid.upsert_user_instance {t : Tables} (h : t.Valid)
    (ha : t.TakesAssignment uid uuid) : (upsert_user_instance t uid uuid).Valid := by
  obtain ⟨-, -, hi, hu, hd, -⟩ := upsert_user_instance_frame t uid uuid
  have hc : (ClawMux.upsert_user_instance t uid uuid).user_channels = t.user_channels := by
    rw [ClawMux.upsert_user_instance]
    split <;> rfl
  have hcases := upsert_user_instance_cases t uid uuid
  have hrow : ∀ x ∈ (ClawMux.upsert_user_instance t uid uuid).user_instances,
      x ∈ t.user_instances ∨ x = ⟨uuid, uid⟩ := fun _ => upsert_user_instance_mem
  generalize ClawMux.upsert_user_instance t uid uuid = t' at hi hu hd hc hcases hrow ⊢
  have hkey : (t'.user_instances.map (·.instance_uuid)).Nodup := by
    rcases hcases with ⟨-, he⟩ | ⟨-, he⟩
    · rw [he]
      exact nodup_append_single h.assignment_key ha.free
    · rw [he]
      exact nodup_update h.assignment_unique h.assignment_key ha.free
  have hunique : (t'.user_instances.map (·.user_id)).Nodup := by
    rcases hcases with ⟨hn, he⟩ | ⟨-, he⟩
    · rw [he]
      exact nodup_append_single h.assignment_unique hn
    · have hsame : t.user_instances.map ((·.user_id) ∘ (·.assign uid uuid)) =
          t.user_instances.map (·.user_id) :=
        List.map_congr_left fun x _ => UserInstance.assign_user x uid uuid
      rw [he, List.map_map, hsame]
      exact h.assignment_unique
  refine ⟨⟨hi ▸ h.widths.instances, hu ▸ h.widths.app_users, hd ▸ h.widths.identities, ?_,
    hc ▸ h.widths.channels⟩, hi ▸ h.instance_key, hu ▸ h.app_user_key, hu ▸ h.external_unique,
    hd ▸ h.identity_key, hd ▸ h.identity_unique, ?_, hkey, hunique, ?_, ?_, hc ▸ h.channel_key⟩
  · intro x hx
    rcases hrow x hx with hx | rfl
    · exact h.widths.assignments x hx
    · exact ha.fits
  · rw [hd, hu]
    exact h.identity_user
  · intro x hx
    rw [hi]
    rcases hrow x hx with hx | rfl
    · exact h.assignment_instance x hx
    · exact ha.target
  · intro x hx
    rw [hu]
    rcases hrow x hx with hx | rfl
    · exact h.assignment_user x hx
    · exact ha.user

theorem Tables.Valid.bump_version {t : Tables} (h : t.Valid) : (bump_version t).Valid :=
  ⟨⟨h.widths.instances, h.widths.app_users, h.widths.identities, h.widths.assignments,
    h.widths.channels⟩, h.instance_key, h.app_user_key, h.external_unique, h.identity_key,
    h.identity_unique, h.identity_user, h.assignment_key, h.assignment_unique,
    h.assignment_instance, h.assignment_user, h.channel_key⟩

/-! Bind, then read -/

/-- A secret is read back as it was given. -/
def Survives (F : Fernet) (k v : String) : Prop :=
  ∃ stored, process_bind_param F k v = .ok stored ∧ process_result_value F k stored = .ok v

/-- When a bind of a fresh instance to an identity without one goes through: the row of the user
can be written, the identity and the user belong to each other if one of them has a row, and the
credentials survive their storage. -/
structure Bindable (F : Fernet) (k : String) (t : Tables) (a : BindArgs) (p : String) : Prop where
  user : t.TakesUser (app_user_id p a.provider_user_id)
    (a.ext_user_id (app_user_id p a.provider_user_id)) a.role
  owner : ∀ d ∈ t.user_identities, d.provider = p →
    (d.provider_user_id = a.provider_user_id ↔ d.user_id = app_user_id p a.provider_user_id)
  device_id : Fits 64 a.credentials.device_id
  private_key_b64 : Survives F k a.credentials.private_key_b64
  device_token : Survives F k a.credentials.device_token
  gateway_token : Survives F k a.credentials.gateway_token

/-- An identity that the lookup does not find has no instance. -/
theorem Tables.Valid.unassigned {t : Tables} (h : t.Valid) (hn : t.by_identity p v = [])
    (hd : (⟨w, p, v⟩ : UserIdentity) ∈ t.user_identities) :
    ∀ x ∈ t.user_instances, x.user_id ≠ w := by
  rintro ⟨uuid, user⟩ hx rfl
  obtain ⟨i, hi, rfl⟩ := h.assignment_instance _ hx
  have hj := h.keyed.by_identity hi hx (h.identity_user _ hd) hd
  rw [hn] at hj
  cases hj

theorem bind_eq (hp : validate_provider a.provider = .ok p)
    (ht : upsert_instance F k db.toTables a = .ok t)
    (hv : (bump_version (upsert_user_instance (upsert_identity (upsert_app_user t
      (app_user_id p a.provider_user_id) (a.ext_user_id (app_user_id p a.provider_user_id)) a.role)
      (app_user_id p a.provider_user_id) p a.provider_user_id)
      (app_user_id p a.provider_user_id) a.instance_uuid)).Valid) :
    bind_user_instance F k db a = .ok ⟨_, hv⟩ := by
  simp only [bind_user_instance, hp, ht, commit, bind, Except.bind, dif_pos hv]

variable {F : Fernet} {k p : String} {db : Db} {a : BindArgs}

theorem free_of_fresh (hf : ∀ i ∈ db.instances, i.instance_uuid ≠ a.instance_uuid) :
    ∀ x ∈ db.user_instances, x.instance_uuid ≠ a.instance_uuid := by
  intro x hx he
  obtain ⟨i, hi, hie⟩ := db.valid.assignment_instance x hx
  exact hf i hi (hie.trans he)

/-- The tables that a bind commits when nothing stands in its way. -/
theorem Bindable.binds (h : Bindable F k db.toTables a p)
    (hp : validate_provider a.provider = .ok p) (hv : Fits 128 a.provider_user_id)
    (hlen : Fits 36 a.instance_uuid)
    (hf : ∀ i ∈ db.instances, i.instance_uuid ≠ a.instance_uuid) :
    ∃ db', bind_user_instance F k db a = .ok db' ∧
      db'.Bound F k p a.provider_user_id a.info := by
  obtain ⟨priv, hpriv, hpriv'⟩ := h.private_key_b64
  obtain ⟨tok, htok, htok'⟩ := h.device_token
  obtain ⟨gw, hgw, hgw'⟩ := h.gateway_token
  have ht := (upsert_instance_fresh hf).mpr ⟨priv, tok, gw, hpriv, htok, hgw, rfl⟩
  generalize huid : app_user_id p a.provider_user_id = uid
  have huser := h.user
  rw [huid] at huser
  have h₁ := db.valid.insert_instance (i := a.new_instance priv tok gw) hlen h.device_id hf
  generalize ht₁ : { db.toTables with
    instances := db.instances ++ [a.new_instance priv tok gw] } = t₁ at ht h₁
  have hi₁ : t₁.instances = db.instances ++ [a.new_instance priv tok gw] := by rw [← ht₁]
  have hu₁ : t₁.app_users = db.app_users := by rw [← ht₁]
  have hd₁ : t₁.user_identities = db.user_identities := by rw [← ht₁]
  have ha₁ : t₁.user_instances = db.user_instances := by rw [← ht₁]
  have h₂ := h₁.upsert_app_user ⟨huser.id, hu₁ ▸ huser.inserted, hu₁ ▸ huser.assumed⟩
  obtain ⟨hrow₂, -, hi₂, hd₂, ha₂, -⟩ :=
    upsert_app_user_frame t₁ uid (a.ext_user_id uid) a.role
  have hsup := validate_provider_mem hp
  have hprov : Fits 32 p := by
    revert hsup
    clear * -
    revert p
    decide
  have hidentity : (upsert_app_user t₁ uid (a.ext_user_id uid) a.role).TakesIdentity uid p
      a.provider_user_id :=
    ⟨⟨huser.id, hprov, hv⟩, hrow₂, by rw [hd₂, hd₁, ← huid]; exact h.owner⟩
  have h₃ := h₂.upsert_identity hidentity
  obtain ⟨hrow₃, -, hnew₃, hi₃, hu₃, ha₃, -⟩ :=
    upsert_identity_frame (upsert_app_user t₁ uid (a.ext_user_id uid) a.role) uid p
      a.provider_user_id
  have htarget : ∃ i ∈ (upsert_identity (upsert_app_user t₁ uid (a.ext_user_id uid) a.role) uid p
      a.provider_user_id).instances, i.instance_uuid = a.instance_uuid := by
    rw [hi₃, hi₂, hi₁]
    exact ⟨_, List.mem_append_right _ (List.mem_singleton_self _), rfl⟩
  have hassigned : (upsert_identity (upsert_app_user t₁ uid (a.ext_user_id uid) a.role) uid p
      a.provider_user_id).TakesAssignment uid a.instance_uuid :=
    ⟨⟨hlen, huser.id⟩, hu₃ ▸ hrow₂, htarget, by rw [ha₃, ha₂, ha₁]; exact free_of_fresh hf⟩
  have h₄ := h₃.upsert_user_instance hassigned
  obtain ⟨hrow₄, -, hi₄, hu₄, hd₄, -⟩ := upsert_user_instance_frame (upsert_identity
    (upsert_app_user t₁ uid (a.ext_user_id uid) a.role) uid p a.provider_user_id) uid
    a.instance_uuid
  have hown : (⟨uid, p, a.provider_user_id⟩ : UserIdentity) ∈ (upsert_identity
      (upsert_app_user t₁ uid (a.ext_user_id uid) a.role) uid p
      a.provider_user_id).user_identities := by
    obtain ⟨⟨du, dp, dv⟩, hd, hdu, hdp⟩ := hrow₃
    simp only at hdu hdp
    rcases hnew₃ _ hd with hold | he
    · rw [hd₂, hd₁] at hold
      have hdv := (h.owner _ hold hdp).mpr (hdu.trans huid.symm)
      simp only at hdv
      rwa [hdu, hdp, hdv] at hd
    · rwa [he] at hd
  subst huid
  refine ⟨_, bind_eq hp ht h₄.bump_version, a.new_instance priv tok gw, ?_, hrow₄, ?_, ?_, ?_⟩
  · simp only [bump_version, hi₄, hi₃, hi₂, hi₁]
    exact List.mem_append_right _ (List.mem_singleton_self _)
  · simp only [bump_version, hu₄, hu₃]
    exact hrow₂
  · simp only [bump_version, hd₄]
    exact hown
  · exact load_eq_ok.mpr ⟨rfl, rfl, rfl, hpriv', htok', hgw'⟩

end ClawMux
