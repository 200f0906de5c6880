import ClawMux.Services.MappingCoherence

namespace ClawMux
set_option autoImplicit true
open Lib Lib.Text

variable (F : Fernet) (credential_encryption_key : String)

/-- `get_instance_by_identity` in one database state, without the caches. -/
def get_instance_by_identity (t : Tables) (provider provider_user_id : String) :
    Except MappingError InstanceInfo := do
  let p ← validate_provider provider
  t.instance_by_identity F credential_encryption_key (p, provider_user_id)

/-- `get_instance_by_external_id` in one database state, without the caches. -/
def get_instance_by_external_id (t : Tables) (external_user_id provider : String) :
    Except MappingError (String × InstanceInfo) := do
  let p ← validate_provider provider
  t.instance_by_external_id F credential_encryption_key (external_user_id, p)

variable {F credential_encryption_key}

theorem validate_provider_ne : validate_provider p ≠ .error .multipleResultsFound := by
  rw [validate_provider]
  split <;> exact fun h => by cases h

/-! The rows of the joins -/

/-- A nullable column without duplicates finds one row by a value. -/
theorem filter_optional_key [DecidableEq κ] {f : α → Option κ} {l : List α}
    (hl : (l.filterMap f).Nodup) (ha : a ∈ l) (hf : f a = some e) :
    l.filter (fun b => f b = some e) = [a] := by
  induction l with
  | nil => cases ha
  | cons c l ih =>
    have hrest : ∀ b ∈ l, f b = some e → e ∈ l.filterMap f := fun b hb he =>
      List.mem_filterMap.mpr ⟨b, hb, he⟩
    rcases List.mem_cons.mp ha with rfl | ha
    · rw [List.filterMap_cons_some hf, List.nodup_cons] at hl
      rw [List.filter_cons_of_pos (by simp [hf]), List.filter_eq_nil_iff.mpr]
      intro b hb he
      exact hl.1 (hrest b hb (of_decide_eq_true he))
    · cases hc : f c with
      | none =>
        rw [List.filterMap_cons_none hc] at hl
        rw [List.filter_cons_of_neg (by simp [hc]), ih hl ha]
      | some k =>
        rw [List.filterMap_cons_some hc, List.nodup_cons] at hl
        have hne : k ≠ e := fun he => hl.1 (he ▸ hrest a ha hf)
        rw [List.filter_cons_of_neg (by simp [hc, hne]), ih hl.2 ha]

theorem Tables.mem_by_identity {t : Tables} (h : i ∈ t.by_identity p v) :
    i ∈ t.instances ∧ ∃ a ∈ t.user_instances, a.instance_uuid = i.instance_uuid ∧
      ∃ u ∈ t.app_users, u.id = a.user_id ∧ ∃ d ∈ t.user_identities,
        d.user_id = u.id ∧ d.provider = p ∧ d.provider_user_id = v := by
  simp only [Tables.by_identity, List.mem_flatMap, List.mem_map, List.mem_filter,
    decide_eq_true_eq] at h
  obtain ⟨i', hi, a, ⟨ha, hai⟩, u, ⟨hu, hua⟩, d, ⟨hd, hdu, hdp, hdv⟩, rfl⟩ := h
  exact ⟨hi, a, ha, hai, u, hu, hua, d, hd, hdu, hdp, hdv⟩

theorem Tables.mem_by_external_id {t : Tables} (h : (u, v, i) ∈ t.by_external_id e p) :
    u ∈ t.app_users ∧ u.external_user_id = some e ∧
      (⟨u.id, p, v⟩ : UserIdentity) ∈ t.user_identities ∧
      (⟨i.instance_uuid, u.id⟩ : UserInstance) ∈ t.user_instances ∧ i ∈ t.instances := by
  simp only [Tables.by_external_id, List.mem_flatMap, List.mem_map, List.mem_filter,
    decide_eq_true_eq, Prod.mk.injEq] at h
  obtain ⟨u', ⟨hu, hue⟩, d, ⟨hd, hdu, hdp⟩, a, ⟨ha, hau⟩, j, ⟨hj, hja⟩, rfl, hdv, rfl⟩ := h
  obtain ⟨du, dp, dv⟩ := d
  obtain ⟨ai, au⟩ := a
  cases hdu
  cases hdp
  cases hdv
  cases hau
  cases hja
  exact ⟨hu, hue, hd, ha, hj⟩

namespace Tables.Keyed

/-- An identity key names at most one instance: identity, user, assignment and instance are each
found by a key. -/
theorem by_identity_length {t : Tables} (ht : t.Keyed) (p v : String) :
    (t.by_identity p v).length ≤ 1 := by
  cases hl : t.by_identity p v with
  | nil => exact Nat.zero_le 1
  | cons i rest =>
    have hmem : i ∈ t.by_identity p v := hl ▸ List.mem_cons_self
    obtain ⟨hi, ⟨ai, au⟩, ha, hai, u, hu, hua, ⟨du, dp, dv⟩, hd, hdu, hdp, hdv⟩ :=
      mem_by_identity hmem
    cases hai
    cases hua
    cases hdu
    cases hdp
    cases hdv
    rw [← hl, ht.by_identity hi ha ⟨u, hu, rfl⟩ hd]
    exact Nat.le_refl 1

/-- A row of the other join is its only row. -/
theorem by_external_id {t : Tables} (ht : t.Keyed) (h : (u, v, i) ∈ t.by_external_id e p) :
    t.by_external_id e p = [(u, v, i)] := by
  obtain ⟨hu, hue, hd, ha, hi⟩ := mem_by_external_id h
  have husers := filter_optional_key ht.external_unique hu hue
  have hidents : (t.user_identities.filter fun d => d.user_id = u.id ∧ d.provider = p) =
      [⟨u.id, p, v⟩] := by
    rw [← filter_key ht.identity_unique hd]
    apply List.filter_congr
    intro d _
    simp only [Prod.mk.injEq]
  rw [Tables.by_external_id, husers]
  simp only [List.flatMap_cons, List.flatMap_nil, List.append_nil, hidents,
    filter_key ht.assignment_unique ha, filter_key ht.instance_key hi, List.map_cons, List.map_nil]

theorem by_external_id_length {t : Tables} (ht : t.Keyed) (e p : String) :
    (t.by_external_id e p).length ≤ 1 := by
  cases hl : t.by_external_id e p with
  | nil => exact Nat.zero_le 1
  | cons row rest =>
    have hmem : row ∈ t.by_external_id e p := hl ▸ List.mem_cons_self
    rw [← hl, ht.by_external_id hmem]
    exact Nat.le_refl 1

/-- The instance that the control plane finds for a user is the one of the identity it returns. -/
theorem by_identity_of_external {t : Tables} (ht : t.Keyed)
    (h : (u, v, i) ∈ t.by_external_id e p) : t.by_identity p v = [i] := by
  obtain ⟨hu, -, hd, ha, hi⟩ := mem_by_external_id h
  exact ht.by_identity hi ha ⟨u, hu, rfl⟩ hd

end Tables.Keyed

theorem one_or_none_of_length {l : List α} (h : l.length ≤ 1) : one_or_none l = .ok l.head? := by
  match l, h with
  | [], _ => rfl
  | [_], _ => rfl

/-- Loading a row fails only on its secrets. -/
theorem load_error {i : Instance} (h : i.load F credential_encryption_key = .error e) :
    ∃ c, e = .credential c := by
  have hread : ∀ {v : String} {e : MappingError},
      (process_result_value F credential_encryption_key v).mapError .credential = .error e →
      ∃ c, e = .credential c := by
    intro v e he
    cases hv : process_result_value F credential_encryption_key v with
    | ok text =>
      rw [hv] at he
      cases he
    | error c =>
      rw [hv] at he
      exact ⟨c, (Except.error.inj he).symm⟩
  rcases bind_error h with h | ⟨_, -, h⟩
  · exact hread h
  · rcases bind_error h with h | ⟨_, -, h⟩
    · exact hread h
    · rcases bind_error h with h | ⟨_, -, h⟩
      · exact hread h
      · cases h

theorem load_ne (i : Instance) :
    i.load F credential_encryption_key ≠ .error .multipleResultsFound := by
  intro h
  obtain ⟨c, hc⟩ := load_error h
  cases hc

theorem instance_by_identity_ne {t : Tables} (ht : t.Keyed) (key : String × String) :
    t.instance_by_identity F credential_encryption_key key ≠ .error .multipleResultsFound := by
  rw [Tables.instance_by_identity, one_or_none_of_length (ht.by_identity_length key.1 key.2)]
  cases (t.by_identity key.1 key.2).head? with
  | none =>
    intro h
    cases h
  | some i => exact load_ne i

theorem instance_by_external_id_ne {t : Tables} (ht : t.Keyed) (key : String × String) :
    t.instance_by_external_id F credential_encryption_key key ≠ .error .multipleResultsFound := by
  rw [Tables.instance_by_external_id,
    one_or_none_of_length (ht.by_external_id_length key.1 key.2)]
  cases (t.by_external_id key.1 key.2).head? with
  | none =>
    intro h
    cases h
  | some row =>
    intro h
    obtain ⟨u, v, i⟩ := row
    rcases bind_error (x := i.load F credential_encryption_key) h with h | ⟨_, -, h⟩
    · exact load_ne i h
    · cases h

/-- The control plane's answer is the chat route's answer for the identity it names. -/
theorem instance_by_external_id_agrees {t : Tables} (ht : t.Keyed)
    (h : t.instance_by_external_id F credential_encryption_key (e, p) = .ok (v, info)) :
    t.instance_by_identity F credential_encryption_key (p, v) = .ok info := by
  rw [Tables.instance_by_external_id] at h
  obtain ⟨row, hrow, h⟩ := bind_ok h
  cases row with
  | none => cases h
  | some row =>
    obtain ⟨u, w, i⟩ := row
    obtain ⟨loaded, hload, h⟩ := bind_ok h
    cases h
    have hmem : (u, v, i) ∈ t.by_external_id e p := by
      rw [one_or_none_some hrow]
      exact List.mem_singleton_self _
    simp only [Tables.instance_by_identity, ht.by_identity_of_external hmem]
    exact hload

/-- Both lookups find at most one row, and they agree on the instance. -/
theorem lookups_single_valued_agree (t : Tables) (ht : t.Keyed) :
    (∀ p v, (t.by_identity p v).length ≤ 1) ∧ (∀ e p, (t.by_external_id e p).length ≤ 1) ∧
    (∀ p v, get_instance_by_identity F credential_encryption_key t p v ≠
      .error .multipleResultsFound) ∧
    (∀ e p, get_instance_by_external_id F credential_encryption_key t e p ≠
      .error .multipleResultsFound) ∧
    ∀ e p v info, get_instance_by_external_id F credential_encryption_key t e p = .ok (v, info) →
      get_instance_by_identity F credential_encryption_key t p v = .ok info := by
  refine ⟨ht.by_identity_length, ht.by_external_id_length, ?_, ?_, ?_⟩
  · intro p v h
    rcases bind_error h with h | ⟨q, -, h⟩
    · exact validate_provider_ne h
    · exact instance_by_identity_ne ht _ h
  · intro e p h
    rcases bind_error h with h | ⟨q, -, h⟩
    · exact validate_provider_ne h
    · exact instance_by_external_id_ne ht _ h
  · intro e p v info h
    obtain ⟨q, hq, h⟩ := bind_ok h
    rw [get_instance_by_identity, hq]
    exact instance_by_external_id_agrees ht h

/-- With the caches: lookups that began after the newest commit agree as well. -/
theorem MappingSystem.finished_lookups_agree {s : MappingSystem}
    (h : Reach (MappingSystem.step F credential_encryption_key ttl) Any MappingSystem.Initial s)
    (hx : s.external_sessions i = some x) (hy : s.identity_sessions j = some y)
    (hxs : x.start = s.past.length) (hys : y.start = s.past.length)
    (hxd : x.phase = .done (.ok (v, info))) (hyd : y.phase = .done res)
    (hkey : y.key = (x.key.2, v)) : res = .ok info := by
  have hcurrent : ∀ {n : Nat} {db : Db}, s.past.length ≤ n → s.history[n]? = some db →
      db = s.current := by
    intro n db hn hdb
    have hlt := (List.getElem?_eq_some_iff.mp hdb).1
    simp only [history, List.length_append, List.length_singleton] at hlt
    have he : n = s.past.length := by omega
    rw [history, he, List.getElem?_concat_length] at hdb
    exact (Option.some.inj hdb).symm
  obtain ⟨n, db, hn, hdb, hres⟩ := (reach_inv h).external_done hx hxd
  obtain ⟨m, db', hm, hdb', hres'⟩ := (reach_inv h).identity_done hy hyd
  rw [hcurrent (hxs ▸ hn) hdb] at hres
  rw [hres', hcurrent (hys ▸ hm) hdb', hkey]
  exact instance_by_external_id_agrees s.current.valid.keyed hres.symm

def two_providers : Tables where
  instances := [⟨"a", "ws://a", "d", "p", "s", "t", "g"⟩, ⟨"b", "ws://b", "d", "p", "s", "t", "g"⟩]
  app_users := [⟨"telegram:7", some "x", some "user"⟩, ⟨"slack:U1", none, none⟩]
  user_identities := [⟨"telegram:7", "telegram", "7"⟩, ⟨"telegram:7", "slack", "U7"⟩,
    ⟨"slack:U1", "slack", "U1"⟩]
  user_instances := [⟨"b", "telegram:7"⟩, ⟨"a", "slack:U1"⟩]

theorem lookups_single_valued_agree_ran :
    get_instance_by_external_id Fernet.clear "" two_providers "x" " Slack" =
      .ok ("U7", ⟨"ws://b", "d", "p", "s", "t", "g"⟩) ∧
    get_instance_by_identity Fernet.clear "" two_providers " Slack" "U7" =
      .ok ⟨"ws://b", "d", "p", "s", "t", "g"⟩ := by
  have hv : two_providers.Valid := by decide +kernel
  have hx : get_instance_by_external_id Fernet.clear "" two_providers "x" " Slack" =
      .ok ("U7", ⟨"ws://b", "d", "p", "s", "t", "g"⟩) := by decide +kernel
  obtain ⟨-, -, -, -, hagree⟩ :=
    @lookups_single_valued_agree Fernet.clear "" two_providers hv.keyed
  exact ⟨hx, hagree _ _ _ _ hx⟩

end ClawMux
