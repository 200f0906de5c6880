import ClawMux.Services.Mapping
import ClawMux.Lib.Except

namespace ClawMux
set_option autoImplicit true
open Lib Lib.Text

theorem validate_provider_mem (h : validate_provider p = .ok q) : q ∈ SUPPORTED_PROVIDERS := by
  rw [validate_provider] at h
  by_cases hm : lower (strip p) ∈ SUPPORTED_PROVIDERS
  · simp only [if_pos hm] at h
    exact Except.ok.inj h ▸ hm
  · simp only [if_neg hm, reduceCtorEq] at h

theorem supported_no_colon (h : p ∈ SUPPORTED_PROVIDERS) : ':' ∉ p.toList := by
  revert p
  decide

/-- Supported providers contain no colon, so an identity key determines the identity. -/
theorem app_user_id_inj (hp : p ∈ SUPPORTED_PROVIDERS) (hq : q ∈ SUPPORTED_PROVIDERS)
    (h : app_user_id p u = app_user_id q v) : p = q ∧ u = v := by
  rw [app_user_id, app_user_id, ← String.toList_inj] at h
  simp only [String.toList_append, List.append_assoc] at h
  obtain ⟨hpq, huv⟩ := append_sep_inj (supported_no_colon hp) (supported_no_colon hq) h
  exact ⟨String.toList_inj.mp hpq, String.toList_inj.mp huv⟩

/-! Rows found by key -/

theorem one_or_none_some {l : List α} (h : one_or_none l = .ok (some a)) : l = [a] := by
  unfold one_or_none at h
  split at h <;> cases h
  rfl

theorem filter_key [DecidableEq κ] {f : α → κ} {l : List α} (hl : (l.map f).Nodup) (ha : a ∈ l) :
    l.filter (fun b => f b = f a) = [a] := by
  induction l with
  | nil => cases ha
  | cons c l ih =>
    rw [List.map_cons, List.nodup_cons] at hl
    rcases List.mem_cons.mp ha with rfl | ha
    · rw [List.filter_cons_of_pos (by simp), List.filter_eq_nil_iff.mpr]
      intro b hb he
      exact hl.1 (of_decide_eq_true he ▸ List.mem_map_of_mem hb)
    · rw [List.filter_cons_of_neg, ih hl.2 ha]
      simp only [decide_eq_true_eq]
      intro he
      exact hl.1 (he ▸ List.mem_map_of_mem ha)

theorem key_inj {f : α → κ} {l : List α} (hl : (l.map f).Nodup) (ha : a ∈ l) (hb : b ∈ l)
    (h : f a = f b) : a = b :=
  List.inj_on_of_nodup_map hl ha hb h

theorem flatMap_single {l : List α} {g : α → List β} (hl : l.Nodup) (ha : a ∈ l)
    (h : ∀ b ∈ l, b ≠ a → g b = []) : l.flatMap g = g a := by
  induction l with
  | nil => cases ha
  | cons c l ih =>
    rw [List.nodup_cons] at hl
    rw [List.flatMap_cons]
    rcases List.mem_cons.mp ha with rfl | ha
    · have hn : l.flatMap g = [] := by
        rw [List.flatMap_eq_nil_iff]
        intro b hb
        exact h b (List.mem_cons_of_mem _ hb) (fun he => hl.1 (he ▸ hb))
      rw [hn, List.append_nil]
    · have hc : g c = [] := h c List.mem_cons_self (fun he => hl.1 (he ▸ ha))
      rw [hc, List.nil_append]
      exact ih hl.2 ha fun b hb => h b (List.mem_cons_of_mem _ hb)

/-- The join of `get_instance_by_identity` follows the foreign keys of one identity. -/
theorem Tables.Keyed.by_identity {t : Tables} (ht : t.Keyed) (hi : i ∈ t.instances)
    (ha : (⟨i.instance_uuid, uid⟩ : UserInstance) ∈ t.user_instances)
    (hu : ∃ u ∈ t.app_users, u.id = uid)
    (hd : (⟨uid, p, v⟩ : UserIdentity) ∈ t.user_identities) : t.by_identity p v = [i] := by
  obtain ⟨u, hu, rfl⟩ := hu
  have hident : (t.user_identities.filter fun d => d.user_id = u.id ∧ d.provider = p ∧
      d.provider_user_id = v) = [⟨u.id, p, v⟩] := by
    rw [← filter_key ht.identity_key hd]
    apply List.filter_congr
    intro d hd'
    simp only [Prod.mk.injEq, decide_eq_decide]
    refine ⟨fun h => h.2, fun h => ⟨?_, h⟩⟩
    rw [key_inj ht.identity_key hd' hd (by simp [h.1, h.2])]
  have hjoin : ∀ j ∈ t.instances, j ≠ i →
      ((t.user_instances.filter (·.instance_uuid = j.instance_uuid)).flatMap fun a =>
        (t.app_users.filter (·.id = a.user_id)).flatMap fun w =>
          (t.user_identities.filter fun d => d.user_id = w.id ∧ d.provider = p ∧
            d.provider_user_id = v).map fun _ => j) = [] := by
    intro j hj hne
    simp only [List.flatMap_eq_nil_iff, List.map_eq_nil_iff, List.filter_eq_nil_iff,
      List.mem_filter, decide_eq_true_eq, and_imp]
    rintro a' ha' huuid w hw hwid d hd' ⟨hdu, hdp, hdv⟩
    have he := key_inj ht.identity_key hd' hd (by simp [hdp, hdv])
    subst he
    have hae := key_inj ht.assignment_unique ha' ha (by rw [← hwid, ← hdu])
    rw [hae] at huuid
    exact hne (key_inj ht.instance_key hj hi huuid.symm)
  rw [Tables.by_identity, flatMap_single (List.Nodup.of_map _ ht.instance_key) hi hjoin,
    filter_key ht.assignment_key ha]
  simp only [List.flatMap_cons, List.flatMap_nil, List.append_nil, filter_key ht.app_user_key hu,
    hident, List.map_cons, List.map_nil]

/-- The identity is assigned an instance whose row loads as `info`. -/
def Tables.Bound (F : Fernet) (k : String) (t : Tables) (p v : String) (info : InstanceInfo) :
    Prop :=
  ∃ i ∈ t.instances, (⟨i.instance_uuid, app_user_id p v⟩ : UserInstance) ∈ t.user_instances ∧
    (∃ u ∈ t.app_users, u.id = app_user_id p v) ∧
    (⟨app_user_id p v, p, v⟩ : UserIdentity) ∈ t.user_identities ∧ i.load F k = .ok info

theorem Tables.Bound.lookup {t : Tables} (h : t.Bound F k p v info) (ht : t.Valid) :
    t.instance_by_identity F k (p, v) = .ok info := by
  obtain ⟨i, hi, ha, hu, hd, hl⟩ := h
  simp only [Tables.instance_by_identity, ht.keyed.by_identity hi ha hu hd]
  exact hl

/-- The join of `get_instance_by_external_id` ends at the instance of the identity it found. -/
theorem Tables.Bound.lookup_external {t : Tables} (h : t.Bound F k p v info) (ht : t.Valid)
    (hx : t.instance_by_external_id F k (e, p) = .ok (v, found)) : found = info := by
  obtain ⟨i, hi, ha, -, hd, hl⟩ := h
  obtain ⟨row, hrow, hx⟩ := bind_ok hx
  cases row with
  | none => cases hx
  | some row =>
    obtain ⟨u, w, j⟩ := row
    obtain ⟨loaded, hload, hx⟩ := bind_ok hx
    cases hx
    have hmem : (u, v, j) ∈ t.by_external_id e p := by
      rw [one_or_none_some hrow]
      exact List.mem_singleton_self _
    simp only [Tables.by_external_id, List.mem_flatMap, List.mem_map, List.mem_filter,
      decide_eq_true_eq, Prod.mk.injEq] at hmem
    obtain ⟨_, ⟨-, -⟩, d, ⟨hd', hdu, hdp⟩, a, ⟨ha', hau⟩, _, ⟨hj, hju⟩, rfl, hdv, rfl⟩ := hmem
    have hident := key_inj ht.identity_key hd' hd (by simp [hdp, hdv])
    have hassign := key_inj ht.assignment_unique ha' ha (by rw [hau, ← hdu, hident])
    have hinst := key_inj ht.instance_key hj hi (by rw [hju, hassign])
    rw [hinst, hl] at hload
    exact (Except.ok.inj hload).symm

/-! What a committed bind wrote -/

theorem store_secret_load {old : Option (String × String)} (hF : F.Inverse)
    (hold : ∀ o ∈ old, process_result_value F k o.1 = .ok o.2)
    (hv : is_encrypted v = false) (h : store_secret F k old v = .ok stored) :
    process_result_value F k stored = .ok v := by
  unfold store_secret at h
  split at h
  · rename_i st value
    split at h
    · rename_i he
      cases h
      exact he ▸ hold _ rfl
    · exact process_result_of_bind hF hv (mapError_ok.mp h)
  · exact process_result_of_bind hF hv (mapError_ok.mp h)

/-- None of the three secrets already carries the prefix of a stored value. -/
def DeviceCredentials.Plain (c : DeviceCredentials) : Prop :=
  is_encrypted c.private_key_b64 = false ∧ is_encrypted c.device_token = false ∧
    is_encrypted c.gateway_token = false

instance (c : DeviceCredentials) : Decidable c.Plain := inferInstanceAs (Decidable (_ ∧ _))

theorem load_eq_ok {i : Instance} : i.load F k = .ok info ↔
    i.instance_url = info.instance_url ∧ i.device_id = info.credentials.device_id ∧
      i.public_key_b64 = info.credentials.public_key_b64 ∧
      process_result_value F k i.private_key_b64 = .ok info.credentials.private_key_b64 ∧
      process_result_value F k i.device_token = .ok info.credentials.device_token ∧
      process_result_value F k i.gateway_token = .ok info.credentials.gateway_token := by
  obtain ⟨url, dev, pub, priv, tok, gw⟩ := info
  unfold Instance.load
  dsimp only
  generalize process_result_value F k i.private_key_b64 = x
  generalize process_result_value F k i.device_token = y
  generalize process_result_value F k i.gateway_token = z
  cases x <;> cases y <;> cases z <;>
    simp [Except.mapError, bind, Except.bind, pure, Except.pure]

/-- After `upsert_instance` the row of the bound uuid loads as what was bound. -/
theorem upsert_instance_row {t t' : Tables} (hF : F.Inverse) (hc : a.credentials.Plain)
    (h : upsert_instance F k t a = .ok t') :
    ∃ i ∈ t'.instances, i.instance_uuid = a.instance_uuid ∧ i.load F k = .ok a.info := by
  obtain ⟨hpriv, htok, hgw⟩ := hc
  obtain ⟨found, hf, h⟩ := bind_ok h
  cases found with
  | none =>
    obtain ⟨priv, hp, h⟩ := bind_ok h
    obtain ⟨tok, ht, h⟩ := bind_ok h
    obtain ⟨gw, hg, h⟩ := bind_ok h
    cases h
    refine ⟨_, List.mem_append_right _ (List.mem_singleton_self _), rfl, ?_⟩
    exact load_eq_ok.mpr ⟨rfl, rfl, rfl, store_secret_load hF (by simp) hpriv hp,
      store_secret_load hF (by simp) htok ht, store_secret_load hF (by simp) hgw hg⟩
  | some i =>
    obtain ⟨loaded, hl, h⟩ := bind_ok h
    obtain ⟨priv, hp, h⟩ := bind_ok h
    obtain ⟨tok, ht, h⟩ := bind_ok h
    obtain ⟨gw, hg, h⟩ := bind_ok h
    cases h
    obtain ⟨_, _, _, hlp, hlt, hlg⟩ := load_eq_ok.mp hl
    have hi := one_or_none_some hf
    have hmem : i ∈ t.instances ∧ i.instance_uuid = a.instance_uuid := by
      have : i ∈ t.instances.filter (·.instance_uuid = a.instance_uuid) := hi ▸ List.mem_cons_self
      simpa using this
    refine ⟨_, List.mem_map.mpr ⟨i, hmem.1, if_pos hmem.2⟩, rfl, ?_⟩
    exact load_eq_ok.mpr ⟨rfl, rfl, rfl, store_secret_load hF (by simpa using hlp) hpriv hp,
      store_secret_load hF (by simpa using hlt) htok ht,
      store_secret_load hF (by simpa using hlg) hgw hg⟩

/-- Rows of other uuids and the other tables are left alone. -/
theorem upsert_instance_frame {t t' : Tables} (h : upsert_instance F k t a = .ok t') :
    (∀ i ∈ t.instances, i.instance_uuid ≠ a.instance_uuid → i ∈ t'.instances) ∧
      t'.app_users = t.app_users ∧ t'.user_identities = t.user_identities ∧
      t'.user_instances = t.user_instances ∧ t'.mapping_state = t.mapping_state := by
  obtain ⟨found, hf, h⟩ := bind_ok h
  cases found with
  | none =>
    obtain ⟨priv, hp, h⟩ := bind_ok h
    obtain ⟨tok, ht, h⟩ := bind_ok h
    obtain ⟨gw, hg, h⟩ := bind_ok h
    cases h
    exact ⟨fun i hi _ => List.mem_append_left _ hi, rfl, rfl, rfl, rfl⟩
  | some i =>
    obtain ⟨loaded, hl, h⟩ := bind_ok h
    obtain ⟨priv, hp, h⟩ := bind_ok h
    obtain ⟨tok, ht, h⟩ := bind_ok h
    obtain ⟨gw, hg, h⟩ := bind_ok h
    cases h
    exact ⟨fun j hj hne => List.mem_map.mpr ⟨j, hj, if_neg hne⟩, rfl, rfl, rfl, rfl⟩

theorem upsert_app_user_frame (t : Tables) (uid ext : String) (role : Option String) :
    let t' := upsert_app_user t uid ext role
    (∃ u ∈ t'.app_users, u.id = uid) ∧
      (∀ u ∈ t.app_users, ∃ w ∈ t'.app_users, w.id = u.id) ∧ t'.instances = t.instances ∧
      t'.user_identities = t.user_identities ∧ t'.user_instances = t.user_instances ∧
      t'.mapping_state = t.mapping_state := by
  intro t'
  simp only [t', upsert_app_user]
  split
  · refine ⟨⟨_, List.mem_append_right _ (List.mem_singleton_self _), rfl⟩, ?_, rfl, rfl, rfl, rfl⟩
    exact fun u hu => ⟨u, List.mem_append_left _ hu, rfl⟩
  · rename_i u hu
    have hkeep : ∀ w ∈ t.app_users, ∃ x ∈ t.app_users.map (fun u =>
        if u.id = uid ∧ u.role = none then { u with role := role } else u), x.id = w.id := by
      intro w hw
      refine ⟨_, List.mem_map_of_mem hw, ?_⟩
      split <;> rfl
    refine ⟨?_, hkeep, rfl, rfl, rfl, rfl⟩
    obtain ⟨x, hx, he⟩ := hkeep u (List.mem_of_find?_eq_some hu)
    have hid := List.find?_some hu
    exact ⟨x, hx, he.trans (of_decide_eq_true hid)⟩

theorem upsert_identity_frame (t : Tables) (uid p v : String) :
    let t' := upsert_identity t uid p v
    (∃ d ∈ t'.user_identities, d.user_id = uid ∧ d.provider = p) ∧
      (∀ d ∈ t.user_identities, d ∈ t'.user_identities) ∧
      (∀ d ∈ t'.user_identities, d ∈ t.user_identities ∨ d = ⟨uid, p, v⟩) ∧
      t'.instances = t.instances ∧ t'.app_users = t.app_users ∧
      t'.user_instances = t.user_instances ∧ t'.mapping_state = t.mapping_state := by
  intro t'
  simp only [t', upsert_identity]
  split
  · refine ⟨⟨_, List.mem_append_right _ (List.mem_singleton_self _), rfl, rfl⟩, ?_, ?_, rfl, rfl,
      rfl, rfl⟩
    · exact fun d hd => List.mem_append_left _ hd
    · intro d hd
      simpa using hd
  · rename_i d hd
    have hid := List.find?_some hd
    simp only [decide_eq_true_eq] at hid
    exact ⟨⟨d, List.mem_of_find?_eq_some hd, hid⟩, fun _ h => h, fun _ h => .inl h, rfl, rfl, rfl,
      rfl⟩

theorem upsert_user_instance_frame (t : Tables) (uid uuid : String) :
    let t' := upsert_user_instance t uid uuid
    (⟨uuid, uid⟩ : UserInstance) ∈ t'.user_instances ∧
      (∀ x ∈ t.user_instances, x.user_id ≠ uid → x ∈ t'.user_instances) ∧
      t'.instances = t.instances ∧ t'.app_users = t.app_users ∧
      t'.user_identities = t.user_identities ∧ t'.mapping_state = t.mapping_state := by
  intro t'
  simp only [t', upsert_user_instance]
  split
  · refine ⟨List.mem_append_right _ (List.mem_singleton_self _), ?_, rfl, rfl, rfl, rfl⟩
    exact fun x hx _ => List.mem_append_left _ hx
  · rename_i x hx
    have hid : x.user_id = uid := by simpa using List.find?_some hx
    refine ⟨List.mem_map.mpr ⟨x, List.mem_of_find?_eq_some hx, ?_⟩, ?_, rfl, rfl, rfl, rfl⟩
    · rw [if_pos hid, ← hid]
    · exact fun y hy hne => List.mem_map.mpr ⟨y, hy, if_neg hne⟩

theorem bind_cases (h : bind_user_instance F k db a = .ok db') :
    ∃ provider t, validate_provider a.provider = .ok provider ∧
      upsert_instance F k db.toTables a = .ok t ∧
      db'.toTables = bump_version (upsert_user_instance (upsert_identity (upsert_app_user t
        (app_user_id provider a.provider_user_id)
        (a.ext_user_id (app_user_id provider a.provider_user_id)) a.role)
        (app_user_id provider a.provider_user_id) provider a.provider_user_id)
        (app_user_id provider a.provider_user_id) a.instance_uuid) := by
  obtain ⟨provider, hp, h⟩ := bind_ok h
  obtain ⟨t, ht, h⟩ := bind_ok h
  refine ⟨provider, t, hp, ht, ?_⟩
  simp only [commit] at h
  split at h
  · cases h
    rfl
  · cases h

theorem bind_mapping_state (h : bind_user_instance F k db a = .ok db') :
    db'.mapping_state = some (bumped db.mapping_state) := by
  obtain ⟨provider, t, hp, ht, he⟩ := bind_cases h
  rw [he]
  simp only [bump_version, (upsert_user_instance_frame _ _ _).2.2.2.2.2,
    (upsert_identity_frame _ _ _ _).2.2.2.2.2.2, (upsert_app_user_frame _ _ _ _).2.2.2.2.2,
    (upsert_instance_frame ht).2.2.2.2]

/-- Every identity row belongs to the user that `bind_user_instance` derives from it. -/
def Tables.Canonical (t : Tables) : Prop :=
  ∀ d ∈ t.user_identities, d.user_id = app_user_id d.provider d.provider_user_id

theorem bind_identities (h : bind_user_instance F k db a = .ok db') :
    ∃ p, validate_provider a.provider = .ok p ∧
      ∀ d ∈ db'.user_identities, d ∈ db.user_identities ∨
        d = ⟨app_user_id p a.provider_user_id, p, a.provider_user_id⟩ := by
  obtain ⟨p, t, hp, ht, he⟩ := bind_cases h
  refine ⟨p, hp, ?_⟩
  intro d hd
  rw [he] at hd
  simp only [bump_version, (upsert_user_instance_frame _ _ _).2.2.2.2.1] at hd
  have hd := (upsert_identity_frame _ _ _ _).2.2.1 d hd
  rwa [(upsert_app_user_frame _ _ _ _).2.2.2.1, (upsert_instance_frame ht).2.2.1] at hd

theorem bind_canonical (hdb : db.Canonical) (h : bind_user_instance F k db a = .ok db') :
    db'.Canonical := by
  obtain ⟨p, hp, hd⟩ := bind_identities h
  intro d hm
  rcases hd d hm with hm | rfl
  · exact hdb d hm
  · rfl

/-- A committed bind of an identity makes its lookup answer what was bound. -/
theorem bind_bound (hF : F.Inverse) (hc : a.credentials.Plain) (hdb : db.Canonical)
    (hp : validate_provider a.provider = .ok p) (h : bind_user_instance F k db a = .ok db') :
    db'.Bound F k p a.provider_user_id a.info := by
  have hcan := bind_canonical hdb h
  obtain ⟨q, t, hq, ht, he⟩ := bind_cases h
  cases hp.symm.trans hq
  obtain ⟨i, hi, hu, hl⟩ := upsert_instance_row hF hc ht
  generalize ht₂ : upsert_app_user t _ _ _ = t₂ at he
  generalize ht₃ : upsert_identity t₂ _ _ _ = t₃ at he
  generalize ht₄ : upsert_user_instance t₃ _ _ = t₄ at he
  have h₂ := upsert_app_user_frame t (app_user_id p a.provider_user_id)
    (a.ext_user_id (app_user_id p a.provider_user_id)) a.role
  have h₃ := upsert_identity_frame t₂ (app_user_id p a.provider_user_id) p a.provider_user_id
  have h₄ := upsert_user_instance_frame t₃ (app_user_id p a.provider_user_id) a.instance_uuid
  rw [ht₂] at h₂
  rw [ht₃] at h₃
  rw [ht₄] at h₄
  have hinst : db'.instances = t.instances := by
    rw [he]
    exact h₄.2.2.1.trans (h₃.2.2.2.1.trans h₂.2.2.1)
  have husers : db'.app_users = t₂.app_users := by
    rw [he]
    exact h₄.2.2.2.1.trans h₃.2.2.2.2.1
  have hids : db'.user_identities = t₃.user_identities := by
    rw [he]
    exact h₄.2.2.2.2.1
  have hassign : db'.user_instances = t₄.user_instances := by rw [he]; rfl
  obtain ⟨d, hd, hdu, hdp⟩ := h₃.1
  have hdc := hcan d (hids ▸ hd)
  rw [hdu, hdp] at hdc
  have hdv : a.provider_user_id = d.provider_user_id := by
    rw [app_user_id, app_user_id] at hdc
    exact append_right_inj.mp hdc
  refine ⟨i, hinst ▸ hi, ?_, husers ▸ h₂.1, ?_, hl⟩
  · rw [hassign, hu]
    exact h₄.1
  · rw [hids, ← hdu]
    obtain ⟨du, dp, dv⟩ := d
    simp only at hdp hdv
    rw [hdp] at hd
    rw [hdv]
    exact hd

/-- A committed bind of one identity leaves the assignment of every other identity. -/
theorem bind_bound_other (hp : validate_provider a.provider = .ok p)
    (hq : q ∈ SUPPORTED_PROVIDERS) (hne : (q, v) ≠ (p, a.provider_user_id))
    (hb : db.Bound F k q v info) (h : bind_user_instance F k db a = .ok db') :
    db'.Bound F k q v info := by
  obtain ⟨i, hi, ha, ⟨u, hu, hui⟩, hd, hl⟩ := hb
  have huid : app_user_id q v ≠ app_user_id p a.provider_user_id := by
    intro he
    obtain ⟨h₁, h₂⟩ := app_user_id_inj hq (validate_provider_mem hp) he
    exact hne (by rw [h₁, h₂])
  obtain ⟨q', t, hq', ht, he⟩ := bind_cases h
  cases hp.symm.trans hq'
  have h₁ := upsert_instance_frame ht
  generalize ht₂ : upsert_app_user t _ _ _ = t₂ at he
  generalize ht₃ : upsert_identity t₂ _ _ _ = t₃ at he
  generalize ht₄ : upsert_user_instance t₃ _ _ = t₄ at he
  have h₂ := upsert_app_user_frame t (app_user_id p a.provider_user_id)
    (a.ext_user_id (app_user_id p a.provider_user_id)) a.role
  have h₃ := upsert_identity_frame t₂ (app_user_id p a.provider_user_id) p a.provider_user_id
  have h₄ := upsert_user_instance_frame t₃ (app_user_id p a.provider_user_id) a.instance_uuid
  rw [ht₂] at h₂
  rw [ht₃] at h₃
  rw [ht₄] at h₄
  have hassign : (⟨i.instance_uuid, app_user_id q v⟩ : UserInstance) ∈ db'.user_instances := by
    rw [he]
    exact h₄.2.1 _ (h₃.2.2.2.2.2.1 ▸ h₂.2.2.2.2.1 ▸ h₁.2.2.2.1 ▸ ha) huid
  have hnew : (⟨a.instance_uuid, app_user_id p a.provider_user_id⟩ : UserInstance) ∈
      db'.user_instances := by
    rw [he]
    exact h₄.1
  have huuid : i.instance_uuid ≠ a.instance_uuid := by
    intro heq
    have := key_inj db'.valid.assignment_key hassign hnew heq
    exact huid (UserInstance.mk.inj this).2
  obtain ⟨w, hw, hwi⟩ := h₂.2.1 u (h₁.2.1 ▸ hu)
  refine ⟨i, ?_, hassign, ⟨w, ?_, hwi.trans hui⟩, ?_, hl⟩
  · rw [he]
    exact h₄.2.2.1 ▸ h₃.2.2.2.1 ▸ h₂.2.2.1 ▸ h₁.1 i hi huuid
  · rw [he]
    exact h₄.2.2.2.1 ▸ h₃.2.2.2.2.1 ▸ hw
  · rw [he]
    exact h₄.2.2.2.2.1 ▸ h₃.2.1 _ (h₂.2.2.2.1 ▸ h₁.2.2.1 ▸ hd)

end ClawMux
