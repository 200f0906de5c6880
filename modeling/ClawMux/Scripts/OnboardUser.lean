import ClawMux.Lib.Directory
import ClawMux.Lib.Table
import ClawMux.Services.MappingLookups
import ClawMux.Services.MappingRoundTrip

namespace ClawMux
set_option autoImplicit true
open Lib

/-- The arguments of `onboard_user.sh`. -/
structure OnboardArgs where
  app_user_id : String
  external_user_id : String
  provider : String := DEFAULT_PROVIDER
  provider_user_id : String
  instance_uuid : String
  role : String := ""

inductive OnboardError
  | missing_arguments
  | no_instance
  | database
  deriving DecidableEq

namespace OnboardUser

/-- `NULLIF(role, '')` -/
def nullif (role : String) : Option String := if role = "" then none else some role

def upsert_app_user (a : OnboardArgs) : List AppUser → List AppUser :=
  upsert (fun u => u.id = a.app_user_id)
    (fun u => { u with
      external_user_id := some a.external_user_id
      role := (nullif a.role).or u.role })
    ⟨a.app_user_id, some a.external_user_id, nullif a.role⟩

def delete_identity (a : OnboardArgs) : List UserIdentity → List UserIdentity :=
  List.filter fun d => ¬ (d.user_id = a.app_user_id ∧ d.provider = a.provider)

def upsert_identity (a : OnboardArgs) : List UserIdentity → List UserIdentity :=
  upsert (fun d => d.provider = a.provider ∧ d.provider_user_id = a.provider_user_id)
    (fun d => { d with user_id := a.app_user_id })
    ⟨a.app_user_id, a.provider, a.provider_user_id⟩

def delete_user_instance (a : OnboardArgs) : List UserInstance → List UserInstance :=
  List.filter fun x => ¬ (x.user_id = a.app_user_id ∨ x.instance_uuid = a.instance_uuid)

/-- The transaction of `onboard_user.sql`, as far as its statements go. -/
def onboard_user_sql (t : Tables) (a : OnboardArgs) : Tables := { t with
  app_users := upsert_app_user a t.app_users
  user_identities := upsert_identity a (delete_identity a t.user_identities)
  user_instances :=
    delete_user_instance a t.user_instances ++ [⟨a.instance_uuid, a.app_user_id⟩] }

/-- A run of the script: the next committed state, or an error and no change. -/
def onboard_user (db : Db) (a : OnboardArgs) : Except OnboardError Db :=
  if a.app_user_id = "" ∨ a.external_user_id = "" ∨ a.provider_user_id = "" ∨
      a.instance_uuid = "" then .error .missing_arguments
  else if db.instances.any fun i => i.instance_uuid = a.instance_uuid then
    (commit (onboard_user_sql db.toTables a)).mapError fun _ => .database
  else .error .no_instance

/-! When a run commits -/

/-- What the schema asks of the arguments. -/
structure Accepts (t : Tables) (a : OnboardArgs) : Prop where
  app_user_id : Fits 64 a.app_user_id
  external_user_id : Fits 128 a.external_user_id
  provider : Fits 32 a.provider
  provider_user_id : Fits 128 a.provider_user_id
  role : Fits 64 a.role
  external_free : ∀ u ∈ t.app_users, u.external_user_id = some a.external_user_id →
    u.id = a.app_user_id

structure Onboardable (t : Tables) (a : OnboardArgs) : Prop extends Accepts t a where
  given : a.app_user_id ≠ "" ∧ a.external_user_id ≠ "" ∧ a.provider_user_id ≠ "" ∧
    a.instance_uuid ≠ ""
  instance_exists : ∃ i ∈ t.instances, i.instance_uuid = a.instance_uuid

variable {t : Tables} {a : OnboardArgs}

theorem mem_app_users {u : AppUser} (h : u ∈ upsert_app_user a t.app_users) :
    u ∈ t.app_users ∧ u.id ≠ a.app_user_id ∨
      u.id = a.app_user_id ∧ u.external_user_id = some a.external_user_id ∧
        (u.role = nullif a.role ∨ ∃ w ∈ t.app_users, u.role = w.role) := by
  rcases mem_upsert.mp h with ⟨hu, hid⟩ | ⟨w, hw, hid, rfl⟩ | ⟨rfl, -⟩
  · exact .inl ⟨hu, of_decide_eq_false hid⟩
  · refine .inr ⟨of_decide_eq_true hid, rfl, ?_⟩
    dsimp only
    cases nullif a.role with
    | none => exact .inr ⟨w, hw, rfl⟩
    | some role => exact .inl rfl
  · exact .inr ⟨rfl, rfl, .inl rfl⟩

theorem app_user_kept {u : AppUser} (h : u ∈ t.app_users) :
    ∃ w ∈ upsert_app_user a t.app_users, w.id = u.id := by
  by_cases hid : u.id = a.app_user_id
  · exact ⟨_, mem_upsert.mpr (.inr (.inl ⟨u, h, decide_eq_true hid, rfl⟩)), rfl⟩
  · exact ⟨u, mem_upsert.mpr (.inl ⟨h, decide_eq_false hid⟩), rfl⟩

theorem app_user_made : ∃ u ∈ upsert_app_user a t.app_users, u.id = a.app_user_id ∧
    u.external_user_id = some a.external_user_id ∧
      ∀ r, nullif a.role = some r → u.role = some r := by
  by_cases h : ∃ u ∈ t.app_users, u.id = a.app_user_id
  · obtain ⟨u, hu, hid⟩ := h
    refine ⟨_, mem_upsert.mpr (.inr (.inl ⟨u, hu, decide_eq_true hid, rfl⟩)), hid, rfl, ?_⟩
    intro r hr
    rw [hr]
    rfl
  · refine ⟨_, mem_upsert.mpr (.inr (.inr ⟨rfl, fun u hu => ?_⟩)), rfl, rfl, fun _ hr => hr⟩
    exact decide_eq_false fun hid => h ⟨u, hu, hid⟩

/-- The new identity is the user's only one at the provider, and the others are left alone. -/
theorem mem_identities {d : UserIdentity} :
    d ∈ upsert_identity a (delete_identity a t.user_identities) ↔
      d = ⟨a.app_user_id, a.provider, a.provider_user_id⟩ ∨
        d ∈ t.user_identities ∧ ¬ (d.user_id = a.app_user_id ∧ d.provider = a.provider) ∧
          ¬ (d.provider = a.provider ∧ d.provider_user_id = a.provider_user_id) := by
  have hmem : ∀ d, d ∈ delete_identity a t.user_identities ↔ d ∈ t.user_identities ∧
      ¬ (d.user_id = a.app_user_id ∧ d.provider = a.provider) := by
    intro d
    rw [delete_identity, List.mem_filter, decide_eq_true_eq]
  constructor
  · intro h
    rcases mem_upsert.mp h with ⟨hd, hkey⟩ | ⟨⟨du, dp, dv⟩, -, hkey, rfl⟩ | ⟨rfl, -⟩
    · obtain ⟨hd, hnot⟩ := (hmem d).mp hd
      exact .inr ⟨hd, hnot, of_decide_eq_false hkey⟩
    · obtain ⟨rfl, rfl⟩ := of_decide_eq_true hkey
      exact .inl rfl
    · exact .inl rfl
  · rintro (rfl | ⟨hd, hnot, hkey⟩)
    · by_cases h : ∃ d ∈ delete_identity a t.user_identities, d.provider = a.provider ∧
          d.provider_user_id = a.provider_user_id
      · obtain ⟨⟨du, dp, dv⟩, hd, rfl, rfl⟩ := h
        exact mem_upsert.mpr (.inr (.inl ⟨_, hd, decide_eq_true ⟨rfl, rfl⟩, rfl⟩))
      · refine mem_upsert.mpr (.inr (.inr ⟨rfl, fun d hd => ?_⟩))
        exact decide_eq_false fun hkey => h ⟨d, hd, hkey⟩
    · exact mem_upsert.mpr (.inl ⟨(hmem d).mpr ⟨hd, hnot⟩, decide_eq_false hkey⟩)

theorem mem_user_instances {x : UserInstance} :
    x ∈ (onboard_user_sql t a).user_instances ↔ x = ⟨a.instance_uuid, a.app_user_id⟩ ∨
      x ∈ t.user_instances ∧ x.user_id ≠ a.app_user_id ∧ x.instance_uuid ≠ a.instance_uuid := by
  simp only [onboard_user_sql, delete_user_instance, List.mem_append, List.mem_filter,
    List.mem_singleton, decide_eq_true_eq, not_or]
  exact or_comm

theorem Accepts.widths (h : Accepts t a) (ht : t.Valid)
    (hi : ∃ i ∈ t.instances, i.instance_uuid = a.instance_uuid) :
    (onboard_user_sql t a).Widths := by
  obtain ⟨hinstances, husers, hidentities, hassignments, hchannels⟩ := ht.widths
  refine ⟨hinstances, fun u hu => ?_, fun d hd => ?_, fun x hx => ?_, hchannels⟩
  · rcases mem_app_users hu with ⟨hu, -⟩ | ⟨hid, he, hrole⟩
    · exact husers u hu
    · refine ⟨hid ▸ h.app_user_id, fun e hee => ?_, fun r hr => ?_⟩
      · cases he.symm.trans hee
        exact h.external_user_id
      · rcases hrole with hrole | ⟨w, hw, hrole⟩
        · rw [hrole, nullif] at hr
          split at hr
          · cases hr
          · cases hr
            exact h.role
        · exact (husers w hw).2.2 r (hrole ▸ hr)
  · rcases mem_identities.mp hd with rfl | ⟨hd, -⟩
    · exact ⟨h.app_user_id, h.provider, h.provider_user_id⟩
    · exact hidentities d hd
  · rcases mem_user_instances.mp hx with rfl | ⟨hx, -⟩
    · obtain ⟨i, hi, huuid⟩ := hi
      exact ⟨huuid ▸ (hinstances i hi).1, h.app_user_id⟩
    · exact hassignments x hx

theorem app_users_unique (ht : t.Valid) :
    ((upsert_app_user a t.app_users).map (·.id)).Nodup := by
  refine nodup_upsert_key ht.app_user_key (one_conflict ht.app_user_key ?_) ?_ ?_
  · exact fun u w hu hw => (of_decide_eq_true hu).trans (of_decide_eq_true hw).symm
  · exact fun u _ hu => of_decide_eq_true hu
  · exact fun u _ hu he => of_decide_eq_false hu he.symm

theorem external_users_unique (ht : t.Valid) (h : Accepts t a) :
    ((upsert_app_user a t.app_users).filterMap (·.external_user_id)).Nodup := by
  refine nodup_upsert ht.external_unique (one_conflict ht.app_user_key ?_) (fun _ _ _ => rfl) ?_
  · exact fun u w hu hw => (of_decide_eq_true hu).trans (of_decide_eq_true hw).symm
  · intro u hu hid e he hnew
    exact of_decide_eq_false hid (h.external_free u hu (he.trans hnew.symm))

theorem identities_unique (ht : t.Valid) :
    ((upsert_identity a (delete_identity a t.user_identities)).map
      fun d => (d.provider, d.provider_user_id)).Nodup := by
  have hkey : ((delete_identity a t.user_identities).map
      fun d => (d.provider, d.provider_user_id)).Nodup :=
    ht.identity_key.sublist (List.filter_sublist.map _)
  refine nodup_upsert_key hkey (one_conflict hkey ?_) ?_ ?_
  · intro d e hd he
    obtain ⟨hdp, hdv⟩ := of_decide_eq_true hd
    obtain ⟨hep, hev⟩ := of_decide_eq_true he
    exact Prod.ext (hdp.trans hep.symm) (hdv.trans hev.symm)
  · intro d _ hd
    obtain ⟨hdp, hdv⟩ := of_decide_eq_true hd
    exact Prod.ext hdp hdv
  · intro d _ hd he
    exact of_decide_eq_false hd ⟨(congrArg Prod.fst he).symm, (congrArg Prod.snd he).symm⟩

theorem user_identities_unique (ht : t.Valid) :
    ((upsert_identity a (delete_identity a t.user_identities)).map
      fun d => (d.user_id, d.provider)).Nodup := by
  have hkey : ((delete_identity a t.user_identities).map
      fun d => (d.provider, d.provider_user_id)).Nodup :=
    ht.identity_key.sublist (List.filter_sublist.map _)
  have hunique : ((delete_identity a t.user_identities).map
      fun d => (d.user_id, d.provider)).Nodup :=
    ht.identity_unique.sublist (List.filter_sublist.map _)
  refine nodup_upsert_key hunique (one_conflict hkey ?_) ?_ ?_
  · intro d e hd he
    obtain ⟨hdp, hdv⟩ := of_decide_eq_true hd
    obtain ⟨hep, hev⟩ := of_decide_eq_true he
    exact Prod.ext (hdp.trans hep.symm) (hdv.trans hev.symm)
  · intro d _ hd
    exact Prod.ext rfl (of_decide_eq_true hd).1
  · intro d hd _ he
    have hnot := of_decide_eq_true (List.mem_filter.mp hd).2
    exact hnot ⟨(congrArg Prod.fst he).symm, (congrArg Prod.snd he).symm⟩

theorem assignments_unique {f : UserInstance → String} (ht : (t.user_instances.map f).Nodup)
    (hf : ∀ x ∈ delete_user_instance a t.user_instances, f x ≠ f ⟨a.instance_uuid, a.app_user_id⟩) :
    ((onboard_user_sql t a).user_instances.map f).Nodup := by
  refine nodup_append_single (ht.sublist (List.filter_sublist.map _)) ?_
  exact hf

theorem Accepts.valid (h : Accepts t a) (ht : t.Valid)
    (hi : ∃ i ∈ t.instances, i.instance_uuid = a.instance_uuid) :
    (onboard_user_sql t a).Valid where
  widths := h.widths ht hi
  instance_key := ht.instance_key
  app_user_key := app_users_unique ht
  external_unique := external_users_unique ht h
  identity_key := identities_unique ht
  identity_unique := user_identities_unique ht
  identity_user d hd := by
    rcases mem_identities.mp hd with rfl | ⟨hd, -⟩
    · obtain ⟨u, hu, hid, -⟩ := app_user_made (t := t) (a := a)
      exact ⟨u, hu, hid⟩
    · obtain ⟨u, hu, hid⟩ := ht.identity_user d hd
      obtain ⟨w, hw, hwid⟩ := app_user_kept (a := a) hu
      exact ⟨w, hw, hwid.trans hid⟩
  assignment_key := by
    refine assignments_unique ht.assignment_key fun x hx he => ?_
    exact of_decide_eq_true (List.mem_filter.mp hx).2 (.inr he)
  assignment_unique := by
    refine assignments_unique ht.assignment_unique fun x hx he => ?_
    exact of_decide_eq_true (List.mem_filter.mp hx).2 (.inl he)
  assignment_instance x hx := by
    rcases mem_user_instances.mp hx with rfl | ⟨hx, -⟩
    · exact hi
    · exact ht.assignment_instance x hx
  assignment_user x hx := by
    rcases mem_user_instances.mp hx with rfl | ⟨hx, -⟩
    · obtain ⟨u, hu, hid, -⟩ := app_user_made (t := t) (a := a)
      exact ⟨u, hu, hid⟩
    · obtain ⟨u, hu, hid⟩ := ht.assignment_user x hx
      obtain ⟨w, hw, hwid⟩ := app_user_kept (a := a) hu
      exact ⟨w, hw, hwid.trans hid⟩
  channel_key := ht.channel_key

theorem accepts_of_valid (h : (onboard_user_sql t a).Valid) : Accepts t a := by
  obtain ⟨u, hu, hid, he, hrole⟩ := app_user_made (t := t) (a := a)
  have hwidths := h.widths.app_users u hu
  have hnew := h.widths.identities _ (mem_identities.mpr (.inl rfl))
  refine ⟨hnew.1, hwidths.2.1 _ he, hnew.2.1, hnew.2.2, ?_, fun w hw hwe => ?_⟩
  · by_cases hr : a.role = ""
    · rw [hr]
      exact Nat.zero_le _
    · exact hwidths.2.2 a.role (hrole _ (if_neg hr))
  · by_contra hne
    have hkept : w ∈ upsert_app_user a t.app_users :=
      mem_upsert.mpr (.inl ⟨hw, decide_eq_false hne⟩)
    have hmem : u ∈ (onboard_user_sql t a).app_users.filter
        fun u => u.external_user_id = some a.external_user_id :=
      List.mem_filter.mpr ⟨hu, decide_eq_true he⟩
    rw [filter_optional_key h.external_unique hkept hwe, List.mem_singleton] at hmem
    exact hne (hmem ▸ hid)

/-- The script commits exactly when its arguments are given and fit, there is the instance, and
nobody else has the external id. -/
theorem onboard_user_eq_ok {db db' : Db} : onboard_user db a = .ok db' ↔
    Onboardable db.toTables a ∧ db'.toTables = onboard_user_sql db.toTables a := by
  rw [onboard_user]
  split
  · rename_i hmissing
    constructor
    · intro h
      cases h
    · intro h
      obtain ⟨huser, hexternal, hprovider, hinstance⟩ := h.1.given
      rcases hmissing with he | he | he | he
      · exact absurd he huser
      · exact absurd he hexternal
      · exact absurd he hprovider
      · exact absurd he hinstance
  · rename_i hgiven
    simp only [not_or] at hgiven
    split
    · rename_i hany
      obtain ⟨i, hi, huuid⟩ := List.any_eq_true.mp hany
      have hexists : ∃ i ∈ db.instances, i.instance_uuid = a.instance_uuid :=
        ⟨i, hi, of_decide_eq_true huuid⟩
      rw [mapError_ok, commit]
      split
      · rename_i hvalid
        constructor
        · intro h
          cases h
          exact ⟨⟨accepts_of_valid hvalid, hgiven, hexists⟩, rfl⟩
        · rintro ⟨-, he⟩
          obtain ⟨tables, hdb⟩ := db'
          cases he
          rfl
      · rename_i hinvalid
        constructor
        · intro h
          cases h
        · intro h
          exact absurd (h.1.toAccepts.valid db.valid hexists) hinvalid
    · rename_i hnone
      constructor
      · intro h
        cases h
      · intro h
        obtain ⟨i, hi, huuid⟩ := h.1.instance_exists
        exact absurd (List.any_eq_true.mpr ⟨i, hi, decide_eq_true huuid⟩) hnone

/-! What is looked up after it -/

theorem onboarded_identity {db db' : Db} (h : onboard_user db a = .ok db') :
    (⟨a.app_user_id, a.provider, a.provider_user_id⟩ : UserIdentity) ∈ db'.user_identities := by
  rw [(onboard_user_eq_ok.mp h).2]
  exact mem_identities.mpr (.inl rfl)

/-- Every identity that the user has then is found at the instance. -/
theorem onboarded_bound {db db' : Db} (h : onboard_user db a = .ok db')
    (hi : i ∈ db.instances) (huuid : i.instance_uuid = a.instance_uuid) :
    ∃ u, ∀ q x, (⟨a.app_user_id, q, x⟩ : UserIdentity) ∈ db'.user_identities →
      db'.by_identity q x = [i] ∧ db'.by_external_id a.external_user_id q = [(u, x, i)] := by
  obtain ⟨-, he⟩ := onboard_user_eq_ok.mp h
  obtain ⟨u, hu, hid, hexternal, -⟩ := app_user_made (t := db.toTables) (a := a)
  have hinstance : i ∈ db'.instances := by
    rw [he]
    exact hi
  have huser : u ∈ db'.app_users := by
    rw [he]
    exact hu
  have hassignment : (⟨i.instance_uuid, u.id⟩ : UserInstance) ∈ db'.user_instances := by
    rw [he, hid, huuid]
    exact mem_user_instances.mpr (.inl rfl)
  refine ⟨u, fun q x hidentity => ?_⟩
  rw [← hid] at hidentity
  refine ⟨db'.valid.keyed.by_identity hinstance hassignment ⟨u, huser, rfl⟩ hidentity, ?_⟩
  apply db'.valid.keyed.by_external_id
  simp only [Tables.by_external_id, List.mem_flatMap, List.mem_map, List.mem_filter,
    decide_eq_true_eq]
  exact ⟨u, ⟨huser, hexternal⟩, _, ⟨hidentity, rfl, rfl⟩, _, ⟨hassignment, rfl⟩, i,
    ⟨hinstance, rfl⟩, rfl⟩

end OnboardUser

end ClawMux
