import ClawMux.Lib.Directory
import ClawMux.Scripts.OnboardUser
import ClawMux.Services.MappingLookups
import ClawMux.Services.MappingRoundTrip

namespace ClawMux
set_option autoImplicit true
open Lib

/-- What the tables are for: the users by their identities, and the instance of each of them. -/
abbrev InstanceDirectory := Directory String String String String

/-- The one value of a row with this key. -/
def value_at [DecidableEq κ] (rows : List α) (key : α → κ) (value : α → β) (k : κ) : Option β :=
  (rows.find? fun r => key r = k).map value

theorem value_at_eq_some [DecidableEq κ] {rows : List α} {key : α → κ} {value : α → β}
    (hrows : (rows.map key).Nodup) :
    value_at rows key value k = some b ↔ ∃ r ∈ rows, key r = k ∧ value r = b := by
  rw [value_at, Option.map_eq_some_iff]
  constructor
  · rintro ⟨r, hr, rfl⟩
    have hkey := List.find?_some hr
    exact ⟨r, List.mem_of_find?_eq_some hr, of_decide_eq_true hkey, rfl⟩
  · rintro ⟨r, hr, rfl, rfl⟩
    cases hfind : rows.find? fun s => key s = key r with
    | none =>
      have hnone := List.find?_eq_none.mp hfind r hr
      exact absurd (decide_eq_true rfl) hnone
    | some s =>
      have hs := List.find?_some hfind
      refine ⟨s, rfl, congrArg value (key_inj hrows (List.mem_of_find?_eq_some hfind) hr ?_)⟩
      exact of_decide_eq_true hs

namespace Db

variable {db db' : Db}

theorem owner_eq_some : value_at db.user_identities (fun d => (d.provider, d.provider_user_id))
    (·.user_id) (p, v) = some u ↔ (⟨u, p, v⟩ : UserIdentity) ∈ db.user_identities := by
  rw [value_at_eq_some db.valid.identity_key]
  constructor
  · rintro ⟨⟨du, dp, dv⟩, hd, hkey, rfl⟩
    cases hkey
    exact hd
  · exact fun h => ⟨_, h, rfl, rfl⟩

theorem assigned_eq_some : value_at db.user_instances (·.user_id) (·.instance_uuid) u = some i ↔
    (⟨i, u⟩ : UserInstance) ∈ db.user_instances := by
  rw [value_at_eq_some db.valid.assignment_unique]
  constructor
  · rintro ⟨⟨xi, xu⟩, hx, rfl, rfl⟩
    exact hx
  · exact fun h => ⟨_, h, rfl, rfl⟩

/-- The directory that the tables hold. -/
def directory (db : Db) : InstanceDirectory where
  owner := value_at db.user_identities (fun d => (d.provider, d.provider_user_id)) (·.user_id)
  assigned := value_at db.user_instances (·.user_id) (·.instance_uuid)
  one_name hv hw := by
    have he := key_inj db.valid.identity_unique (owner_eq_some.mp hv) (owner_eq_some.mp hw) rfl
    exact congrArg UserIdentity.provider_user_id he
  one_user hu hw := by
    have he := key_inj db.valid.assignment_key (assigned_eq_some.mp hu) (assigned_eq_some.mp hw) rfl
    exact congrArg UserInstance.user_id he

theorem directory_owner : db.directory.owner (p, v) = some u ↔
    (⟨u, p, v⟩ : UserIdentity) ∈ db.user_identities :=
  owner_eq_some

theorem directory_assigned : db.directory.assigned u = some i ↔
    (⟨i, u⟩ : UserInstance) ∈ db.user_instances :=
  assigned_eq_some

/-- The query of `get_instance_by_identity` finds the instance that the directory resolves to. -/
theorem by_identity_resolves (db : Db) (p v : String) :
    (db.by_identity p v).map (·.instance_uuid) = (db.directory.resolve (p, v)).toList := by
  cases hr : db.directory.resolve (p, v) with
  | some uuid =>
    obtain ⟨u, hu, huuid⟩ := Directory.resolve_eq_some.mp hr
    have hidentity := directory_owner.mp hu
    have hassignment := directory_assigned.mp huuid
    obtain ⟨i, hi, rfl⟩ := db.valid.assignment_instance _ hassignment
    rw [db.valid.keyed.by_identity hi hassignment (db.valid.identity_user _ hidentity) hidentity]
    rfl
  | none =>
    rw [Option.toList_none, List.map_eq_nil_iff, List.eq_nil_iff_forall_not_mem]
    intro i hi
    obtain ⟨-, ⟨ai, au⟩, ha, -, u, -, hua, ⟨du, dp, dv⟩, hd, hdu, hdp, hdv⟩ :=
      Tables.mem_by_identity hi
    cases hua
    cases hdu
    cases hdp
    cases hdv
    have hsome : db.directory.resolve (dp, dv) = some ai :=
      Directory.resolve_eq_some.mpr ⟨_, directory_owner.mpr hd, directory_assigned.mpr ha⟩
    cases hr.symm.trans hsome

/-- A database whose pairs are those of a directory holds it. -/
theorem directory_eq {d : InstanceDirectory}
    (howner : ∀ p v u, (⟨u, p, v⟩ : UserIdentity) ∈ db.user_identities ↔ d.owner (p, v) = some u)
    (hassigned : ∀ u i, (⟨i, u⟩ : UserInstance) ∈ db.user_instances ↔ d.assigned u = some i) :
    db.directory = d :=
  Directory.ext_pairs (fun p v u => directory_owner.trans (howner p v u))
    fun u i => directory_assigned.trans (hassigned u i)

end Db

open Classical in
/-- What `bind_user_instance` is for: the user gets a name if it has none at the provider, and the
seat. -/
noncomputable def InstanceDirectory.bind (d : InstanceDirectory) (u p v uuid : String) :
    InstanceDirectory :=
  (if ∃ w, d.owner (p, w) = some u then d else d.enroll u p v).seat u uuid

theorem InstanceDirectory.bind_assigned {d : InstanceDirectory} {u p v uuid w j : String} :
    (d.bind u p v uuid).assigned w = some j ↔
      w = u ∧ j = uuid ∨ w ≠ u ∧ j ≠ uuid ∧ d.assigned w = some j := by
  rw [bind, Directory.seat_assigned]
  split
  · rfl
  · rfl

variable {F : Fernet} {k p v : String} {db db' : Db} {a : BindArgs}

/-- The identities after a bind. -/
theorem bind_identity_rows (hp : validate_provider a.provider = .ok p)
    (h : bind_user_instance F k db a = .ok db') :
    (∃ d ∈ db.user_identities, d.user_id = app_user_id p a.provider_user_id ∧ d.provider = p) ∧
        db'.user_identities = db.user_identities ∨
      (∀ d ∈ db.user_identities, d.user_id = app_user_id p a.provider_user_id → d.provider ≠ p) ∧
        db'.user_identities =
          db.user_identities ++ [⟨app_user_id p a.provider_user_id, p, a.provider_user_id⟩] := by
  obtain ⟨q, t, hq, ht, he⟩ := bind_cases h
  cases hp.symm.trans hq
  generalize ht₂ : upsert_app_user t _ _ _ = t₂ at he
  generalize ht₃ : upsert_identity t₂ _ _ _ = t₃ at he
  have hids : t₂.user_identities = db.user_identities := by
    rw [← ht₂, (upsert_app_user_frame ..).2.2.2.1, (upsert_instance_frame ht).2.2.1]
  have hids' : db'.user_identities = t₃.user_identities := by
    rw [he]
    exact (upsert_user_instance_frame ..).2.2.2.2.1
  rw [hids', ← ht₃, ← hids]
  rcases upsert_identity_cases t₂ (app_user_id p a.provider_user_id) p a.provider_user_id with
    ⟨hnone, hrows⟩ | ⟨hsome, hrows⟩
  · rw [hrows]
    exact .inr ⟨hnone, rfl⟩
  · rw [hrows]
    exact .inl ⟨hsome, rfl⟩

/-- The assignments after a bind. -/
theorem mem_bind_assignments (hp : validate_provider a.provider = .ok p)
    (h : bind_user_instance F k db a = .ok db') {x : UserInstance} :
    x ∈ db'.user_instances ↔ x = ⟨a.instance_uuid, app_user_id p a.provider_user_id⟩ ∨
      x ∈ db.user_instances ∧ x.user_id ≠ app_user_id p a.provider_user_id := by
  obtain ⟨q, t, hq, ht, he⟩ := bind_cases h
  cases hp.symm.trans hq
  generalize ht₂ : upsert_app_user t _ _ _ = t₂ at he
  generalize ht₃ : upsert_identity t₂ _ _ _ = t₃ at he
  have hrows : t₃.user_instances = db.user_instances := by
    rw [← ht₃, (upsert_identity_frame ..).2.2.2.2.2.1, ← ht₂, (upsert_app_user_frame ..).2.2.2.2.1,
      (upsert_instance_frame ht).2.2.2.1]
  have hframe := upsert_user_instance_frame t₃ (app_user_id p a.provider_user_id) a.instance_uuid
  have hrows' : db'.user_instances = (upsert_user_instance t₃ (app_user_id p a.provider_user_id)
      a.instance_uuid).user_instances := by
    rw [he]
    rfl
  rw [hrows']
  constructor
  · intro hx
    rcases upsert_user_instance_mem hx with hold | rfl
    · by_cases hu : x.user_id = app_user_id p a.provider_user_id
      · have hvalid := db'.valid.assignment_unique
        rw [hrows'] at hvalid
        exact .inl (key_inj hvalid hx hframe.1 hu)
      · exact .inr ⟨hrows ▸ hold, hu⟩
    · exact .inl rfl
  · rintro (rfl | ⟨hx, hne⟩)
    · exact hframe.1
    · exact hframe.2.1 x (hrows ▸ hx) hne

/-- A bind that commits does to the directory what it is for. -/
theorem bind_directory (hp : validate_provider a.provider = .ok p)
    (h : bind_user_instance F k db a = .ok db') :
    db'.directory = db.directory.bind (app_user_id p a.provider_user_id) p a.provider_user_id
      a.instance_uuid := by
  apply Db.directory_eq
  · intro q x w
    rw [InstanceDirectory.bind]
    rcases bind_identity_rows hp h with ⟨⟨⟨du, dp, dv⟩, hd, hdu, hdp⟩, hrows⟩ | ⟨hnone, hrows⟩
    · obtain rfl : dp = p := hdp
      obtain rfl : du = app_user_id dp a.provider_user_id := hdu
      rw [hrows, if_pos ⟨dv, Db.directory_owner.mpr hd⟩]
      exact Db.directory_owner.symm
    · have hnew : (⟨app_user_id p a.provider_user_id, p, a.provider_user_id⟩ : UserIdentity) ∈
          db'.user_identities := by
        rw [hrows]
        exact List.mem_append_right _ List.mem_cons_self
      rw [if_neg fun ⟨x, hx⟩ => hnone _ (Db.directory_owner.mp hx) rfl rfl]
      rw [show ((db.directory.enroll _ p _).seat _ _).owner (q, x) =
        (db.directory.enroll (app_user_id p a.provider_user_id) p a.provider_user_id).owner (q, x)
        from rfl, Directory.enroll_owner, Db.directory_owner]
      constructor
      · intro hmem
        have hold := hmem
        rw [hrows, List.mem_append, List.mem_singleton] at hold
        rcases hold with hold | hold
        · have hnot : ¬ (q = p ∧ w = app_user_id p a.provider_user_id) :=
            fun ⟨hq, hw⟩ => hnone _ hold hw hq
          refine .inr ⟨fun he => hnot ?_, hnot, hold⟩
          cases key_inj db'.valid.identity_key hmem hnew he
          exact ⟨rfl, rfl⟩
        · cases hold
          exact .inl ⟨rfl, rfl⟩
      · rintro (⟨he, rfl⟩ | ⟨-, -, hold⟩)
        · cases he
          exact hnew
        · rw [hrows]
          exact List.mem_append_left _ hold
  · intro w j
    rw [mem_bind_assignments hp h, InstanceDirectory.bind_assigned, Db.directory_assigned]
    have hnew : (⟨a.instance_uuid, app_user_id p a.provider_user_id⟩ : UserInstance) ∈
        db'.user_instances := (mem_bind_assignments hp h).mpr (.inl rfl)
    constructor
    · rintro (he | ⟨hx, hne⟩)
      · cases he
        exact .inl ⟨rfl, rfl⟩
      · have hx' := (mem_bind_assignments hp h).mpr (.inr ⟨hx, hne⟩)
        refine .inr ⟨hne, fun he => hne ?_, hx⟩
        exact congrArg UserInstance.user_id (key_inj db'.valid.assignment_key hx' hnew he)
    · rintro (⟨rfl, rfl⟩ | ⟨hne, -, hx⟩)
      · exact .inl rfl
      · exact .inr ⟨hx, hne⟩

/-- So does a run of the script: the user gets the name, whoever had it before, and the seat. -/
theorem onboard_directory {a : OnboardArgs} (h : OnboardUser.onboard_user db a = .ok db') :
    db'.directory = (db.directory.enroll a.app_user_id a.provider a.provider_user_id).seat
      a.app_user_id a.instance_uuid := by
  obtain ⟨-, hrows⟩ := OnboardUser.onboard_user_eq_ok.mp h
  apply Db.directory_eq
  · intro q x w
    rw [hrows, OnboardUser.onboard_user_sql, OnboardUser.mem_identities]
    rw [show ∀ e : InstanceDirectory, (e.seat a.app_user_id a.instance_uuid).owner = e.owner
      from fun _ => rfl, Directory.enroll_owner, Db.directory_owner]
    constructor
    · rintro (he | ⟨hd, hown, hkey⟩)
      · cases he
        exact .inl ⟨rfl, rfl⟩
      · refine .inr ⟨fun he => hkey ?_, fun he => hown he.symm, hd⟩
        cases he
        exact ⟨rfl, rfl⟩
    · rintro (⟨he, rfl⟩ | ⟨hkey, hown, hd⟩)
      · cases he
        exact .inl rfl
      · exact .inr ⟨hd, fun he => hown he.symm, fun he => hkey (Prod.ext he.1 he.2)⟩
  · intro w j
    rw [hrows, OnboardUser.mem_user_instances, Directory.seat_assigned]
    rw [show (db.directory.enroll a.app_user_id a.provider a.provider_user_id).assigned w =
      db.directory.assigned w from rfl, Db.directory_assigned]
    constructor
    · rintro (he | ⟨hx, hw, hj⟩)
      · cases he
        exact .inl ⟨rfl, rfl⟩
      · exact .inr ⟨hw, hj, hx⟩
    · rintro (⟨rfl, rfl⟩ | ⟨hw, hj, hx⟩)
      · exact .inl rfl
      · exact .inr ⟨hx, hw, hj⟩

/-- A run of the script commits exactly when its arguments fit the tables; then the user is found at
the instance by all its ids, and whoever has another name, user and seat is found as before. -/
theorem onboard_user_binds (db : Db) (a : OnboardArgs) :
    ((∃ db', OnboardUser.onboard_user db a = .ok db') ↔ OnboardUser.Onboardable db.toTables a) ∧
    ∀ db', OnboardUser.onboard_user db a = .ok db' →
      (⟨a.app_user_id, a.provider, a.provider_user_id⟩ : UserIdentity) ∈ db'.user_identities ∧
      (∃ i ∈ db.instances, i.instance_uuid = a.instance_uuid ∧
        ∃ u, ∀ q x, (⟨a.app_user_id, q, x⟩ : UserIdentity) ∈ db'.user_identities →
          db'.by_identity q x = [i] ∧ db'.by_external_id a.external_user_id q = [(u, x, i)]) ∧
      ∀ q x w, (q, x) ≠ (a.provider, a.provider_user_id) → db.directory.owner (q, x) = some w →
        w ≠ a.app_user_id → db.directory.assigned w ≠ some a.instance_uuid →
        (db'.by_identity q x).map (·.instance_uuid) =
          (db.by_identity q x).map (·.instance_uuid) := by
  refine ⟨⟨?_, fun h => ?_⟩, fun db' h =>
    ⟨OnboardUser.onboarded_identity h, ?_, fun q x w hne how hw hi => ?_⟩⟩
  · rintro ⟨db', h⟩
    exact (OnboardUser.onboard_user_eq_ok.mp h).1
  · have hvalid := h.toAccepts.valid db.valid h.instance_exists
    exact ⟨⟨_, hvalid⟩, OnboardUser.onboard_user_eq_ok.mpr ⟨h, rfl⟩⟩
  · obtain ⟨i, hi, huuid⟩ := (OnboardUser.onboard_user_eq_ok.mp h).1.instance_exists
    exact ⟨i, hi, huuid, OnboardUser.onboarded_bound h hi huuid⟩
  · rw [Db.by_identity_resolves, Db.by_identity_resolves, onboard_directory h]
    rw [Directory.resolve_others hne how hw hi]

theorem onboard_user_binds_new :
    let t : Tables :=
      { instances := [⟨"i-1", "ws://one:1", "device", "public", "private", "token", "gateway"⟩] }
    ∃ db' i, OnboardUser.onboard_user ⟨t, by decide⟩
      ⟨"u-1", "alice", "mattermost", "mm-1", "i-1", ""⟩ = .ok db' ∧
        i.instance_uuid = "i-1" ∧ db'.by_identity "mattermost" "mm-1" = [i] := by
  intro t
  obtain ⟨hiff, hbound⟩ := onboard_user_binds ⟨t, by decide⟩
    ⟨"u-1", "alice", "mattermost", "mm-1", "i-1", ""⟩
  obtain ⟨db', h⟩ := hiff.mpr
    ⟨⟨by decide, by decide, by decide, by decide, by decide, fun u hu => by cases hu⟩, by decide,
      _, List.mem_cons_self, rfl⟩
  obtain ⟨hidentity, ⟨i, -, huuid, u, hfound⟩, -⟩ := hbound db' h
  exact ⟨db', i, h, huuid, (hfound _ _ hidentity).1⟩

/-- A change of the tables. -/
inductive DirectoryChange
  | onboard (a : OnboardArgs)
  | bind (a : BindArgs)

namespace DirectoryChange

/-- The state that a change commits. -/
def commits (F : Fernet) (k : String) (db : Db) : DirectoryChange → Option Db
  | onboard a => (OnboardUser.onboard_user db a).toOption
  | bind a => (bind_user_instance F k db a).toOption

/-- What a change is for. -/
noncomputable def apply (d : InstanceDirectory) : DirectoryChange → InstanceDirectory
  | onboard a => (d.enroll a.app_user_id a.provider a.provider_user_id).seat a.app_user_id
      a.instance_uuid
  | bind a =>
    match validate_provider a.provider with
    | .ok p => d.bind (app_user_id p a.provider_user_id) p a.provider_user_id a.instance_uuid
    | .error _ => d

/-- The state after changes one after another, and the changes that were committed. -/
def run (F : Fernet) (k : String) : Db → List DirectoryChange → Db × List DirectoryChange
  | db, [] => (db, [])
  | db, c :: cs =>
    match commits F k db c with
    | some db' => ((run F k db' cs).1, c :: (run F k db' cs).2)
    | none => run F k db cs

theorem commits_directory {c : DirectoryChange} (h : commits F k db c = some db') :
    db'.directory = apply db.directory c := by
  cases c with
  | onboard a =>
    rw [commits] at h
    cases hrun : OnboardUser.onboard_user db a with
    | error e =>
      rw [hrun] at h
      cases h
    | ok next =>
      rw [hrun] at h
      obtain rfl : next = db' := Option.some.inj h
      exact onboard_directory hrun
  | bind a =>
    rw [commits] at h
    cases hrun : bind_user_instance F k db a with
    | error e =>
      rw [hrun] at h
      cases h
    | ok next =>
      rw [hrun] at h
      obtain rfl : next = db' := Option.some.inj h
      obtain ⟨p, t, hp, -⟩ := bind_cases hrun
      rw [apply, hp]
      exact bind_directory hp hrun

theorem run_directory (F : Fernet) (k : String) (db : Db) (cs : List DirectoryChange) :
    (run F k db cs).1.directory = (run F k db cs).2.foldl apply db.directory := by
  induction cs generalizing db with
  | nil => rfl
  | cons c cs ih =>
    rw [run]
    cases h : commits F k db c with
    | none => exact ih db
    | some db' =>
      dsimp only
      rw [List.foldl_cons, ← commits_directory h]
      exact ih db'

/-- After any changes, an identity is looked up as the committed ones say. -/
theorem run_by_identity (F : Fernet) (k : String) (db : Db) (cs : List DirectoryChange)
    (p v : String) : ((run F k db cs).1.by_identity p v).map (·.instance_uuid) =
      (((run F k db cs).2.foldl apply db.directory).resolve (p, v)).toList := by
  rw [Db.by_identity_resolves, run_directory]

end DirectoryChange

end ClawMux
