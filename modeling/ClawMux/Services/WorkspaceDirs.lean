import ClawMux.Lib.Transition
import ClawMux.Services.MappingBind
import ClawMux.Services.PathMapping
import ClawMux.Services.UuidNames

namespace ClawMux
set_option autoImplicit true
open Lib Lib.Text Lib.Path

/-! The first uuid of a URL -/

/-- Groups of hexadecimal digits with hyphens between them. -/
def Grouped : List Nat → List Char → Prop
  | [], s => s = []
  | [n], s => s.length = n ∧ ∀ c ∈ s, is_hex c = true
  | n :: m :: groups, s => ∃ digits rest, s = digits ++ '-' :: rest ∧ digits.length = n ∧
    (∀ c ∈ digits, is_hex c = true) ∧ Grouped (m :: groups) rest

theorem match_groups_iff {groups : List Nat} {s found : List Char} :
    match_groups groups s = some found ↔ Grouped groups found ∧ found <+: s := by
  induction groups generalizing s found with
  | nil =>
    rw [match_groups, Grouped, Option.some.injEq]
    constructor
    · rintro rfl
      exact ⟨rfl, List.nil_prefix⟩
    · exact fun h => h.1.symm
  | cons n groups ih =>
    cases groups with
    | nil =>
      simp only [match_groups, Grouped]
      constructor
      · intro h
        split at h
        · rename_i hd
          cases h
          exact ⟨⟨hd.1, List.all_eq_true.mp hd.2⟩, List.take_prefix n s⟩
        · cases h
      · rintro ⟨⟨hlen, hhex⟩, hpre⟩
        have htake : s.take n = found := by
          rw [← hlen]
          exact (List.prefix_iff_eq_take.mp hpre).symm
        rw [htake, if_pos ⟨hlen, List.all_eq_true.mpr hhex⟩]
    | cons m groups =>
      rw [Grouped]
      constructor
      · intro h
        simp only [match_groups] at h
        split at h
        · rename_i hd
          split at h
          · rename_i heq
            cases heq
          · rename_i rest hdrop _
            obtain ⟨more, hmore, rfl⟩ := Option.map_eq_some_iff.mp h
            obtain ⟨hgrouped, tail, rfl⟩ := ih.mp hmore
            refine ⟨⟨s.take n, more, rfl, hd.1, List.all_eq_true.mp hd.2, hgrouped⟩, tail, ?_⟩
            rw [List.append_assoc, List.cons_append, ← hdrop, List.take_append_drop]
          · cases h
        · cases h
      · rintro ⟨⟨digits, rest, rfl, hlen, hhex, hgrouped⟩, tail, rfl⟩
        have htake : (digits ++ '-' :: rest ++ tail).take n = digits := by
          rw [List.append_assoc, ← hlen, List.take_left]
        have hdrop : (digits ++ '-' :: rest ++ tail).drop n = '-' :: (rest ++ tail) := by
          rw [List.append_assoc, ← hlen, List.drop_left, List.cons_append]
        have hrest : match_groups (m :: groups) (rest ++ tail) = some rest :=
          ih.mpr ⟨hgrouped, tail, rfl⟩
        rw [match_groups.eq_def]
        simp only [htake, hdrop, hlen, List.all_eq_true.mpr hhex, hrest]
        rfl

/-- The first place where a pattern matches. -/
theorem findSome_tails_iff {f : List Char → Option α} {s : List Char} :
    s.tails.findSome? f = some x ↔ ∃ before rest, s = before ++ rest ∧ f rest = some x ∧
      ∀ earlier later, s = earlier ++ later → earlier.length < before.length → f later = none := by
  induction s with
  | nil =>
    rw [List.tails, List.findSome?_cons, List.findSome?_nil]
    constructor
    · intro h
      refine ⟨[], [], rfl, ?_, fun _ _ _ hlt => absurd hlt (Nat.not_lt_zero _)⟩
      split at h
      · rename_i hf
        rwa [← h]
      · cases h
    · rintro ⟨before, rest, hs, hf, -⟩
      obtain ⟨rfl, rfl⟩ := List.append_eq_nil_iff.mp hs.symm
      rw [hf]
  | cons c s ih =>
    rw [List.tails_cons, List.findSome?_cons]
    cases hc : f (c :: s) with
    | some y =>
      constructor
      · intro h
        cases h
        exact ⟨[], c :: s, rfl, hc, fun _ _ _ hlt => absurd hlt (Nat.not_lt_zero _)⟩
      · rintro ⟨before, rest, hs, hf, hfirst⟩
        cases before with
        | nil =>
          rw [List.nil_append] at hs
          rw [← hs, hc] at hf
          exact hf
        | cons d before =>
          have hnone := hfirst [] (c :: s) rfl (Nat.succ_pos _)
          rw [hc] at hnone
          cases hnone
    | none =>
      rw [ih]
      constructor
      · rintro ⟨before, rest, rfl, hf, hfirst⟩
        refine ⟨c :: before, rest, rfl, hf, fun earlier later hs hlt => ?_⟩
        cases earlier with
        | nil =>
          rw [List.nil_append] at hs
          rw [← hs]
          exact hc
        | cons d earlier =>
          obtain ⟨-, hs⟩ := List.cons.inj hs
          exact hfirst earlier later hs (Nat.lt_of_succ_lt_succ hlt)
      · rintro ⟨before, rest, hs, hf, hfirst⟩
        cases before with
        | nil =>
          rw [List.nil_append] at hs
          rw [← hs, hc] at hf
          cases hf
        | cons d before =>
          obtain ⟨rfl, rfl⟩ := List.cons.inj hs
          refine ⟨before, rest, rfl, hf, fun earlier later hs hlt => ?_⟩
          exact hfirst (c :: earlier) later (by rw [hs, List.cons_append]) (Nat.succ_lt_succ hlt)

/-- The URL has the uuid in it, and it is the first place where it has one at all. -/
structure Named (instance_url instance_uuid : String) : Prop where
  hyphenated : Grouped [8, 4, 4, 4, 12] instance_uuid.toList
  first : ∃ before after, instance_url.toList = before ++ (instance_uuid.toList ++ after) ∧
    ∀ earlier uuid later, instance_url.toList = earlier ++ (uuid ++ later) →
      Grouped [8, 4, 4, 4, 12] uuid → before.length ≤ earlier.length

theorem extract_uuid_iff :
    extract_uuid_from_instance_url url = some uuid ↔ Named url uuid := by
  rw [extract_uuid_from_instance_url, Option.map_eq_some_iff]
  constructor
  · rintro ⟨found, hfound, rfl⟩
    obtain ⟨before, rest, hs, hmatch, hfirst⟩ := findSome_tails_iff.mp hfound
    obtain ⟨hgrouped, after, rfl⟩ := match_groups_iff.mp hmatch
    rw [← String.toList_ofList (l := found)] at hgrouped hs
    refine ⟨hgrouped, before, after, hs, fun earlier uuid later hs' hg => ?_⟩
    by_contra hlt
    have hnone := hfirst earlier (uuid ++ later) hs' (Nat.not_le.mp hlt)
    rw [match_groups_iff.mpr ⟨hg, later, rfl⟩] at hnone
    cases hnone
  · rintro ⟨hgrouped, before, after, hs, hfirst⟩
    refine ⟨uuid.toList, ?_, String.ofList_toList⟩
    refine findSome_tails_iff.mpr ⟨before, uuid.toList ++ after, hs,
      match_groups_iff.mpr ⟨hgrouped, after, rfl⟩, fun earlier later hs' hlt => ?_⟩
    cases hm : match_groups [8, 4, 4, 4, 12] later with
    | none => rfl
    | some other =>
      obtain ⟨hg, tail, rfl⟩ := match_groups_iff.mp hm
      exact absurd (hfirst earlier other tail hs' hg) (Nat.not_le.mpr hlt)

theorem Grouped.chars (h : Grouped groups s) : ∀ c ∈ s, is_hex c = true ∨ c = '-' := by
  induction groups generalizing s with
  | nil =>
    rw [Grouped] at h
    subst h
    intro c hc
    cases hc
  | cons n groups ih =>
    cases groups with
    | nil => exact fun c hc => .inl (h.2 c hc)
    | cons m groups =>
      obtain ⟨digits, rest, rfl, -, hhex, hrest⟩ := h
      intro c hc
      rcases List.mem_append.mp hc with hc | hc
      · exact .inl (hhex c hc)
      · rcases List.mem_cons.mp hc with rfl | hc
        · exact .inr rfl
        · exact ih hrest c hc

/-- A uuid with its hyphens is the name of one directory. -/
theorem Grouped.name (h : Grouped [8, 4, 4, 4, 12] uuid.toList) : Name uuid := by
  have hno : ∀ {c : Char}, is_hex c = false → c ≠ '-' → c ∉ uuid.toList := by
    intro c hhex hhyphen hc
    rcases h.chars c hc with hx | hx
    · rw [hhex] at hx
      cases hx
    · exact hhyphen hx
  refine ⟨hno rfl (by decide), ?_, ?_, ?_⟩
  · rintro rfl
    obtain ⟨digits, rest, hs, -⟩ := h
    cases digits <;> cases hs
  · rintro rfl
    exact hno (c := '.') rfl (by decide) (by decide)
  · rintro rfl
    exact hno (c := '.') rfl (by decide) (by decide)

/-! The rows of the instances -/

/-- A row that was not there before is the one that was bound. -/
theorem upsert_instance_rows {t t' : Tables} (h : upsert_instance F k t a = .ok t') :
    ∀ i ∈ t'.instances, i ∈ t.instances ∨
      i.instance_uuid = a.instance_uuid ∧ i.instance_url = a.instance_url := by
  obtain ⟨found, hf, h⟩ := bind_ok h
  cases found with
  | none =>
    obtain ⟨priv, hp, h⟩ := bind_ok h
    obtain ⟨tok, ht, h⟩ := bind_ok h
    obtain ⟨gw, hg, h⟩ := bind_ok h
    cases h
    intro i hi
    rcases List.mem_append.mp hi with hi | hi
    · exact .inl hi
    · rw [List.mem_singleton.mp hi]
      exact .inr ⟨rfl, rfl⟩
  | some row =>
    obtain ⟨loaded, hl, h⟩ := bind_ok h
    obtain ⟨priv, hp, h⟩ := bind_ok h
    obtain ⟨tok, ht, h⟩ := bind_ok h
    obtain ⟨gw, hg, h⟩ := bind_ok h
    cases h
    intro i hi
    obtain ⟨j, hj, rfl⟩ := List.mem_map.mp hi
    split
    · exact .inr ⟨rfl, rfl⟩
    · exact .inl hj

theorem bind_instances (h : bind_user_instance F k db a = .ok db') :
    ∀ i ∈ db'.instances, i ∈ db.instances ∨
      i.instance_uuid = a.instance_uuid ∧ i.instance_url = a.instance_url := by
  obtain ⟨provider, t, hp, ht, he⟩ := bind_cases h
  have hrows : db'.instances = t.instances := by
    rw [he]
    simp only [bump_version, (upsert_user_instance_frame _ _ _).2.2.1,
      (upsert_identity_frame _ _ _ _).2.2.2.1, (upsert_app_user_frame _ _ _ _).2.2.1]
  rw [hrows]
  exact upsert_instance_rows ht

/-! The directories of the tenants -/

/-- The users that were bound to what the driver answered. -/
structure Tenants where
  db : Db
  bound : List Provisioned := []

/-- The directory that the router takes from the URL. -/
def router_dir (workspace_base_path instance_url : String) : Option String :=
  (extract_uuid_from_instance_url instance_url).map (tenant workspace_base_path)

/-- The path lies in the directory that the provisioner has for the instance or in the one that
the router has. -/
def Instance.Uses (workspace_base_path : String) (i : Instance) (path : String) : Prop :=
  Within (join workspace_base_path i.instance_uuid) path ∨
    ∃ dir, router_dir workspace_base_path i.instance_url = some dir ∧ Within dir path

namespace Tenants
open InstanceProvisioner

inductive Act
  | provision (provider user_id : String) (reply : Except Unit Json) (uuid4 : String)

def step (F : Fernet) (credential_encryption_key : String) (t : LibraryTables)
    (settings : ProvisioningSettings) (s : Tenants) : Act → Option Tenants
  | .provision provider user_id reply uuid4 =>
    match provision_instance t settings user_id reply uuid4 with
    | .error _ => none
    | .ok p =>
      match bind_user_instance F credential_encryption_key s.db (p.bind_args provider user_id) with
      | .error _ => none
      | .ok db => some { db := db, bound := s.bound ++ [p] }

def Initial (s : Tenants) : Prop := s.bound = [] ∧ s.db.instances = []

/-- The directory of the provisioner, which it seeds, is the one that the router uses, and nobody
else uses it. -/
structure OneDirectory (workspace_base_path : String) (s : Tenants) : Prop where
  same : ∀ p ∈ s.bound, ∃ dir, router_dir workspace_base_path p.instance_url = some dir ∧
    Same (join workspace_base_path p.instance_uuid) dir
  seeded : ∀ p ∈ s.bound, ∀ seeded, p.seeded = some seeded → ∃ dir,
    router_dir workspace_base_path p.instance_url = some dir ∧ Same seeded (dir ++ "/workspace")
  apart : ∀ p u q v i j, s.db.by_identity p u = [i] → s.db.by_identity q v = [j] →
    i.instance_uuid ≠ j.instance_uuid → ∀ path, i.Uses workspace_base_path path →
      ¬ j.Uses workspace_base_path path

variable {F : Fernet} {key : String} {t : LibraryTables} {settings : ProvisioningSettings}
  {s s' : Tenants}

/-- What is accepted has a uuid that is a name, and is seeded under it. -/
theorem provision_ok (h : provision_instance t settings user_id reply uuid4 = .ok p) :
    is_uuid p.instance_uuid = true ∧ ∀ dir, p.seeded = some dir →
      seed_workspace_template settings p.instance_uuid = some dir := by
  obtain ⟨answer, -, h⟩ := bind_ok h
  obtain ⟨⟨uuid, url⟩, hvalid, h⟩ := bind_ok h
  dsimp only at h
  split at h
  · cases h
  · cases h
    refine ⟨(validate_ok hvalid).1, fun dir hdir => ?_⟩
    dsimp only at hdir
    split at hdir
    · cases hdir
    · exact hdir

/-- Every row comes from an answer that was bound, and every answer has a uuid. -/
structure Inv (settings : ProvisioningSettings) (s : Tenants) : Prop where
  rows : ∀ i ∈ s.db.instances, ∃ p ∈ s.bound,
    i.instance_uuid = p.instance_uuid ∧ i.instance_url = p.instance_url
  named : ∀ p ∈ s.bound, is_uuid p.instance_uuid = true
  seeded : ∀ p ∈ s.bound, ∀ dir, p.seeded = some dir →
    seed_workspace_template settings p.instance_uuid = some dir

theorem step_inv (h : s.Inv settings) (hs : s.step F key t settings a = some s') :
    s'.Inv settings := by
  obtain ⟨provider, user_id, reply, uuid4⟩ := a
  rw [step] at hs
  split at hs
  · cases hs
  · rename_i p hp
    split at hs
    · cases hs
    · rename_i db hbind
      cases hs
      obtain ⟨huuid, hseed⟩ := provision_ok hp
      refine ⟨fun i hi => ?_, fun q hq => ?_, fun q hq dir hdir => ?_⟩
      · rcases bind_instances hbind i hi with hi | ⟨hu, hurl⟩
        · obtain ⟨q, hq, hboth⟩ := h.rows i hi
          exact ⟨q, List.mem_append_left _ hq, hboth⟩
        · exact ⟨p, List.mem_append_right _ List.mem_cons_self, hu, hurl⟩
      · rcases List.mem_append.mp hq with hq | hq
        · exact h.named q hq
        · exact List.mem_singleton.mp hq ▸ huuid
      · rcases List.mem_append.mp hq with hq | hq
        · exact h.seeded q hq dir hdir
        · rw [List.mem_singleton.mp hq] at hdir ⊢
          exact hseed dir hdir

theorem inv_reach (h : Reach (step F key t settings) Any Initial s) : s.Inv settings := by
  refine h.invariant ?_ fun _ _ _ hi _ hs => step_inv hi hs
  rintro s ⟨hbound, hrows⟩
  refine ⟨fun i hi => ?_, fun p hp => ?_, fun p hp => ?_⟩
  · rw [hrows] at hi
    cases hi
  · rw [hbound] at hp
    cases hp
  · rw [hbound] at hp
    cases hp

/-- Both have the directory of an instance in one place just when its URL names it. -/
theorem same_router_dir (h : is_uuid uuid = true) :
    (∃ dir, router_dir base url = some dir ∧ Same (join base uuid) dir) ↔
      base ≠ "" ∧ Named url uuid := by
  have hname := is_uuid_name h
  constructor
  · rintro ⟨dir, hdir, hsame⟩
    obtain ⟨found, hfound, rfl⟩ := Option.map_eq_some_iff.mp hdir
    have hnamed := extract_uuid_iff.mp hfound
    obtain ⟨hbase, rfl⟩ := (same_join_iff hname hnamed.hyphenated.name).mp hsame
    exact ⟨hbase, hnamed⟩
  · rintro ⟨hbase, hnamed⟩
    refine ⟨tenant base uuid, ?_, (same_join_iff hname hname).mpr ⟨hbase, rfl⟩⟩
    rw [router_dir, extract_uuid_iff.mpr hnamed]
    rfl

/-- The directory that is seeded lies in that one. -/
theorem same_seeded (hname : Name uuid) (hbase : base ≠ "") :
    Same (join (join base uuid) "workspace") (tenant base uuid ++ "/workspace") := by
  have hne : tenant base uuid ≠ "" := by
    intro he
    have hempty := congrArg String.toList he
    rw [tenant, String.toList_append] at hempty
    exact hname.nonempty (String.toList_inj.mp (List.append_eq_nil_iff.mp hempty).2)
  intro ν d cwd
  have hslash : tenant base uuid ++ "/workspace" = tenant base uuid ++ "/" ++ "workspace" := by
    rw [String.append_assoc]
    rfl
  rw [hslash, workspace_name.walk_join, workspace_name.walk_slash hne, tenant,
    (same_join_iff hname hname).mpr ⟨hbase, rfl⟩]

/-- An instance whose URL names it uses one directory. -/
theorem uses_iff {i : Instance} (h : Named i.instance_url i.instance_uuid) (hbase : base ≠ "") :
    i.Uses base path ↔ Within (join base i.instance_uuid) path := by
  have hname := h.hyphenated.name
  constructor
  · rintro (hw | ⟨dir, hdir, hw⟩)
    · exact hw
    · rw [router_dir, extract_uuid_iff.mpr h] at hdir
      cases hdir
      exact ((same_join_iff hname hname).mpr ⟨hbase, rfl⟩).symm.within hw
  · exact .inl

theorem by_identity_mem {t : Tables} (h : t.by_identity p u = [i]) : i ∈ t.instances := by
  have hm : i ∈ t.by_identity p u := h ▸ List.mem_cons_self
  obtain ⟨j, hj, hm⟩ := List.mem_flatMap.mp hm
  obtain ⟨a, -, hm⟩ := List.mem_flatMap.mp hm
  obtain ⟨w, -, hm⟩ := List.mem_flatMap.mp hm
  obtain ⟨d, -, rfl⟩ := List.mem_map.mp hm
  exact hj

/-- In every run it is the URLs that decide. -/
theorem one_directory_iff (h : Reach (step F key t settings) Any Initial s) :
    s.OneDirectory settings.workspace_base_path ↔
      ∀ p ∈ s.bound, settings.workspace_base_path ≠ "" ∧ Named p.instance_url p.instance_uuid := by
  have hi := inv_reach h
  constructor
  · exact fun hone p hp => (same_router_dir (hi.named p hp)).mp (hone.same p hp)
  · intro hnamed
    have hrow : ∀ i ∈ s.db.instances,
        settings.workspace_base_path ≠ "" ∧ Named i.instance_url i.instance_uuid := by
      intro i hm
      obtain ⟨p, hp, hu, hurl⟩ := hi.rows i hm
      rw [hu, hurl]
      exact hnamed p hp
    refine ⟨fun p hp => (same_router_dir (hi.named p hp)).mpr (hnamed p hp), ?_, ?_⟩
    · intro p hp seeded hseeded
      obtain ⟨hbase, hurl⟩ := hnamed p hp
      refine ⟨tenant settings.workspace_base_path p.instance_uuid, ?_, ?_⟩
      · rw [router_dir, extract_uuid_iff.mpr hurl]
        rfl
      · have hdir := hi.seeded p hp seeded hseeded
        rw [seed_workspace_template] at hdir
        split at hdir
        · cases hdir
          exact same_seeded (is_uuid_name (hi.named p hp)) hbase
        · cases hdir
    · intro p u q v i j hp hq hne path hpath hpath'
      obtain ⟨hbase, hni⟩ := hrow i (by_identity_mem hp)
      obtain ⟨-, hnj⟩ := hrow j (by_identity_mem hq)
      exact hne (((uses_iff hni hbase).mp hpath).child_inj hni.hyphenated.name
        hnj.hyphenated.name ((uses_iff hnj hbase).mp hpath'))

theorem valid_versioned : Tables.Valid { mapping_state := some 1 } := by decide

def unassigned : Tenants := { db := ⟨{ mapping_state := some 1 }, valid_versioned⟩ }

def webhook : ProvisioningSettings := { provisioning_webhook_url := "http://orchestrator" }

/-- What the webhook answers for an instance with a URL. -/
def instance_reply (instance_uuid instance_url : String) : Except Unit Json :=
  .ok (.obj [("instance_uuid", .str instance_uuid), ("instance_url", .str instance_url),
    ("credentials", .obj [("device_id", .str "d")])])

def first_uuid : String := "30f2aeff-1111-4222-8333-123456789abc"

def second_uuid : String := "4b0c1d2e-1111-4222-8333-123456789abc"

def gateway_url (uuid : String) : String := "ws://openclaw-gw-" ++ uuid ++ ":18789/ws"

theorem gateway_named : Named (gateway_url first_uuid) first_uuid :=
  extract_uuid_iff.mp (by decide +kernel)

/-- The first user is provisioned. -/
def first_user : Act :=
  .provision "telegram" "7" (instance_reply first_uuid (gateway_url first_uuid)) ""

theorem one_directory_iff_named : ∃ s,
    exec (step Fernet.clear "" {} webhook) unassigned [first_user] = some s ∧
      s.bound.map (·.instance_uuid) = [first_uuid] ∧ s.OneDirectory "/configs" := by
  have h : ((exec (step Fernet.clear "" {} webhook) unassigned [first_user]).any fun s =>
      s.bound.map (fun p => (p.instance_uuid, p.instance_url)) =
        [(first_uuid, gateway_url first_uuid)]) = true := by decide +kernel
  obtain ⟨s, hs, hbound⟩ := (Option.any_eq_true _ _).mp h
  obtain ⟨p, hp, hboth⟩ := List.map_eq_singleton_iff.mp (of_decide_eq_true hbound)
  obtain ⟨huuid, hurl⟩ := Prod.mk.inj hboth
  have hi : Initial unassigned := ⟨rfl, rfl⟩
  refine ⟨s, hs, by rw [hp, List.map_singleton, huuid], ?_⟩
  refine (one_directory_iff (reach_of_exec hi hs)).mpr fun q hq => ?_
  rw [hp] at hq
  rw [List.mem_singleton.mp hq, huuid, hurl]
  exact ⟨by decide, gateway_named⟩

/-- The URL of the second user's instance has the uuid of the first user's instance in it. -/
theorem not_one_directory : ∃ s, Reach (step Fernet.clear "" {} webhook) Any Initial s ∧
    ¬ s.OneDirectory "/configs" := by
  have h : ((exec (step Fernet.clear "" {} webhook) unassigned [first_user,
      .provision "telegram" "8" (instance_reply second_uuid (gateway_url first_uuid)) ""]).any
        fun s => (s.db.by_identity "telegram" "7").map (·.instance_uuid) = [first_uuid] ∧
          (s.db.by_identity "telegram" "8").map (fun i => (i.instance_uuid, i.instance_url)) =
            [(second_uuid, gateway_url first_uuid)]) = true := by decide +kernel
  obtain ⟨s, hs, hall⟩ := (Option.any_eq_true _ _).mp h
  obtain ⟨hfirst, hsecond⟩ := of_decide_eq_true hall
  obtain ⟨i, hi, hfirst⟩ := List.map_eq_singleton_iff.mp hfirst
  obtain ⟨j, hj, hboth⟩ := List.map_eq_singleton_iff.mp hsecond
  obtain ⟨hsecond, hurl⟩ := Prod.mk.inj hboth
  have hinit : Initial unassigned := ⟨rfl, rfl⟩
  refine ⟨s, reach_of_exec hinit hs, fun hone => ?_⟩
  have hne : i.instance_uuid ≠ j.instance_uuid := by
    rw [hfirst, hsecond]
    decide
  have hname := gateway_named.hyphenated.name
  refine hone.apart _ _ _ _ i j hi hj hne (join "/configs" first_uuid) ?_ ?_
  · exact .inl (hfirst ▸ .inl (.refl _))
  · refine .inr ⟨tenant "/configs" first_uuid, ?_, ?_⟩
    · rw [hurl, router_dir, extract_uuid_iff.mpr gateway_named]
      rfl
    · exact .inl ((same_join_iff hname hname).mpr ⟨by decide, rfl⟩).symm

end Tenants

end ClawMux
