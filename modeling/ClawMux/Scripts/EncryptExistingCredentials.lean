import ClawMux.Core.EncryptedText
import ClawMux.Lib.Except
import Mathlib.Data.List.Nodup

namespace ClawMux
set_option autoImplicit true
open Lib Lib.Text

inductive SecretColumn
  | private_key_b64
  | device_token
  | gateway_token
  deriving DecidableEq, Repr

def SECRET_COLUMNS : List SecretColumn := [.private_key_b64, .device_token, .gateway_token]

/-- A row of `instance` as raw SQL reads it; a secret may be NULL. -/
structure RawInstance where
  instance_uuid : String
  instance_url : String
  device_id : String
  public_key_b64 : String
  created_at : Int
  secret : SecretColumn → Option String

namespace EncryptExistingCredentials

/-- What can fail beside the encryption; each failure rolls the transaction back. -/
inductive Statement
  | select
  | report (instance_uuid : String)
  | update (instance_uuid : String)
  | summary
  | commit
  deriving DecidableEq

inductive Failure
  | credential (e : CredentialEncryptionError)
  | statement (s : Statement)
  deriving DecidableEq

variable (F : Fernet) (token : String → SecretColumn → String → String → String)
  (credential_encryption_key : String) (fails : Statement → Bool)
  (select : List RawInstance → List RawInstance)

def attempt (s : Statement) : Except Failure Unit :=
  if fails s then .error (.statement s) else .ok ()

def plaintext (row : RawInstance) (column : SecretColumn) : Bool :=
  let value := (row.secret column).getD ""
  value ≠ "" && !is_encrypted value

/-- `params` of one row. Every encryption draws a token of its own. -/
def params_of (row : RawInstance) :
    List SecretColumn → Except Failure (List (SecretColumn × String))
  | [] => .ok []
  | column :: columns =>
    if plaintext row column then
      match encrypt_secret { F with encrypt := token row.instance_uuid column }
          credential_encryption_key ((row.secret column).getD "") with
      | .error e => .error (.credential e)
      | .ok stored => do
        let params ← params_of row columns
        return (column, stored) :: params
    else params_of row columns

/-- `SET` of the columns in `params`. -/
def assign (params : List (SecretColumn × String)) (row : RawInstance) : RawInstance :=
  { row with secret := fun column => ((params.lookup column).map some).getD (row.secret column) }

def update_instance (params : List (SecretColumn × String)) (uuid : String)
    (table : List RawInstance) : List RawInstance :=
  table.map fun row => if row.instance_uuid = uuid then assign params row else row

/-- The loop over the rows that were selected. -/
def migrate (dry_run : Bool) :
    List RawInstance → List RawInstance → Nat → Except Failure (List RawInstance × Nat)
  | [], table, updated => .ok (table, updated)
  | row :: rows, table, updated => do
    let params ← params_of F token credential_encryption_key row SECRET_COLUMNS
    if params = [] then migrate dry_run rows table updated
    else
      attempt fails (.report row.instance_uuid)
      if dry_run then migrate dry_run rows table (updated + 1)
      else
        attempt fails (.update row.instance_uuid)
        migrate dry_run rows (update_instance params row.instance_uuid table) (updated + 1)

/-- The body of `async with engine.begin()`. -/
def transaction (dry_run : Bool) (table : List RawInstance) :
    Except Failure (List RawInstance) := do
  attempt fails .select
  let (table', _) ← migrate F token credential_encryption_key fails dry_run (select table) table 0
  attempt fails .summary
  attempt fails .commit
  return table'

/-- The exit code or the failure, and the committed table. -/
def main (dry_run : Bool) (table : List RawInstance) : Except Failure Nat × List RawInstance :=
  if strip credential_encryption_key = "" then (.ok 1, table)
  else
    match transaction F token credential_encryption_key fails select dry_run table with
    | .ok table' => (.ok 0, table')
    | .error e => (.error e, table)

/-- The row is the same to its readers, and holds no secret in clear. -/
structure Migrated (row row' : RawInstance) : Prop where
  instance_uuid : row'.instance_uuid = row.instance_uuid
  instance_url : row'.instance_url = row.instance_url
  device_id : row'.device_id = row.device_id
  public_key_b64 : row'.public_key_b64 = row.public_key_b64
  created_at : row'.created_at = row.created_at
  reads : ∀ column, (row'.secret column).map (decrypt_secret F credential_encryption_key) =
    (row.secret column).map (decrypt_secret F credential_encryption_key)
  encrypted : ∀ column value, row'.secret column = some value → value ≠ "" →
    is_encrypted value = true

/-- The row after the statements for it. -/
def migrated (row : RawInstance) : RawInstance :=
  match params_of F token credential_encryption_key row SECRET_COLUMNS with
  | .ok params => assign params row
  | .error _ => row

variable {F token credential_encryption_key fails select}

/-! One row -/

theorem plaintext_value {row : RawInstance} (h : plaintext row column = true) :
    ∃ value, row.secret column = some value ∧ value ≠ "" ∧ is_encrypted value = false := by
  cases hv : row.secret column with
  | none => simp [plaintext, hv] at h
  | some value =>
    simp only [plaintext, hv, Option.getD_some, Bool.and_eq_true, decide_eq_true_eq,
      Bool.not_eq_true'] at h
    exact ⟨value, rfl, h.1, h.2⟩

theorem not_plaintext {row : RawInstance} {value : String} (h : plaintext row column = false)
    (hv : row.secret column = some value) (hne : value ≠ "") : is_encrypted value = true := by
  simp only [plaintext, hv, Option.getD_some, ne_eq, hne, not_false_eq_true, decide_true,
    Bool.true_and, Bool.not_eq_false'] at h
  exact h

/-- A column is in `params` when it holds plaintext, with one of its encryptions. -/
theorem params_lookup {row : RawInstance}
    (h : params_of F token credential_encryption_key row columns = .ok params)
    (column : SecretColumn) :
    (∀ stored, params.lookup column = some stored → plaintext row column = true ∧
      encrypt_secret { F with encrypt := token row.instance_uuid column }
        credential_encryption_key ((row.secret column).getD "") = .ok stored) ∧
    (params.lookup column = none → column ∈ columns → plaintext row column = false) := by
  induction columns generalizing params with
  | nil =>
    constructor
    · intro stored hl
      cases h
      cases hl
    · intro _ hc
      cases hc
  | cons c columns ih =>
    rw [params_of] at h
    split at h
    · rename_i hp
      split at h
      · cases h
      · rename_i stored hs
        obtain ⟨rest, hrest, h⟩ := bind_ok h
        cases h
        by_cases hc : column = c
        · subst hc
          rw [List.lookup_cons_self]
          constructor
          · intro found hf
            cases hf
            exact ⟨hp, hs⟩
          · intro hn
            cases hn
        · have hb : (column == c) = false := beq_false_of_ne hc
          rw [List.lookup_cons, hb]
          obtain ⟨hsome, hnone⟩ := ih hrest
          refine ⟨hsome, fun hl hm => hnone hl ?_⟩
          exact (List.mem_cons.mp hm).resolve_left hc
    · rename_i hp
      obtain ⟨hsome, hnone⟩ := ih h
      refine ⟨hsome, fun hl hm => ?_⟩
      rcases List.mem_cons.mp hm with rfl | hm
      · exact Bool.not_eq_true _ ▸ hp
      · exact hnone hl hm

theorem params_nil {row : RawInstance} (h : ∀ column ∈ columns, plaintext row column = false) :
    params_of F token credential_encryption_key row columns = .ok [] := by
  induction columns with
  | nil => rfl
  | cons c columns ih =>
    rw [params_of, if_neg (by simp [h c List.mem_cons_self])]
    exact ih fun column hc => h column (List.mem_cons_of_mem _ hc)

theorem mem_SECRET_COLUMNS (column : SecretColumn) : column ∈ SECRET_COLUMNS := by
  cases column <;> decide

theorem assign_secret (params : List (SecretColumn × String)) (row : RawInstance)
    (column : SecretColumn) : (assign params row).secret column =
      ((params.lookup column).map some).getD (row.secret column) := rfl

/-- What the statements for one row do to it. -/
theorem migrated_row {row : RawInstance} (hk : strip credential_encryption_key ≠ "")
    (hF : ∀ uuid column, Fernet.Inverse { F with encrypt := token uuid column })
    (h : params_of F token credential_encryption_key row SECRET_COLUMNS = .ok params) :
    Migrated F credential_encryption_key row (assign params row) := by
  refine ⟨rfl, rfl, rfl, rfl, rfl, ?_, ?_⟩
  · intro column
    obtain ⟨hsome, -⟩ := params_lookup h column
    rw [assign_secret]
    cases hl : params.lookup column with
    | none => rfl
    | some stored =>
      obtain ⟨hp, hs⟩ := hsome stored hl
      obtain ⟨value, hv, -, hplain⟩ := plaintext_value hp
      rw [hv, Option.getD_some] at hs
      have hread := decrypt_of_encrypt (hF row.instance_uuid column) hplain hs
      simp only [Option.map_some, Option.getD_some, hv, decrypt_secret_plain hplain]
      exact congrArg some hread
  · intro column value hv hne
    obtain ⟨hsome, hnone⟩ := params_lookup h column
    rw [assign_secret] at hv
    cases hl : params.lookup column with
    | none =>
      rw [hl] at hv
      exact not_plaintext (hnone hl (mem_SECRET_COLUMNS column)) hv hne
    | some stored =>
      rw [hl] at hv
      cases hv
      exact is_encrypted_encrypt hk (hsome value hl).2

/-- Nothing is left to do for a row without plaintext. -/
theorem Migrated.params_nil {row row' : RawInstance}
    (h : Migrated F credential_encryption_key row row') :
    params_of F' token' k' row' SECRET_COLUMNS = .ok [] := by
  apply EncryptExistingCredentials.params_nil
  intro column _
  by_contra hp
  obtain ⟨value, hv, hne, hplain⟩ := plaintext_value (Bool.of_not_eq_false hp)
  rw [h.encrypted column value hv hne] at hplain
  cases hplain

/-! The run -/

theorem update_instance_nil (uuid : String) (table : List RawInstance) :
    update_instance [] uuid table = table := by
  have hid : ∀ row : RawInstance, (if row.instance_uuid = uuid then assign [] row else row) =
      row := fun row => by split <;> rfl
  rw [update_instance, funext hid]
  exact List.map_id _

/-- One row of the loop. -/
theorem migrate_cons
    (h : migrate F token credential_encryption_key fails dry_run (row :: rows) table n = .ok res) :
    ∃ params n', params_of F token credential_encryption_key row SECRET_COLUMNS = .ok params ∧
      migrate F token credential_encryption_key fails dry_run rows
        (if dry_run then table else update_instance params row.instance_uuid table) n' =
        .ok res := by
  rw [migrate] at h
  obtain ⟨params, hp, h⟩ := bind_ok h
  refine ⟨params, ?_⟩
  split at h
  · rename_i hnil
    subst hnil
    rw [update_instance_nil, ite_self]
    exact ⟨n, hp, h⟩
  · obtain ⟨-, -, h⟩ := bind_ok h
    cases dry_run with
    | true => exact ⟨n + 1, hp, h⟩
    | false =>
      obtain ⟨-, -, h⟩ := bind_ok h
      exact ⟨n + 1, hp, h⟩

theorem migrate_dry
    (h : migrate F token credential_encryption_key fails true rows table n = .ok (table', n')) :
    table' = table := by
  induction rows generalizing n with
  | nil =>
    cases h
    rfl
  | cons row rows ih =>
    obtain ⟨params, n₁, -, h⟩ := migrate_cons h
    exact ih h

/-- The loop rewrites each row it was given, and no other one. -/
theorem migrate_rows (hkey : (rows.map (·.instance_uuid)).Nodup)
    (hrows : ∀ r ∈ table, ∀ q ∈ rows, r.instance_uuid = q.instance_uuid → r = q)
    (h : migrate F token credential_encryption_key fails false rows table n = .ok (table', n')) :
    (∀ q ∈ rows, ∃ params,
      params_of F token credential_encryption_key q SECRET_COLUMNS = .ok params) ∧
    table' = table.map fun r =>
      if r.instance_uuid ∈ rows.map (·.instance_uuid) then
        migrated F token credential_encryption_key r else r := by
  induction rows generalizing table n with
  | nil =>
    cases h
    refine ⟨fun _ hq => absurd hq List.not_mem_nil, ?_⟩
    simp only [List.map_nil, List.not_mem_nil, ↓reduceIte, List.map_id']
  | cons row rows ih =>
    obtain ⟨params, n₁, hp, h⟩ := migrate_cons h
    rw [List.map_cons, List.nodup_cons] at hkey
    simp only [Bool.false_eq_true, ↓reduceIte] at h
    have hrow : ∀ r ∈ table, r.instance_uuid = row.instance_uuid → r = row := fun r hr he =>
      hrows r hr row List.mem_cons_self he
    have hrest : ∀ r ∈ update_instance params row.instance_uuid table, ∀ q ∈ rows,
        r.instance_uuid = q.instance_uuid → r = q := by
      intro r hr q hq he
      obtain ⟨r₀, hr₀, rfl⟩ := List.mem_map.mp hr
      split at he
      · rename_i hu
        exact absurd (List.mem_map.mpr ⟨q, hq, he.symm.trans hu⟩) hkey.1
      · rename_i hu
        rw [if_neg hu]
        exact hrows r₀ hr₀ q (List.mem_cons_of_mem _ hq) he
    obtain ⟨hparams, rfl⟩ := ih hkey.2 hrest h
    constructor
    · intro q hq
      rcases List.mem_cons.mp hq with rfl | hq
      · exact ⟨params, hp⟩
      · exact hparams q hq
    · rw [update_instance, List.map_map]
      apply List.map_congr_left
      intro r hr
      simp only [Function.comp_apply, List.map_cons, List.mem_cons]
      by_cases hu : r.instance_uuid = row.instance_uuid
      · have hassign : migrated F token credential_encryption_key r = assign params r := by
          rw [hrow r hr hu, migrated, hp]
        have hnot : (assign params r).instance_uuid ∉ rows.map (·.instance_uuid) := by
          rw [hrow r hr hu]
          exact hkey.1
        rw [if_pos hu, if_neg hnot, if_pos (.inl hu), hassign]
      · rw [if_neg hu]
        exact if_congr (or_iff_right hu).symm rfl rfl

theorem transaction_ok
    (h : transaction F token credential_encryption_key fails select dry_run table = .ok table') :
    ∃ n, migrate F token credential_encryption_key fails dry_run (select table) table 0 =
      .ok (table', n) := by
  obtain ⟨-, -, h⟩ := bind_ok h
  obtain ⟨⟨_, n⟩, hm, h⟩ := bind_ok h
  obtain ⟨-, -, h⟩ := bind_ok h
  obtain ⟨-, -, h⟩ := bind_ok h
  cases h
  exact ⟨n, hm⟩

/-- A run that did not end with the code 0 leaves the table as it was. -/
theorem main_failed
    (h : (main F token credential_encryption_key fails select dry_run table).1 ≠ .ok 0) :
    (main F token credential_encryption_key fails select dry_run table).2 = table := by
  unfold main at *
  split
  · rfl
  · rename_i hk
    rw [if_neg hk] at h
    split
    · rename_i ht
      rw [ht] at h
      exact absurd rfl h
    · rfl

theorem main_ok
    (h : (main F token credential_encryption_key fails select dry_run table).1 = .ok 0) :
    strip credential_encryption_key ≠ "" ∧
    transaction F token credential_encryption_key fails select dry_run table =
      .ok (main F token credential_encryption_key fails select dry_run table).2 := by
  unfold main at *
  split at h
  · cases h
  · rename_i hk
    rw [if_neg hk]
    refine ⟨hk, ?_⟩
    split at h
    · rename_i ht
      rw [ht]
    · cases h

/-- A completed run rewrote every row as its own statements do. -/
theorem main_migrated (hkey : (table.map (·.instance_uuid)).Nodup)
    (hsel : (select table).Perm table)
    (hF : ∀ uuid column, Fernet.Inverse { F with encrypt := token uuid column })
    (h : (main F token credential_encryption_key fails select false table).1 = .ok 0) :
    List.Forall₂ (Migrated F credential_encryption_key) table
      (main F token credential_encryption_key fails select false table).2 := by
  obtain ⟨hk, ht⟩ := main_ok h
  obtain ⟨n, hm⟩ := transaction_ok ht
  have hselkey : ((select table).map (·.instance_uuid)).Nodup := (hsel.map _).nodup_iff.mpr hkey
  have hrows : ∀ r ∈ table, ∀ q ∈ select table, r.instance_uuid = q.instance_uuid → r = q :=
    fun r hr q hq he => List.inj_on_of_nodup_map hkey hr (hsel.mem_iff.mp hq) he
  obtain ⟨hparams, htable⟩ := migrate_rows hselkey hrows hm
  rw [htable, List.forall₂_map_right_iff, List.forall₂_same]
  intro row hrow
  have hmem := hsel.mem_iff.mpr hrow
  rw [if_pos (List.mem_map_of_mem hmem)]
  obtain ⟨params, hp⟩ := hparams row hmem
  rw [migrated, hp]
  exact migrated_row hk hF hp

/-- Rows without plaintext go through the loop unchanged. -/
theorem migrate_clean (h : ∀ row ∈ rows, params_of F token credential_encryption_key row
    SECRET_COLUMNS = .ok []) :
    migrate F token credential_encryption_key fails dry_run rows table n = .ok (table, n) := by
  induction rows with
  | nil => rfl
  | cons row rows ih =>
    rw [migrate, h row List.mem_cons_self]
    exact ih fun q hq => h q (List.mem_cons_of_mem _ hq)

theorem main_clean (h : ∀ row ∈ select table, params_of F token credential_encryption_key row
    SECRET_COLUMNS = .ok []) :
    (main F token credential_encryption_key fails select dry_run table).2 = table := by
  by_cases hc : (main F token credential_encryption_key fails select dry_run table).1 = .ok 0
  · obtain ⟨-, ht⟩ := main_ok hc
    obtain ⟨n, hm⟩ := transaction_ok ht
    rw [migrate_clean h] at hm
    exact (Prod.mk.inj (Except.ok.inj hm)).1.symm
  · exact main_failed hc

theorem main_dry (table : List RawInstance) :
    (main F token credential_encryption_key fails select true table).2 = table := by
  by_cases hc : (main F token credential_encryption_key fails select true table).1 = .ok 0
  · obtain ⟨-, ht⟩ := main_ok hc
    obtain ⟨n, hm⟩ := transaction_ok ht
    exact migrate_dry hm
  · exact main_failed hc

theorem params_of_total (ha : Configured F credential_encryption_key) (row : RawInstance)
    (columns : List SecretColumn) :
    ∃ params, params_of F token credential_encryption_key row columns = .ok params := by
  induction columns with
  | nil => exact ⟨[], rfl⟩
  | cons c columns ih =>
    obtain ⟨params, hp⟩ := ih
    rw [params_of]
    split
    · obtain ⟨stored, hs⟩ := encrypt_secret_total
        (F := { F with encrypt := token row.instance_uuid c }) ha ((row.secret c).getD "")
      rw [hs, hp]
      exact ⟨(c, stored) :: params, rfl⟩
    · exact ⟨params, hp⟩

/-- Without a failing statement the loop goes through all rows. -/
theorem migrate_total (ha : Configured F credential_encryption_key)
    (hf : ∀ s, fails s = false) (rows table : List RawInstance) (n : Nat) :
    ∃ res, migrate F token credential_encryption_key fails dry_run rows table n = .ok res := by
  have hat : ∀ s, attempt fails s = .ok () := fun s => by rw [attempt, hf]; rfl
  induction rows generalizing table n with
  | nil => exact ⟨_, rfl⟩
  | cons row rows ih =>
    obtain ⟨params, hp⟩ : ∃ params, params_of F token credential_encryption_key row
      SECRET_COLUMNS = .ok params := params_of_total ha row SECRET_COLUMNS
    rw [migrate, hp]
    change ∃ res, (if params = [] then _ else _) = _
    split
    · exact ih _ _
    · rw [hat]
      cases dry_run with
      | true => exact ih _ _
      | false =>
        rw [hat]
        exact ih _ _

theorem main_total (hk : strip credential_encryption_key ≠ "")
    (ha : F.accepts (strip credential_encryption_key) = true) (hf : ∀ s, fails s = false)
    (dry_run : Bool) (table : List RawInstance) :
    (main F token credential_encryption_key fails select dry_run table).1 = .ok 0 := by
  have hat : ∀ s, attempt fails s = .ok () := fun s => by rw [attempt, hf]; rfl
  obtain ⟨⟨table', n⟩, hm⟩ : ∃ res, migrate F token credential_encryption_key fails dry_run
    (select table) table 0 = .ok res := migrate_total (.inr ha) hf (select table) table 0
  have ht : transaction F token credential_encryption_key fails select dry_run table =
      .ok table' := by
    rw [transaction, hat, hat, hat]
    change (migrate F token credential_encryption_key fails dry_run (select table) table 0 >>=
      _) = _
    rw [hm]
    rfl
  rw [main, if_neg hk, ht]

/-- The migration keeps what every secret reads as, leaves none in clear, changes nothing the
second time, and is all or nothing. -/
theorem main_preserves_meaning (table : List RawInstance)
    (hkey : (table.map (·.instance_uuid)).Nodup)
    (hsel : ∀ table, (select table).Perm table)
    (hF : ∀ uuid column, Fernet.Inverse { F with encrypt := token uuid column }) :
    ((main F token credential_encryption_key fails select false table).1 = .ok 0 →
      List.Forall₂ (Migrated F credential_encryption_key) table
        (main F token credential_encryption_key fails select false table).2 ∧
      ∀ again token' dry_run, (main F token' credential_encryption_key again select dry_run
        (main F token credential_encryption_key fails select false table).2).2 =
          (main F token credential_encryption_key fails select false table).2) ∧
    ((main F token credential_encryption_key fails select false table).1 ≠ .ok 0 →
      (main F token credential_encryption_key fails select false table).2 = table) ∧
    (main F token credential_encryption_key fails select true table).2 = table ∧
    (strip credential_encryption_key ≠ "" → F.accepts (strip credential_encryption_key) = true →
      (∀ s, fails s = false) → ∀ dry_run,
      (main F token credential_encryption_key fails select dry_run table).1 = .ok 0) := by
  refine ⟨?_, main_failed, main_dry table, fun hk ha hf dry_run => main_total hk ha hf _ _⟩
  intro h
  have hm := main_migrated hkey (hsel table) hF h
  refine ⟨hm, ?_⟩
  intro again token' dry_run
  apply main_clean
  intro row hrow
  obtain ⟨i, hi, hrow⟩ := List.mem_iff_getElem.mp ((hsel _).mem_iff.mp hrow)
  have hlen := hm.length_eq
  have hrow' := hm.get (i := i) (by omega) hi
  rw [List.get_eq_getElem, List.get_eq_getElem] at hrow'
  subst hrow
  exact hrow'.params_nil

def mixed : List RawInstance :=
  [⟨"a", "ws://a", "d", "p", 0, fun
    | .private_key_b64 => some "s3cr3t"
    | .device_token => some ""
    | .gateway_token => none⟩,
  ⟨"b", "ws://b", "d", "p", 0, fun
    | .private_key_b64 => some "fernet:v1:gAAAAAold"
    | .device_token => some "t"
    | .gateway_token => some "g"⟩]

theorem main_preserves_meaning_ran :
    let run := main Fernet.tagged (fun _ _ => Fernet.tagged.encrypt) sample_key (fun _ => false) id
      false mixed
    run.2.map (·.secret .private_key_b64) =
      [some "fernet:v1:gAAAAAs3cr3t", some "fernet:v1:gAAAAAold"] ∧
    List.Forall₂ (Migrated Fernet.tagged sample_key) mixed run.2 := by
  have hmeaning := @main_preserves_meaning Fernet.tagged (fun _ _ => Fernet.tagged.encrypt)
    sample_key (fun _ => false) id mixed (by decide) (fun table => List.Perm.refl table)
    (fun _ _ => Fernet.tagged_inverse)
  have hdone := hmeaning.2.2.2 (by decide) (by decide) (fun _ => rfl) false
  exact ⟨by decide, (hmeaning.1 hdone).1⟩

end EncryptExistingCredentials

end ClawMux
