import ClawMux.Lib.Transition
import ClawMux.Services.MappingChannels

namespace ClawMux
set_option autoImplicit true
open Lib

/-- A call of `remember_channel`. -/
structure ChannelCall where
  provider : String
  provider_user_id : String
  channel_id : String

/-- The row that a call is to write; none for a provider that is not supported. -/
def ChannelCall.row (c : ChannelCall) : Option UserChannel :=
  match validate_provider c.provider with
  | .ok p => some ⟨p, c.provider_user_id, c.channel_id⟩
  | .error _ => none

def UserChannel.Fits (r : UserChannel) : Prop :=
  ClawMux.Fits 32 r.provider ∧ ClawMux.Fits 128 r.provider_user_id ∧
    ClawMux.Fits 128 r.channel_id

instance (r : UserChannel) : Decidable r.Fits :=
  inferInstanceAs (Decidable (_ ∧ _ ∧ _))

def rows_of (t : Tables) (p u : String) : List UserChannel :=
  t.user_channels.filter fun c => c.provider = p ∧ c.provider_user_id = u

/-- The row `c` after the UPDATE to `r`. -/
def UserChannel.set (r c : UserChannel) : UserChannel :=
  if c.provider = r.provider ∧ c.provider_user_id = r.provider_user_id then
    { c with channel_id := r.channel_id }
  else c

def update_channel (t : Tables) (r : UserChannel) : Tables :=
  { t with user_channels := t.user_channels.map r.set }

def insert_channel (t : Tables) (r : UserChannel) : Tables :=
  { t with user_channels := t.user_channels ++ [r] }

/-- How far a call has come: its UPDATE has found no row, or it has written and not committed. -/
inductive UpsertPhase
  | ready
  | missed
  | updated
  | inserted
  | committed
  | failed
  deriving DecidableEq

/-- The committed tables and the transactions. `lock` has the transaction that has written the row
of an identity and not committed; `commits` has the calls that have, the last one first. -/
structure Upserts (ι : Type) where
  tables : Tables
  phase : ι → UpsertPhase := fun _ => .ready
  lock : String × String → Option ι := fun _ => none
  commits : List ι := []

inductive UpsertAction (ι : Type)
  | update (i : ι)
  | insert (i : ι)
  | commit (i : ι)

namespace Upserts
variable {ι : Type} [DecidableEq ι] (calls : ι → ChannelCall)

def enter (s : Upserts ι) (i : ι) (phase : UpsertPhase) : Upserts ι :=
  { s with phase := Function.update s.phase i phase }

def write (s : Upserts ι) (i : ι) (r : UserChannel) (phase : UpsertPhase) : Upserts ι :=
  { s with
    phase := Function.update s.phase i phase
    lock := Function.update s.lock (r.provider, r.provider_user_id) (some i) }

def finish (s : Upserts ι) (i : ι) (r : UserChannel) (tables : Tables) : Upserts ι where
  tables := tables
  phase := Function.update s.phase i .committed
  lock := Function.update s.lock (r.provider, r.provider_user_id) none
  commits := i :: s.commits

/-- A statement sees the committed rows. It waits, which is `none` here, for the transaction that
has written the row: an UPDATE of a row that is there, an INSERT always. An INSERT beside a
committed row violates the primary key. -/
def step (s : Upserts ι) : UpsertAction ι → Option (Upserts ι)
  | .update i =>
    if s.phase i = .ready then
      match (calls i).row with
      | none => some (s.enter i .failed)
      | some r =>
        if ¬ r.Fits then some (s.enter i .failed)
        else if rows_of s.tables r.provider r.provider_user_id = [] then some (s.enter i .missed)
        else if (s.lock (r.provider, r.provider_user_id)).isSome then none
        else some (s.write i r .updated)
    else none
  | .insert i =>
    if s.phase i = .missed then
      match (calls i).row with
      | none => none
      | some r =>
        if (s.lock (r.provider, r.provider_user_id)).isSome then none
        else if rows_of s.tables r.provider r.provider_user_id = [] then
          some (s.write i r .inserted)
        else some (s.enter i .failed)
    else none
  | .commit i =>
    match (calls i).row with
    | none => none
    | some r =>
      if s.phase i = .updated then some (s.finish i r (update_channel s.tables r))
      else if s.phase i = .inserted then some (s.finish i r (insert_channel s.tables r))
      else none

/-- The row that the last call to commit for an identity has written. -/
def last_row (s : Upserts ι) (p u : String) : Option UserChannel :=
  (s.commits.filterMap fun i => (calls i).row).find? fun c =>
    c.provider = p ∧ c.provider_user_id = u

/-- No call fails or waits for ever, and an identity has the one row of the last call to commit
for it. -/
structure Upserted (t : Tables) (s : Upserts ι) : Prop where
  none_fails : ∀ i, s.phase i ≠ .failed
  not_stuck : ∀ i, s.phase i ≠ .committed → ∃ a, (s.step calls a).isSome
  one_row : ∀ i, s.phase i = .committed → ∃ r last, (calls i).row = some r ∧
    last_row calls s r.provider r.provider_user_id = some last ∧
    rows_of s.tables r.provider r.provider_user_id = [last]
  others : ∀ p u, last_row calls s p u = none → rows_of s.tables p u = rows_of t p u

/-- A call is for a supported provider and its texts fit; an INSERT finds that no other call has
committed a row since the UPDATE. -/
def Clean (s : Upserts ι) : UpsertAction ι → Prop
  | .update i => ∃ r ∈ (calls i).row, r.Fits
  | .insert i => ∀ r ∈ (calls i).row, rows_of s.tables r.provider r.provider_user_id = []
  | .commit _ => True

instance : ∀ (s : Upserts ι) (a : UpsertAction ι), Decidable (Clean calls s a)
  | _, .update i => inferInstanceAs (Decidable (∃ r ∈ (calls i).row, r.Fits))
  | s, .insert i => inferInstanceAs
    (Decidable (∀ r ∈ (calls i).row, rows_of s.tables r.provider r.provider_user_id = []))
  | _, .commit _ => inferInstanceAs (Decidable True)

/-- No call has begun. -/
def start (t : Tables) : Upserts ι where
  tables := t

end Upserts

/-! The rows of an identity -/

theorem rows_of_insert (t : Tables) (r : UserChannel) (p u : String) :
    rows_of (insert_channel t r) p u =
      rows_of t p u ++ if r.provider = p ∧ r.provider_user_id = u then [r] else [] := by
  rw [insert_channel, rows_of, List.filter_append, rows_of]
  congr 1
  by_cases h : r.provider = p ∧ r.provider_user_id = u
  · simp [h]
  · simp [h]

theorem UserChannel.set_key (r c : UserChannel) :
    (r.set c).provider = c.provider ∧ (r.set c).provider_user_id = c.provider_user_id := by
  rw [UserChannel.set]
  split <;> exact ⟨rfl, rfl⟩

theorem rows_of_update (t : Tables) (r : UserChannel) (p u : String) :
    rows_of (update_channel t r) p u = (rows_of t p u).map r.set := by
  rw [rows_of, rows_of, update_channel, List.filter_map]
  simp only [Function.comp_def, (r.set_key _).1, (r.set_key _).2]

theorem mem_rows_of (h : c ∈ rows_of t p u) : c.provider = p ∧ c.provider_user_id = u :=
  of_decide_eq_true (List.mem_filter.mp h).2

theorem rows_of_update_ne (t : Tables) (r : UserChannel)
    (h : ¬ (r.provider = p ∧ r.provider_user_id = u)) :
    rows_of (update_channel t r) p u = rows_of t p u := by
  rw [rows_of_update]
  refine (List.map_congr_left ?_).trans (List.map_id _)
  intro c hc
  have hc := mem_rows_of hc
  have hne : ¬ (c.provider = r.provider ∧ c.provider_user_id = r.provider_user_id) := fun he =>
    h ⟨he.1.symm.trans hc.1, he.2.symm.trans hc.2⟩
  exact if_neg hne

theorem rows_of_update_self (t : Tables) (r : UserChannel) :
    rows_of (update_channel t r) r.provider r.provider_user_id =
      (rows_of t r.provider r.provider_user_id).map fun _ => r := by
  rw [rows_of_update]
  apply List.map_congr_left
  intro c hc
  have hc := mem_rows_of hc
  rw [UserChannel.set, if_pos hc, hc.1, hc.2]

theorem rows_of_length (h : t.Keyed) (p u : String) : (rows_of t p u).length ≤ 1 := by
  have hkeys : ((rows_of t p u).map fun c => (c.provider, c.provider_user_id)).Nodup :=
    h.channel_key.sublist (List.filter_sublist.map _)
  match hr : rows_of t p u with
  | [] => exact Nat.zero_le 1
  | [c] => exact le_refl 1
  | c :: d :: rest =>
    have hc := mem_rows_of (hr ▸ List.mem_cons_self : c ∈ rows_of t p u)
    have hd := mem_rows_of
      (hr ▸ List.mem_cons_of_mem c List.mem_cons_self : d ∈ rows_of t p u)
    rw [hr, List.map_cons, List.map_cons, hc.1, hc.2, hd.1, hd.2] at hkeys
    exact absurd List.mem_cons_self (List.nodup_cons.mp hkeys).1

/-- Both statements write what the UPDATE or INSERT of `upsert_channel` would. -/
theorem upsert_channel_eq (t : Tables) (r : UserChannel) :
    upsert_channel t r.provider r.provider_user_id r.channel_id =
      if rows_of t r.provider r.provider_user_id = [] then insert_channel t r
      else update_channel t r := by
  have hany : (t.user_channels.any fun c =>
      c.provider = r.provider ∧ c.provider_user_id = r.provider_user_id) = true ↔
      rows_of t r.provider r.provider_user_id ≠ [] := by
    simp [rows_of, List.filter_eq_nil_iff]
  rw [upsert_channel]
  by_cases h : rows_of t r.provider r.provider_user_id = []
  · rw [if_pos h, if_neg (fun ha => hany.mp ha h)]
    rfl
  · rw [if_neg h, if_pos (hany.mpr h)]
    rfl

namespace Upserts

section
variable {ι : Type} {calls : ι → ChannelCall} {t : Tables} {s : Upserts ι}

/-- The transactions and their locks belong together; what an UPDATE has found is there, and what
an INSERT adds is not. -/
structure Inv (calls : ι → ChannelCall) (t : Tables) (s : Upserts ι) : Prop where
  none_fails : ∀ i, s.phase i ≠ .failed
  known : ∀ i, s.phase i ≠ .ready → (calls i).row.isSome
  locked : ∀ p u i, s.lock (p, u) = some i → (s.phase i = .updated ∨ s.phase i = .inserted) ∧
    ∃ r, (calls i).row = some r ∧ r.provider = p ∧ r.provider_user_id = u
  holds : ∀ i r, (calls i).row = some r → s.phase i = .updated ∨ s.phase i = .inserted →
    s.lock (r.provider, r.provider_user_id) = some i
  found : ∀ i r, (calls i).row = some r → s.phase i = .updated →
    rows_of s.tables r.provider r.provider_user_id ≠ []
  free : ∀ i r, (calls i).row = some r → s.phase i = .inserted →
    rows_of s.tables r.provider r.provider_user_id = []
  single : ∀ p u, (rows_of s.tables p u).length ≤ 1
  committed : ∀ i, s.phase i = .committed ↔ i ∈ s.commits
  rows : ∀ p u, rows_of s.tables p u =
    match last_row calls s p u with
    | some r => [r]
    | none => rows_of t p u

theorem inv_start (h : t.Keyed) : Inv calls t (start t) where
  none_fails i := UpsertPhase.noConfusion
  known i h := absurd rfl h
  locked p u i h := by cases h
  holds i r _ h := by rcases h with h | h <;> cases h
  found i r _ h := by cases h
  free i r _ h := by cases h
  single p u := rows_of_length h p u
  committed i := ⟨fun h => UpsertPhase.noConfusion h, fun h => absurd h List.not_mem_nil⟩
  rows p u := rfl

/-- What the invariant says of one call, in the phase `ph`. -/
structure Standing (calls : ι → ChannelCall) (s : Upserts ι) (i : ι) (ph : UpsertPhase) : Prop where
  none_fails : ph ≠ .failed
  known : ph ≠ .ready → (calls i).row.isSome
  holds : ∀ r, (calls i).row = some r → ph = .updated ∨ ph = .inserted →
    s.lock (r.provider, r.provider_user_id) = some i
  found : ∀ r, (calls i).row = some r → ph = .updated →
    rows_of s.tables r.provider r.provider_user_id ≠ []
  free : ∀ r, (calls i).row = some r → ph = .inserted →
    rows_of s.tables r.provider r.provider_user_id = []
  committed : ph = .committed ↔ i ∈ s.commits

theorem Inv.standing (h : Inv calls t s) (i : ι) : Standing calls s i (s.phase i) :=
  ⟨h.none_fails i, h.known i, h.holds i, h.found i, h.free i, h.committed i⟩

theorem Inv.of_standing (hstanding : ∀ i, Standing calls s i (s.phase i))
    (hlocked : ∀ p u i, s.lock (p, u) = some i → (s.phase i = .updated ∨ s.phase i = .inserted) ∧
      ∃ r, (calls i).row = some r ∧ r.provider = p ∧ r.provider_user_id = u)
    (hsingle : ∀ p u, (rows_of s.tables p u).length ≤ 1)
    (hrows : ∀ p u, rows_of s.tables p u =
      match last_row calls s p u with
      | some r => [r]
      | none => rows_of t p u) : Inv calls t s where
  none_fails i := (hstanding i).none_fails
  known i := (hstanding i).known
  locked := hlocked
  holds i := (hstanding i).holds
  found i := (hstanding i).found
  free i := (hstanding i).free
  single := hsingle
  committed i := (hstanding i).committed
  rows := hrows

/-- Two calls do not hold the same row. -/
theorem Inv.holder (h : Inv calls t s) (hi : (calls i).row = some r) (hj : (calls j).row = some r')
    (hpi : s.phase i = .updated ∨ s.phase i = .inserted)
    (hpj : s.phase j = .updated ∨ s.phase j = .inserted)
    (hkey : r.provider = r'.provider ∧ r.provider_user_id = r'.provider_user_id) : i = j := by
  have hli := h.holds i r hi hpi
  rw [hkey.1, hkey.2, h.holds j r' hj hpj] at hli
  exact (Option.some.inj hli).symm

end

variable {ι : Type} [DecidableEq ι] {calls : ι → ChannelCall} {t : Tables} {s s' : Upserts ι}

@[simp] theorem enter_phase_self (s : Upserts ι) (i : ι) (phase : UpsertPhase) :
    (s.enter i phase).phase i = phase := Function.update_self ..

@[simp] theorem write_phase_self (s : Upserts ι) (i : ι) (r : UserChannel) (phase : UpsertPhase) :
    (s.write i r phase).phase i = phase := Function.update_self ..

@[simp] theorem finish_phase_self (s : Upserts ι) (i : ι) (r : UserChannel) (tables : Tables) :
    (s.finish i r tables).phase i = .committed := Function.update_self ..

theorem enter_phase (s : Upserts ι) (phase : UpsertPhase) (h : j ≠ i) :
    (s.enter i phase).phase j = s.phase j := Function.update_of_ne h ..

theorem write_phase (s : Upserts ι) (r : UserChannel) (phase : UpsertPhase) (h : j ≠ i) :
    (s.write i r phase).phase j = s.phase j := Function.update_of_ne h ..

theorem finish_phase (s : Upserts ι) (r : UserChannel) (tables : Tables) (h : j ≠ i) :
    (s.finish i r tables).phase j = s.phase j := Function.update_of_ne h ..

theorem write_lock (s : Upserts ι) (i : ι) (r : UserChannel) (phase : UpsertPhase) :
    (s.write i r phase).lock = Function.update s.lock (r.provider, r.provider_user_id) (some i) :=
  rfl

theorem finish_lock (s : Upserts ι) (i : ι) (r : UserChannel) (tables : Tables) :
    (s.finish i r tables).lock = Function.update s.lock (r.provider, r.provider_user_id) none :=
  rfl

@[simp] theorem finish_tables (s : Upserts ι) (i : ι) (r : UserChannel) (tables : Tables) :
    (s.finish i r tables).tables = tables := rfl

theorem Inv.enter_missed (h : Inv calls t s) (hr : s.phase i = .ready)
    (hrow : (calls i).row.isSome) : Inv calls t (s.enter i .missed) := by
  refine .of_standing (fun j => ?_) (fun p u j hl => ?_) h.single h.rows
  · by_cases hj : j = i
    · subst hj
      rw [enter_phase_self]
      have hno := (not_congr (h.committed j)).mp (by rw [hr]; exact UpsertPhase.noConfusion)
      exact {
        none_fails := UpsertPhase.noConfusion
        known := fun _ => hrow
        holds := fun r _ hp => by rcases hp with hp | hp <;> cases hp
        found := fun r _ hp => by cases hp
        free := fun r _ hp => by cases hp
        committed := ⟨UpsertPhase.noConfusion, fun hm => absurd hm hno⟩ }
    · rw [enter_phase s _ hj]
      exact { h.standing j with }
  · obtain ⟨hp, hrow⟩ := h.locked p u j hl
    have hj : j ≠ i := by
      rintro rfl
      rw [hr] at hp
      rcases hp with hp | hp <;> cases hp
    rw [enter_phase s _ hj]
    exact ⟨hp, hrow⟩

theorem Inv.write (h : Inv calls t s) (hr : s.phase i = .missed ∨ s.phase i = .ready)
    (hrow : (calls i).row = some r) (hlock : s.lock (r.provider, r.provider_user_id) = none)
    (hw : ph = .updated ∧ rows_of s.tables r.provider r.provider_user_id ≠ [] ∨
      ph = .inserted ∧ rows_of s.tables r.provider r.provider_user_id = []) :
    Inv calls t (s.write i r ph) := by
  refine .of_standing (fun j => ?_) (fun p u j hl => ?_) h.single h.rows
  · by_cases hj : j = i
    · subst hj
      rw [write_phase_self]
      have hno := (not_congr (h.committed j)).mp
        (by rcases hr with hr | hr <;> rw [hr] <;> exact UpsertPhase.noConfusion)
      have hlock : (s.write j r ph).lock (r.provider, r.provider_user_id) = some j := by
        rw [write_lock, Function.update_self]
      have hrow' : ∀ r', (calls j).row = some r' → r' = r := fun r' hr' =>
        Option.some.inj (hr'.symm.trans hrow)
      rcases hw with ⟨rfl, hrows⟩ | ⟨rfl, hrows⟩
      · exact {
          none_fails := UpsertPhase.noConfusion
          known := fun _ => hrow ▸ rfl
          holds := fun r' hr' _ => hrow' r' hr' ▸ hlock
          found := fun r' hr' _ => hrow' r' hr' ▸ hrows
          free := fun r' _ hp => by cases hp
          committed := ⟨UpsertPhase.noConfusion, fun hm => absurd hm hno⟩ }
      · exact {
          none_fails := UpsertPhase.noConfusion
          known := fun _ => hrow ▸ rfl
          holds := fun r' hr' _ => hrow' r' hr' ▸ hlock
          found := fun r' _ hp => by cases hp
          free := fun r' hr' _ => hrow' r' hr' ▸ hrows
          committed := ⟨UpsertPhase.noConfusion, fun hm => absurd hm hno⟩ }
    · rw [write_phase s _ _ hj]
      refine { h.standing j with holds := fun r' hrow' hp => ?_ }
      have hl := h.holds j r' hrow' hp
      have hk : (r'.provider, r'.provider_user_id) ≠ (r.provider, r.provider_user_id) := by
        intro hk
        rw [hk, hlock] at hl
        cases hl
      rw [write_lock, Function.update_of_ne hk]
      exact hl
  · by_cases hk : (p, u) = (r.provider, r.provider_user_id)
    · rw [write_lock, hk, Function.update_self] at hl
      cases hl
      cases hk
      rw [write_phase_self]
      exact ⟨hw.imp And.left And.left, r, hrow, rfl, rfl⟩
    · rw [write_lock, Function.update_of_ne hk] at hl
      obtain ⟨hp, hrow⟩ := h.locked p u j hl
      have hj : j ≠ i := by
        rintro rfl
        rcases hr with hr | hr <;> rw [hr] at hp <;> rcases hp with hp | hp <;> cases hp
      rw [write_phase s _ _ hj]
      exact ⟨hp, hrow⟩

theorem last_row_finish (s : Upserts ι) (tables : Tables) (hrow : (calls i).row = some r)
    (p u : String) : last_row calls (s.finish i r tables) p u =
      if r.provider = p ∧ r.provider_user_id = u then some r else last_row calls s p u := by
  have hcommits : (s.finish i r tables).commits = i :: s.commits := rfl
  rw [last_row, hcommits, List.filterMap_cons_some (f := fun i => (calls i).row) hrow,
    List.find?_cons, last_row]
  by_cases hk : r.provider = p ∧ r.provider_user_id = u
  · rw [if_pos hk, decide_eq_true hk]
  · rw [if_neg hk, decide_eq_false hk]

theorem Inv.finish (h : Inv calls t s) (hrow : (calls i).row = some r)
    (hp : s.phase i = .updated ∨ s.phase i = .inserted)
    (hself : rows_of t' r.provider r.provider_user_id = [r])
    (hother : ∀ p u, ¬ (r.provider = p ∧ r.provider_user_id = u) →
      rows_of t' p u = rows_of s.tables p u) : Inv calls t (s.finish i r t') := by
  refine .of_standing (fun j => ?_) (fun p u j hl => ?_) (fun p u => ?_) fun p u => ?_
  · by_cases hj : j = i
    · subst hj
      rw [finish_phase_self]
      exact {
        none_fails := UpsertPhase.noConfusion
        known := fun _ => hrow ▸ rfl
        holds := fun r' _ hp => by rcases hp with hp | hp <;> cases hp
        found := fun r' _ hp => by cases hp
        free := fun r' _ hp => by cases hp
        committed := ⟨fun _ => List.mem_cons_self, fun _ => rfl⟩ }
    · rw [finish_phase s _ _ hj]
      have hkey : ∀ r', (calls j).row = some r' → s.phase j = .updated ∨ s.phase j = .inserted →
          ¬ (r.provider = r'.provider ∧ r.provider_user_id = r'.provider_user_id) :=
        fun r' hrow' hpj hk => hj (h.holder hrow hrow' hp hpj hk).symm
      refine {
        h.standing j with
        holds := fun r' hrow' hpj => ?_
        found := fun r' hrow' hpj => ?_
        free := fun r' hrow' hpj => ?_
        committed := ?_ }
      · have hk : (r'.provider, r'.provider_user_id) ≠ (r.provider, r.provider_user_id) := fun hk =>
          hkey r' hrow' hpj ⟨(Prod.mk.inj hk).1.symm, (Prod.mk.inj hk).2.symm⟩
        rw [finish_lock, Function.update_of_ne hk]
        exact h.holds j r' hrow' hpj
      · rw [finish_tables, hother _ _ (hkey r' hrow' (.inl hpj))]
        exact h.found j r' hrow' hpj
      · rw [finish_tables, hother _ _ (hkey r' hrow' (.inr hpj))]
        exact h.free j r' hrow' hpj
      · rw [h.committed j]
        exact ⟨List.mem_cons_of_mem i, List.mem_of_ne_of_mem hj⟩
  · by_cases hk : (p, u) = (r.provider, r.provider_user_id)
    · rw [finish_lock, hk, Function.update_self] at hl
      cases hl
    · rw [finish_lock, Function.update_of_ne hk] at hl
      obtain ⟨hp, r', hrow', rfl, rfl⟩ := h.locked p u j hl
      have hj : j ≠ i := by
        rintro rfl
        cases hrow.symm.trans hrow'
        exact hk rfl
      rw [finish_phase s _ _ hj]
      exact ⟨hp, r', hrow', rfl, rfl⟩
  · rw [finish_tables]
    by_cases hk : r.provider = p ∧ r.provider_user_id = u
    · rw [← hk.1, ← hk.2, hself]
      exact le_refl 1
    · rw [hother p u hk]
      exact h.single p u
  · rw [last_row_finish s t' hrow, finish_tables]
    by_cases hk : r.provider = p ∧ r.provider_user_id = u
    · rw [if_pos hk, ← hk.1, ← hk.2]
      exact hself
    · rw [if_neg hk, hother p u hk]
      exact h.rows p u

theorem Inv.step (h : Inv calls t s) (hc : Clean calls s a) (hs : s.step calls a = some s') :
    Inv calls t s' := by
  cases a with
  | update i =>
    obtain ⟨r, hmem, hfits⟩ := hc
    have hrow : (calls i).row = some r := hmem
    simp only [Upserts.step, hrow, not_true_eq_false, hfits, if_false] at hs
    split at hs
    · next hr =>
      split at hs
      · cases hs
        exact h.enter_missed hr (hrow ▸ rfl)
      · next hrows =>
        split at hs
        · cases hs
        · next hlock =>
          cases hs
          exact h.write (.inr hr) hrow (Option.not_isSome_iff_eq_none.mp hlock)
            (.inl ⟨rfl, hrows⟩)
    · cases hs
  | insert i =>
    rw [Upserts.step] at hs
    split at hs
    · next hm =>
      split at hs
      · cases hs
      · next r hrow =>
        rw [if_pos (hc r hrow)] at hs
        split at hs
        · cases hs
        · next hlock =>
          cases hs
          exact h.write (.inl hm) hrow (Option.not_isSome_iff_eq_none.mp hlock)
            (.inr ⟨rfl, hc r hrow⟩)
    · cases hs
  | commit i =>
    rw [Upserts.step] at hs
    split at hs
    · cases hs
    · next r hrow =>
      split at hs
      · next hp =>
        cases hs
        refine h.finish hrow (.inl hp) ?_ fun p u => rows_of_update_ne s.tables r
        have hfound := h.found i r hrow hp
        have hone := h.single r.provider r.provider_user_id
        rw [rows_of_update_self]
        match hrows : rows_of s.tables r.provider r.provider_user_id with
        | [] => exact absurd hrows hfound
        | [c] => rfl
        | c :: d :: rest =>
          rw [hrows] at hone
          simp only [List.length_cons] at hone
          omega
      · split at hs
        · next hp =>
          cases hs
          apply h.finish hrow (.inr hp)
          · rw [rows_of_insert, h.free i r hrow hp, if_pos ⟨rfl, rfl⟩, List.nil_append]
          · intro p u hk
            rw [rows_of_insert, if_neg hk, List.append_nil]
        · cases hs

/-- A call that waits, waits for one that can commit. -/
theorem Inv.not_stuck (h : Inv calls t s) (hi : s.phase i ≠ .committed) :
    ∃ a, (s.step calls a).isSome := by
  have hcommit : ∀ j, s.phase j = .updated ∨ s.phase j = .inserted →
      (s.step calls (.commit j)).isSome := by
    intro j hp
    have hne : s.phase j ≠ .ready := by rcases hp with hp | hp <;> rw [hp] <;> decide
    obtain ⟨r, hrow⟩ := Option.isSome_iff_exists.mp (h.known j hne)
    rw [Upserts.step, hrow]
    rcases hp with hp | hp <;> simp [hp]
  cases hp : s.phase i with
  | ready =>
    cases hrow : (calls i).row with
    | none => exact ⟨.update i, by simp [Upserts.step, hp, hrow]⟩
    | some r =>
      cases hl : s.lock (r.provider, r.provider_user_id) with
      | some j => exact ⟨.commit j, hcommit j (h.locked _ _ j hl).1⟩
      | none =>
        refine ⟨.update i, ?_⟩
        simp only [Upserts.step, hp, hrow, hl, if_true, Option.isSome_none, Bool.false_eq_true,
          if_false]
        split
        · rfl
        · split <;> rfl
  | missed =>
    obtain ⟨r, hrow⟩ := Option.isSome_iff_exists.mp (h.known i (by rw [hp]; decide))
    cases hl : s.lock (r.provider, r.provider_user_id) with
    | some j => exact ⟨.commit j, hcommit j (h.locked _ _ j hl).1⟩
    | none =>
      refine ⟨.insert i, ?_⟩
      simp only [Upserts.step, hp, hrow, hl, if_true, Option.isSome_none, Bool.false_eq_true,
        if_false]
      split <;> rfl
  | updated => exact ⟨.commit i, hcommit i (.inl hp)⟩
  | inserted => exact ⟨.commit i, hcommit i (.inr hp)⟩
  | committed => exact absurd hp hi
  | failed => exact absurd hp (h.none_fails i)

theorem Inv.upserted (h : Inv calls t s) : Upserted calls t s where
  none_fails := h.none_fails
  not_stuck _ hi := h.not_stuck hi
  one_row i hp := by
    have hmem := (h.committed i).mp hp
    obtain ⟨r, hrow⟩ := Option.isSome_iff_exists.mp (h.known i (by rw [hp]; decide))
    have hwritten : r ∈ s.commits.filterMap fun j => (calls j).row :=
      List.mem_filterMap.mpr ⟨i, hmem, hrow⟩
    cases hlast : last_row calls s r.provider r.provider_user_id with
    | none =>
      have hno := List.find?_eq_none.mp hlast r hwritten
      exact absurd (decide_eq_true ⟨rfl, rfl⟩) hno
    | some last =>
      refine ⟨r, last, hrow, hlast, ?_⟩
      have hrows := h.rows r.provider r.provider_user_id
      rw [hlast] at hrows
      exact hrows
  others p u hlast := by
    have hrows := h.rows p u
    rw [hlast] at hrows
    exact hrows

theorem reach_inv (ht : t.Keyed)
    (h : Reach (Upserts.step calls) (Clean calls) (· = start t) s) : Inv calls t s := by
  apply h.invariant
  · rintro s rfl
    exact inv_start ht
  · intro s a s' hinv hc hs
    exact hinv.step hc hs

/-- A call that nobody disturbs does what `upsert_channel` does. -/
theorem alone (hrow : (calls i).row = some r) (hfits : r.Fits) (hp : s.phase i = .ready)
    (hlock : s.lock (r.provider, r.provider_user_id) = none) :
    ∃ as s', exec (Upserts.step calls) s as = some s' ∧ s'.phase i = .committed ∧
      s'.tables = upsert_channel s.tables r.provider r.provider_user_id r.channel_id := by
  by_cases hrows : rows_of s.tables r.provider r.provider_user_id = []
  · refine ⟨[.update i, .insert i, .commit i],
      ((s.enter i .missed).write i r .inserted).finish i r (insert_channel s.tables r), ?_,
      finish_phase_self .., ?_⟩
    · simp [exec, Upserts.step, hp, hrow, hfits, hrows, enter, hlock, write]
    · rw [upsert_channel_eq, if_pos hrows]
      rfl
  · refine ⟨[.update i, .commit i],
      (s.write i r .updated).finish i r (update_channel s.tables r), ?_,
      finish_phase_self .., ?_⟩
    · simp [exec, Upserts.step, hp, hrow, hfits, hrows, hlock, write]
    · rw [upsert_channel_eq, if_neg hrows]
      rfl

end Upserts

/-- Whoever calls when, for whatever identities. -/
theorem remember_channel_upserts {ι : Type} [DecidableEq ι] (calls : ι → ChannelCall) (db : Db)
    {s : Upserts ι}
    (h : Reach (Upserts.step calls) (Upserts.Clean calls) (· = Upserts.start db.toTables) s) :
    Upserts.Upserted calls db.toTables s :=
  (Upserts.reach_inv db.valid.keyed h).upserted

/-! Two first messages of one user -/

def sample_calls (i : Nat) : ChannelCall := ⟨"telegram", "42", if i = 0 then "c0" else "c1"⟩

theorem no_tables_valid : ({} : Tables).Valid := by decide

/-- The second call comes when the first has committed. -/
def sample_run : List (UpsertAction Nat) :=
  [.update 0, .insert 0, .commit 0, .update 1, .commit 1]

/-- Both calls find no row. -/
def collision : List (UpsertAction Nat) := [.update 0, .update 1, .insert 0, .commit 0, .insert 1]

theorem remember_channel_upserts_ran : ∃ s : Upserts Nat,
    Upserts.Upserted sample_calls {} s ∧ s.commits = [1, 0] ∧
      s.tables.user_channels = [⟨"telegram", "42", "c1"⟩] := by
  have hread : (exec (Upserts.step sample_calls) (Upserts.start {}) sample_run).map
      (fun s => (s.commits, s.tables.user_channels)) =
        some ([1, 0], [⟨"telegram", "42", "c1"⟩]) := by decide +kernel
  have hmeets : Meets (Upserts.step sample_calls) (Upserts.Clean sample_calls)
      (Upserts.start {}) sample_run := by decide +kernel
  obtain ⟨s, hs, hval⟩ := Option.map_eq_some_iff.mp hread
  have hstart : Reach (Upserts.step sample_calls) (Upserts.Clean sample_calls)
      (· = Upserts.start ({} : Tables)) (Upserts.start {}) := .start rfl
  exact ⟨s, remember_channel_upserts sample_calls ⟨{}, no_tables_valid⟩ (hstart.exec hmeets hs),
    (Prod.mk.inj hval).1, (Prod.mk.inj hval).2⟩

/-- The second INSERT violates the primary key. -/
theorem first_messages_collide : ¬ ∀ s : Upserts Nat,
    Reach (Upserts.step sample_calls) Any (· = Upserts.start {}) s →
      Upserts.Upserted sample_calls {} s := by
  intro h
  have hread : (exec (Upserts.step sample_calls) (Upserts.start {}) collision).map
      (fun s => s.phase 1) = some .failed := by decide +kernel
  obtain ⟨s, hs, hval⟩ := Option.map_eq_some_iff.mp hread
  exact (h s (reach_of_exec rfl hs)).none_fails 1 hval

end ClawMux
