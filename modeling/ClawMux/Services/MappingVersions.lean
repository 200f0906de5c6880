import ClawMux.Services.MappingCoherence

namespace ClawMux
set_option autoImplicit true
open Lib

/-! The version before the first commit, when the singleton row may be missing -/

/-- The version that a lookup has read, with the snapshot it has read it from. -/
def Phase.read : Phase V → Option (Nat × Nat)
  | .versioned n v | .missed n v => some (n, v)
  | _ => none

/-- The lookup is about to store a row under its version. -/
def Phase.stores : Phase V → Bool
  | .fetched _ _ (.ok _) => true
  | _ => false

namespace MappingSystem

/-- One committed state, with or without the singleton row, and no lookup yet. -/
structure Unread (s : MappingSystem) : Prop where
  past : s.past = []
  storage : ∀ r, s.storage r = {}
  identity : ∀ i, s.identity_sessions i = none
  external : ∀ i, s.external_sessions i = none

/-- A replica holds an entry that is tagged with the version. -/
def Tagged (s : MappingSystem) (tag : Nat) : Prop :=
  (∃ r key entry, (s.storage r).identity_cache.lookup key = some entry ∧ entry.version = tag) ∨
    ∃ r key entry, (s.storage r).external_id_cache.lookup key = some entry ∧ entry.version = tag

/-- A lookup of some replica has read version `v` from snapshot `n`. -/
def HasRead (s : MappingSystem) (n v : Nat) : Prop :=
  (∃ i x, s.identity_sessions i = some x ∧ x.phase.read = some (n, v)) ∨
    ∃ i x, s.external_sessions i = some x ∧ x.phase.read = some (n, v)

/-- No lookup stores a row in its cache while the singleton row is missing. -/
def StoresVersioned (s : MappingSystem) : Act → Prop
  | .identity i (.store _) => ∀ x ∈ s.identity_sessions i, x.phase.stores = true →
    s.current.mapping_state.isSome = true
  | .external i (.store _) => ∀ x ∈ s.external_sessions i, x.phase.stores = true →
    s.current.mapping_state.isSome = true
  | _ => True

end MappingSystem

/-- A commit writes a greater version, also where there was no row. -/
theorem bind_version (hb : bind_user_instance F k db a = .ok db') :
    db'.mapping_state = some (db.version + 1) := by
  rw [bind_mapping_state hb, Db.version]
  cases db.mapping_state with
  | none => rfl
  | some v => rfl

theorem db_version_bind (hb : bind_user_instance F k db a = .ok db') :
    db'.version = db.version + 1 := by
  rw [Db.version, bind_version hb]
  rfl

theorem Increasing.bind {history : List Db} (h : Increasing Db.version history)
    (hlast : history.getLast? = some db) (hb : bind_user_instance F k db a = .ok db') :
    Increasing Db.version (history ++ [db']) := by
  obtain ⟨front, rfl⟩ := List.getLast?_eq_some_iff.mp hlast
  have hv := db_version_bind hb
  apply h.append
  intro c hc
  rw [hv]
  rcases List.mem_append.mp hc with hc | hc
  · have hlt := (List.pairwise_append.mp h).2.2 c hc db (List.mem_singleton_self _)
    omega
  · rw [List.mem_singleton.mp hc]
    omega

/-- What the version of a lookup comes from; `getD 1` is the row it would have created itself. -/
def Phase.ReadFrom (history : List Db) : Phase V → Prop
  | .versioned n v | .missed n v => ∃ db, history[n]? = some db ∧ v = db.mapping_state.getD 1
  | .fetched v _ _ => ∃ db ∈ history, v = db.mapping_state.getD 1
  | _ => True

theorem Phase.ReadFrom.append {p : Phase V} (h : p.ReadFrom history) (later : List Db) :
    p.ReadFrom (history ++ later) := by
  cases p with
  | versioned n v | missed n v =>
    obtain ⟨db, hn, hv⟩ := h
    exact ⟨db, getElem?_append_of_some hn later, hv⟩
  | fetched v n row =>
    obtain ⟨db, hn, hv⟩ := h
    exact ⟨db, List.mem_append_left later hn, hv⟩
  | _ => trivial

/-- No entry is tagged with a version above the bound. -/
def TagsUpTo (bound : Nat) (cache : Cache (String × String) V) : Prop :=
  ∀ key entry, cache.lookup key = some entry → entry.version ≤ bound

theorem tagsUpTo_empty : TagsUpTo bound (∅ : Cache (String × String) V) := by
  intro key entry he
  cases he

theorem TagsUpTo.mono {cache : Cache (String × String) V} (h : TagsUpTo bound cache)
    (hle : bound ≤ bound') : TagsUpTo bound' cache :=
  fun key entry he => Nat.le_trans (h key entry he) hle

/-- The bound holds in both caches of a process. -/
def MappingStorage.TagsUpTo (bound : Nat) (m : MappingStorage) : Prop :=
  ClawMux.TagsUpTo bound m.identity_cache ∧ ClawMux.TagsUpTo bound m.external_id_cache

/-- Where the row exists, no version that a lookup has read is above it. -/
theorem read_le {history : List Db} (h : Increasing Db.version history)
    (hlast : history.getLast? = some db) (hrow : db.mapping_state.isSome = true)
    (hc : c ∈ history) :
    c.mapping_state.getD 1 ≤ db.version := by
  obtain ⟨front, rfl⟩ := List.getLast?_eq_some_iff.mp hlast
  obtain ⟨v, hv⟩ := Option.isSome_iff_exists.mp hrow
  rcases List.mem_append.mp hc with hc | hc
  · have hlt := (List.pairwise_append.mp h).2.2 c hc db (List.mem_singleton_self _)
    cases hcv : c.mapping_state with
    | none =>
      rw [Option.getD_none]
      omega
    | some w =>
      rw [Db.version, hcv] at hlt
      exact Nat.le_of_lt hlt
  · rw [List.mem_singleton.mp hc, Db.version, hv]
    exact Nat.le_refl _

/-- One step of a lookup keeps where its version comes from and bounds what it stores. -/
theorem session_step_read
    {run : Tables → String × String → Except MappingError V} {x x' : Session V}
    (hx : x.phase.ReadFrom history) (ht : TagsUpTo bound cache)
    (hstore : ∀ now, act = .store now → x.phase.stores = true →
      ∀ db ∈ history, db.mapping_state.getD 1 ≤ bound)
    (h : MappingSystem.session_step ttl history run cache x act = some (x', cache')) :
    x'.phase.ReadFrom history ∧ TagsUpTo bound cache' := by
  cases MappingSystem.session_steps h with
  | reads n v db hp hn hle hv =>
    refine ⟨⟨db, hn, ?_⟩, ht⟩
    rw [hv]
    rfl
  | lacks n db hp hn hle hv => exact ⟨trivial, ht⟩
  | creates m n db hp hn hle => exact ⟨⟨db, hn, rfl⟩, ht⟩
  | hits now n v value hp hg =>
    exact ⟨trivial, fun key entry he => ht key entry (cache_get_lookup he)⟩
  | misses now n v hp =>
    rw [hp] at hx
    exact ⟨hx, fun key entry he => ht key entry (cache_get_lookup he)⟩
  | fetches m n v db hp hn hle =>
    rw [hp] at hx
    obtain ⟨c, hc, hv⟩ := hx
    exact ⟨⟨c, List.mem_of_getElem? hc, hv⟩, ht⟩
  | stores now n v value hp =>
    rw [hp] at hx
    obtain ⟨c, hc, hv⟩ := hx
    refine ⟨trivial, fun key entry he => ?_⟩
    rcases cache_put_lookup he with ⟨-, htag, -⟩ | he
    · rw [htag, hv]
      exact hstore now rfl (by rw [hp]; rfl) c hc
    · exact ht key entry he
  | raises now n v e hp => exact ⟨trivial, ht⟩

namespace MappingSystem

variable {F : Fernet} {k : String} {ttl : Int} {s s' s₁ s₂ s₃ : MappingSystem}

/-- Versions grow at every commit, and no tag is above the newest of them. -/
structure Bumped (s : MappingSystem) : Prop where
  versions : Increasing Db.version s.history
  tags : ∀ r, (s.storage r).TagsUpTo s.current.version
  identity : ∀ i x, s.identity_sessions i = some x → x.phase.ReadFrom s.history
  external : ∀ i x, s.external_sessions i = some x → x.phase.ReadFrom s.history

theorem bumped_unread (h : s.Unread) : s.Bumped := by
  have hh : s.history = [s.current] := by rw [history, h.past, List.nil_append]
  refine ⟨?_, ?_, ?_, ?_⟩
  · rw [hh]
    exact List.pairwise_singleton _ _
  · intro r
    rw [h.storage r]
    exact ⟨tagsUpTo_empty, tagsUpTo_empty⟩
  · intro i x hx
    rw [h.identity i] at hx
    cases hx
  · intro i x hx
    rw [h.external i] at hx
    cases hx

theorem Bumped.bind (h : s.Bumped) (hb : bind_user_instance F k s.current a = .ok db) :
    Bumped { s with past := s.past ++ [s.current], current := db } := by
  have hh : history { s with past := s.past ++ [s.current], current := db } =
      s.history ++ [db] := rfl
  have hle : s.current.version ≤ db.version := by
    rw [db_version_bind hb]
    exact Nat.le_succ _
  constructor
  · rw [hh]
    exact Increasing.bind h.versions s.history_getLast? hb
  · exact fun r => ⟨(h.tags r).1.mono hle, (h.tags r).2.mono hle⟩
  · rw [hh]
    exact fun i x hx => (h.identity i x hx).append _
  · rw [hh]
    exact fun i x hx => (h.external i x hx).append _

theorem step_bumped (h : s.Bumped) (hc : s.StoresVersioned act)
    (hs : step F k ttl s act = some s') : s'.Bumped := by
  have hread : s.current.mapping_state.isSome = true → ∀ db ∈ s.history,
      db.mapping_state.getD 1 ≤ s.current.version :=
    fun hrow _ hdb => read_le h.versions s.history_getLast? hrow hdb
  cases steps_of_step hs with
  | bind hb => exact h.bind hb
  | invalidate =>
    exact ⟨h.versions, forall_update h.tags ⟨tagsUpTo_empty, tagsUpTo_empty⟩, h.identity,
      h.external⟩
  | open_identity hn hp =>
    exact ⟨h.versions, h.tags, forall_update_some h.identity trivial, h.external⟩
  | open_external hn hp =>
    exact ⟨h.versions, h.tags, h.identity, forall_update_some h.external trivial⟩
  | @identity i x act x' cache hx hstep =>
    obtain ⟨hfrom, htags⟩ := session_step_read (h.identity i x hx) (h.tags x.replica).1
      (fun now hact hst => hread (by subst hact; exact hc x hx hst)) hstep
    exact ⟨h.versions, forall_update h.tags ⟨htags, (h.tags x.replica).2⟩,
      forall_update_some h.identity hfrom, h.external⟩
  | @external i x act x' cache hx hstep =>
    obtain ⟨hfrom, htags⟩ := session_step_read (h.external i x hx) (h.tags x.replica).2
      (fun now hact hst => hread (by subst hact; exact hc x hx hst)) hstep
    exact ⟨h.versions, forall_update h.tags ⟨(h.tags x.replica).1, htags⟩, h.identity,
      forall_update_some h.external hfrom⟩

theorem Bumped.tagged (h : s.Bumped) (ht : s.Tagged tag) : tag ≤ s.current.version := by
  rcases ht with ⟨r, key, entry, he, rfl⟩ | ⟨r, key, entry, he, rfl⟩
  · exact (h.tags r).1 key entry he
  · exact (h.tags r).2 key entry he

theorem Bumped.has_read (h : s.Bumped) (hr : s.HasRead n v) :
    ∃ db, s.history[n]? = some db ∧ v = db.mapping_state.getD 1 := by
  have hphase : ∀ {V : Type} {p : Phase V}, p.ReadFrom s.history → p.read = some (n, v) →
      ∃ db, s.history[n]? = some db ∧ v = db.mapping_state.getD 1 := by
    intro V p hp hread
    cases p with
    | versioned m w | missed m w =>
      cases hread
      exact hp
    | _ => cases hread
  rcases hr with ⟨i, x, hx, hread⟩ | ⟨i, x, hx, hread⟩
  · exact hphase (h.identity i x hx) hread
  · exact hphase (h.external i x hx) hread

theorem step_history (hs : step F k ttl s act = some s') :
    ∃ later, s'.history = s.history ++ later := by
  cases steps_of_step hs with
  | bind hb => exact ⟨_, rfl⟩
  | invalidate | open_identity | open_external | identity | external =>
    exact ⟨[], (List.append_nil _).symm⟩

theorem reach_history {C : MappingSystem → Act → Prop}
    (h : Reach (step F k ttl) C (· = s) s') : ∃ later, s'.history = s.history ++ later := by
  apply h.invariant (I := fun t => ∃ later, t.history = s.history ++ later)
    (fun _ he => ⟨[], by rw [he, List.append_nil]⟩)
  rintro t a u ⟨later, ht⟩ - hs
  obtain ⟨more, hu⟩ := step_history hs
  exact ⟨later ++ more, by rw [hu, ht, List.append_assoc]⟩

theorem history_current (s : MappingSystem) : s.history[s.past.length]? = some s.current := by
  rw [history, List.getElem?_append_right (Nat.le_refl _), Nat.sub_self]
  rfl

theorem Bumped.version_le {i j : Nat} {a b : Db} (h : s.Bumped) (hi : s.history[i]? = some a)
    (hj : s.history[j]? = some b) (hij : i ≤ j) : a.version ≤ b.version :=
  h.versions.rising.le hij hi hj

/-- A state of the history stays where it is, and is no newer than the state it grows into. -/
theorem Bumped.current_le (h : s'.Bumped) (hr : Reach (step F k ttl) C (· = s) s') :
    s.current.version ≤ s'.current.version := by
  obtain ⟨later, hl⟩ := reach_history hr
  have hat : s'.history[s.past.length]? = some s.current := by
    rw [hl]
    exact getElem?_append_of_some s.history_current later
  have hlt : s.past.length ≤ s'.past.length := by
    have hlen := congrArg List.length hl
    simp only [history, List.length_append, List.length_singleton] at hlen
    omega
  exact h.version_le hat s'.history_current hlt

/-- As long as no lookup stores a row while the singleton row is missing: after a commit nobody
reads a version with which an entry was tagged before. -/
theorem bump_observable (h : Reach (step F k ttl) StoresVersioned Unread s) (ht : s.Tagged tag)
    (h₁ : Reach (step F k ttl) StoresVersioned (· = s) s₁)
    (hb : step F k ttl s₁ (.bind a) = some s₂)
    (h₃ : Reach (step F k ttl) StoresVersioned (· = s₂) s₃) (hr : s₃.HasRead n v)
    (hn : s₂.past.length ≤ n) : tag < v := by
  have hall : ∀ {s}, Reach (step F k ttl) StoresVersioned Unread s → s.Bumped := fun h =>
    h.invariant (fun _ => bumped_unread) fun _ _ _ hi hc hs => step_bumped hi hc hs
  have hr₁ := h.append h₁
  have hbind : s₁.StoresVersioned (.bind a) := trivial
  have hr₃ := (hr₁.next hbind hb).append h₃
  have htag : tag ≤ s₁.current.version :=
    Nat.le_trans ((hall h).tagged ht) ((hall hr₁).current_le h₁)
  have hnew : s₁.current.version < s₂.current.version := by
    cases steps_of_step hb with
    | bind hdb =>
      rw [db_version_bind hdb]
      exact Nat.lt_succ_self _
  obtain ⟨db, hdb, rfl⟩ := (hall hr₃).has_read hr
  obtain ⟨later, hl⟩ := reach_history h₃
  have hat : s₃.history[s₂.past.length]? = some s₂.current := by
    rw [hl]
    exact getElem?_append_of_some s₂.history_current later
  have hlast := (hall hr₃).version_le hat hdb hn
  have hlt : tag < db.version := by omega
  rw [Db.version] at hlt
  cases hrow : db.mapping_state with
  | none =>
    rw [hrow] at hlt
    exact absurd hlt (Nat.not_lt_zero _)
  | some w =>
    rw [hrow] at hlt
    exact hlt

def moved : BindArgs := { binding with instance_url := "ws://b" }

theorem fresh_unread : fresh.Unread := ⟨rfl, fun _ => rfl, fun _ => rfl, fun _ => rfl⟩

/-- The next bind after a lookup that has cached its row; the version that a lookup reads then. -/
def rebound : MappingSystem := (step Fernet.clear "" 300 cached (.bind moved)).get (by decide)

def reads : List Act :=
  [.open_identity 1 1 "telegram" "7", .identity 1 (.version 2)]

def reread : MappingSystem := (exec (step Fernet.clear "" 300) rebound reads).get (by decide)

theorem bump_observable_reread : ∃ tag n v, cached.Tagged tag ∧ reread.HasRead n v ∧
    rebound.past.length ≤ n ∧ tag < v := by
  have he : exec (step Fernet.clear "" 300) fresh looked_up = some cached :=
    (Option.some_get _).symm
  have hm : Meets (step Fernet.clear "" 300) StoresVersioned fresh looked_up :=
    ⟨trivial, trivial, trivial, trivial, trivial, fun _ _ _ => rfl, trivial⟩
  have hb : step Fernet.clear "" 300 cached (.bind moved) = some rebound := (Option.some_get _).symm
  have hr : exec (step Fernet.clear "" 300) rebound reads = some reread := (Option.some_get _).symm
  have hmr : Meets (step Fernet.clear "" 300) StoresVersioned rebound reads :=
    ⟨trivial, trivial, trivial⟩
  have htag : cached.Tagged 2 := .inl ⟨0, ("telegram", "7"), ⟨2, 300, binding.info⟩, rfl, rfl⟩
  have hread : reread.HasRead 2 3 := .inl ⟨1, ⟨1, ("telegram", "7"), 2, .versioned 2 3⟩, rfl, rfl⟩
  have hn : rebound.past.length ≤ 2 := by decide
  have hstart : Reach (step Fernet.clear "" 300) StoresVersioned (· = rebound) rebound := .start rfl
  exact ⟨2, 2, 3, htag, hread, hn, bump_observable ((Reach.start fresh_unread).exec hm he) htag
    (.start rfl) hb (hstart.exec hmr hr) hread hn⟩

/-- The user has an instance, and the singleton row was never inserted. -/
theorem valid_unversioned :
    ({ cached.current.toTables with mapping_state := none } : Tables).Valid := by
  decide

def unversioned : MappingSystem := { current := ⟨_, valid_unversioned⟩ }

theorem unversioned_unread : unversioned.Unread :=
  ⟨rfl, fun _ => rfl, fun _ => rfl, fun _ => rfl⟩

/-- A lookup that would create the row, and does not commit it. -/
def lookup_lazily : List Act :=
  [.open_identity 0 0 "telegram" "7", .identity 0 (.version 0), .identity 0 (.create 0),
    .identity 0 (.probe 0), .identity 0 (.fetch 0), .identity 0 (.store 0)]

def tagged : MappingSystem :=
  (exec (step Fernet.clear "" 300) unversioned lookup_lazily).get (by decide)

def inserted : MappingSystem := (step Fernet.clear "" 300 tagged (.bind moved)).get (by decide)

def unobserved : MappingSystem :=
  (exec (step Fernet.clear "" 300) inserted
    [.open_identity 1 0 "telegram" "7", .identity 1 (.version 1)]).get (by decide)

theorem not_bump_observable : ∃ s s₁ s₂ a tag n v,
    Reach (step Fernet.clear "" 300) Any Unread s ∧ s.Tagged tag ∧
      step Fernet.clear "" 300 s (.bind a) = some s₁ ∧
      Reach (step Fernet.clear "" 300) Any (· = s₁) s₂ ∧ s₂.HasRead n v ∧ s₁.past.length ≤ n ∧
      ¬ tag < v := by
  have he : exec (step Fernet.clear "" 300) unversioned lookup_lazily = some tagged :=
    (Option.some_get _).symm
  have hb : step Fernet.clear "" 300 tagged (.bind moved) = some inserted :=
    (Option.some_get _).symm
  have hr : exec (step Fernet.clear "" 300) inserted
      [.open_identity 1 0 "telegram" "7", .identity 1 (.version 1)] = some unobserved :=
    (Option.some_get _).symm
  refine ⟨tagged, inserted, unobserved, moved, 1, 1, 1, reach_of_exec unversioned_unread he, ?_, hb,
    reach_of_exec rfl hr, ?_, by decide, by decide⟩
  · exact .inl ⟨0, ("telegram", "7"), ⟨1, 300, binding.info⟩, rfl, rfl⟩
  · exact .inl ⟨1, ⟨0, ("telegram", "7"), 1, .versioned 1 1⟩, rfl, rfl⟩

end MappingSystem

end ClawMux
