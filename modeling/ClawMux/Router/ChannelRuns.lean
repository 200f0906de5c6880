import ClawMux.Router.Channels
import ClawMux.Lib.Transition

namespace ClawMux
set_option autoImplicit true
open Lib Lib.Text

theorem validate_provider_eq (h : validate_provider p = .ok q) :
    q = lower (strip p) ∧ q ∈ SUPPORTED_PROVIDERS := by
  refine ⟨?_, validate_provider_mem h⟩
  simp only [validate_provider] at h
  split at h
  · exact (Except.ok.inj h).symm
  · cases h

theorem get_adapter_some {registered : List String} (hp : validate_provider p = .ok q)
    (h : get_adapter registered p = some adapter) : q ∈ registered := by
  obtain ⟨rfl, hq⟩ := validate_provider_eq hp
  have hget : ∀ {name adapter : String}, registry_get registered name = some adapter →
      lower (strip name) ∈ registered := by
    intro name adapter hn
    simp only [registry_get] at hn
    split at hn
    · assumption
    · cases hn
  rw [get_adapter] at h
  split at h
  · rename_i hr
    exact hget hr
  · rename_i hr
    split at h
    · rename_i hd
      rcases hd with rfl | rfl
      · exact hget h
      · exact absurd hq (by decide)
    · cases h

theorem get_adapter_registered {registered : List String} (hp : validate_provider p = .ok q)
    (h : q ∈ registered) : get_adapter registered p = some q := by
  obtain ⟨rfl, -⟩ := validate_provider_eq hp
  simp only [get_adapter, registry_get, if_pos h]

theorem provider_user_id_prefixed (p u : String) :
    provider_user_id (identity_key p u) p = u := by
  rw [provider_user_id, identity_key, if_pos (startsWith_append ..), dropLen_append]

/-- The key and the user id that `handle_proactive` works with belong together. -/
theorem normalize_key (p v : String) :
    normalize_identity_key p v =
      identity_key p (provider_user_id (normalize_identity_key p v) p) := by
  rw [normalize_identity_key]
  split
  · rename_i h
    rw [provider_user_id, if_pos h, identity_key, append_dropLen h]
  · rw [provider_user_id_prefixed]

/-- Routers on several replicas over one database. `last_event` is the channel of the last event of
an identity, under the provider as the database spells it. -/
structure ChannelSystem where
  db : Db
  user_channels : Nat → String → Option String := fun _ _ => none
  last_event : String × String → Option String := fun _ => none

namespace ChannelSystem

inductive Act
  | handle_event (r : Nat) (a : Answers) (provider user_id channel_id : String)
  | handle_proactive (r : Nat) (a : Answers) (user_id text provider : String)
  | trigger_message (r : Nat) (a : Answers) (user_id provider : String)

def state (s : ChannelSystem) (r : Nat) : RouterState := ⟨s.user_channels r, s.db⟩

def set (s : ChannelSystem) (r : Nat) (x : RouterState) : ChannelSystem :=
  { s with db := x.db, user_channels := Function.update s.user_channels r x.user_channels }

variable (registered : List String)

/-- `get_or_create_channel` for an identity, on a replica. -/
def call (s : ChannelSystem) (r : Nat) (a : Answers) (provider user_id : String) : Ran String :=
  Router.get_or_create_channel registered a (s.state r) (identity_key provider user_id) user_id
    provider

def step (s : ChannelSystem) : Act → Option ChannelSystem
  | .handle_event r a p u c =>
    let s' := s.set r (Router.note_event registered a (s.state r) p u c)
    match validate_provider p, get_adapter registered p with
    | .ok q, some _ => some { s' with last_event := Function.update s.last_event (q, u) (some c) }
    | _, _ => some s'
  | .handle_proactive r a v text p =>
    some (s.set r (Router.handle_proactive registered a (s.state r) v text p).state)
  | .trigger_message r a u p => some (s.set r (s.call registered r a p u).state)

def Initial (s : ChannelSystem) : Prop := s.last_event = fun _ => none

/-- The write of an event's channel succeeds. -/
def Writes (s : ChannelSystem) : Act → Prop
  | .handle_event _ a p u c =>
    a.write_ok = true ∧ ∃ db, ClawMux.remember_channel s.db p u c = .ok db
  | _ => True

/-- The router has no channel of the identity in memory, and reads a channel from the table. -/
def Found (s : ChannelSystem) (r : Nat) (a : Answers) (provider user_id c : String) : Prop :=
  truthy (s.user_channels r (identity_key provider user_id)) = none ∧ a.read_ok = true ∧ c ≠ ""

/-- Every call after an event of the identity finds the channel in the table. -/
def AllFound (s : ChannelSystem) : Act → Prop
  | .handle_event _ _ _ _ _ => True
  | .handle_proactive r a v _ p => ∀ q c, validate_provider p = .ok q →
    s.last_event (q, provider_user_id (normalize_identity_key p v) p) = some c →
    s.Found r a p (provider_user_id (normalize_identity_key p v) p) c
  | .trigger_message r a u p => ∀ q c, validate_provider p = .ok q →
    s.last_event (q, u) = some c → s.Found r a p u c

/-- The call returns the channel without opening another, and both stores hold it afterwards. -/
structure Agrees (out : Ran String) (key q u c : String) : Prop where
  result : out.result = .ok c
  no_dm : out.calls = []
  cached : out.state.user_channels key = some c
  persisted : out.state.db.channel q u = some c

variable {registered}

theorem get_or_create_found {s : RouterState} (hp : validate_provider p = .ok q)
    (hl : truthy (s.user_channels key) = none) (hr : a.read_ok = true) (hc : c ≠ "")
    (hrow : s.db.channel q u = some c) :
    Router.get_or_create_channel registered a s key u p =
      ⟨{ s with user_channels := Function.update s.user_channels key (some c) }, [], .ok c⟩ := by
  have hread : truthy (Router.read_channel a s p u) = some c := by
    simp only [Router.read_channel, hr, ↓reduceIte, get_channel_ok hp, hrow, truthy,
      Option.filter_some, ne_eq, hc, not_false_eq_true, decide_true]
  simp only [Router.get_or_create_channel, hl, hread]

/-- Beside its own identity a call leaves every row alone. -/
theorem create_channel_db (registered : List String) (a : Answers) (s : RouterState)
    (key u p : String) :
    (Router.create_channel registered a s key u p).state.db = s.db ∨
      ∃ c, ClawMux.remember_channel s.db p u c =
        .ok (Router.create_channel registered a s key u p).state.db := by
  rw [Router.create_channel]
  split
  · exact .inl rfl
  · dsimp only
    split
    · exact .inl rfl
    · rename_i c hc
      split
      · exact .inl rfl
      · simp only [Router.remember_channel]
        split
        · split
          · rename_i hdb
            exact .inr ⟨c, hdb⟩
          · exact .inl rfl
        · exact .inl rfl

theorem get_or_create_db (registered : List String) (a : Answers) (s : RouterState)
    (key u p : String) :
    (Router.get_or_create_channel registered a s key u p).state.db = s.db ∨
      ∃ c, ClawMux.remember_channel s.db p u c =
        .ok (Router.get_or_create_channel registered a s key u p).state.db := by
  rw [Router.get_or_create_channel]
  split
  · exact create_channel_db ..
  · split
    · exact .inl rfl
    · exact create_channel_db ..

/-- The table holds the channel of the last event of every identity that had one. -/
def Persisted (registered : List String) (s : ChannelSystem) : Prop :=
  ∀ q u c, s.last_event (q, u) = some c → s.db.channel q u = some c ∧ q ∈ registered

theorem Persisted.call {s : ChannelSystem} (h : Persisted registered s)
    (hf : ∀ q c, validate_provider p = .ok q → s.last_event (q, u) = some c → s.Found r a p u c) :
    Persisted registered (s.set r (s.call registered r a p u).state) := by
  intro q v c hlast
  obtain ⟨hrow, hreg⟩ := h q v c hlast
  refine ⟨?_, hreg⟩
  change (s.call registered r a p u).state.db.channel q v = some c
  rcases get_or_create_db registered a (s.state r) (identity_key p u) u p with hdb | ⟨c', hdb⟩
  · rw [ChannelSystem.call, hdb]
    exact hrow
  · obtain ⟨q', hq', -⟩ := bind_ok hdb
    by_cases hk : q = q' ∧ v = u
    · obtain ⟨rfl, rfl⟩ := hk
      obtain ⟨hl, hr, hc⟩ := hf q c hq' hlast
      rw [ChannelSystem.call, get_or_create_found hq' hl hr hc hrow]
      exact hrow
    · rw [ChannelSystem.call, remember_channel_ok hq' hdb, if_neg hk]
      exact hrow

theorem handle_proactive_state (s : ChannelSystem) (r : Nat) (a : Answers) (v text p : String) :
    (Router.handle_proactive registered a (s.state r) v text p).state = s.state r ∨
      (Router.handle_proactive registered a (s.state r) v text p).state =
        (s.call registered r a p (provider_user_id (normalize_identity_key p v) p)).state := by
  unfold Router.handle_proactive ChannelSystem.call
  dsimp only
  rw [← normalize_key]
  split
  · exact .inl rfl
  · split
    · rename_i he
      rw [he]
      exact .inr rfl
    · rename_i he
      rw [he]
      split
      · exact .inr rfl
      · exact .inr rfl

theorem step_persisted {s s' : ChannelSystem} (h : Persisted registered s) (hw : s.Writes x)
    (hf : s.AllFound x) (hs : s.step registered x = some s') : Persisted registered s' := by
  cases x with
  | handle_event r a p u c =>
    obtain ⟨hok, db, hdb⟩ := hw
    obtain ⟨q, hq, -⟩ := bind_ok hdb
    have hrow := remember_channel_ok hq hdb
    simp only [step, hq] at hs
    cases ha : get_adapter registered p with
    | none =>
      simp only [ha, Option.some.injEq] at hs
      subst hs
      simp only [Router.note_event, ha]
      exact h
    | some adapter =>
      simp only [ha, Option.some.injEq] at hs
      subst hs
      intro q' v c' hlast
      simp only [Router.note_event, ha, set, Router.remember_channel, hok, ↓reduceIte, state,
        hdb] at hlast ⊢
      rw [hrow]
      by_cases hk : q' = q ∧ v = u
      · obtain ⟨rfl, rfl⟩ := hk
        rw [Function.update_self] at hlast
        cases hlast
        exact ⟨if_pos ⟨rfl, rfl⟩, get_adapter_some hq ha⟩
      · rw [Function.update_of_ne (by simpa using hk)] at hlast
        rw [if_neg hk]
        exact h q' v c' hlast
  | handle_proactive r a v text p =>
    cases hs
    rcases @handle_proactive_state registered s r a v text p with he | he
    · rw [he]
      exact h
    · rw [he]
      exact h.call hf
  | trigger_message r a u p =>
    cases hs
    exact h.call hf

/-- A router that has the channel in memory opens a channel all the same. -/
theorem create_channel_disagrees {s : RouterState} (ha : get_adapter registered p = some adapter) :
    ¬ Agrees (Router.create_channel registered a s key u p) k q v c := by
  intro h
  have hcalls := h.no_dm
  simp only [Router.create_channel, ha] at hcalls
  split at hcalls
  · cases hcalls
  · split at hcalls <;> cases hcalls

/-- While every call of a run finds the channel in the table, the table holds the channel of the
last event, and the next call agrees with it exactly when it finds it in the table too. -/
theorem channel_agrees {s : ChannelSystem}
    (h : Reach (step registered) (fun s x => s.Writes x ∧ s.AllFound x) Initial s)
    (hp : validate_provider p = .ok q) (hlast : s.last_event (q, u) = some c) (r : Nat)
    (a : Answers) :
    s.db.channel q u = some c ∧
      (Agrees (s.call registered r a p u) (identity_key p u) q u c ↔ s.Found r a p u c) := by
  have hinv : Persisted registered s := h.invariant
    (fun s hi q u c hl => by rw [hi] at hl; cases hl)
    fun s x s' hi hc hs => step_persisted hi hc.1 hc.2 hs
  obtain ⟨hrow, hreg⟩ := hinv q u c hlast
  have ha := get_adapter_registered hp hreg
  refine ⟨hrow, ?_, ?_⟩
  · intro hag
    simp only [ChannelSystem.call, Router.get_or_create_channel] at hag
    split at hag
    · exact absurd hag (create_channel_disagrees ha)
    · rename_i hl
      split at hag
      · rename_i x hread
        cases hag.result
        obtain ⟨hx, hne⟩ := Option.filter_eq_some_iff.mp hread
        refine ⟨hl, ?_, of_decide_eq_true hne⟩
        cases hr : a.read_ok with
        | true => rfl
        | false => simp [Router.read_channel, hr] at hx
      · exact absurd hag (create_channel_disagrees ha)
  · rintro ⟨hl, hr, hc⟩
    rw [ChannelSystem.call, get_or_create_found hp hl hr hc hrow]
    exact ⟨rfl, rfl, Function.update_self .., hrow⟩

def direct : Answers := { get_or_create_dm_channel := fun _ _ => .ok "dm" }

def start : ChannelSystem := { db := ⟨{}, by decide⟩ }

def first_event : Act := .handle_event 0 direct "telegram" "7" "c"

/-- The state after one event, on replica 0, of user 7 from channel "c". -/
def noted : ChannelSystem := (step ["telegram"] start first_event).get (by decide)

theorem noted_reach : Reach (step ["telegram"]) (fun s x => s.Writes x ∧ s.AllFound x) Initial
    noted := by
  have hdb : (ClawMux.remember_channel start.db "telegram" "7" "c").toOption.isSome = true := by
    decide
  have hw : start.Writes first_event := by
    refine ⟨rfl, ?_⟩
    cases h : ClawMux.remember_channel start.db "telegram" "7" "c" with
    | ok db => exact ⟨db, rfl⟩
    | error e => rw [h] at hdb; cases hdb
  have hi : Initial start := rfl
  have hs : step ["telegram"] start first_event = some noted := (Option.some_get _).symm
  exact .next (.start hi) ⟨hw, trivial⟩ hs

theorem noted_last_event : noted.last_event ("telegram", "7") = some "c" := by decide

theorem channel_agrees_noted :
    noted.Found 1 direct "telegram" "7" "c" ∧
      Agrees (noted.call ["telegram"] 1 direct "telegram" "7") "telegram:7" "telegram" "7" "c" := by
  have hf : noted.Found 1 direct "telegram" "7" "c" := ⟨by decide, rfl, by decide⟩
  have hp : validate_provider "telegram" = .ok "telegram" := by decide
  exact ⟨hf, (channel_agrees noted_reach hp noted_last_event 1 direct).2.mpr hf⟩

/-- On the replica that had the event the next call opens and stores another channel. -/
theorem not_channel_agrees : ∃ s, Reach (step ["telegram"]) Writes Initial s ∧
    s.last_event ("telegram", "7") = some "c" ∧
    ¬ Agrees (s.call ["telegram"] 0 direct "telegram" "7") "telegram:7" "telegram" "7" "c" := by
  refine ⟨noted, noted_reach.mono fun _ _ h => h.1, noted_last_event, fun h => ?_⟩
  exact absurd h.no_dm (by decide)

end ChannelSystem

end ClawMux
