import ClawMux.Services.MappingCoherence
import ClawMux.Services.WsRouting

namespace ClawMux
set_option autoImplicit true
open Lib

/-- Where the handling of one message stands before its `send_message`. -/
inductive HandlerPhase
  | started
  | looking (session : Nat)
  | triggered (session : Nat)
  | provisioning
  | ready (info : InstanceInfo)
  | sent
  | ended
  deriving DecidableEq

/-- A `handle_event`, or an API trigger with its `trigger_message`; `start` is the newest commit
when it began. -/
structure Handler where
  replica : Nat
  start : Nat
  phase : HandlerPhase
  deriving DecidableEq

/-- Replicas over one database, seen from one identity: each has its mapping caches and its pool
for that identity. `binds` are the binds of the identity, with the commit each made. -/
structure Cluster where
  mapping : MappingSystem
  pools : Nat → Pool := fun _ => {}
  handlers : Nat → Option Handler := fun _ => none
  binds : List (Nat × InstanceInfo) := []

namespace Cluster

variable (F : Fernet) (credential_encryption_key : String) (mapping_cache_ttl_sec : Int)
  (enable_auto_provisioning : Bool) (provider user_id : String)

/-- The bind is one of the identity. -/
def concerns (a : BindArgs) : Prop :=
  (validate_provider a.provider).toOption = (validate_provider provider).toOption ∧
    a.provider_user_id = user_id

instance : Decidable (concerns provider user_id a) := inferInstanceAs (Decidable (_ ∧ _))

/-- The commit of a bind. -/
def commit (s : Cluster) (a : BindArgs) (m : MappingSystem) : Cluster :=
  { s with
    mapping := m
    binds :=
      if concerns provider user_id a then s.binds ++ [(m.past.length, a.info)] else s.binds }

@[simp] theorem commit_mapping (s : Cluster) :
    (s.commit provider user_id a m).mapping = m := rfl

theorem commit_binds (s : Cluster) : (s.commit provider user_id a m).binds =
    if concerns provider user_id a then s.binds ++ [(m.past.length, a.info)] else s.binds := by
  rw [commit]

def advance (s : Cluster) (a : MappingSystem.Act) (m : MappingSystem) : Cluster :=
  match a with
  | .bind a => s.commit provider user_id a m
  | _ => { s with mapping := m }

def set_phase (s : Cluster) (h : Nat) (x : Handler) (p : HandlerPhase) : Cluster :=
  { s with handlers := Function.update s.handlers h (some { x with phase := p }) }

inductive Act
  | mapping (a : MappingSystem.Act)
  | start_event (h r : Nat)
  | start_trigger (h r session : Nat) (external_user_id : String)
  | cached (h session : Nat)
  | resolved (h : Nat)
  | provision (h : Nat) (a : BindArgs)
  | send (h : Nat) (key : String)
  | pool (r : Nat) (a : Pool.Act)

/-- What the lookup of a handler makes of it. -/
def outcome (s : Cluster) (x : Handler) : Option HandlerPhase :=
  match x.phase with
  | .looking i =>
    match s.mapping.identity_sessions i with
    | some ⟨_, _, _, .done (.ok info)⟩ => some (.ready info)
    | some ⟨_, _, _, .done (.error (.instanceNotFound _))⟩ =>
      some (if enable_auto_provisioning then .provisioning else .ended)
    | some ⟨_, _, _, .done (.error _)⟩ => some .ended
    | _ => none
  | .triggered i =>
    match s.mapping.external_sessions i with
    -- a trigger for somebody else goes to another pool
    | some ⟨_, _, _, .done (.ok (v, info))⟩ =>
      some (if v = user_id then .ready info else .ended)
    | some ⟨_, _, _, .done (.error _)⟩ => some .ended
    | _ => none
  | _ => none

/-- The step of a pool in a step of the cluster; the task of a message is its handler. -/
def pool_act (s : Cluster) : Act → Option (Nat × Pool.Act)
  | .send h key =>
    match s.handlers h with
    | some ⟨r, _, .ready info⟩ => some (r, .send_message h key info)
    | _ => none
  | .pool _ (.send_message _ _ _) => none
  | .pool r a => some (r, a)
  | _ => none

def step (s : Cluster) (act : Act) : Option Cluster :=
  let step_mapping := MappingSystem.step F credential_encryption_key mapping_cache_ttl_sec s.mapping
  match act with
  | .mapping a =>
    match step_mapping a with
    | some m => some (s.advance provider user_id a m)
    | none => none
  | .start_event h r =>
    match s.handlers h with
    | none =>
      some { s with
        handlers := Function.update s.handlers h (some ⟨r, s.mapping.past.length, .started⟩) }
    | some _ => none
  | .start_trigger h r i external_user_id =>
    match s.handlers h, step_mapping (.open_external i r external_user_id provider) with
    | none, some m =>
      some { s with
        mapping := m
        handlers := Function.update s.handlers h (some ⟨r, s.mapping.past.length, .triggered i⟩) }
    | _, _ => none
  | .cached h i =>
    match s.handlers h with
    | some ⟨r, start, .started⟩ =>
      match (s.pools r).user_info with
      | some info => some (s.set_phase h ⟨r, start, .started⟩ (.ready info))
      | none =>
        match step_mapping (.open_identity i r provider user_id) with
        | some m => some ({ s with mapping := m }.set_phase h ⟨r, start, .started⟩ (.looking i))
        | none => none
    | _ => none
  | .resolved h =>
    match s.handlers h with
    | some x =>
      match s.outcome enable_auto_provisioning user_id x with
      | some p => some (s.set_phase h x p)
      | none => none
    | none => none
  | .provision h a =>
    match s.handlers h with
    | some ⟨r, start, .provisioning⟩ =>
      if a.provider = provider ∧ a.provider_user_id = user_id then
        match step_mapping (.bind a) with
        | some m =>
          some ((s.commit provider user_id a m).set_phase h ⟨r, start, .provisioning⟩
            (.ready a.info))
        | none => none
      else none
    | _ => none
  | .send h key =>
    match s.handlers h with
    | some ⟨r, start, .ready info⟩ =>
      match (s.pools r).step (.send_message h key info) with
      | some p =>
        some ({ s with pools := Function.update s.pools r p }.set_phase h ⟨r, start, .ready info⟩
          .sent)
      | none => none
    | _ => none
  | .pool _ (.send_message _ _ _) => none
  | .pool r a =>
    match (s.pools r).step a with
    | some p => some { s with pools := Function.update s.pools r p }
    | none => none

/-- All that a step can do, and in which state. -/
inductive Steps (s : Cluster) : Act → Cluster → Prop
  | bind (hm : MappingSystem.step F credential_encryption_key mapping_cache_ttl_sec s.mapping
      (.bind a) = some m) :
    Steps s (.mapping (.bind a)) (s.commit provider user_id a m)
  | mapping (hm : MappingSystem.step F credential_encryption_key mapping_cache_ttl_sec s.mapping a =
      some m) (ha : ∀ b, a ≠ .bind b) :
    Steps s (.mapping a) { s with mapping := m }
  | start_event (hx : s.handlers h = none) :
    Steps s (.start_event h r) { s with
      handlers := Function.update s.handlers h (some ⟨r, s.mapping.past.length, .started⟩) }
  | start_trigger (hx : s.handlers h = none)
      (hm : MappingSystem.step F credential_encryption_key mapping_cache_ttl_sec s.mapping
        (.open_external i r external_user_id provider) = some m) :
    Steps s (.start_trigger h r i external_user_id) { s with
      mapping := m
      handlers := Function.update s.handlers h (some ⟨r, s.mapping.past.length, .triggered i⟩) }
  | cached (hx : s.handlers h = some ⟨r, start, .started⟩)
      (hi : (s.pools r).user_info = some info) :
    Steps s (.cached h i) (s.set_phase h ⟨r, start, .started⟩ (.ready info))
  | looks (hx : s.handlers h = some ⟨r, start, .started⟩)
      (hm : MappingSystem.step F credential_encryption_key mapping_cache_ttl_sec s.mapping
        (.open_identity i r provider user_id) = some m) :
    Steps s (.cached h i) ({ s with mapping := m }.set_phase h ⟨r, start, .started⟩ (.looking i))
  | resolved (hx : s.handlers h = some x)
      (hp : s.outcome enable_auto_provisioning user_id x = some p) :
    Steps s (.resolved h) (s.set_phase h x p)
  | provision (hx : s.handlers h = some ⟨r, start, .provisioning⟩)
      (ha : a.provider = provider ∧ a.provider_user_id = user_id)
      (hm : MappingSystem.step F credential_encryption_key mapping_cache_ttl_sec s.mapping
        (.bind a) = some m) :
    Steps s (.provision h a)
      ((s.commit provider user_id a m).set_phase h ⟨r, start, .provisioning⟩ (.ready a.info))
  | send (hx : s.handlers h = some ⟨r, start, .ready info⟩)
      (hp : (s.pools r).step (.send_message h key info) = some p) :
    Steps s (.send h key)
      ({ s with pools := Function.update s.pools r p }.set_phase h ⟨r, start, .ready info⟩ .sent)
  | pool (hp : (s.pools r).step a = some p) (ha : ∀ t key info, a ≠ .send_message t key info) :
    Steps s (.pool r a) { s with pools := Function.update s.pools r p }

theorem steps_of_step {F : Fernet} {k : String} {ttl : Int} {auto : Bool}
    {provider user_id : String} {s s' : Cluster}
    (hs : step F k ttl auto provider user_id s act = some s') :
    Steps F k ttl auto provider user_id s act s' := by
  rw [step.eq_def] at hs
  dsimp only at hs
  split at hs
  · rename_i a
    split at hs
    · rename_i m hm
      cases hs
      cases a with
      | bind a => exact .bind hm
      | _ => exact .mapping hm fun _ he => by cases he
    · cases hs
  · split at hs
    · rename_i hx
      cases hs
      exact .start_event hx
    · cases hs
  · split at hs
    · rename_i hx hm
      cases hs
      exact .start_trigger hx hm
    · cases hs
  · split at hs
    · rename_i hx
      split at hs
      · rename_i hi
        cases hs
        exact .cached hx hi
      · split at hs
        · rename_i hm
          cases hs
          exact .looks hx hm
        · cases hs
    · cases hs
  · split at hs
    · rename_i hx
      split at hs
      · rename_i hp
        cases hs
        exact .resolved hx hp
      · cases hs
    · cases hs
  · split at hs
    · rename_i hx
      split at hs
      · rename_i ha
        split at hs
        · rename_i hm
          cases hs
          exact .provision hx ha hm
        · cases hs
      · cases hs
    · cases hs
  · split at hs
    · rename_i hx
      split at hs
      · rename_i hp
        cases hs
        exact .send hx hp
      · cases hs
    · cases hs
  · cases hs
  · rename_i hno
    split at hs
    · rename_i hp
      cases hs
      exact .pool hp hno
    · cases hs

/-- Nothing runs yet, and every identity row belongs to the user that a bind derives from it. -/
def Initial (s : Cluster) : Prop :=
  s.mapping.Initial ∧ s.mapping.current.Canonical ∧ (∀ r, s.pools r = {}) ∧
    (∀ h, s.handlers h = none) ∧ s.binds = []

/-- The info of the last bind that was committed at `start`, or of a later bind. -/
def Fresh (binds : List (Nat × InstanceInfo)) (start : Nat) (info : InstanceInfo) : Prop :=
  ∀ b ∈ binds, b.1 ≤ start → ∃ b' ∈ binds, b.1 ≤ b'.1 ∧ b'.2 = info

instance (binds : List (Nat × InstanceInfo)) : Decidable (Fresh binds start info) :=
  inferInstanceAs (Decidable (∀ b ∈ binds, _))

/-- Every frame goes over a connection to an instance of the last bind before its message, or of a
later one. -/
def FollowsBinding (s : Cluster) : Prop :=
  ∀ r, ∀ f ∈ (s.pools r).frames, ∃ x, s.handlers f.send = some x ∧ x.replica = r ∧
    Fresh s.binds x.start f.info

def Act.bound : Act → Option BindArgs
  | .mapping (.bind a) => some a
  | .provision _ a => some a
  | _ => none

def Act.reads_cache : Act → Option Nat
  | .cached h _ => some h
  | _ => none

/-- The info that `get_cached_info` finds, and the client that `get_or_create` returns because it
is connected, are not older than the message; what is bound has no secret in stored form. -/
structure Current (s : Cluster) (act : Act) : Prop where
  cached : ∀ h ∈ act.reads_cache, ∀ x ∈ s.handlers h, ∀ info ∈ (s.pools x.replica).user_info,
    Fresh s.binds x.start info
  reused : ∀ ra ∈ s.pool_act act, ∀ tc ∈ (s.pools ra.1).reuses ra.2,
    ∀ o ∈ (s.pools ra.1).objects tc.2, ∀ x ∈ s.handlers tc.1, Fresh s.binds x.start o.info
  plain : ∀ a ∈ act.bound, concerns provider user_id a → a.credentials.Plain

variable {F : Fernet} {k : String} {ttl : Int} {auto : Bool} {provider user_id : String}
  {s s' : Cluster} {binds : List (Nat × InstanceInfo)}

/-- Every database state answers with a bind of the identity that is as new as any before it. -/
def Ledger (F : Fernet) (k provider user_id : String) (history : List Db)
    (binds : List (Nat × InstanceInfo)) : Prop :=
  ∀ n db, history[n]? = some db → ∀ b ∈ binds, b.1 ≤ n →
    ∃ b' ∈ binds, b.1 ≤ b'.1 ∧ ∃ p, validate_provider provider = .ok p ∧
      db.Bound F k p user_id b'.2

/-- What a handler knows. -/
def HandlerOk (provider user_id : String) (s : Cluster) (x : Handler) : Prop :=
  match x.phase with
  | .looking i => ∃ y p, s.mapping.identity_sessions i = some y ∧ x.start ≤ y.start ∧
      validate_provider provider = .ok p ∧ y.key = (p, user_id)
  | .triggered i => ∃ y e p, s.mapping.external_sessions i = some y ∧ x.start ≤ y.start ∧
      validate_provider provider = .ok p ∧ y.key = (e, p)
  | .ready info => Fresh s.binds x.start info
  | _ => True

/-- The instances that a message may reach, by the replica and the task of the message. -/
def Allowed (s : Cluster) (r t : Nat) (info : InstanceInfo) : Prop :=
  ∃ x, s.handlers t = some x ∧ x.replica = r ∧ Fresh s.binds x.start info

structure Inv (F : Fernet) (k provider user_id : String) (s : Cluster) : Prop where
  mapping : s.mapping.Inv F k
  canonical : s.mapping.current.Canonical
  ledger : Ledger F k provider user_id s.mapping.history s.binds
  committed : ∀ b ∈ s.binds, b.1 ≤ s.mapping.past.length
  started : ∀ h x, s.handlers h = some x → x.start ≤ s.mapping.past.length
  handler : ∀ h x, s.handlers h = some x → HandlerOk provider user_id s x
  pool : ∀ r, (s.pools r).Routed (s.Allowed r)

theorem Fresh.append (h : Fresh binds start info) (hn : start < n) :
    Fresh (binds ++ [(n, i)]) start info := by
  intro b hb hs
  rcases List.mem_append.mp hb with hb | hb
  · obtain ⟨b', hb', hle, he⟩ := h b hb hs
    exact ⟨b', List.mem_append_left _ hb', hle, he⟩
  · rw [List.mem_singleton.mp hb] at hs
    omega

theorem Ledger.fresh (h : Ledger F k provider user_id history binds)
    (hn : history[n]? = some db) (hs : start ≤ n)
    (hf : ∀ p found, validate_provider provider = .ok p → db.Bound F k p user_id found →
      found = info) : Fresh binds start info := by
  intro b hb hbs
  obtain ⟨b', hb', hle, p, hp, hbound⟩ := h n db hn b hb (Nat.le_trans hbs hs)
  exact ⟨b', hb', hle, hf p b'.2 hp hbound⟩

/-- A commit of a bind extends the ledger. -/
theorem Ledger.commit {db : Db} (hF : F.Inverse) (hc : db.Canonical)
    (h : Ledger F k provider user_id history binds) (hlast : history.getLast? = some db)
    (hlen : ∀ b ∈ binds, b.1 + 1 ≤ history.length)
    (hplain : concerns provider user_id a → a.credentials.Plain)
    (hb : bind_user_instance F k db a = .ok db') :
    Ledger F k provider user_id (history ++ [db'])
      (if concerns provider user_id a then binds ++ [(history.length, a.info)] else binds) := by
  obtain ⟨q, _, hq, -⟩ := bind_cases hb
  obtain ⟨front, rfl⟩ := List.getLast?_eq_some_iff.mp hlast
  intro n x hx b hbm hbn
  rw [List.getElem?_append] at hx
  split at hx
  · rename_i hn
    have hold : ∀ b ∈ binds, b.1 ≤ n → ∃ b' ∈ binds, b.1 ≤ b'.1 ∧ ∃ p,
        validate_provider provider = .ok p ∧ x.Bound F k p user_id b'.2 := h n x hx
    split at hbm
    · rename_i hcon
      rcases List.mem_append.mp hbm with hbm | hbm
      · obtain ⟨b', hb', hle⟩ := hold b hbm hbn
        exact ⟨b', by rw [if_pos hcon]; exact List.mem_append_left _ hb', hle⟩
      · rw [List.mem_singleton.mp hbm] at hbn
        exact absurd hn (Nat.not_lt.mpr hbn)
    · rename_i hcon
      rw [if_neg hcon]
      exact hold b hbm hbn
  · obtain rfl : db' = x := by
      obtain ⟨hlt, he⟩ := List.getElem?_eq_some_iff.mp hx
      simp only [List.length_singleton, Nat.lt_one_iff] at hlt
      simpa only [hlt, List.getElem_cons_zero] using he
    by_cases hcon : concerns provider user_id a
    · rw [if_pos hcon] at hbm ⊢
      have hp : validate_provider provider = .ok q := by
        have := hcon.1
        rw [hq] at this
        cases hv : validate_provider provider with
        | error e => rw [hv] at this; cases this
        | ok p => rw [hv] at this; cases this; rfl
      refine ⟨_, List.mem_append_right _ (List.mem_singleton_self _), ?_, q, hp, ?_⟩
      · rcases List.mem_append.mp hbm with hbm | hbm
        · exact Nat.le_of_succ_le (hlen b hbm)
        · rw [List.mem_singleton.mp hbm]
      · have hbound := bind_bound hF (hplain hcon) hc hq hb
        rwa [hcon.2] at hbound
    · rw [if_neg hcon] at hbm ⊢
      have hbl := hlen b hbm
      rw [List.length_append, List.length_singleton] at hbl
      obtain ⟨b', hb', hle, p, hp, hbound⟩ :=
        h front.length db (by simp) b hbm (Nat.le_of_succ_le_succ hbl)
      refine ⟨b', hb', hle, p, hp, ?_⟩
      refine bind_bound_other hq (validate_provider_mem hp) ?_ hbound hb
      intro he
      apply hcon
      obtain ⟨rfl, rfl⟩ := Prod.mk.inj he
      exact ⟨by rw [hq, hp], rfl⟩

theorem mapping_bind
    {m m' : MappingSystem} (hs : MappingSystem.step F k ttl m (.bind a) = some m') :
    bind_user_instance F k m.current a = .ok m'.current ∧
      m'.past.length = m.past.length + 1 ∧ m'.history = m.history ++ [m'.current] := by
  cases MappingSystem.steps_of_step hs with
  | bind hb => exact ⟨hb, by simp, rfl⟩

/-- Only a bind commits. -/
theorem mapping_reads {m m' : MappingSystem} (hs : MappingSystem.step F k ttl m act = some m')
    (ha : ∀ a, act ≠ .bind a) : m'.past = m.past ∧ m'.current = m.current := by
  cases MappingSystem.steps_of_step hs with
  | @bind a db hb => exact absurd rfl (ha a)
  | invalidate | open_identity | open_external | identity | external => exact ⟨rfl, rfl⟩

/-- Sessions persist, and infos that are fresh stay so. -/
theorem HandlerOk.kept {x : Handler} (h : HandlerOk provider user_id s x)
    (hk : MappingSystem.Kept s.mapping s'.mapping)
    (hb : ∀ info, Fresh s.binds x.start info → Fresh s'.binds x.start info) :
    HandlerOk provider user_id s' x := by
  unfold HandlerOk at *
  split at h
  · obtain ⟨y, p, hy, hs, hp, hkey⟩ := h
    obtain ⟨y', hy', hkey', hs', -⟩ := hk.identity _ y hy
    exact ⟨y', p, hy', hs' ▸ hs, hp, hkey'.trans hkey⟩
  · obtain ⟨y, e, p, hy, hs, hp, hkey⟩ := h
    obtain ⟨y', hy', hkey', hs', -⟩ := hk.external _ y hy
    exact ⟨y', e, p, hy', hs' ▸ hs, hp, hkey'.trans hkey⟩
  · exact hb _ h
  · trivial

/-- A lookup moves on. -/
theorem Inv.read (h : Inv F k provider user_id s)
    (hs : MappingSystem.step F k ttl s.mapping act = some m) (ha : ∀ a, act ≠ .bind a) :
    Inv F k provider user_id { s with mapping := m } := by
  obtain ⟨hpast, hcur⟩ := mapping_reads hs ha
  have hhist : m.history = s.mapping.history := by
    rw [MappingSystem.history, hpast, hcur]
    rfl
  refine ⟨MappingSystem.step_inv h.mapping hs, ?_, ?_, ?_, ?_, fun i x hx => ?_, h.pool⟩
  · exact hcur ▸ h.canonical
  · exact hhist ▸ h.ledger
  · exact hpast ▸ h.committed
  · exact hpast ▸ h.started
  · exact (h.handler i x hx).kept (MappingSystem.step_kept hs) fun _ hf => hf

theorem Fresh.commit {x : Handler} (h : Fresh s.binds x.start info)
    (hs : x.start < m.past.length) : Fresh (s.commit provider user_id a m).binds x.start info := by
  rw [commit_binds]
  split
  · exact h.append hs
  · exact h

theorem Inv.commit (hF : F.Inverse) (h : Inv F k provider user_id s)
    (hs : MappingSystem.step F k ttl s.mapping (.bind a) = some m)
    (hplain : concerns provider user_id a → a.credentials.Plain) :
    Inv F k provider user_id (s.commit provider user_id a m) := by
  obtain ⟨hb, hlen, hhist⟩ := mapping_bind hs
  have hnum : s.mapping.history.length = m.past.length := by
    rw [hlen, MappingSystem.history, List.length_append, List.length_singleton]
  have hbefore : ∀ i x, s.handlers i = some x → x.start < m.past.length := by
    intro i x hx
    have := h.started i x hx
    omega
  have hold : ∀ b ∈ s.binds, b.1 + 1 ≤ m.past.length := by
    intro b hbm
    have := h.committed b hbm
    omega
  refine ⟨MappingSystem.step_inv h.mapping hs, bind_canonical h.canonical hb, ?_, ?_, ?_, ?_,
    fun r => ?_⟩
  · have hl := h.ledger.commit hF h.canonical s.mapping.history_getLast?
      (hnum.symm ▸ hold) hplain hb
    rw [hnum] at hl
    rw [commit_mapping, hhist, commit_binds]
    exact hl
  · intro b hbm
    rw [commit_binds] at hbm
    rw [commit_mapping]
    split at hbm
    · rcases List.mem_append.mp hbm with hbm | hbm
      · exact Nat.le_of_succ_le (hold b hbm)
      · rw [List.mem_singleton.mp hbm]
    · exact Nat.le_of_succ_le (hold b hbm)
  · exact fun i x hx => Nat.le_of_lt (hbefore i x hx)
  · exact fun i x hx => (h.handler i x hx).kept (MappingSystem.step_kept hs) fun _ hf =>
      hf.commit (hbefore i x hx)
  · apply (h.pool r).mono
    rintro t info ⟨x, hx, hr, hf⟩
    exact ⟨x, hx, hr, hf.commit (hbefore t x hx)⟩

/-- A handler that begins or goes on; its replica and its start never change. -/
theorem Inv.handle (h : Inv F k provider user_id s) {x : Handler}
    (hold : ∀ y, s.handlers i = some y → y.replica = x.replica ∧ y.start = x.start)
    (hstart : x.start ≤ s.mapping.past.length) (hok : HandlerOk provider user_id s x) :
    Inv F k provider user_id { s with handlers := Function.update s.handlers i (some x) } := by
  refine ⟨h.mapping, h.canonical, h.ledger, h.committed, ?_, ?_, fun r => ?_⟩
  · exact forall_update_some h.started hstart
  · exact forall_update_some h.handler hok
  · apply (h.pool r).mono
    rintro t info ⟨y, hy, hr, hf⟩
    by_cases ht : t = i
    · subst ht
      obtain ⟨hrep, hst⟩ := hold y hy
      exact ⟨x, Function.update_self .., hrep ▸ hr, hst ▸ hf⟩
    · exact ⟨y, (Function.update_of_ne ht ..).trans hy, hr, hf⟩

theorem Inv.set_phase (h : Inv F k provider user_id s) (hx : s.handlers i = some x)
    (hok : HandlerOk provider user_id s { x with phase := p }) :
    Inv F k provider user_id (s.set_phase i x p) := by
  refine h.handle ?_ (h.started i x hx) hok
  intro y hy
  cases hx.symm.trans hy
  exact ⟨rfl, rfl⟩

/-- The pool of one replica takes a step. -/
theorem Inv.pool_step (h : Inv F k provider user_id s) (hc : Current provider user_id s act)
    (hra : s.pool_act act = some (r, a))
    (hsend : ∀ t key info, a = .send_message t key info → s.Allowed r t info)
    (hs : (s.pools r).step a = some p) :
    Inv F k provider user_id { s with pools := Function.update s.pools r p } := by
  refine ⟨h.mapping, h.canonical, h.ledger, h.committed, h.started, h.handler, fun q => ?_⟩
  by_cases hq : q = r
  · subst hq
    dsimp only
    rw [Function.update_self]
    refine Pool.step_routed (h.pool q) hsend ?_ hs
    intro t c hre o ho
    obtain ⟨x, hx, hr⟩ : ∃ x, s.handlers t = some x ∧ x.replica = q := by
      rcases (h.pool q).entering hs (Pool.reuses_entering hre) with ⟨key, info, ha⟩ | ⟨info, hg⟩
      · obtain ⟨x, hx, hr, -⟩ := hsend t key info ha
        exact ⟨x, hx, hr⟩
      · obtain ⟨x, hx, hr, -⟩ := hg
        exact ⟨x, hx, hr⟩
    exact ⟨x, hx, hr, hc.reused _ hra _ hre o ho x hx⟩
  · dsimp only
    rw [Function.update_of_ne hq]
    exact h.pool q

theorem opened_identity {m m' : MappingSystem}
    (hs : MappingSystem.step F k ttl m (.open_identity i r provider v) = some m') :
    ∃ p, validate_provider provider = .ok p ∧
      m'.identity_sessions i = some ⟨r, (p, v), m.past.length, .opened⟩ := by
  cases MappingSystem.steps_of_step hs with
  | open_identity hn hp => exact ⟨_, hp, Function.update_self ..⟩

theorem opened_external {m m' : MappingSystem}
    (hs : MappingSystem.step F k ttl m (.open_external i r e provider) = some m') :
    ∃ p, validate_provider provider = .ok p ∧
      m'.external_sessions i = some ⟨r, (e, p), m.past.length, .opened⟩ := by
  cases MappingSystem.steps_of_step hs with
  | open_external hn hp => exact ⟨_, hp, Function.update_self ..⟩

/-- What a lookup of the identity answers is no older than the commit it began at. -/
theorem Inv.identity_fresh (h : Inv F k provider user_id s)
    (hy : s.mapping.identity_sessions i = some y) (hs : start ≤ y.start)
    (hp : validate_provider provider = .ok p) (hkey : y.key = (p, user_id))
    (hd : y.phase = .done (.ok info)) : Fresh s.binds start info := by
  obtain ⟨n, db, hn, hdb, hres⟩ := h.mapping.identity_done hy hd
  apply h.ledger.fresh hdb (Nat.le_trans hs hn)
  intro q found hq hbound
  cases hp.symm.trans hq
  rw [hkey, hbound.lookup db.valid] at hres
  exact (Except.ok.inj hres).symm

theorem Inv.external_fresh (h : Inv F k provider user_id s)
    (hy : s.mapping.external_sessions i = some y) (hs : start ≤ y.start)
    (hp : validate_provider provider = .ok p) (hkey : y.key = (e, p))
    (hd : y.phase = .done (.ok (user_id, info))) : Fresh s.binds start info := by
  obtain ⟨n, db, hn, hdb, hres⟩ := h.mapping.external_done hy hd
  apply h.ledger.fresh hdb (Nat.le_trans hs hn)
  intro q found hq hbound
  cases hp.symm.trans hq
  rw [hkey] at hres
  exact (hbound.lookup_external db.valid hres.symm).symm

/-- The lookup of a handler ends. -/
theorem Inv.outcome (h : Inv F k provider user_id s) (hx : s.handlers i = some x)
    (ho : s.outcome auto user_id x = some p) :
    HandlerOk provider user_id s { x with phase := p } := by
  have hok := h.handler i x hx
  rw [HandlerOk] at hok
  rw [Cluster.outcome] at ho
  split at ho
  · rename_i j hphase
    rw [hphase] at hok
    obtain ⟨y, q, hy, hs, hq, hkey⟩ := hok
    rw [hy] at ho
    split at ho
    · rename_i he
      cases he
      cases ho
      exact h.identity_fresh hy hs hq hkey rfl
    · cases ho
      split <;> trivial
    · cases ho
      trivial
    · cases ho
  · rename_i j hphase
    rw [hphase] at hok
    obtain ⟨y, e, q, hy, hs, hq, hkey⟩ := hok
    rw [hy] at ho
    split at ho
    · rename_i he
      cases he
      cases ho
      split
      · rename_i hv
        subst hv
        exact h.external_fresh hy hs hq hkey rfl
      · trivial
    · cases ho
      trivial
    · cases ho
  · cases ho

theorem inv_initial (h : Initial s) : Inv F k provider user_id s := by
  obtain ⟨hm, hc, hp, hh, hb⟩ := h
  refine ⟨MappingSystem.inv_initial hm, hc, ?_, ?_, ?_, ?_, fun r => ?_⟩
  · intro n db _ b hbm
    rw [hb] at hbm
    cases hbm
  · intro b hbm
    rw [hb] at hbm
    cases hbm
  · intro i x hx
    rw [hh] at hx
    cases hx
  · intro i x hx
    rw [hh] at hx
    cases hx
  · rw [hp]
    exact ⟨⟨rfl, fun _ _ => rfl⟩, fun _ => trivial, fun _ hf => by cases hf⟩

theorem Inv.start_event (h : Inv F k provider user_id s) (hn : s.handlers i = none) :
    Inv F k provider user_id { s with
      handlers := Function.update s.handlers i (some ⟨r, s.mapping.past.length, .started⟩) } := by
  refine h.handle ?_ (Nat.le_refl _) trivial
  intro y hy
  rw [hn] at hy
  cases hy

theorem Inv.start_trigger (h : Inv F k provider user_id s) (hn : s.handlers i = none)
    (hs : MappingSystem.step F k ttl s.mapping (.open_external j r e provider) = some m) :
    Inv F k provider user_id { s with
      mapping := m
      handlers := Function.update s.handlers i
        (some ⟨r, s.mapping.past.length, .triggered j⟩) } := by
  obtain ⟨p, hp, hopen⟩ := opened_external hs
  have hpast := (mapping_reads hs fun _ he => by cases he).1
  refine (h.read hs fun _ he => by cases he).handle ?_ (Nat.le_of_eq (hpast ▸ rfl)) ?_
  · intro y hy
    cases hn.symm.trans hy
  · exact ⟨_, e, p, hopen, Nat.le_refl _, hp, rfl⟩

/-- `handle_event` finds no cached info and looks the identity up. -/
theorem Inv.look (h : Inv F k provider user_id s) (hx : s.handlers i = some x)
    (hs : MappingSystem.step F k ttl s.mapping (.open_identity j r provider user_id) = some m) :
    Inv F k provider user_id ({ s with mapping := m }.set_phase i x (.looking j)) := by
  obtain ⟨p, hp, hopen⟩ := opened_identity hs
  refine (h.read hs fun _ he => by cases he).set_phase hx ?_
  exact ⟨_, p, hopen, h.started i x hx, hp, rfl⟩

/-- The bind that provisions the user is as new as anything before its message. -/
theorem Inv.provision (hF : F.Inverse) (h : Inv F k provider user_id s)
    (hx : s.handlers i = some x)
    (hs : MappingSystem.step F k ttl s.mapping (.bind a) = some m)
    (ha : a.provider = provider ∧ a.provider_user_id = user_id) (hplain : a.credentials.Plain) :
    Inv F k provider user_id ((s.commit provider user_id a m).set_phase i x (.ready a.info)) := by
  have hi := h.commit hF hs fun _ => hplain
  apply hi.set_phase hx
  have hcon : concerns provider user_id a := ⟨by rw [ha.1], ha.2⟩
  intro b hb _
  refine ⟨(m.past.length, a.info), ?_, hi.committed b hb, rfl⟩
  rw [commit_binds, if_pos hcon]
  exact List.mem_append_right _ (List.mem_singleton_self _)

theorem Inv.send (h : Inv F k provider user_id s)
    (hc : Current provider user_id s (.send i key))
    (hx : s.handlers i = some ⟨r, start, .ready info⟩)
    (hs : (s.pools r).step (.send_message i key info) = some p) :
    Inv F k provider user_id
      ({ s with pools := Function.update s.pools r p }.set_phase i ⟨r, start, .ready info⟩
        .sent) := by
  refine Inv.set_phase (h.pool_step hc ?_ ?_ hs) hx trivial
  · simp only [pool_act, hx]
  · rintro _ _ _ ⟨⟩
    exact ⟨_, hx, rfl, h.handler i _ hx⟩

theorem step_inv (hF : F.Inverse) (h : Inv F k provider user_id s)
    (hc : Current provider user_id s act)
    (hs : step F k ttl auto provider user_id s act = some s') : Inv F k provider user_id s' := by
  cases steps_of_step hs with
  | @bind a m hm => exact h.commit hF hm (hc.plain a rfl)
  | mapping hm ha => exact h.read hm ha
  | start_event hx => exact h.start_event hx
  | start_trigger hx hm => exact h.start_trigger hx hm
  | @cached i r start info j hx hinfo => exact h.set_phase hx (hc.cached i rfl _ hx info hinfo)
  | looks hx hm => exact h.look hx hm
  | resolved hx hp => exact h.set_phase hx (h.outcome hx hp)
  | @provision i r start a m hx ha hm =>
    exact h.provision hF hx hm ha (hc.plain a rfl ⟨by rw [ha.1], ha.2⟩)
  | send hx hp => exact h.send hc hx hp
  | @pool r a p hp ha =>
    refine h.pool_step hc ?_ (fun t key info he => absurd he (ha t key info)) hp
    cases a with
    | send_message t key info => exact absurd rfl (ha t key info)
    | _ => rfl

/-- Every message goes to the instance that its user was bound to when it began, or later. -/
theorem routing_follows_binding (hF : F.Inverse)
    (h : Reach (step F k ttl auto provider user_id) (Current provider user_id) Initial s) :
    s.FollowsBinding := by
  have hi : Inv F k provider user_id s :=
    h.invariant (fun _ => inv_initial) fun _ _ _ hi hc hs => step_inv hF hi hc hs
  intro r f hf
  exact (hi.pool r).frames f hf

/-- The first message of a user who has just been bound. -/
def first : List Act :=
  .mapping (.bind MappingSystem.binding) :: .start_event 0 0 :: .cached 0 0 ::
    (MappingSystem.lookup 0 1).map .mapping ++
  [.resolved 0, .send 0 "k", .pool 0 (.connected 0 1 true), .pool 0 (.emit 0),
    .pool 0 (.answered 0)]

/-- The next message, over the same connection. -/
def second : List Act :=
  [.start_event 2 0, .cached 2 1, .send 2 "m", .pool 0 (.emit 2)]

def quiet : Cluster := { mapping := MappingSystem.fresh }

theorem quiet_initial : Initial quiet :=
  ⟨MappingSystem.fresh_initial, fun _ h => (by cases h), fun _ => rfl, fun _ => rfl, rfl⟩

instance (s : Cluster) (act : Act) : Decidable (Current provider user_id s act) :=
  decidable_of_iff ((∀ h ∈ act.reads_cache, ∀ x ∈ s.handlers h,
      ∀ info ∈ (s.pools x.replica).user_info, Fresh s.binds x.start info) ∧
    (∀ ra ∈ s.pool_act act, ∀ tc ∈ (s.pools ra.1).reuses ra.2,
      ∀ o ∈ (s.pools ra.1).objects tc.2, ∀ x ∈ s.handlers tc.1, Fresh s.binds x.start o.info) ∧
    ∀ a ∈ act.bound, concerns provider user_id a → a.credentials.Plain)
    ⟨fun h => ⟨h.1, h.2.1, h.2.2⟩, fun h => ⟨h.cached, h.reused, h.plain⟩⟩

theorem routing_follows_binding_second : ∃ s,
    exec (step Fernet.clear "" 300 false "telegram" "7") quiet (first ++ second) = some s ∧
      (s.pools 0).frames.map (·.info) = [MappingSystem.binding.info, MappingSystem.binding.info] ∧
      s.FollowsBinding := by
  have h : ((exec (step Fernet.clear "" 300 false "telegram" "7") quiet
      (first ++ second)).any fun s =>
      (s.pools 0).frames.map (·.info) =
        [MappingSystem.binding.info, MappingSystem.binding.info]) = true := by decide
  obtain ⟨s, hs, hf⟩ := (Option.any_eq_true _ _).mp h
  have hm : Meets (step Fernet.clear "" 300 false "telegram" "7") (Current "telegram" "7") quiet
      (first ++ second) := by decide
  exact ⟨s, hs, of_decide_eq_true hf,
    routing_follows_binding Fernet.clear_inverse ((Reach.start quiet_initial).exec hm hs)⟩

/-- The user moves to another instance, and the old one goes to somebody else. -/
def moved : List Act :=
  [.mapping (.bind { MappingSystem.binding with instance_uuid := "b", instance_url := "ws://b" }),
    .mapping (.bind { MappingSystem.binding with provider_user_id := "8" })]

theorem not_routing_follows_binding : ∃ s,
    Reach (step Fernet.clear "" 300 false "telegram" "7") Any Initial s ∧ ¬ s.FollowsBinding := by
  have h : ((exec (step Fernet.clear "" 300 false "telegram" "7") quiet
      (first ++ moved ++ second)).any fun s =>
        (∃ x ∈ s.handlers 2, ¬ Fresh s.binds x.start MappingSystem.binding.info) ∧
          ⟨2, "m", MappingSystem.binding.info⟩ ∈ (s.pools 0).frames) = true := by decide
  obtain ⟨s, hs, hf⟩ := (Option.any_eq_true _ _).mp h
  obtain ⟨⟨x, hx, hstale⟩, hm⟩ := of_decide_eq_true hf
  refine ⟨s, reach_of_exec quiet_initial hs, fun hfollows => ?_⟩
  obtain ⟨y, hy, -, hfresh⟩ := hfollows 0 _ hm
  cases hx.symm.trans hy
  exact hstale hfresh

end Cluster

end ClawMux
