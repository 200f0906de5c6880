import ClawMux.Router.Cluster
import ClawMux.Services.WsInfos

namespace ClawMux
set_option autoImplicit true
open Lib

/-- The orchestrator has been asked, or the transaction of `bind_user_instance` goes on, where
`found` tells which of its rows the queries so far have found. -/
inductive Progress
  | requested
  | binding (a : BindArgs) (found : List Bool)

/-- The rows that `bind_user_instance` looks for, in its order. -/
def BindArgs.rows (provider : String) (a : BindArgs) : List (Tables → Bool) :=
  let app_user_id := app_user_id provider a.provider_user_id
  [fun t => t.instances.any (·.instance_uuid = a.instance_uuid),
    fun t => t.app_users.any (·.id = app_user_id),
    fun t => t.user_identities.any fun d => d.user_id = app_user_id ∧ d.provider = provider,
    fun t => t.user_instances.any (·.user_id = app_user_id)]

/-- The transaction inserts a row that somebody else has committed since it looked for it. -/
def conflicts (t : Tables) (rows : List (Tables → Bool)) (found : List Bool) : Bool :=
  (rows.zip found).any fun x => !x.2 && x.1 t

/-- The `handle_event` calls of one unmapped identity, with auto-provisioning; `raised` are those
whose own provisioning raised. -/
structure Provisioning where
  cluster : Cluster
  progress : Nat → Option Progress := fun _ => none
  answers : List String := []
  raised : List Nat := []

namespace Provisioning

variable (F : Fernet) (credential_encryption_key : String) (mapping_cache_ttl_sec : Int)
  (provider user_id : String)

/-- Besides provisioning, the handlers do nothing but look up and send. -/
def handles : Cluster.Act → Bool
  | .mapping (.bind _) | .start_trigger .. | .provision .. => false
  | .pool _ a => a.given.isNone
  | _ => true

inductive Act
  | run (a : Cluster.Act)
  | request (h : Nat)
  | answered (h : Nat) (a : BindArgs)
  | failed (h : Nat)
  | selects (h : Nat)
  | committed (h : Nat)

/-- The webhook returns a uuid that it has never returned before. -/
def answers_with (s : Provisioning) (a : BindArgs) : Prop :=
  a.provider = provider ∧ a.provider_user_id = user_id ∧ a.external_user_id = none ∧
    a.instance_uuid ∉ s.answers ∧
    ∀ i ∈ s.cluster.mapping.current.instances, i.instance_uuid ≠ a.instance_uuid

instance (s : Provisioning) (a : BindArgs) : Decidable (s.answers_with provider user_id a) :=
  inferInstanceAs (Decidable (_ ∧ _))

/-- `auto_provisioning_failed` -/
def give_up (s : Provisioning) (h : Nat) (x : Handler) : Provisioning :=
  { s with
    cluster := s.cluster.set_phase h x .ended
    progress := Function.update s.progress h none }

def step (s : Provisioning) (act : Act) : Option Provisioning :=
  let step_cluster :=
    Cluster.step F credential_encryption_key mapping_cache_ttl_sec true provider user_id s.cluster
  match act with
  | .run a => if handles a then (step_cluster a).map fun c => { s with cluster := c } else none
  | .request h =>
    match s.cluster.handlers h, s.progress h with
    | some ⟨_, _, .provisioning⟩, none =>
      some { s with progress := Function.update s.progress h (some .requested) }
    | _, _ => none
  | .answered h a =>
    match s.progress h with
    | some .requested =>
      if s.answers_with provider user_id a then
        some { s with
          progress := Function.update s.progress h (some (.binding a []))
          answers := a.instance_uuid :: s.answers }
      else none
    | _ => none
  | .failed h =>
    match s.cluster.handlers h with
    | some ⟨r, start, .provisioning⟩ =>
      some { s.give_up h ⟨r, start, .provisioning⟩ with raised := h :: s.raised }
    | _ => none
  | .selects h =>
    match s.progress h, validate_provider provider with
    | some (.binding a found), .ok p =>
      (a.rows p)[found.length]?.map fun row =>
        let found := found ++ [row s.cluster.mapping.current.toTables]
        { s with progress := Function.update s.progress h (some (.binding a found)) }
    | _, _ => none
  | .committed h =>
    match s.progress h, validate_provider provider, s.cluster.handlers h with
    | some (.binding a found), .ok p, some x =>
      if found.length = (a.rows p).length then
        if conflicts s.cluster.mapping.current.toTables (a.rows p) found then some (s.give_up h x)
        else
          match step_cluster (.provision h a) with
          | some c => some { s with cluster := c, progress := Function.update s.progress h none }
          | none => some { s.give_up h x with raised := h :: s.raised }
      else none
    | _, _, _ => none

/-- The lookup of the identity finds nothing. -/
def Unmapped (db : Db) : Prop :=
  ∀ p, validate_provider provider = .ok p → db.instance_by_identity F credential_encryption_key
    (p, user_id) = .error (.instanceNotFound (p ++ ":" ++ user_id))

def Initial (s : Provisioning) : Prop :=
  s.cluster.Initial ∧
    Unmapped F credential_encryption_key provider user_id s.cluster.mapping.current ∧
    (∀ h, s.progress h = none) ∧ s.answers = [] ∧ s.raised = []

/-- A lookup that misses does so while no other handler provisions the user and before one has;
and what the webhook returns has no secret in stored form. -/
def Alone (s : Provisioning) : Act → Prop
  | .run (.resolved h) => ∀ x, s.cluster.handlers h = some x →
    s.cluster.outcome true user_id x = some .provisioning →
    s.cluster.binds = [] ∧ ∀ g y, s.cluster.handlers g = some y → y.phase ≠ .provisioning
  | .answered _ a => a.credentials.Plain
  | _ => True

/-- One instance is bound at most, a handler fails only when its own provisioning raises, and every
message goes to the instance that the database assigns to the user. -/
structure OneInstance (s : Provisioning) : Prop where
  bound : s.cluster.binds.length ≤ 1
  failures : ∀ h x, s.cluster.handlers h = some x → x.phase = .ended → h ∈ s.raised
  recorded : ∀ r, ∀ f ∈ (s.cluster.pools r).frames, ∃ p, validate_provider provider = .ok p ∧
    s.cluster.mapping.current.Bound F credential_encryption_key p user_id f.info

end Provisioning

namespace Cluster

variable {F : Fernet} {k provider user_id : String} {ttl : Int} {s s' : Cluster} {raised : List Nat}

def Recorded (s : Cluster) (info : InstanceInfo) : Prop := ∃ b ∈ s.binds, b.2 = info

/-- Nothing is bound, or one instance is, and then nobody else has another or asks for one. -/
structure Sole (F : Fernet) (k provider user_id : String) (raised : List Nat) (s : Cluster) :
    Prop where
  fresh : s.binds = [] →
    s.mapping.past = [] ∧ Provisioning.Unmapped F k provider user_id s.mapping.current
  bound : ∀ b ∈ s.binds, s.binds = [b] ∧
    (∃ db, s.mapping.past = [db] ∧ Provisioning.Unmapped F k provider user_id db) ∧
    ∃ p, validate_provider provider = .ok p ∧ s.mapping.current.Bound F k p user_id b.2
  ready : ∀ i x info, s.handlers i = some x → x.phase = .ready info → s.Recorded info
  within : ∀ r, (s.pools r).Within s.Recorded
  early : ∀ i x, s.handlers i = some x → x.phase = .provisioning → s.binds = []
  alone : ∀ i j x y, s.handlers i = some x → x.phase = .provisioning → s.handlers j = some y →
    y.phase = .provisioning → i = j
  events : ∀ i x j, s.handlers i = some x → x.phase ≠ .triggered j
  ended : ∀ i x, s.handlers i = some x → x.phase = .ended → i ∈ raised

theorem Sole.fresh_binds (h : s.Sole F k provider user_id raised) (hr : s.Recorded info)
    (start : Nat) : Fresh s.binds start info := by
  obtain ⟨b, hb, rfl⟩ := hr
  intro b' hb' _
  rw [(h.bound b hb).1, List.mem_singleton] at hb'
  exact ⟨b, hb, hb' ▸ Nat.le_refl _, rfl⟩

/-- A lookup that ends has missed, or has found the instance that is bound. -/
theorem Sole.answer (h : s.Sole F k provider user_id raised) {n : Nat} {db : Db} {p : String}
    (hdb : s.mapping.history[n]? = some db) (hp : validate_provider provider = .ok p) :
    db.instance_by_identity F k (p, user_id) = .error (.instanceNotFound (p ++ ":" ++ user_id)) ∨
      ∃ info, s.Recorded info ∧ db.instance_by_identity F k (p, user_id) = .ok info := by
  have hmem : db ∈ s.mapping.past ++ [s.mapping.current] := List.mem_of_getElem? hdb
  by_cases hb : s.binds = []
  · obtain ⟨hpast, hun⟩ := h.fresh hb
    rw [hpast, List.nil_append, List.mem_singleton] at hmem
    exact .inl (hmem ▸ hun p hp)
  · obtain ⟨b, hb⟩ := List.exists_mem_of_ne_nil _ hb
    obtain ⟨-, ⟨db₀, hpast, hun⟩, q, hq, hbound⟩ := h.bound b hb
    rw [hpast, List.mem_append, List.mem_singleton, List.mem_singleton] at hmem
    rcases hmem with rfl | rfl
    · exact .inl (hun p hp)
    · cases hp.symm.trans hq
      exact .inr ⟨b.2, ⟨b, hb, rfl⟩, hbound.lookup s.mapping.current.valid⟩

theorem Sole.outcome (h : s.Sole F k provider user_id raised) (hi : Inv F k provider user_id s)
    (hx : s.handlers i = some x) (ho : s.outcome true user_id x = some p) :
    p = .provisioning ∨ ∃ info, p = .ready info ∧ s.Recorded info := by
  have hok := hi.handler i x hx
  rw [HandlerOk] at hok
  rw [Cluster.outcome] at ho
  split at ho
  · rename_i j hphase
    rw [hphase] at hok
    obtain ⟨y, q, hy, -, hq, hkey⟩ := hok
    have hdone : ∀ res, y.phase = .done res →
        res = .error (.instanceNotFound (q ++ ":" ++ user_id)) ∨
          ∃ info, s.Recorded info ∧ res = .ok info := by
      intro res hd
      obtain ⟨n, db, -, hdb, hres⟩ := hi.mapping.identity_done hy hd
      rw [hkey] at hres
      rw [hres]
      exact h.answer hdb hq
    rw [hy] at ho
    split at ho
    · rename_i info he
      cases he
      cases ho
      rcases hdone _ rfl with hd | ⟨found, hr, hd⟩
      · cases hd
      · cases hd
        exact .inr ⟨_, rfl, hr⟩
    · cases ho
      exact .inl rfl
    · rename_i e hno he
      cases he
      rcases hdone _ rfl with hd | ⟨found, hr, hd⟩
      · cases hd
        exact (hno _ rfl).elim
      · cases hd
    · cases ho
  · rename_i j hphase
    exact absurd hphase (h.events i x j hx)
  · cases ho

theorem Sole.read (h : s.Sole F k provider user_id raised) (hpast : m.past = s.mapping.past)
    (hcur : m.current = s.mapping.current) :
    Sole F k provider user_id raised { s with mapping := m } := by
  refine ⟨?_, ?_, h.ready, h.within, h.early, h.alone, h.events, h.ended⟩
  · exact fun hb => ⟨hpast.trans (h.fresh hb).1, hcur ▸ (h.fresh hb).2⟩
  · intro b hb
    rw [hpast, hcur]
    exact h.bound b hb

theorem Sole.handle (h : s.Sole F k provider user_id raised) {x : Handler} (i : Nat)
    (hready : ∀ info, x.phase = .ready info → s.Recorded info)
    (hprov : x.phase = .provisioning → s.binds = [] ∧
      ∀ j y, s.handlers j = some y → y.phase ≠ .provisioning)
    (hevent : ∀ j, x.phase ≠ .triggered j) (hended : x.phase = .ended → i ∈ raised) :
    Sole F k provider user_id raised
      { s with handlers := Function.update s.handlers i (some x) } := by
  have hcases : ∀ {j y}, Function.update s.handlers i (some x) j = some y →
      j = i ∧ y = x ∨ s.handlers j = some y := by
    intro j y hy
    by_cases hj : j = i
    · subst hj
      rw [Function.update_self] at hy
      cases hy
      exact .inl ⟨rfl, rfl⟩
    · rw [Function.update_of_ne hj] at hy
      exact .inr hy
  refine ⟨h.fresh, h.bound, ?_, h.within, ?_, ?_, ?_, ?_⟩
  · intro j y info hy hp
    rcases hcases hy with ⟨-, rfl⟩ | hy
    · exact hready info hp
    · exact h.ready j y info hy hp
  · intro j y hy hp
    rcases hcases hy with ⟨-, rfl⟩ | hy
    · exact (hprov hp).1
    · exact h.early j y hy hp
  · intro j₁ j₂ y₁ y₂ hy₁ hp₁ hy₂ hp₂
    rcases hcases hy₁ with ⟨rfl, rfl⟩ | ho₁
    · rcases hcases hy₂ with ⟨rfl, -⟩ | ho₂
      · rfl
      · exact absurd hp₂ ((hprov hp₁).2 j₂ y₂ ho₂)
    · rcases hcases hy₂ with ⟨-, rfl⟩ | ho₂
      · exact absurd hp₁ ((hprov hp₂).2 j₁ y₁ ho₁)
      · exact h.alone j₁ j₂ y₁ y₂ ho₁ hp₁ ho₂ hp₂
  · intro j y t hy
    rcases hcases hy with ⟨-, rfl⟩ | hy
    · exact hevent t
    · exact h.events j y t hy
  · intro j y hy hp
    rcases hcases hy with ⟨rfl, rfl⟩ | hy
    · exact hended hp
    · exact h.ended j y hy hp

theorem Sole.set_pool (h : s.Sole F k provider user_id raised) (r : Nat)
    (hp : p.Within s.Recorded) :
    Sole F k provider user_id raised { s with pools := Function.update s.pools r p } :=
  ⟨h.fresh, h.bound, h.ready, forall_update h.within hp, h.early, h.alone, h.events, h.ended⟩

theorem Sole.raise (h : s.Sole F k provider user_id raised) (i : Nat) :
    s.Sole F k provider user_id (i :: raised) :=
  ⟨h.fresh, h.bound, h.ready, h.within, h.early, h.alone, h.events,
    fun j y hy hp => List.mem_cons_of_mem _ (h.ended j y hy hp)⟩

/-- Where one instance is bound at most, nothing older is ever used. -/
theorem Sole.current (h : s.Sole F k provider user_id raised)
    (hplain : ∀ a ∈ act.bound, a.credentials.Plain) : Current provider user_id s act := by
  refine ⟨?_, ?_, fun a ha _ => hplain a ha⟩
  · intro _ _ x _ info hinfo
    exact h.fresh_binds ((h.within x.replica).user_info info hinfo) x.start
  · intro ra _ tc _ o ho x _
    exact h.fresh_binds ((h.within ra.1).objects tc.2 o ho) x.start

theorem Sole.run (h : s.Sole F k provider user_id raised) (hi : Inv F k provider user_id s)
    (ha : Provisioning.handles act = true)
    (hc : ∀ i x, act = .resolved i → s.handlers i = some x →
      s.outcome true user_id x = some .provisioning →
      s.binds = [] ∧ ∀ j y, s.handlers j = some y → y.phase ≠ .provisioning)
    (hs : step F k ttl true provider user_id s act = some s') :
    s'.Sole F k provider user_id raised := by
  cases steps_of_step hs with
  | bind | start_trigger | provision => cases ha
  | mapping hm hb =>
    obtain ⟨hpast, hcur⟩ := mapping_reads hm hb
    exact h.read hpast hcur
  | start_event hx =>
    exact h.handle _ (fun _ hp => by cases hp) (fun hp => by cases hp) (fun _ hp => by cases hp)
      fun hp => by cases hp
  | @cached i r start info j hx hinfo =>
    refine h.handle i (fun found hp => ?_) (fun hp => by cases hp) (fun _ hp => by cases hp)
      fun hp => by cases hp
    cases hp
    exact (h.within r).user_info info hinfo
  | @looks i r start j m hx hm =>
    obtain ⟨hpast, hcur⟩ := mapping_reads hm fun _ he => by cases he
    exact (h.read hpast hcur).handle i (fun _ hp => by cases hp) (fun hp => by cases hp)
      (fun _ hp => by cases hp) fun hp => by cases hp
  | @resolved i x p hx hp =>
    rcases h.outcome hi hx hp with rfl | ⟨info, rfl, hr⟩
    · exact h.handle i (fun _ hp => by cases hp) (fun _ => hc i x rfl hx hp)
        (fun _ hp => by cases hp) fun hp => by cases hp
    · refine h.handle i (fun found hp => ?_) (fun hp => by cases hp) (fun _ hp => by cases hp)
        fun hp => by cases hp
      cases hp
      exact hr
  | @send i r start info key p hx hp =>
    have hwithin : p.Within s.Recorded := by
      apply Pool.step_within (h.within r) _ hp
      rintro found ⟨⟩
      exact h.ready i _ _ hx rfl
    exact (h.set_pool r hwithin).handle i (fun _ hp => by cases hp) (fun hp => by cases hp)
      (fun _ hp => by cases hp) fun hp => by cases hp
  | @pool r a p hp hno =>
    have hnone : a.given = none := by
      rw [Provisioning.handles, Option.isNone_iff_eq_none] at ha
      exact ha
    refine h.set_pool r (Pool.step_within (h.within r) ?_ hp)
    rw [hnone]
    exact fun _ he => by cases he

/-- What handlers do does not change the database or the handlers that provision. -/
theorem run_frame (ha : Provisioning.handles act = true)
    (hs : step F k ttl true provider user_id s act = some s') :
    s'.mapping.current = s.mapping.current ∧
      ∀ i x, s.handlers i = some x → x.phase = .provisioning → s'.handlers i = some x := by
  have hother : ∀ {i : Nat} {y : Option Handler},
      (∀ x, s.handlers i = some x → x.phase ≠ .provisioning) →
      ∀ j x, s.handlers j = some x → x.phase = .provisioning →
        Function.update s.handlers i y j = some x := by
    intro i y hi j x hx hp
    have hj : j ≠ i := by
      rintro rfl
      exact hi x hx hp
    rw [Function.update_of_ne hj]
    exact hx
  have hphase : ∀ {i : Nat} {y : Handler}, s.handlers i = some y → y.phase ≠ .provisioning →
      ∀ x, s.handlers i = some x → x.phase ≠ .provisioning := by
    intro i y hy hne x hx
    cases hy.symm.trans hx
    exact hne
  cases steps_of_step hs with
  | bind | start_trigger | provision => cases ha
  | mapping hm hb => exact ⟨(mapping_reads hm hb).2, fun _ _ hx _ => hx⟩
  | start_event hn =>
    refine ⟨rfl, hother fun x hx => ?_⟩
    rw [hn] at hx
    cases hx
  | cached hx hinfo => exact ⟨rfl, hother (hphase hx fun hp => by cases hp)⟩
  | looks hx hm =>
    exact ⟨(mapping_reads hm fun _ he => by cases he).2,
      hother (hphase hx fun hp => by cases hp)⟩
  | resolved hx hp =>
    refine ⟨rfl, hother (hphase hx fun he => ?_)⟩
    rw [outcome, he] at hp
    cases hp
  | send hx hp => exact ⟨rfl, hother (hphase hx fun he => by cases he)⟩
  | pool hp hno => exact ⟨rfl, fun _ _ hx _ => hx⟩

/-- The one handler that provisions the user goes on with the instance that is bound. -/
theorem Sole.first (h : s.Sole F k provider user_id raised) (hx : s.handlers i = some x)
    (hphase : x.phase = .provisioning) (hpast : m.past = [s.mapping.current])
    (hp : validate_provider provider = .ok p) (hbound : m.current.Bound F k p user_id b.2) :
    Sole F k provider user_id raised
      (set_phase { s with mapping := m, binds := [b] } i x (.ready b.2)) := by
  have hbinds := h.early i x hx hphase
  have hnone : ∀ info, ¬ s.Recorded info := by
    rintro info ⟨b, hb, -⟩
    rw [hbinds] at hb
    cases hb
  have hcases : ∀ {j y}, Function.update s.handlers i (some { x with phase := .ready b.2 }) j =
      some y → y.phase = .ready b.2 ∨ j ≠ i ∧ s.handlers j = some y := by
    intro j y hy
    by_cases hj : j = i
    · subst hj
      rw [Function.update_self] at hy
      cases hy
      exact .inl rfl
    · rw [Function.update_of_ne hj] at hy
      exact .inr ⟨hj, hy⟩
  have hnobody : ∀ {j y}, Function.update s.handlers i (some { x with phase := .ready b.2 }) j =
      some y → y.phase ≠ .provisioning := by
    intro j y hy hp
    rcases hcases hy with hr | ⟨hj, hy⟩
    · rw [hr] at hp
      cases hp
    · exact hj (h.alone j i y x hy hp hx hphase)
  refine ⟨(fun hempty => by cases hempty), ?_, ?_, ?_, ?_, ?_, ?_, ?_⟩
  · intro b' hb'
    cases List.mem_singleton.mp hb'
    exact ⟨rfl, ⟨_, hpast, (h.fresh hbinds).2⟩, p, hp, hbound⟩
  · intro j y info hy hr
    rcases hcases hy with hr' | ⟨-, hy⟩
    · rw [hr'] at hr
      cases hr
      exact ⟨b, List.mem_singleton_self b, rfl⟩
    · exact absurd (h.ready j y info hy hr) (hnone info)
  · exact fun r => (h.within r).mono fun info hr => absurd hr (hnone info)
  · exact fun j y hy hp => absurd hp (hnobody hy)
  · exact fun j₁ j₂ y₁ y₂ hy₁ hp₁ _ _ => absurd hp₁ (hnobody hy₁)
  · intro j y t hy ht
    rcases hcases hy with hr | ⟨-, hy⟩
    · rw [hr] at ht
      cases ht
    · exact h.events j y t hy ht
  · intro j y hy he
    rcases hcases hy with hr | ⟨-, hy⟩
    · rw [hr] at he
      cases he
    · exact h.ended j y hy he

theorem Sole.provision (hF : F.Inverse) (h : s.Sole F k provider user_id raised)
    (hi : Inv F k provider user_id s) (hplain : a.credentials.Plain)
    (hs : step F k ttl true provider user_id s (.provision i a) = some s') :
    s'.Sole F k provider user_id raised := by
  cases steps_of_step hs with
  | @provision i r start a m hx ha hm =>
    have hbinds := h.early i _ hx rfl
    obtain ⟨hb, -, hhist⟩ := mapping_bind hm
    have hpast : m.past = [s.mapping.current] := by
      rw [MappingSystem.history, MappingSystem.history, (h.fresh hbinds).1, List.nil_append]
        at hhist
      exact (List.append_inj' hhist rfl).1
    have hcommit : s.commit provider user_id a m =
        { s with mapping := m, binds := [(m.past.length, a.info)] } := by
      rw [commit, if_pos ⟨by rw [ha.1], ha.2⟩, hbinds, List.nil_append]
    obtain ⟨p, -, hp, -⟩ := bind_cases hb
    have hbound := bind_bound hF hplain hi.canonical hp hb
    rw [ha.2] at hbound
    rw [ha.1] at hp
    rw [hcommit]
    exact h.first hx rfl hpast hp hbound

theorem sole_initial (h : Initial s)
    (hun : Provisioning.Unmapped F k provider user_id s.mapping.current) :
    s.Sole F k provider user_id raised := by
  obtain ⟨⟨hpast, -⟩, -, hpools, hhandlers, hbinds⟩ := h
  have hno : ∀ {i : Nat} {x : Handler}, s.handlers i ≠ some x := by
    intro i x hx
    rw [hhandlers i] at hx
    cases hx
  refine ⟨fun _ => ⟨hpast, hun⟩, ?_, fun _ _ _ hx => absurd hx hno, ?_,
    fun _ _ hx => absurd hx hno, fun _ _ _ _ hx => absurd hx hno, fun _ _ _ hx => absurd hx hno,
    fun _ _ hx => absurd hx hno⟩
  · intro b hb
    rw [hbinds] at hb
    cases hb
  · intro r
    rw [hpools r]
    exact ⟨(fun c o ho => by cases ho), (fun info hi => by cases hi), (fun t p hp => by cases hp),
      fun f hf => by cases hf⟩

end Cluster

namespace Provisioning

variable {F : Fernet} {k provider user_id : String} {ttl : Int} {s s' : Provisioning}

structure Inv (F : Fernet) (k provider user_id : String) (s : Provisioning) : Prop where
  cluster : s.cluster.Inv F k provider user_id
  sole : s.cluster.Sole F k provider user_id s.raised
  progress : ∀ h q, s.progress h = some q →
    ∃ x, s.cluster.handlers h = some x ∧ x.phase = .provisioning
  binding : ∀ h a found, s.progress h = some (.binding a found) → a.credentials.Plain ∧
    ∀ p, validate_provider provider = .ok p →
      found <+: (a.rows p).map (· s.cluster.mapping.current.toTables)

/-- Rows that are as they were found are not inserted twice. -/
theorem conflicts_found (t : Tables) (rows : List (Tables → Bool)) :
    conflicts t rows (rows.map (· t)) = false := by
  rw [conflicts, List.any_eq_false]
  intro x hx
  rw [← List.map_prod_left_eq_zip, List.mem_map] at hx
  obtain ⟨row, -, rfl⟩ := hx
  rw [Bool.not_and_self]
  exact Bool.false_ne_true

/-- The progress of one handler changes. -/
theorem Inv.advance (h : Inv F k provider user_id s) {q : Option Progress} {uuids : List String}
    (hq : ∀ p ∈ q, ∃ x, s.cluster.handlers i = some x ∧ x.phase = .provisioning)
    (hb : ∀ a found, q = some (.binding a found) → a.credentials.Plain ∧
      ∀ p, validate_provider provider = .ok p →
        found <+: (a.rows p).map (· s.cluster.mapping.current.toTables)) :
    Inv F k provider user_id
      { s with progress := Function.update s.progress i q, answers := uuids } := by
  refine ⟨h.cluster, h.sole, ?_, ?_⟩
  · intro j p hp
    dsimp only at hp
    by_cases hj : j = i
    · subst hj
      rw [Function.update_self] at hp
      exact hq p hp
    · rw [Function.update_of_ne hj] at hp
      exact h.progress j p hp
  · intro j a found hp
    dsimp only at hp
    by_cases hj : j = i
    · subst hj
      rw [Function.update_self] at hp
      exact hb a found hp
    · rw [Function.update_of_ne hj] at hp
      exact h.binding j a found hp

/-- Only one handler is provisioning, so nobody else is affected when it is over. -/
theorem Inv.over (h : Inv F k provider user_id s) (hx : s.cluster.handlers i = some x)
    (hp : x.phase = .provisioning) {c : Cluster} {raised : List Nat}
    (hi : c.Inv F k provider user_id) (hs : c.Sole F k provider user_id raised) :
    Inv F k provider user_id
      { s with cluster := c, progress := Function.update s.progress i none, raised := raised } := by
  have hnone : ∀ j q, Function.update s.progress i none j ≠ some q := by
    intro j q hq
    by_cases hj : j = i
    · subst hj
      rw [Function.update_self] at hq
      cases hq
    · rw [Function.update_of_ne hj] at hq
      obtain ⟨y, hy, hphase⟩ := h.progress j q hq
      exact hj (h.sole.alone j i y x hy hphase hx hp)
  exact ⟨hi, hs, fun j q hq => absurd hq (hnone j q), fun j a found hq => absurd hq (hnone j _)⟩

/-- The provisioning of the handler itself raises. -/
theorem Inv.fail (h : Inv F k provider user_id s) (hx : s.cluster.handlers i = some x)
    (hp : x.phase = .provisioning) :
    Inv F k provider user_id { s.give_up i x with raised := i :: s.raised } := by
  apply h.over hx hp
  · exact h.cluster.set_phase hx trivial
  · exact (h.sole.raise i).handle i (fun _ he => by cases he) (fun he => by cases he)
      (fun _ he => by cases he) fun _ => List.mem_cons_self

theorem Inv.run (hF : F.Inverse) (h : Inv F k provider user_id s)
    (hc : s.Alone user_id (.run a)) (ha : handles a = true)
    (hs : Cluster.step F k ttl true provider user_id s.cluster a = some c) :
    Inv F k provider user_id { s with cluster := c } := by
  obtain ⟨hcur, hkept⟩ := Cluster.run_frame ha hs
  have hbound : a.bound = none := by
    cases a with
    | mapping b =>
      cases b with
      | bind a => cases ha
      | _ => rfl
    | provision i a => cases ha
    | _ => rfl
  have hplain : ∀ b ∈ a.bound, b.credentials.Plain := by
    rw [hbound]
    exact fun _ hb => by cases hb
  refine ⟨Cluster.step_inv hF h.cluster (h.sole.current hplain) hs,
    h.sole.run h.cluster ha ?_ hs, ?_, ?_⟩
  · rintro i x rfl hx ho
    exact hc x hx ho
  · intro i q hq
    obtain ⟨x, hx, hp⟩ := h.progress i q hq
    exact ⟨x, hkept i x hx hp, hp⟩
  · intro i b found hq
    rw [hcur]
    exact h.binding i b found hq

theorem Inv.commit (hF : F.Inverse) (h : Inv F k provider user_id s)
    (hq : s.progress i = some (.binding a found))
    (hs : Cluster.step F k ttl true provider user_id s.cluster (.provision i a) = some c) :
    Inv F k provider user_id
      { s with cluster := c, progress := Function.update s.progress i none } := by
  obtain ⟨x, hx, hp⟩ := h.progress i _ hq
  obtain ⟨hplain, -⟩ := h.binding i a found hq
  apply h.over hx hp
  · apply Cluster.step_inv hF h.cluster _ hs
    apply h.sole.current
    rintro _ ⟨⟩
    exact hplain
  · exact h.sole.provision hF h.cluster hplain hs

theorem step_inv (hF : F.Inverse) (h : Inv F k provider user_id s) (hc : s.Alone user_id act)
    (hs : step F k ttl provider user_id s act = some s') : Inv F k provider user_id s' := by
  cases act with
  | run a =>
    simp only [step] at hs
    split at hs
    · rename_i ha
      rw [Option.map_eq_some_iff] at hs
      obtain ⟨c, hcl, rfl⟩ := hs
      exact h.run hF hc ha hcl
    · cases hs
  | request i =>
    simp only [step] at hs
    split at hs
    · rename_i r start hx hn
      cases hs
      apply h.advance
      · exact fun _ _ => ⟨_, hx, rfl⟩
      · exact fun a found he => by cases he
    · cases hs
  | answered i a =>
    simp only [step] at hs
    split at hs
    · rename_i hq
      split at hs
      · cases hs
        apply h.advance
        · exact fun _ _ => h.progress i _ hq
        · intro b found he
          cases he
          exact ⟨hc, fun p _ => List.nil_prefix⟩
      · cases hs
    · cases hs
  | failed i =>
    simp only [step] at hs
    split at hs
    · rename_i r start hx
      cases hs
      exact h.fail hx rfl
    · cases hs
  | selects i =>
    simp only [step] at hs
    split at hs
    · rename_i a found p hq hp
      rw [Option.map_eq_some_iff] at hs
      obtain ⟨row, hrow, rfl⟩ := hs
      obtain ⟨hplain, hfound⟩ := h.binding i a found hq
      apply h.advance
      · exact fun _ _ => h.progress i _ hq
      · intro b found' he
        cases he
        refine ⟨hplain, fun p' hp' => ?_⟩
        cases hp.symm.trans hp'
        obtain ⟨rest, hrest⟩ := hfound p hp
        have hget : ((a.rows p).map (· s.cluster.mapping.current.toTables))[found.length]? =
            some (row s.cluster.mapping.current.toTables) := by
          rw [List.getElem?_map, hrow]
          rfl
        rw [← hrest, List.getElem?_append_right (Nat.le_refl _), Nat.sub_self] at hget
        cases rest with
        | nil => cases hget
        | cons b rest =>
          cases hget
          exact ⟨rest, by rw [← hrest, List.append_assoc, List.singleton_append]⟩
    · cases hs
  | committed i =>
    simp only [step] at hs
    split at hs
    · rename_i a found p x hq hp hx
      split at hs
      · rename_i hlen
        obtain ⟨y, hy, hphase⟩ := h.progress i _ hq
        cases hx.symm.trans hy
        obtain ⟨hplain, hfound⟩ := h.binding i a found hq
        have heq : found = (a.rows p).map (· s.cluster.mapping.current.toTables) :=
          (hfound p hp).eq_of_length (by rw [hlen, List.length_map])
        rw [heq, conflicts_found] at hs
        rw [if_neg (by decide)] at hs
        split at hs
        · rename_i c hcl
          cases hs
          exact h.commit hF hq hcl
        · cases hs
          exact h.fail hx hphase
      · cases hs
    · cases hs

theorem inv_initial (h : Initial F k provider user_id s) : Inv F k provider user_id s := by
  obtain ⟨hc, hun, hp, -, -⟩ := h
  refine ⟨Cluster.inv_initial hc, Cluster.sole_initial hc hun, ?_, ?_⟩
  · intro i q hq
    rw [hp i] at hq
    cases hq
  · intro i a found hq
    rw [hp i] at hq
    cases hq

/-- As long as no lookup misses while, or after, the user is provisioned. -/
theorem one_instance (hF : F.Inverse)
    (h : Reach (step F k ttl provider user_id) (Alone user_id) (Initial F k provider user_id) s) :
    s.OneInstance F k provider user_id := by
  have hi : Inv F k provider user_id s :=
    h.invariant (fun _ => inv_initial) fun _ _ _ hi hc hs => step_inv hF hi hc hs
  refine ⟨?_, hi.sole.ended, ?_⟩
  · cases hb : s.cluster.binds with
    | nil => exact Nat.zero_le _
    | cons b rest =>
      have hone := (hi.sole.bound b (hb ▸ List.mem_cons_self)).1
      rw [hb] at hone
      rw [hone]
      exact Nat.le_refl _
  · intro r f hf
    obtain ⟨b, hb, he⟩ := (hi.sole.within r).frames f hf
    obtain ⟨-, -, p, hp, hbound⟩ := hi.sole.bound b hb
    exact ⟨p, hp, he ▸ hbound⟩

def quiet : Provisioning := { cluster := Cluster.quiet }

theorem quiet_initial : Initial Fernet.clear "" "telegram" "7" quiet := by
  refine ⟨Cluster.quiet_initial, ?_, fun _ => rfl, rfl, rfl⟩
  intro p hp
  have htelegram : validate_provider "telegram" = .ok "telegram" := by decide
  cases htelegram.symm.trans hp
  decide

/-- A message arrives, and the lookup of its user ends. -/
def arrives (h i : Nat) : List Act :=
  [.run (.start_event h 0), .run (.cached h i), .run (.mapping (.identity i (.version 0))),
    .run (.mapping (.identity i (.probe 0))), .run (.mapping (.identity i (.fetch 0))),
    .run (.mapping (.identity i (.store 0)))]

def asks (h : Nat) (a : BindArgs) : List Act := [.run (.resolved h), .request h, .answered h a]

def selects (h : Nat) : List Act := [.selects h, .selects h, .selects h, .selects h]

def sends (h r g : Nat) (key : String) : List Act :=
  [.run (.send h key), .run (.pool r (.connected h g true)), .run (.pool r (.emit h)),
    .run (.pool r (.answered h))]

/-- The lookup of a message that reads what the bind has committed. -/
def finds (h i : Nat) : List Act :=
  .run (.cached h i) :: (MappingSystem.lookup i 1).map (fun a => .run (.mapping a)) ++
    [.run (.resolved h)]

/-- A second message of the user comes to another replica while the first one provisions. -/
def welcomed : List Act :=
  arrives 0 0 ++ asks 0 MappingSystem.binding ++ .run (.start_event 2 1) :: selects 0 ++
    [.committed 0] ++ sends 0 0 1 "k" ++ finds 2 1 ++ sends 2 1 3 "m"

theorem meets_welcomed :
    Meets (step Fernet.clear "" 300 "telegram" "7") (Alone "7") quiet welcomed := by
  have hplain : MappingSystem.binding.credentials.Plain := by decide
  refine ⟨trivial, trivial, trivial, trivial, trivial, trivial, ?_, trivial, hplain, trivial,
    trivial, trivial, trivial, trivial, trivial, trivial, trivial, trivial, trivial, trivial,
    trivial, trivial, trivial, trivial, ?_, trivial, trivial, trivial, trivial, trivial⟩
  · intro x hx _
    refine ⟨rfl, ?_⟩
    intro g y hy
    cases g with
    | zero =>
      cases hy
      exact fun h => by cases h
    | succ g => cases hy
  · intro x hx hmiss
    cases hx
    exact absurd hmiss (by decide)

theorem one_instance_welcomed : ∃ s,
    exec (step Fernet.clear "" 300 "telegram" "7") quiet welcomed = some s ∧
      (s.cluster.pools 0).frames.map (·.info) = [MappingSystem.binding.info] ∧
      (s.cluster.pools 1).frames.map (·.info) = [MappingSystem.binding.info] ∧
      s.OneInstance Fernet.clear "" "telegram" "7" := by
  have h : ((exec (step Fernet.clear "" 300 "telegram" "7") quiet welcomed).any fun s =>
      (s.cluster.pools 0).frames.map (·.info) = [MappingSystem.binding.info] ∧
        (s.cluster.pools 1).frames.map (·.info) = [MappingSystem.binding.info]) = true := by decide
  obtain ⟨s, hs, hf⟩ := (Option.any_eq_true _ _).mp h
  obtain ⟨hfirst, hsecond⟩ := of_decide_eq_true hf
  exact ⟨s, hs, hfirst, hsecond,
    one_instance Fernet.clear_inverse ((Reach.start quiet_initial).exec meets_welcomed hs)⟩

def other : BindArgs :=
  { MappingSystem.binding with instance_uuid := "b", instance_url := "ws://b" }

/-- Both lookups miss before either instance is bound. -/
def both : List Act :=
  arrives 0 0 ++ arrives 1 1 ++ asks 0 MappingSystem.binding ++ asks 1 other

/-- The second instance is bound over the first, to which the first message goes. -/
def replaced : List Act :=
  both ++ selects 0 ++ [.committed 0] ++ selects 1 ++ [.committed 1] ++ sends 0 0 5 "k"

/-- The second handler fails on the rows of the first. -/
def rejected : List Act :=
  both ++ selects 0 ++ selects 1 ++ [.committed 0, .committed 1]

theorem not_one_instance :
    (∃ s, Reach (step Fernet.clear "" 300 "telegram" "7") Any
        (Initial Fernet.clear "" "telegram" "7") s ∧ s.cluster.binds.length = 2 ∧
      ¬ ∀ r, ∀ f ∈ (s.cluster.pools r).frames, ∃ p, validate_provider "telegram" = .ok p ∧
        s.cluster.mapping.current.Bound Fernet.clear "" p "7" f.info) ∧
    ∃ s, Reach (step Fernet.clear "" 300 "telegram" "7") Any
        (Initial Fernet.clear "" "telegram" "7") s ∧
      ∃ x, s.cluster.handlers 1 = some x ∧ x.phase = .ended ∧ s.raised = [] := by
  constructor
  · have h : ((exec (step Fernet.clear "" 300 "telegram" "7") quiet replaced).any fun s =>
        s.cluster.binds.length = 2 ∧
          ⟨0, "k", MappingSystem.binding.info⟩ ∈ (s.cluster.pools 0).frames ∧
          s.cluster.mapping.current.instance_by_identity Fernet.clear "" ("telegram", "7") =
            .ok other.info) = true := by decide
    obtain ⟨s, hs, hf⟩ := (Option.any_eq_true _ _).mp h
    obtain ⟨htwo, hsent, hlast⟩ := of_decide_eq_true hf
    refine ⟨s, reach_of_exec quiet_initial hs, htwo, fun hrecorded => ?_⟩
    obtain ⟨p, hp, hbound⟩ := hrecorded 0 _ hsent
    have htelegram : validate_provider "telegram" = .ok "telegram" := by decide
    cases htelegram.symm.trans hp
    have hfirst := hbound.lookup s.cluster.mapping.current.valid
    rw [hlast] at hfirst
    exact absurd hfirst (by decide)
  · have h : ((exec (step Fernet.clear "" 300 "telegram" "7") quiet rejected).any fun s =>
        s.cluster.handlers 1 = some ⟨0, 0, .ended⟩ ∧ s.raised = []) = true := by decide
    obtain ⟨s, hs, hf⟩ := (Option.any_eq_true _ _).mp h
    obtain ⟨hx, hraised⟩ := of_decide_eq_true hf
    exact ⟨s, reach_of_exec quiet_initial hs, _, hx, rfl, hraised⟩

end Provisioning

end ClawMux
