import ClawMux.Services.WsGuardians

namespace ClawMux
set_option autoImplicit true
open Lib

namespace Pool

/-- A client in the pool has the guardian of the entry, and no other, unless it is being closed. -/
def Guarded (s : Pool) : Prop :=
  s.clients ≠ none → (∀ t, s.kind t ≠ some .close) →
    ∃ g, s.guardian_tasks = some g ∧ s.guards g = true ∧ ∀ e, s.guards e = true → e = g

/-- The client of the pool has the guardian of the entry, or a `close_connection` on its way to it;
every guardian that has not been cancelled is that one. It replaces a client that was lost, so that
`awaits`, what its task found when it last ran, is that no listen loop runs. -/
structure Guarding (awaits : Nat → Bool) (s : Pool) : Prop where
  paired : s.clients = none ↔ s.user_info = none
  renews : ∀ t, s.reconnecting t = true → s.clients ≠ none
  entry : s.clients ≠ none → (∃ g, s.guardian_tasks = some g ∧ s.guards g = true) ∨
    ∃ t, s.retiring t = true
  kept : ∀ g, s.guardian_tasks = some g → s.stopping g = false
  sole : ∀ e, s.guards e = true → s.guardian_tasks = some e
  watched : ∀ g c, s.guardian_tasks = some g → s.pc g = some (.guard_watch c) →
    s.clients = some c ∨ s.clients = none
  lost : ∀ g, s.waiting g = true → s.listens = false
  alone : ∀ g, s.closes_lost g = true → awaits g = false

variable {s r s' : Pool} {awaits awaits' : Nat → Bool}

theorem Guarding.guarded (h : s.Guarding awaits) : s.Guarded := by
  intro hc hclose
  rcases h.entry hc with ⟨g, hg, hguards⟩ | ⟨t, ht⟩
  · refine ⟨g, hg, hguards, fun e he => ?_⟩
    exact Option.some.inj ((h.sole e he).symm.trans hg)
  · exact absurd (kind_of_retiring ht) (hclose t)

theorem Guarding.holding (h : s.Guarding awaits) (hh : s.Holding b s') :
    s'.clients = none ↔ s'.user_info = none := by
  cases hh with
  | same hc hi => rw [hc, hi, h.paired]
  | taken hb hc hi => exact ⟨fun _ => hi, fun _ => hc⟩
  | stored hc hi => exact ⟨fun hn => absurd hn hc, fun hn => absurd hn hi⟩
  | renewed t hr hc hi =>
    refine ⟨fun hn => absurd hn hc, fun hn => ?_⟩
    exact absurd (h.paired.mpr (hi.symm.trans hn)) (h.renews t hr)

theorem quiet_listens (hq : s.Quieter s') (hc : s'.clients = s.clients ∨ s'.clients = none)
    (h : s.listens = false) : s'.listens = false := by
  rcases hc with hc | hc
  · rw [listens, hc]
    rw [listens] at h
    cases hclients : s.clients with
    | none => rfl
    | some c =>
      rw [hclients, Option.any_some] at h
      rw [Option.any_some]
      cases hl : s'.listening c with
      | false => rfl
      | true => exact (hq c hl).symm.trans h
  · rw [listens, hc]
    rfl

/-- A guardian with a client to watch, which has been lost. -/
theorem Guarding.watch_lost (h : s.Guarding awaits) (hp : s.pc g = some (.guard_watch c))
    (hl : s.listening c = false) : s.listens = false := by
  have hguards : s.guards g = true := any_of_pc hp rfl
  rcases h.watched g c (h.sole g hguards) hp with hc | hc
  · rw [listens, hc]
    exact hl
  · rw [listens, hc]
    rfl

theorem waiting_open (h : s.waiting t = true) : s.closes_lost t = false := by
  obtain ⟨p, hp, hw⟩ := any_pc h
  rw [closes_lost, hp, Option.any_some]
  cases p with
  | closing l job b => cases hw
  | _ => rfl

/-- A step of a task that is no guardian, and no `close_connection` on its way. -/
theorem Guarding.others (h : s.Guarding awaits) (hinfo : s'.clients = none ↔ s'.user_info = none)
    (hquiet : s.Quieter s') (hawaits : ∀ u, s.closes_lost u = true → awaits' u = awaits u)
    (hself : s'.kind t ≠ some .guardian) (ht : s.kind t ≠ some .guardian)
    (hr : s.retiring t = false) (hothers : ∀ u, u ≠ t → s'.pc u = s.pc u)
    (hc : s'.clients = s.clients) (hg : s'.guardian_tasks = s.guardian_tasks) :
    s'.Guarding awaits' := by
  have hne : ∀ {u}, s'.kind u = some .guardian → u ≠ t := by
    rintro u hu rfl
    exact hself hu
  have hsame : ∀ {u}, s'.kind u = some .guardian → s.Same s' u := fun hu =>
    same_of_pc (hothers _ (hne hu))
  refine ⟨hinfo, ?_, ?_, ?_, ?_, ?_, ?_, ?_⟩
  · intro u hu
    rw [hc]
    exact h.renews u ((hsame (guards_kind (reconnecting_guards hu))).reconnecting ▸ hu)
  · intro hclients
    rw [hc] at hclients
    rcases h.entry hclients with ⟨g, hgt, hguards⟩ | ⟨u, hu⟩
    · have hgne : g ≠ t := by
        rintro rfl
        exact ht (guards_kind hguards)
      exact .inl ⟨g, hg.trans hgt, (same_of_pc (hothers g hgne)).guards.trans hguards⟩
    · have hune : u ≠ t := by
        rintro rfl
        exact absurd (hr.symm.trans hu) Bool.false_ne_true
      exact .inr ⟨u, (same_of_pc (hothers u hune)).retiring.trans hu⟩
  · intro g hgt
    cases hst : s'.stopping g with
    | false => rfl
    | true =>
      rw [(hsame (stopping_kind hst)).stopping] at hst
      exact absurd ((h.kept g (hg.symm.trans hgt)).symm.trans hst) Bool.false_ne_true
  · intro e he
    exact hg.trans (h.sole e ((hsame (guards_kind he)).guards ▸ he))
  · intro g c hgt hp
    rw [hc]
    have hk : s'.kind g = some .guardian := kind_of_pc hp
    exact h.watched g c (hg.symm.trans hgt) ((hothers g (hne hk)).symm.trans hp)
  · intro g hw
    have hk := guards_kind (waiting_guards hw)
    exact quiet_listens hquiet (.inl hc) (h.lost g ((hsame hk).waiting ▸ hw))
  · intro g hcl
    have hk := closes_lost_kind hcl
    have hold : s.closes_lost g = true := (hsame hk).closes_lost ▸ hcl
    exact (hawaits g hold).trans (h.alone g hold)

/-- A guardian goes on. -/
theorem Guarding.goes_on (h : s.Guarding awaits) (hinfo : s'.clients = none ↔ s'.user_info = none)
    (hquiet : s.Quieter s') (hawaits : ∀ u, s.closes_lost u = true → awaits' u = awaits u)
    (hnow : s.closes_lost t = false → s'.closes_lost t = true → awaits' t = s.listens)
    (ht : s.kind t = some .guardian) (hran : s.Ran t .guardian s')
    (hgo : s.GoesOn t s') : s'.Guarding awaits' := by
  have hsame : ∀ {u}, u ≠ t → s.Same s' u := fun hu => same_of_pc (hran.others _ hu)
  have hdead : s'.kind t = some .over → ¬ s'.kind t = some .guardian := by
    intro hover hk
    cases hover.symm.trans hk
  refine ⟨hinfo, ?_, ?_, ?_, ?_, ?_, ?_, ?_⟩
  · intro u hu
    rw [hran.clients]
    by_cases hut : u = t
    · subst hut
      cases hgo with
      | guards _ hp _ hreconnecting =>
        rw [Pool.reconnecting, hp] at hu
        rcases hreconnecting hu with hr | hi
        · exact h.renews u hr
        · exact fun hc => hi (h.paired.mp hc)
      | gone hk => exact absurd (guards_kind (reconnecting_guards hu)) (hdead hk)
    · exact h.renews u ((hsame hut).reconnecting ▸ hu)
  · intro hclients
    rw [hran.clients] at hclients
    rcases h.entry hclients with ⟨g, hgt, hguards⟩ | ⟨u, hu⟩
    · refine .inl ⟨g, hran.guardians.trans hgt, ?_⟩
      by_cases hg : g = t
      · subst hg
        cases hgo with
        | guards _ hp hg => exact any_of_pc hp hg
        | gone hk hover =>
          rcases hover with hn | hn | hst
          · exact absurd hn hclients
          · exact absurd (h.paired.mpr hn) hclients
          · exact absurd ((h.kept g hgt).symm.trans hst) Bool.false_ne_true
      · exact (hsame hg).guards.trans hguards
    · have hut : u ≠ t := by
        rintro rfl
        exact absurd ((kind_of_retiring hu).symm.trans ht) (by decide)
      exact .inr ⟨u, (hsame hut).retiring.trans hu⟩
  · intro g hgt
    by_cases hg : g = t
    · subst hg
      cases hgo with
      | guards _ hp hg => exact (guards_iff.mp (any_of_pc hp hg)).2
      | gone hk =>
        cases hst : s'.stopping g with
        | false => rfl
        | true => exact absurd (stopping_kind hst) (hdead hk)
    · exact (hsame hg).stopping.trans (h.kept g (hran.guardians.symm.trans hgt))
  · intro e he
    apply hran.guardians.trans
    by_cases het : e = t
    · subst het
      cases hgo with
      | guards hs => exact h.sole e hs
      | gone hk => exact absurd (guards_kind he) (hdead hk)
    · exact h.sole e ((hsame het).guards ▸ he)
  · intro g c hgt hp
    rw [hran.clients]
    by_cases hg : g = t
    · subst hg
      cases hgo with
      | guards _ hp' _ _ hwatch =>
        exact .inl (hwatch c (Option.some.inj (hp'.symm.trans hp)))
      | gone hk => exact absurd (kind_of_pc hp) (hdead hk)
    · exact h.watched g c (hran.guardians.symm.trans hgt) ((hran.others g hg).symm.trans hp)
  · intro g hw
    apply quiet_listens hquiet (.inl hran.clients)
    by_cases hg : g = t
    · subst hg
      cases hgo with
      | guards _ hp _ _ _ hwaiting =>
        rw [Pool.waiting, hp] at hw
        rcases hwaiting hw with hl | hwait | ⟨c, hwatch, hl⟩
        · exact hl
        · exact h.lost g hwait
        · exact h.watch_lost hwatch hl
      | gone hk => exact absurd (guards_kind (waiting_guards hw)) (hdead hk)
    · exact h.lost g ((hsame hg).waiting ▸ hw)
  · intro g hcl
    by_cases hg : g = t
    · subst hg
      cases hgo with
      | guards _ hp _ _ _ _ hcloses =>
        obtain ⟨p, hp', hclp⟩ := any_pc hcl
        cases hp.symm.trans hp'
        have hw := hcloses hclp
        exact (hnow (waiting_open hw) hcl).trans (h.lost g hw)
      | gone hk => exact absurd (closes_lost_kind hcl) (hdead hk)
    · have hold : s.closes_lost g = true := (hsame hg).closes_lost ▸ hcl
      exact (hawaits g hold).trans (h.alone g hold)

/-- A `close_connection` waits for the lock, or takes the client. -/
theorem Guarding.closes (h : s.Guarding awaits) (hinfo : s'.clients = none ↔ s'.user_info = none)
    (hquiet : s.Quieter s') (hawaits : ∀ u, s.closes_lost u = true → awaits' u = awaits u)
    (htakes : s'.clients = none → ∀ e, s.reconnecting e = false)
    (hself : s'.kind t ≠ some .guardian) (hothers : ∀ u, u ≠ t → s'.pc u = s.pc u)
    (htaken : s'.clients = s.clients ∧ s'.retiring t = true ∨ s'.clients = none)
    (hg : s'.guardian_tasks = s.guardian_tasks ∨ s'.guardian_tasks = none ∧
      ∀ g, s.guardian_tasks = some g → s.kind g ≠ some .guardian) : s'.Guarding awaits' := by
  have hne : ∀ {u}, s'.kind u = some .guardian → u ≠ t := by
    rintro u hu rfl
    exact hself hu
  have hsame : ∀ {u}, s'.kind u = some .guardian → s.Same s' u := fun hu =>
    same_of_pc (hothers _ (hne hu))
  have hclients : s'.clients = s.clients ∨ s'.clients = none := htaken.imp_left fun h => h.1
  have hkept : ∀ g, s'.guardian_tasks = some g → s.guardian_tasks = some g := by
    intro g hgt
    rcases hg with hg | ⟨hnone, -⟩
    · exact hg.symm.trans hgt
    · cases hnone.symm.trans hgt
  refine ⟨hinfo, ?_, ?_, ?_, ?_, ?_, ?_, ?_⟩
  · intro u hu hn
    rw [(hsame (guards_kind (reconnecting_guards hu))).reconnecting] at hu
    exact absurd ((htakes hn u).symm.trans hu) Bool.false_ne_true
  · intro hn
    rcases htaken with ⟨-, hr⟩ | hnone
    · exact .inr ⟨t, hr⟩
    · exact absurd hnone hn
  · intro g hgt
    cases hst : s'.stopping g with
    | false => rfl
    | true =>
      rw [(hsame (stopping_kind hst)).stopping] at hst
      exact absurd ((h.kept g (hkept g hgt)).symm.trans hst) Bool.false_ne_true
  · intro e he
    have hse := hsame (guards_kind he)
    have hge := h.sole e (hse.guards ▸ he)
    rcases hg with hg | ⟨-, hdead⟩
    · exact hg.trans hge
    · exact absurd (hse.kind.symm.trans (guards_kind he)) (hdead e hge)
  · intro g c hgt hp
    have hk : s'.kind g = some .guardian := kind_of_pc hp
    have hwatched := h.watched g c (hkept g hgt) ((hothers g (hne hk)).symm.trans hp)
    rcases hclients with hc | hn
    · rw [hc]
      exact hwatched
    · exact .inr hn
  · intro g hw
    have hk := guards_kind (waiting_guards hw)
    exact quiet_listens hquiet hclients (h.lost g ((hsame hk).waiting ▸ hw))
  · intro g hcl
    have hk := closes_lost_kind hcl
    have hold : s.closes_lost g = true := (hsame hk).closes_lost ▸ hcl
    exact (hawaits g hold).trans (h.alone g hold)

/-- A `close_connection` cancels the guardian and waits for it. -/
theorem Guarding.joins (h : s.Guarding awaits) (ht : s.pc t = none)
    (hg : s.guardian_tasks = some g) (hp : s.pc g = some p)
    (hawaits : ∀ u, s.closes_lost u = true → awaits' u = awaits u) :
    ((cancel { s with guardian_tasks := none } g).goto t (.close_join g)).Guarding awaits' := by
  generalize hs : (cancel { s with guardian_tasks := none } g).goto t (.close_join g) = s'
  have hr := cancelled_cancel (s := { s with guardian_tasks := none }) g
  have hgt : g ≠ t := by
    rintro rfl
    cases ht.symm.trans hp
  have hself : s'.pc t = some (.close_join g) := by
    rw [← hs]
    exact goto_pc_self
  have hpc : ∀ u, u ≠ t → s'.pc u = (cancel { s with guardian_tasks := none } g).pc u := by
    intro u hu
    rw [← hs]
    exact goto_pc_other hu
  have hsame : ∀ {u}, u ≠ t → u ≠ g → s.Same s' u := fun hu hug =>
    same_of_pc ((hpc _ hu).trans (hr.others _ hug))
  have hclients : s'.clients = s.clients := by
    rw [← hs]
    exact hr.clients
  have hguardians : s'.guardian_tasks = none := by
    rw [← hs]
    exact hr.guardians
  have hinfo : s'.user_info = s.user_info := by
    rw [← hs]
    exact cancel_user_info (s := { s with guardian_tasks := none }) g
  have hquiet : s.Quieter s' := by
    rw [← hs]
    exact quieter_cancel (s := { s with guardian_tasks := none }) g
  have hne : ∀ {u}, s'.kind u = some .guardian → u ≠ t := by
    rintro u hu rfl
    cases (kind_of_pc hself).symm.trans hu
  -- the guardian that was the one of the entry is over, or marked
  have hcancelled : s'.guards g = false := by
    have hsg : Same (cancel { s with guardian_tasks := none } g) s' g := same_of_pc (hpc g hgt)
    cases hguards : s'.guards g with
    | false => rfl
    | true =>
      rw [hsg.guards] at hguards
      obtain ⟨hk, hst⟩ := guards_iff.mp hguards
      exact absurd (hst.symm.trans (cancel_stopping hk)) Bool.false_ne_true
  have hnot : ∀ {u}, s'.guards u = true → False := by
    intro u hu
    have hug : u ≠ g := by
      rintro rfl
      exact absurd (hcancelled.symm.trans hu) Bool.false_ne_true
    have hold := h.sole u ((hsame (hne (guards_kind hu)) hug).guards ▸ hu)
    exact hug (Option.some.inj (hold.symm.trans hg))
  refine ⟨?_, ?_, ?_, ?_, ?_, ?_, ?_, ?_⟩
  · rw [hclients, hinfo]
    exact h.paired
  · exact fun u hu => (hnot (reconnecting_guards hu)).elim
  · exact fun _ => .inr ⟨t, join_retiring hself⟩
  · intro e he
    cases hguardians.symm.trans he
  · exact fun e he => (hnot he).elim
  · intro e c he
    cases hguardians.symm.trans he
  · exact fun u hu => (hnot (waiting_guards hu)).elim
  · intro e he
    have hk := closes_lost_kind he
    have hold : s.closes_lost e = true := by
      by_cases heg : e = g
      · subst heg
        have hsg : Same (cancel { s with guardian_tasks := none } e) s' e :=
          same_of_pc (hpc e hgt)
        exact cancel_closes (s := { s with guardian_tasks := none }) (hsg.kind.symm.trans hk)
      · exact (hsame (hne hk) heg).closes_lost ▸ he
    exact (hawaits e hold).trans (h.alone e hold)

/-- A guardian that is replaced is over, or marked. -/
theorem start_guardian_stopping (he : s.guardian_tasks = some e) (heg : e ≠ g)
    (hk : (s.start_guardian g).kind e = some .guardian) :
    (s.start_guardian g).stopping e = true ∧ s.closes_lost e = true := by
  have hstart : s.start_guardian g =
      ({ s.cancel e with guardian_tasks := some g } : Pool).goto g .guard_new := by
    simp only [start_guardian, he]
  have hsame : (s.cancel e).Same (s.start_guardian g) e := by
    apply same_of_pc
    rw [hstart, goto_pc_other heg]
  have hcancel := hsame.kind.symm.trans hk
  exact ⟨hsame.stopping.trans (cancel_stopping hcancel), cancel_closes hcancel⟩

theorem install_stopping (ht : s.pc t = some (.connecting l (.get_or_create caller)))
    (hi : s.install t l g b (.get_or_create caller) = some s')
    (he : s.guardian_tasks = some e) (heg : e ≠ g) (hk : s'.kind e = some .guardian) :
    s'.stopping e = true ∧ s.closes_lost e = true := by
  cases hi
  generalize hr : ({ s with
    objects := Function.update s.objects s.next_object (some ⟨caller.info, b, true, {}⟩)
    next_object := s.next_object + 1
    clients := some s.next_object
    user_info := some caller.info } : Pool) = r at hk ⊢
  have hran := ran_return_client (s := (r.start_guardian g).release l) (t := t)
    s.next_object caller
  have hcaller : caller.kind ≠ .guardian := by
    cases caller <;> exact fun h => by cases h
  have het : e ≠ t := by
    rintro rfl
    rcases hran.self with hself | hself
    · exact hcaller (Option.some.inj (hself.symm.trans hk))
    · cases hself.symm.trans hk
  have hsame : Same (r.start_guardian g)
      (return_client ((r.start_guardian g).release l) t s.next_object caller) e :=
    same_of_pc (hran.others e het)
  have hre : r.guardian_tasks = some e := by
    rw [← hr]
    exact he
  obtain ⟨hst, hcl⟩ := start_guardian_stopping hre heg (hsame.kind.symm.trans hk)
  refine ⟨hsame.stopping.trans hst, ?_⟩
  rw [← hr] at hcl
  exact hcl

/-- A new client comes with a new guardian. -/
theorem Guarding.installs (h : s.Guarding awaits) (hinfo : s'.clients = none ↔ s'.user_info = none)
    (hawaits : ∀ u, s.closes_lost u = true → awaits' u = awaits u)
    (hr : s.Replaced g s') (hc : s'.clients ≠ none)
    (hstops : ∀ e, s.guardian_tasks = some e → e ≠ g → s'.kind e = some .guardian →
      s'.stopping e = true ∧ s.closes_lost e = true) : s'.Guarding awaits' := by
  have hguards : s'.guards g = true := any_of_pc hr.fresh rfl
  have hold : ∀ {u}, u ≠ g → s'.kind u = some .guardian →
      s.guardian_tasks = some u ∨ s.Same s' u ∧ s.guardian_tasks ≠ some u := by
    intro u hug hk
    by_cases hu : s.guardian_tasks = some u
    · exact .inl hu
    · refine .inr ⟨same_of_pc (hr.others u ?_ hu), hu⟩
      rcases hr.kinds u hug with hsame | hover
      · exact hsame ▸ hk
      · cases hover.symm.trans hk
  have hone : ∀ {u}, s'.guards u = true → u = g := by
    intro u hu
    by_contra hug
    obtain ⟨hk, hst⟩ := guards_iff.mp hu
    rcases hold hug hk with hgu | ⟨hsame, hne⟩
    · exact absurd (hst.symm.trans (hstops u hgu hug hk).1) Bool.false_ne_true
    · exact hne (h.sole u (hsame.guards ▸ hu))
  refine ⟨hinfo, fun _ _ => hc, fun _ => .inl ⟨g, hr.guardians, hguards⟩, ?_, ?_, ?_, ?_, ?_⟩
  · intro e he
    cases hr.guardians.symm.trans he
    exact (guards_iff.mp hguards).2
  · intro e he
    rw [hone he]
    exact hr.guardians
  · intro e c he hp
    cases hr.guardians.symm.trans he
    cases hr.fresh.symm.trans hp
  · intro e he
    have heg := hone (waiting_guards he)
    subst heg
    rw [Pool.waiting, hr.fresh] at he
    cases he
  · intro e he
    have hk := closes_lost_kind he
    have heg : e ≠ g := by
      rintro rfl
      rw [Pool.closes_lost, hr.fresh] at he
      cases he
    have hcloses : s.closes_lost e = true := by
      rcases hold heg hk with hge | ⟨hsame, -⟩
      · exact (hstops e hge heg hk).2
      · exact hsame.closes_lost ▸ he
    exact (hawaits e hcloses).trans (h.alone e hcloses)

/-- The guardian puts a client into the pool and watches it. -/
theorem Guarding.reconnects (h : s.Guarding awaits)
    (hinfo : s'.clients = none ↔ s'.user_info = none)
    (hawaits : ∀ u, s.closes_lost u = true → awaits' u = awaits u) (ht : s.reconnecting t = true)
    (hr : s.Reconnected t s')
    (hself : (∃ c, s'.pc t = some (.guard_watch c) ∧ s'.clients = some c) ∨
      s'.pc t = some .guard_sleep ∧ s'.listens = false) : s'.Guarding awaits' := by
  have hguards := reconnecting_guards ht
  have hkind := guards_kind hguards
  have hentry := h.sole t hguards
  have hsame : ∀ {u}, u ≠ t → s.Same s' u := fun hu => same_of_pc (hr.others _ hu)
  have hselfguards : s'.guards t = true := by
    rcases hself with ⟨c, hp, -⟩ | ⟨hp, -⟩
    · exact any_of_pc hp rfl
    · exact any_of_pc hp rfl
  have hone : ∀ {u}, s'.guards u = true → u = t := by
    intro u hu
    by_contra hut
    have hue := h.sole u ((hsame hut).guards ▸ hu)
    exact hut (Option.some.inj (hue.symm.trans hentry))
  refine ⟨hinfo, fun _ _ => hr.clients, fun _ => .inl ⟨t, hr.guardians.trans hentry, hselfguards⟩,
    ?_, ?_, ?_, ?_, ?_⟩
  · intro g hg
    cases (hr.guardians.trans hentry).symm.trans hg
    exact (guards_iff.mp hselfguards).2
  · intro e he
    rw [hone he]
    exact hr.guardians.trans hentry
  · intro g c hg hp
    cases (hr.guardians.trans hentry).symm.trans hg
    rcases hself with ⟨d, hp', hc⟩ | ⟨hp', -⟩
    · cases hp'.symm.trans hp
      exact .inl hc
    · cases hp'.symm.trans hp
  · intro g hw
    cases hone (waiting_guards hw)
    rcases hself with ⟨c, hp, -⟩ | ⟨-, hl⟩
    · rw [Pool.waiting, hp] at hw
      cases hw
    · exact hl
  · intro g hcl
    have hgt : g ≠ t := by
      rintro rfl
      rcases hself with ⟨c, hp, -⟩ | ⟨hp, -⟩
      · rw [Pool.closes_lost, hp] at hcl
        cases hcl
      · rw [Pool.closes_lost, hp] at hcl
        cases hcl
    have hold : s.closes_lost g = true := (hsame hgt).closes_lost ▸ hcl
    exact (hawaits g hold).trans (h.alone g hold)

/-- A step that changes none of the tasks. -/
theorem Guarding.world (h : s.Guarding awaits) (hinfo : s'.clients = none ↔ s'.user_info = none)
    (hquiet : s.Quieter s') (hawaits : ∀ u, s.closes_lost u = true → awaits' u = awaits u)
    (hpc : s'.pc = s.pc) (hc : s'.clients = s.clients)
    (hg : s'.guardian_tasks = s.guardian_tasks) : s'.Guarding awaits' := by
  have hsame : ∀ u, s.Same s' u := fun u => same_of_pc (congrFun hpc u)
  refine ⟨hinfo, ?_, ?_, ?_, ?_, ?_, ?_, ?_⟩
  · intro t ht
    rw [hc]
    exact h.renews t ((hsame t).reconnecting ▸ ht)
  · intro hn
    rw [hc] at hn
    rcases h.entry hn with ⟨g, hgt, hguards⟩ | ⟨u, hu⟩
    · exact .inl ⟨g, hg.trans hgt, (hsame g).guards.trans hguards⟩
    · exact .inr ⟨u, (hsame u).retiring.trans hu⟩
  · intro g hgt
    exact (hsame g).stopping.trans (h.kept g (hg.symm.trans hgt))
  · intro e he
    exact hg.trans (h.sole e ((hsame e).guards ▸ he))
  · intro g c hgt hp
    rw [hc]
    exact h.watched g c (hg.symm.trans hgt) ((congrFun hpc g).symm.trans hp)
  · intro g hw
    exact quiet_listens hquiet (.inl hc) (h.lost g ((hsame g).waiting ▸ hw))
  · intro g hcl
    have hold : s.closes_lost g = true := (hsame g).closes_lost ▸ hcl
    exact (hawaits g hold).trans (h.alone g hold)

theorem step_guarding (h : s.Guarding awaits) (hs : s.step a = some s')
    (htakes : s.takes_client a = true → ∀ e, s.reconnecting e = false)
    (hstops : ∀ t, a = .closed t → s.stopping t = false)
    (hawaits : ∀ u, s.closes_lost u = true → awaits' u = awaits u)
    (hnow : ∀ u, s.closes_lost u = false → s'.closes_lost u = true → awaits' u = s.listens) :
    s'.Guarding awaits' := by
  have hholding := step_holding hs
  have hinfo := h.holding hholding
  have htaken : s'.clients = none → ∀ e, s.reconnecting e = false := by
    intro hn e
    cases hr : s.reconnecting e with
    | false => rfl
    | true =>
      apply hr.symm.trans
      cases hholding with
      | same hclients => exact absurd (hclients.symm.trans hn) (h.renews e hr)
      | taken ht => exact htakes ht e
      | stored hclients => exact absurd hn hclients
      | renewed t ht hclients => exact absurd hn hclients
  by_cases hconnected : ∃ t g b, a = .connected t g b
  · obtain ⟨t, g, b, rfl⟩ := hconnected
    cases steps_of_step hs with
    | @connected t l job g b s' ht hg hi =>
      cases job with
      | get_or_create caller =>
        obtain ⟨hr, hcl⟩ := install_replaced hg ht hi
        exact h.installs hinfo hawaits hr hcl fun e he heg hk => install_stopping ht hi he heg hk
      | reconnect info =>
        apply h.reconnects hinfo hawaits (any_of_pc ht rfl) (install_reconnected hi)
        cases hi
        rcases guardian_loop_pc (Pool.release { s with
          objects := Function.update s.objects s.next_object (some ⟨info, b, true, {}⟩)
          next_object := s.next_object + 1
          clients := some s.next_object } l) t with ⟨-, hc⟩ | ⟨c, hp, hc⟩ | ⟨hp, hl⟩
        · cases hc
        · exact .inl ⟨c, hp, ran_guardian_loop.clients.trans hc⟩
        · refine .inr ⟨hp, ?_⟩
          exact quiet_listens quieter_guardian_loop (.inl ran_guardian_loop.clients) hl
      | close_connection => cases hi
  · have hquiet : s.Quieter s' := step_quieter hs fun t g b ha => hconnected ⟨t, g, b, ha⟩
    have hcloses : ∀ t, Proceeds { s with guardian_tasks := none } t s' →
        (∀ g, s.guardian_tasks = some g → s.pc g = none ∨ s.pc g = some .done) →
        s'.Guarding awaits' := by
      intro t hp hdead
      refine h.closes hinfo hquiet hawaits htaken ?_ hp.others ?_ (.inr ⟨hp.guardians, ?_⟩)
      · exact fun hk => by rcases hp.self with hs | hs <;> cases hs.symm.trans hk
      · exact hp.imp (fun h => ⟨h.1.clients, h.2⟩) fun h => h.clients
      · intro g hg hk
        rcases hdead g hg with hp | hp <;> rw [kind, hp] at hk <;> cases hk
    cases step_moves hs with
    | world hb hpc hclients hg => exact h.world hinfo hquiet hawaits hpc hclients hg
    | begins t k hb hk ht hran =>
      refine h.others hinfo hquiet hawaits ?_ ?_ ?_ hran.others hran.clients hran.guardians
      · intro hguardian
        rcases hran.self with hself | hself
        · rcases hk with rfl | rfl <;> cases hself.symm.trans hguardian
        · cases hself.symm.trans hguardian
      · rw [kind, ht]
        exact fun hk => by cases hk
      · rw [retiring, ht]
        rfl
    | runs t k hb ha hk ht hran =>
      by_cases hguardian : k = .guardian
      · subst hguardian
        have hgo := step_goes_on hs ha ht (fun g b he => hconnected ⟨t, g, b, he⟩) (hstops t)
        exact h.goes_on hinfo hquiet hawaits (hnow t) ht hran hgo
      · refine h.others hinfo hquiet hawaits ?_ ?_ ?_ hran.others hran.clients hran.guardians
        · intro hkt
          rcases hran.self with hself | hself
          · exact hguardian (Option.some.inj (hself.symm.trans hkt))
          · cases hself.symm.trans hkt
        · exact fun hkt => hguardian (Option.some.inj (ht.symm.trans hkt))
        · cases hr : s.retiring t with
          | false => rfl
          | true => exact absurd (Option.some.inj (ht.symm.trans (kind_of_retiring hr))) hk
    | closed t hb ht hr hran hover =>
      refine h.others hinfo hquiet hawaits ?_ ?_ hr hran.others hran.clients hran.guardians
      · exact fun hk => by cases hover.symm.trans hk
      · exact fun hk => by cases ht.symm.trans hk
    | closes t hb ht hdead hp => exact hcloses t hp hdead
    | joins t g hb =>
      cases steps_of_step hs with
      | close_joins ht hg hp hd => exact h.joins ht hg hp hawaits
      | close_connection ht hg => exact hcloses _ acquire_close hg
      | _ => cases hb
    | joined t g hb ht hg hp =>
      refine h.closes hinfo hquiet hawaits htaken ?_ hp.others ?_ (.inl hp.guardians)
      · exact fun hk => by rcases hp.self with hs | hs <;> cases hs.symm.trans hk
      · exact hp.imp (fun h => ⟨h.1.clients, h.2⟩) fun h => h.clients
    | enters t l hb ht hr =>
      refine h.closes hinfo hquiet hawaits htaken ?_ hr.others (.inr hr.clients) (.inl hr.guardians)
      exact fun hk => by rcases hr.self with hs | hs <;> cases hs.symm.trans hk
    | reconnects t g l info b ha => exact absurd ⟨t, g, b, ha⟩ hconnected
    | installs t g l caller b ha => exact absurd ⟨t, g, b, ha⟩ hconnected

theorem guarding_initial (h : Initial s) : s.Guarding awaits := by
  subst h
  refine ⟨⟨fun _ => rfl, fun _ => rfl⟩, ?_, fun h => absurd rfl h, ?_, ?_, ?_, ?_, ?_⟩
  · exact fun t ht => by cases ht
  · exact fun g hg => by cases hg
  · exact fun e he => by cases he
  · exact fun g c hg => by cases hg
  · exact fun g hw => by cases hw
  · exact fun g hcl => by cases hcl

theorem Ran.close (h : s.Ran u k s') (hk : s'.kind t = some .close) :
    s.kind t = some .close ∨ t = u ∧ k = .close := by
  by_cases htu : t = u
  · subst htu
    rcases h.self with hself | hself
    · exact .inr ⟨rfl, Option.some.inj (hself.symm.trans hk)⟩
    · cases hself.symm.trans hk
  · exact .inl ((same_of_pc (h.others t htu)).kind ▸ hk)

theorem Removed.close (h : s.Removed u s') (hk : s'.kind t = some .close) :
    s.kind t = some .close ∨ t = u := by
  by_cases htu : t = u
  · exact .inr htu
  · exact .inl ((same_of_pc (h.others t htu)).kind ▸ hk)

/-- A `close_connection` in progress has been called. -/
theorem step_close (hs : s.step a = some s') (hk : s'.kind t = some .close) :
    s.kind t = some .close ∨ a.begins = some (t, .close) := by
  cases step_moves hs with
  | world hb hpc =>
    rw [kind, hpc] at hk
    exact .inl hk
  | begins u k hb hkind hu hran =>
    refine (hran.close hk).imp_right fun h => ?_
    rcases hkind with rfl | rfl <;> cases h.2
  | runs u k hb ha hkind hu hran =>
    exact (hran.close hk).imp_right fun h => absurd h.2 hkind
  | closed u hb hu hr hran hover =>
    refine (hran.close hk).imp_right fun h => ?_
    cases h.1
    cases hover.symm.trans hk
  | closes u hb hu hdead hp =>
    rcases hp with ⟨hran, -⟩ | hr
    · refine (hran.close hk).imp_right fun h => ?_
      rw [h.1, hb]
    · refine (hr.close hk).imp_right fun htu => ?_
      rw [htu, hb]
  | joins u g hb hu hg hr =>
    obtain ⟨r, hr, -, rfl⟩ := hr
    by_cases htu : t = u
    · exact .inr (htu ▸ hb)
    · rw [kind, goto_pc_other htu, ← kind] at hk
      by_cases htg : t = g
      · subst htg
        rcases hr.kinds with hsame | hover
        · exact .inl (hsame ▸ hk)
        · cases hover.symm.trans hk
      · exact .inl ((same_of_pc (hr.others t htg)).kind ▸ hk)
  | joined u g hb hu hg hp =>
    have hclose : s.kind u = some .close := kind_of_pc hu
    have hself : s.kind t = some .close ∨ t = u := by
      rcases hp with ⟨hran, -⟩ | hr
      · exact (hran.close hk).imp_right fun h => h.1
      · exact hr.close hk
    exact .inl (hself.elim id fun htu => htu ▸ hclose)
  | enters u l hb hu hr =>
    have hclose : s.kind u = some .close := kind_of_pc hu
    exact .inl ((hr.close hk).elim id fun htu => htu ▸ hclose)
  | reconnects u g l info b ha hu hr =>
    by_cases htu : t = u
    · subst htu
      rcases hr.self with hself | hself <;> cases hself.symm.trans hk
    · exact .inl ((same_of_pc (hr.others t htu)).kind ▸ hk)
  | installs u g l caller b ha hu hg hr hcl =>
    by_cases htg : t = g
    · subst htg
      rw [kind_of_pc hr.fresh] at hk
      cases hk
    · rcases hr.kinds t htg with hsame | hover
      · exact .inl (hsame ▸ hk)
      · cases hover.symm.trans hk

theorem exec_close {as : List Act} (he : exec step s as = some s')
    (hk : s'.kind t = some .close) :
    s.kind t = some .close ∨ some (t, .close) ∈ as.map Act.begins := by
  induction as generalizing s with
  | nil =>
    cases he
    exact .inl hk
  | cons a as ih =>
    obtain ⟨r, hr, hrest⟩ := exec_cons.mp he
    rcases ih hrest with hkind | hmem
    · rcases step_close hr hkind with h | h
      · exact .inl h
      · exact .inr (List.mem_map.mpr ⟨a, List.mem_cons_self, h⟩)
    · exact .inr (List.mem_cons_of_mem _ hmem)

end Pool

/-- A pool with what each guardian found when it came to close the client that was lost. Where no
listen loop runs, `client.close()` awaits only the socket, and a cancellation is raised there. -/
structure Supervised where
  pool : Pool := {}
  awaits : Nat → Bool := fun _ => false

namespace Supervised

/-- The end of a `client.close()` in which a cancellation is raised. -/
def cancels (s : Supervised) : Pool.Act → Bool
  | .closed t => s.pool.stopping t && !s.awaits t
  | _ => false

def step (s : Supervised) (a : Pool.Act) : Option Supervised :=
  if s.cancels a then none
  else
    (s.pool.step a).map fun p =>
      { pool := p
        awaits := fun t =>
          if p.closes_lost t && !s.pool.closes_lost t then s.pool.listens else s.awaits t }

def Initial (s : Supervised) : Prop := s = {}

/-- Whenever a `close_connection` takes the client, no guardian is about to replace it. -/
def Unreplaced (s : Supervised) (a : Pool.Act) : Prop :=
  s.pool.takes_client a = true → ∀ e, s.pool.reconnecting e = false

variable {s s' : Supervised}

theorem step_guarding (h : s.pool.Guarding s.awaits) (hc : s.Unreplaced a)
    (hs : s.step a = some s') : s'.pool.Guarding s'.awaits := by
  rw [step] at hs
  split at hs
  · cases hs
  · rename_i hcancels
    obtain ⟨p, hp, rfl⟩ := Option.map_eq_some_iff.mp hs
    apply Pool.step_guarding h hp hc
    · rintro t rfl
      cases hst : s.pool.stopping t with
      | false => rfl
      | true =>
        have halone := h.alone t (Pool.stopping_closes hst)
        rw [cancels, hst, halone] at hcancels
        exact absurd rfl hcancels
    · intro u hu
      simp only [hu, Bool.not_true, Bool.and_false, Bool.false_eq_true, if_false]
    · intro u hu hcl
      simp only [hu, hcl, Bool.not_false, Bool.and_true, if_true]

/-- In every run in which no client is taken while a guardian is about to replace it. -/
theorem connections_guarded (h : Reach step Unreplaced Initial s) : s.pool.Guarded := by
  have hinv : s.pool.Guarding s.awaits := by
    refine h.invariant (I := fun s => s.pool.Guarding s.awaits) ?_ ?_
    · rintro s rfl
      exact Pool.guarding_initial rfl
    · exact fun s a s' hi hc hs => step_guarding hi hc hs
  exact hinv.guarded

/-- A lost connection that the guardian renews, up to where a `close_connection` takes it. -/
def unguarded : Supervised := (exec step {} (Pool.renewed.take 10)).get (by decide)

def retaken : List Pool.Act := Pool.renewed.drop 10 ++ Pool.reopened

theorem unguarded_quiet (u : Nat) : unguarded.pool.reconnecting u = false := by
  match u with
  | 0 | 1 | 2 | 3 => rfl
  | n + 4 => rfl

theorem meets_renewed : Meets step Unreplaced {} (Pool.renewed.take 10) := by
  refine ⟨fun h => ?_, fun h => ?_, fun h => ?_, fun h => ?_, fun h => ?_, fun h => ?_, fun h => ?_,
    fun h => ?_, fun h => ?_, fun h => ?_, trivial⟩
  all_goals exact absurd h (by decide)

theorem meets_retaken : Meets step Unreplaced unguarded retaken := by
  refine ⟨fun _ e => unguarded_quiet e, fun h => ?_, fun h => ?_, fun h => ?_, trivial⟩
  all_goals exact absurd h (by decide)

/-- The client is taken while no guardian is about to replace it. -/
theorem connections_guarded_retaken : ∃ s, exec step unguarded retaken = some s ∧
    unguarded.pool.takes_client (.joined 3) = true ∧
    s.pool.clients = some 2 ∧ s.pool.guards 5 = true ∧ s.pool.Guarded := by
  have h : ((exec step unguarded retaken).any fun s =>
      s.pool.clients = some 2 ∧ s.pool.guards 5 = true) = true := by decide
  obtain ⟨s, hs, hval⟩ := (Option.any_eq_true _ _).mp h
  obtain ⟨hc, hg⟩ := of_decide_eq_true hval
  have hi : Initial {} := rfl
  have hrun : exec step {} (Pool.renewed.take 10) = some unguarded := (Option.some_get _).symm
  have hr : Reach step Unreplaced Initial unguarded := (Reach.start hi).exec meets_renewed hrun
  exact ⟨s, hs, rfl, hc, hg, connections_guarded (hr.exec meets_retaken hs)⟩

/-- The `close_connection` comes after the guardian of the first client and before the one of the
second, which waits for the lock behind it. -/
def orphaned : List Pool.Act :=
  [.get_or_create 0 Pool.home, .connected 0 1 true, .guardian_runs 1, .listen_end 0,
    .guardian_runs 1, .get_or_create 2 Pool.home, .closed 2, .close_connection 3,
    .get_or_create 4 Pool.home, .unwind 1, .joined 3, .connected 2 5 true, .listen_end 1,
    .lock_granted 4, .closed 4, .guardian_runs 5, .guardian_runs 5, .connect_failed 4,
    .lock_granted 3, .closed 3, .lock_granted 5, .connected 5 6 true, .listen_end 2,
    .guardian_runs 5, .guardian_runs 5]

theorem exec_pool {as : List Pool.Act} (he : exec step s as = some s') :
    exec Pool.step s.pool as = some s'.pool := by
  induction as generalizing s with
  | nil =>
    cases he
    rfl
  | cons a as ih =>
    obtain ⟨r, hr, hrest⟩ := exec_cons.mp he
    rw [step] at hr
    split at hr
    · cases hr
    · obtain ⟨p, hp, rfl⟩ := Option.map_eq_some_iff.mp hr
      exact exec_cons.mpr ⟨p, hp, ih hrest⟩

/-- A client is in the pool, nobody closes it, and its guardian is over. -/
theorem not_connections_guarded : ∃ s, Reach step Any Initial s ∧ ¬ s.pool.Guarded := by
  have h : ((exec step {} orphaned).any fun s => s.pool.clients = some 2 ∧
      s.pool.guardian_tasks = some 5 ∧ s.pool.kind 5 = some .over ∧
      s.pool.kind 3 = some .over) = true := by decide
  obtain ⟨s, hs, hval⟩ := (Option.any_eq_true _ _).mp h
  obtain ⟨hc, hg, hover, hclosed⟩ := of_decide_eq_true hval
  refine ⟨s, reach_of_exec rfl hs, fun hguarded => ?_⟩
  have hclients : s.pool.clients ≠ none := by
    rw [hc]
    exact fun h => by cases h
  obtain ⟨g, hgt, hguards, -⟩ := hguarded hclients fun t hk => by
    rcases Pool.exec_close (exec_pool hs) hk with hnone | hmem
    · cases hnone
    · have hthree : t = 3 := by simpa [orphaned, Pool.Act.begins] using hmem
      rw [hthree, hclosed] at hk
      cases hk
  cases hg.symm.trans hgt
  cases hover.symm.trans (Pool.guards_kind hguards)

end Supervised

end ClawMux
