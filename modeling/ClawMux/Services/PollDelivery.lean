import ClawMux.Lib.Cursor
import ClawMux.Lib.Transition
import ClawMux.Services.LongPolling

namespace ClawMux
set_option autoImplicit true
open Lib

/-- An update: an object with an integer id. -/
structure Update (id_key : String) where
  fields : List (String × Json)
  id : Int
  has_id : fields.lookup id_key = some (.num id)

def Update.json (u : Update id_key) : Json := .obj u.fields

def PollLoop.answer (l : PollLoop) (batch : List (Update l.id_key)) : PollAnswer :=
  .response 200 (some (.obj [("ok", .bool true), (l.list_key, .arr (batch.map Update.json))]))

/-- An error: no answer, another status, no JSON, or JSON without updates. -/
def PollAnswer.is_error (list_key : String) : PollAnswer → Bool
  | .raised => true
  | .response _ none => true
  | .response status_code (some json) =>
    status_code ≠ 200 || (json.fields.lookup list_key).isNone

/-- `log` has all updates that ever came, `queue` those that are not acknowledged, and `answered`
counts the polls that brought an update. -/
structure Polling (l : PollLoop) where
  log : List (Update l.id_key) := []
  queue : List (Update l.id_key) := []
  poller : Poller := {}
  answered : Nat := 0

inductive PollAction (id_key : String)
  | arrive (u : Update id_key)
  | poll (n : Nat)
  | fail (answer : PollAnswer) (acknowledged : Bool)

/-- A request acknowledges the updates it does not ask for. -/
def Polling.asked {l : PollLoop} (s : Polling l) : List (Update l.id_key) :=
  match l.param s.poller.cursor with
  | some c => s.queue.filter fun u => l.asked c u.id
  | none => s.queue

def Polling.step {l : PollLoop} (handle : UpdateHandler) (s : Polling l) :
    PollAction l.id_key → Option (Polling l)
  | .arrive u =>
    if ∀ v ∈ s.log, v.id < u.id then
      some { s with log := s.log ++ [u], queue := s.queue ++ [u] }
    else none
  | .poll n =>
    let batch := s.asked.take n
    some { s with
      queue := s.asked
      poller := ClawMux.poll l handle (l.answer batch) s.poller
      answered := if batch.isEmpty then s.answered else s.answered + 1 }
  | .fail answer acknowledged =>
    if answer.is_error l.list_key then
      some { s with
        queue := if acknowledged then s.asked else s.queue
        poller := ClawMux.poll l handle answer s.poller }
    else none

/-- The number of updates up to `u` that the handler is yet to see. -/
def Polling.waiting {l : PollLoop} (s : Polling l) (u : Update l.id_key) : Nat :=
  s.log.countP fun v => Json.gt {} (.num v.id) s.poller.cursor = some true ∧ v.id ≤ u.id

/-- The ids of two updates ascend. -/
def before (id_key : String) (u v : Json) : Prop :=
  Json.gt {} (Json.get v.fields id_key .null) (Json.get u.fields id_key .null) = some true

/-- The handler sees the updates past the cursor 0 once each, in the order of their ids. -/
structure PollLoop.ExactlyOnce (l : PollLoop) (handle : UpdateHandler) : Prop where
  in_order : ∀ s, Reach (Polling.step handle) Any (· = ({} : Polling l)) s →
    s.poller.handled.Pairwise (before l.id_key)
  complete : ∀ s, Reach (Polling.step handle) Any (· = ({} : Polling l)) s →
    ∃ c : Int, s.poller.cursor = .num c ∧
      s.poller.handled = (Cursor.passed Update.id 0 c s.log).map Update.json
  cursors : ∀ s, Reach (Polling.step handle) Any (· = ({} : Polling l)) s →
    s.poller.cursors.Pairwise fun c c' => Json.gt {} c c' = some false
  progress : ∀ s, Reach (Polling.step handle) Any (· = ({} : Polling l)) s →
    ∀ s', Reach (Polling.step handle) Any (· = s) s' → ∀ u ∈ s.log, 0 < u.id →
      u.json ∈ s'.poller.handled ∨ s'.answered < s.answered + s.waiting u

/-! What the two loops share -/

/-- A loop keeps an integer cursor, asks for what is past it and moves it to each update. -/
structure PollLoop.Sound (l : PollLoop) : Prop where
  asked : ∀ c : Int, ∃ r, l.param (.num c) = some r ∧ ∀ i : Int, l.asked r i = decide (c < i)
  answer : ∀ batch, l.updates (l.answer batch) = .ok (batch.map Update.json)
  error : ∀ answer, answer.is_error l.list_key → ∀ us, l.updates answer = .ok us → us = []
  next_id : ∀ (c : Int) (u : Update l.id_key), c < u.id →
    l.next_id (.num c) u.json = .ok (.num u.id)

theorem gt_of_lt {c d : Int} (h : c < d) : Json.gt py (.num d) (.num c) = some true := by
  have hlt : (c : Rat) < d := by exact_mod_cast h
  simp only [Json.gt, Json.number, decide_eq_true hlt]

theorem gt_of_le {c d : Int} (h : c ≤ d) : Json.gt py (.num c) (.num d) = some false := by
  have hle : (c : Rat) ≤ d := by exact_mod_cast h
  simp only [Json.gt, Json.number, decide_eq_false (not_lt.mpr hle)]

theorem get_id (u : Update id_key) : Dynamic.get id_key d u.json = .ok (.num u.id) := by
  rw [Update.json, Dynamic.get, Json.get, u.has_id, Option.getD_some]

theorem list_missing (h : (PollAnswer.response status_code json).is_error list_key = true)
    (hs : ¬ status_code ≠ 200) (hdata : read_json json = .ok data) :
    (data.fields.lookup list_key).isNone = true := by
  cases json with
  | none => cases hdata
  | some j =>
    cases hdata
    simpa [PollAnswer.is_error, not_not.mp hs] using h

theorem telegram_sound : (TelegramAdapter.poll_loop py).Sound where
  asked c := by
    refine ⟨c + 1, rfl, ?_⟩
    intro i
    refine decide_eq_decide.mpr ?_
    norm_cast
  answer batch := rfl
  error answer h us hus := by
    cases answer with
    | raised => cases hus
    | response status_code json =>
      change (if status_code ≠ 200 then _ else _) = _ at hus
      split at hus
      · exact (Except.ok.inj hus).symm
      · next hs =>
        obtain ⟨data, hdata, hus⟩ := bind_ok hus
        obtain ⟨ok, _, hus⟩ := bind_ok hus
        split at hus
        · obtain ⟨result, hresult, hus⟩ := bind_ok hus
          rw [Dynamic.get_missing (list_missing h hs hdata) hresult] at hus
          exact (Except.ok.inj hus).symm
        · exact (Except.ok.inj hus).symm
  next_id c u hu := by
    have hid : Dynamic.get "update_id" (.num 0) u.json = .ok (.num u.id) := get_id u
    have hgt : Json.gt py (.num u.id) (.num c) = some true := gt_of_lt hu
    change TelegramAdapter.next_id py (.num c) u.json = _
    simp only [TelegramAdapter.next_id, hid, bind, Except.bind, hgt]
    rfl

theorem vk_teams_sound : VkTeamsAdapter.poll_loop.Sound where
  asked c := by
    refine ⟨c, rfl, ?_⟩
    intro i
    refine decide_eq_decide.mpr ?_
    norm_cast
  answer batch := rfl
  error answer h us hus := by
    cases answer with
    | raised => cases hus
    | response status_code json =>
      change (if status_code ≠ 200 then _ else _) = _ at hus
      split at hus
      · exact (Except.ok.inj hus).symm
      · next hs =>
        obtain ⟨data, hdata, hus⟩ := bind_ok hus
        obtain ⟨events, hevents, hus⟩ := bind_ok hus
        rw [Dynamic.get_missing (list_missing h hs hdata) hevents] at hus
        exact (Except.ok.inj hus).symm
  next_id c u hu := get_id u

/-! One answer -/

/-- What the handler makes of an update. -/
def event_of (handle : UpdateHandler) (update : Json) : Option AdapterEvent :=
  match handle update with
  | .ok event => event
  | .error _ => none

/-- The poller after the updates `done` were passed to the handler. -/
def Poller.after (handle : UpdateHandler) (done : List (Update id_key)) (c : Int) (p : Poller) :
    Poller where
  cursor := .num (Cursor.advance Update.id c done)
  cursors := p.cursors ++ done.map fun u => .num u.id
  handled := p.handled ++ done.map Update.json
  dispatched := p.dispatched ++ (done.map Update.json).filterMap (event_of handle)

/-- Of a batch past the cursor some first updates are handled, at least one if there is any. -/
theorem read_updates_spec {l : PollLoop} (hl : l.Sound) (handle : UpdateHandler)
    (batch : List (Update l.id_key)) (c : Int) (p : Poller) (hc : p.cursor = .num c)
    (hasc : Cursor.Ascending Update.id batch) (hlt : ∀ u ∈ batch, c < u.id) :
    ∃ done, done <+: batch ∧ (batch ≠ [] → done ≠ []) ∧
      read_updates l.next_id handle (batch.map Update.json) p = p.after handle done c := by
  induction batch generalizing c p with
  | nil =>
    refine ⟨[], List.nil_prefix, fun h => h, ?_⟩
    simp [read_updates, Poller.after, Cursor.advance, ← hc]
  | cons u batch ih =>
    have hnext := hl.next_id c u (hlt u List.mem_cons_self)
    obtain ⟨hu, hrest⟩ := List.pairwise_cons.mp hasc
    cases hh : handle u.json with
    | error e =>
      refine ⟨[u], ⟨batch, rfl⟩, fun _ => List.cons_ne_nil _ _, ?_⟩
      simp [read_updates, hc, hnext, hh, Poller.after, Cursor.advance, event_of]
    | ok event =>
      obtain ⟨done, hd, _, hrun⟩ := ih u.id
        { cursor := .num u.id
          cursors := p.cursors ++ [.num u.id]
          handled := p.handled ++ [u.json]
          dispatched := p.dispatched ++ event.toList } rfl hrest hu
      refine ⟨u :: done, List.cons_prefix_cons.mpr ⟨rfl, hd⟩, fun _ => List.cons_ne_nil _ _, ?_⟩
      rw [List.map_cons, read_updates, hc, hnext]
      simp only [hh]
      rw [hrun]
      cases event with
      | none => simp [Poller.after, Cursor.advance, event_of, hh]
      | some event => simp [Poller.after, Cursor.advance, event_of, hh]

theorem Poller.after_after (handle : UpdateHandler) (xs ys : List (Update id_key)) (c : Int)
    (p : Poller) : (p.after handle xs c).after handle ys (Cursor.advance Update.id c xs) =
      p.after handle (xs ++ ys) c := by
  simp [Poller.after, Cursor.advance_append]

/-- An error leaves the adapter as it is. -/
theorem poll_error {l : PollLoop} {answer : PollAnswer} (hl : l.Sound) (handle : UpdateHandler)
    (p : Poller) (h : answer.is_error l.list_key = true) : poll l handle answer p = p := by
  rw [poll]
  cases hu : l.updates answer with
  | error e => rfl
  | ok us =>
    rw [hl.error answer h us hu]
    rfl

/-! Runs -/

/-- What holds between the cursor, the log and what the handler has seen. -/
structure Polling.Inv {l : PollLoop} (handle : UpdateHandler) (s : Polling l) (c : Int) : Prop where
  nonneg : 0 ≤ c
  ascending : Cursor.Ascending Update.id s.log
  reached : c = 0 ∨ ∃ u ∈ s.log, u.id = c
  queue : Cursor.pending Update.id c s.queue = Cursor.pending Update.id c s.log
  last : Cursor.advance Update.id 0 (Cursor.passed Update.id 0 c s.log) = c
  poller : s.poller = ({} : Poller).after handle (Cursor.passed Update.id 0 c s.log) 0

section
variable {l : PollLoop} {handle : UpdateHandler} {s s' : Polling l}

theorem Polling.Inv.cursor (h : s.Inv handle c) : s.poller.cursor = .num c := by
  rw [h.poller, Poller.after, h.last]

theorem Polling.Inv.handled (h : s.Inv handle c) :
    s.poller.handled = (Cursor.passed Update.id 0 c s.log).map Update.json := by
  rw [h.poller, Poller.after, List.nil_append]

theorem Polling.inv_start (handle : UpdateHandler) : ({} : Polling l).Inv handle 0 where
  nonneg := le_refl 0
  ascending := List.Pairwise.nil
  reached := .inl rfl
  queue := rfl
  last := rfl
  poller := rfl

/-- A request asks for what is pending. -/
theorem Polling.Inv.asked (hl : l.Sound) (h : s.Inv handle c) :
    s.asked = Cursor.pending Update.id c s.log := by
  obtain ⟨r, hr, hasked⟩ := hl.asked c
  rw [← h.queue, Polling.asked, h.cursor, hr]
  exact List.filter_congr fun u _ => hasked u.id

/-- Moving on to the updates `done`. -/
theorem Polling.Inv.move (h : s.Inv handle c) (hd : done <+: Cursor.pending Update.id c s.log)
    (hlog : s'.log = s.log) (hp : s'.poller = s.poller.after handle done c)
    (hq : Cursor.pending Update.id c s'.queue = Cursor.pending Update.id c s.log) :
    s'.Inv handle (Cursor.advance Update.id c done) where
  nonneg := h.nonneg.trans (Cursor.le_advance h.ascending hd)
  ascending := hlog ▸ h.ascending
  reached := by
    rw [hlog]
    rcases @Cursor.advance_mem _ Update.id c done with he | ⟨u, hu, he⟩
    · rw [he]
      exact h.reached
    · exact .inr ⟨u, (Cursor.mem_pending.mp (hd.subset hu)).1, he⟩
  queue := by
    have hle := Cursor.le_advance h.ascending hd
    rw [← Cursor.pending_pending hle, hq, Cursor.pending_pending hle, hlog]
  last := by
    rw [hlog, Cursor.passed_advance h.ascending h.nonneg hd, Cursor.advance_append, h.last]
  poller := by
    have hnow := h.last
    rw [hlog, Cursor.passed_advance h.ascending h.nonneg hd, ← Poller.after_after, hnow, hp,
      h.poller]

/-- What a step does: the handler sees `done`, the next pending updates; a new update comes after
all others. -/
theorem Polling.step_spec (hl : l.Sound) (h : s.Inv handle c) (hs : s.step handle a = some s') :
    ∃ done, done <+: Cursor.pending Update.id c s.log ∧
      s'.Inv handle (Cursor.advance Update.id c done) ∧
      (s'.answered = s.answered ∧ done = [] ∨ s'.answered = s.answered + 1 ∧ done ≠ []) ∧
      (s'.log = s.log ∨ ∃ v, s'.log = s.log ++ [v] ∧ ∀ u ∈ s.log, u.id < v.id) := by
  cases a with
  | arrive v =>
    rw [Polling.step] at hs
    split at hs
    · next hv =>
      cases hs
      have hpast : c < v.id ∨ v.id ≤ 0 := by
        rcases h.reached with rfl | ⟨u, hu, rfl⟩
        · omega
        · exact .inl (hv u hu)
      refine ⟨[], List.nil_prefix, ?_, .inl ⟨rfl, rfl⟩, .inr ⟨v, rfl, hv⟩⟩
      exact
        { nonneg := h.nonneg
          ascending := h.ascending.append hv
          reached := h.reached.imp_right fun ⟨u, hu, he⟩ =>
            ⟨u, List.mem_append_left [v] hu, he⟩
          queue := by
            rw [Cursor.advance, Cursor.pending_append, Cursor.pending_append, h.queue]
          last := by
            rw [Cursor.advance, Cursor.passed_append hpast]
            exact h.last
          poller := by
            rw [Cursor.advance, Cursor.passed_append hpast]
            exact h.poller }
    · cases hs
  | poll n =>
    cases hs
    have hbatch : s.asked.take n <+: Cursor.pending Update.id c s.log := by
      rw [h.asked hl]
      exact List.take_prefix n _
    have hasc : Cursor.Ascending Update.id (s.asked.take n) :=
      h.ascending.sublist (hbatch.sublist.trans List.filter_sublist)
    have hlt : ∀ u ∈ s.asked.take n, c < u.id := fun u hu =>
      (Cursor.mem_pending.mp (hbatch.subset hu)).2
    obtain ⟨done, hd, hne, hrun⟩ :=
      read_updates_spec hl handle (s.asked.take n) c s.poller h.cursor hasc hlt
    refine ⟨done, hd.trans hbatch, h.move (hd.trans hbatch) rfl ?_ ?_, ?_, .inl rfl⟩
    · rw [← hrun]
      simp only [poll, hl.answer]
    · rw [h.asked hl, Cursor.pending_pending (le_refl c)]
    · cases hb : s.asked.take n with
      | nil =>
        refine .inl ⟨rfl, List.prefix_nil.mp ?_⟩
        exact hb ▸ hd
      | cons u us => exact .inr ⟨rfl, hne (hb ▸ List.cons_ne_nil u us)⟩
  | fail answer acknowledged =>
    rw [Polling.step] at hs
    split at hs
    · next he =>
      cases hs
      refine ⟨[], List.nil_prefix, h.move List.nil_prefix rfl ?_ ?_, .inl ⟨rfl, rfl⟩, .inl rfl⟩
      · rw [poll_error hl handle s.poller he, Poller.after, Cursor.advance, ← h.cursor]
        simp
      · cases acknowledged with
        | false => exact h.queue
        | true =>
          rw [if_pos rfl, h.asked hl, Cursor.pending_pending (le_refl c)]
    · cases hs

theorem Polling.reach_inv (hl : l.Sound)
    (h : Reach (Polling.step handle) Any (· = ({} : Polling l)) s) : ∃ c, s.Inv handle c := by
  refine h.invariant (I := fun s => ∃ c, s.Inv handle c) ?_ ?_
  · rintro s rfl
    exact ⟨0, Polling.inv_start handle⟩
  · rintro s a s' ⟨c, hc⟩ _ hs
    obtain ⟨done, _, hinv, _⟩ := Polling.step_spec hl hc hs
    exact ⟨_, hinv⟩

/-- As long as `u` was not reached, each answer with an update brings it closer. -/
theorem Polling.waiting_run (hl : l.Sound) (h : s.Inv handle c) (hu : u ∈ s.log)
    (hr : Reach (Polling.step handle) Any (· = s) s') :
    ∃ c', s'.Inv handle c' ∧ u ∈ s'.log ∧ (u.id ≤ c' ∨
      s'.answered + Cursor.waiting Update.id c' s'.log u ≤
        s.answered + Cursor.waiting Update.id c s.log u) := by
  refine hr.invariant (I := fun s' => ∃ c', s'.Inv handle c' ∧ u ∈ s'.log ∧ (u.id ≤ c' ∨
      s'.answered + Cursor.waiting Update.id c' s'.log u ≤
        s.answered + Cursor.waiting Update.id c s.log u)) ?_ ?_
  · rintro s rfl
    exact ⟨c, h, hu, .inr (le_refl _)⟩
  · rintro t a t' ⟨d, hinv, hmem, hw⟩ _ ht
    obtain ⟨done, hd, hinv', hans, hlog⟩ := Polling.step_spec hl hinv ht
    have hle := Cursor.le_advance hinv.ascending hd
    have hmem' : u ∈ t'.log := by
      rcases hlog with he | ⟨v, he, _⟩
      · exact he ▸ hmem
      · exact he ▸ List.mem_append_left [v] hmem
    refine ⟨_, hinv', hmem', ?_⟩
    by_cases hlt : d < u.id
    · have hw := hw.resolve_left (by omega)
      have hsame : Cursor.waiting Update.id (Cursor.advance Update.id d done) t'.log u =
          Cursor.waiting Update.id (Cursor.advance Update.id d done) t.log u := by
        rcases hlog with he | ⟨v, he, hv⟩
        · rw [he]
        · rw [he, Cursor.waiting_append (hv u hmem)]
      right
      rw [hsame]
      rcases hans with ⟨ha, rfl⟩ | ⟨ha, hne⟩
      · rw [ha]
        exact hw
      · have := Cursor.waiting_advance hinv.ascending hd hne (Cursor.mem_pending.mpr ⟨hmem, hlt⟩)
        omega
    · exact .inl (by omega)

theorem Polling.Inv.waiting (h : s.Inv handle c) (u : Update l.id_key) :
    s.waiting u = Cursor.waiting Update.id c s.log u := by
  rw [Polling.waiting, Cursor.waiting, Cursor.pending, List.countP_filter, h.cursor]
  refine List.countP_congr ?_
  intro v _
  have hgt : Json.gt {} (.num v.id) (.num c) = some true ↔ c < v.id := by
    simp only [Json.gt, Json.number, Option.some.injEq, decide_eq_true_eq]
    norm_cast
  rw [decide_eq_true_eq, Bool.and_eq_true, decide_eq_true_eq, decide_eq_true_eq, hgt, and_comm]

theorem Polling.Inv.in_order (h : s.Inv handle c) :
    s.poller.handled.Pairwise (before l.id_key) := by
  rw [h.handled, List.pairwise_map]
  refine List.Pairwise.imp ?_ (h.ascending.sublist List.filter_sublist)
  intro u v huv
  rw [before, Update.json, Update.json, Json.fields, Json.fields, Json.get, Json.get, u.has_id,
    v.has_id]
  exact gt_of_lt huv

theorem Polling.Inv.cursors (h : s.Inv handle c) :
    s.poller.cursors.Pairwise fun c c' => Json.gt {} c c' = some false := by
  rw [h.poller, Poller.after, List.singleton_append, List.pairwise_cons, List.pairwise_map]
  constructor
  · intro j hj
    obtain ⟨u, hu, rfl⟩ := List.mem_map.mp hj
    have hu := (Cursor.mem_passed.mp hu).2.1
    have hgt := @gt_of_le {} _ _ (le_of_lt hu)
    rwa [Int.cast_zero] at hgt
  · refine List.Pairwise.imp ?_ (h.ascending.sublist List.filter_sublist)
    intro u v huv
    exact gt_of_le (le_of_lt huv)

theorem PollLoop.Sound.exactly_once (hl : l.Sound) (handle : UpdateHandler) :
    l.ExactlyOnce handle where
  in_order s hs := by
    obtain ⟨c, h⟩ := Polling.reach_inv hl hs
    exact h.in_order
  complete s hs := by
    obtain ⟨c, h⟩ := Polling.reach_inv hl hs
    exact ⟨c, h.cursor, h.handled⟩
  cursors s hs := by
    obtain ⟨c, h⟩ := Polling.reach_inv hl hs
    exact h.cursors
  progress s hs s' hr u hu hpos := by
    obtain ⟨c, h⟩ := Polling.reach_inv hl hs
    obtain ⟨c', h', hu', hw⟩ := Polling.waiting_run hl h hu hr
    by_cases hle : u.id ≤ c'
    · left
      rw [h'.handled]
      exact List.mem_map_of_mem (Cursor.mem_passed.mpr ⟨hu', hpos, hle⟩)
    · right
      have hw := hw.resolve_left hle
      have := Cursor.waiting_pos (Cursor.mem_pending.mpr ⟨hu', not_le.mp hle⟩)
      rw [h.waiting]
      omega

end

/-- Whatever the handler does with the updates. -/
theorem long_polling_exactly_once (py : Dynamics) (handle : UpdateHandler) :
    (TelegramAdapter.poll_loop py).ExactlyOnce handle ∧
      VkTeamsAdapter.poll_loop.ExactlyOnce handle :=
  ⟨telegram_sound.exactly_once handle, vk_teams_sound.exactly_once handle⟩

/-- The handler raises on a message that is no object. -/
def sample_update (id : Int) (message : Json) : Update "update_id" where
  fields := [("update_id", .num id), ("message", message)]
  id := id
  has_id := rfl

def sample_message : Json := .obj [("text", .str "hi"), ("chat", .obj [("id", .num 5)])]

example : ((exec (Polling.step (TelegramAdapter.handle_update {}))
    ({} : Polling (TelegramAdapter.poll_loop {}))
    [.arrive (sample_update 1 sample_message), .arrive (sample_update 2 (.bool true)),
      .fail (.response 502 none) true, .arrive (sample_update 3 sample_message), .poll 3,
      .poll 3]).map fun s =>
    (s.poller.handled.length, s.poller.dispatched.length, s.answered)) = some (3, 2, 2) := by
  decide +kernel

end ClawMux
