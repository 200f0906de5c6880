import ClawMux.Lib.FifoLock
import ClawMux.Lib.Text
import ClawMux.Lib.Transition

namespace ClawMux
set_option autoImplicit true
open Lib Lib.Text

/-- The fields of a `StreamUpdater` that never change; times are in milliseconds. -/
structure StreamUpdater where
  post_id : String
  channel_id : String := ""
  interval : Int := 800

/-- A call of `adapter.update_reply`; a call without a channel leaves the keyword out. -/
structure Edit where
  post_id : String
  text : String
  channel_id : Option String
  deriving DecidableEq, Repr

def StreamUpdater.edit (u : StreamUpdater) (text : String) : Edit :=
  ⟨u.post_id, text, if u.channel_id = "" then none else some u.channel_id⟩

/-- Where an `on_stream` task stands; `applied` says whether the platform has made its edit. -/
inductive StreamTask
  | created (text : String)
  | waiting (text : String) (now : Int)
  | updating (text : String) (applied : Bool)
  | done

/-- Where the final edit of `handle_event` stands. -/
inductive FinalEdit
  | pending
  | issued
  | applied
  deriving DecidableEq

/-- One request: its updater, its tasks, and the edits issued and made so far. -/
structure Streaming where
  last_update : Int := 0
  last_text : String := ""
  lock : FifoLock Nat := {}
  task : Nat → Option StreamTask := fun _ => none
  final : FinalEdit := .pending
  issued : List Edit := []
  applied : List String := []

namespace Streaming

variable (u : StreamUpdater) (final_edit : Edit)

def set (s : Streaming) (t : Nat) (x : StreamTask) : Streaming :=
  { s with task := Function.update s.task t (some x) }

def throttled (s : Streaming) (now : Int) : Bool := now - s.last_update < u.interval

/-- The section of `on_stream` under the lock, up to the platform call. -/
def enter (s : Streaming) (t : Nat) (text : String) (now : Int) : Streaming :=
  if s.throttled u now then { s with last_text := text, lock := s.lock.release }.set t .done
  else
    { s with
      last_update := now
      last_text := text
      issued := s.issued ++ [u.edit text] }.set t (.updating text false)

inductive Act
  | spawn (t : Nat) (text : String)
  | start (t : Nat) (now : Int)
  | grant (t : Nat)
  | apply (t : Nat)
  | finish (t : Nat)
  | issue_final
  | apply_final

def step (s : Streaming) : Act → Option Streaming
  | .spawn t text =>
    match s.task t, s.final with
    | none, .pending => some (s.set t (.created text))
    | _, _ => none
  | .start t now =>
    match s.task t with
    | some (.created text) =>
      if u.post_id = "" ∨ strip text = "" then some (s.set t .done)
      else if s.throttled u now then some ({ s with last_text := text }.set t .done)
      else if s.lock.free then some ({ s with lock := s.lock.take t }.enter u t text now)
      else some ({ s with lock := s.lock.enqueue t }.set t (.waiting text now))
    | _ => none
  | .grant t =>
    match s.task t, s.lock.grant t with
    | some (.waiting text now), some lock => some ({ s with lock := lock }.enter u t text now)
    | _, _ => none
  | .apply t =>
    match s.task t with
    | some (.updating text false) =>
      some ({ s with applied := s.applied ++ [text] }.set t (.updating text true))
    | _ => none
  | .finish t =>
    match s.task t with
    | some (.updating _ _) => some ({ s with lock := s.lock.release }.set t .done)
    | _ => none
  | .issue_final =>
    match s.final with
    | .pending => some { s with final := .issued, issued := s.issued ++ [final_edit] }
    | _ => none
  | .apply_final =>
    match s.final with
    | .issued => some { s with final := .applied, applied := s.applied ++ [final_edit.text] }
    | _ => none

def Initial (s : Streaming) : Prop := s = {}

/-- The task will make no edit any more. -/
def Settled : Option StreamTask → Prop
  | none | some .done => True
  | some (.created text) => u.post_id = "" ∨ strip text = ""
  | _ => False

/-- The final edit is issued only when every task that may still edit has finished. -/
def FinalSettled (s : Streaming) : Act → Prop
  | .issue_final => ∀ t, Settled u (s.task t)
  | _ => True

/-- The final edit is the last one issued, and what it says is the last text applied. -/
structure FinalWins (s : Streaming) : Prop where
  last_issued : s.final ≠ .pending → s.issued.getLast? = some final_edit
  last_applied : s.final = .applied → s.applied.getLast? = some final_edit.text

/-- After the final edit no task is left that may edit, and nothing came after it. -/
structure Over (s : Streaming) : Prop where
  settled : ∀ t, Settled u (s.task t)
  last_issued : s.issued.getLast? = some final_edit
  last_applied : s.final = .applied → s.applied.getLast? = some final_edit.text

variable {u final_edit}

theorem enter_final (s : Streaming) : (s.enter u t text now).final = s.final := by
  rw [enter]
  split <;> rfl

/-- What a step does, and to which task. -/
inductive Changes (u : StreamUpdater) (final_edit : Edit) (s : Streaming) :
    Act → Streaming → Prop
  | spawn (t : Nat) (text : String) (hf : s.final = .pending) :
    Changes u final_edit s (.spawn t text) (s.set t (.created text))
  | skips (t : Nat) (text : String) (now : Int) (ht : s.task t = some (.created text))
      (hb : u.post_id = "" ∨ strip text = "") :
    Changes u final_edit s (.start t now) (s.set t .done)
  | throttles (t : Nat) (text : String) (now : Int) (ht : s.task t = some (.created text))
      (hb : ¬ (u.post_id = "" ∨ strip text = "")) :
    Changes u final_edit s (.start t now) ({ s with last_text := text }.set t .done)
  | enters (t : Nat) (text : String) (now : Int) (ht : s.task t = some (.created text))
      (hb : ¬ (u.post_id = "" ∨ strip text = "")) (hopen : s.throttled u now = false)
      (hfree : s.lock.free = true) :
    Changes u final_edit s (.start t now) ({ s with lock := s.lock.take t }.enter u t text now)
  | waits (t : Nat) (text : String) (now : Int) (ht : s.task t = some (.created text))
      (hb : ¬ (u.post_id = "" ∨ strip text = "")) :
    Changes u final_edit s (.start t now)
      ({ s with lock := s.lock.enqueue t }.set t (.waiting text now))
  | grants (t : Nat) (text : String) (now : Int) (lock : FifoLock Nat)
      (ht : s.task t = some (.waiting text now)) (hl : s.lock.grant t = some lock) :
    Changes u final_edit s (.grant t) ({ s with lock := lock }.enter u t text now)
  | applies (t : Nat) (text : String) (ht : s.task t = some (.updating text false)) :
    Changes u final_edit s (.apply t)
      ({ s with applied := s.applied ++ [text] }.set t (.updating text true))
  | finishes (t : Nat) (text : String) (b : Bool) (ht : s.task t = some (.updating text b)) :
    Changes u final_edit s (.finish t) ({ s with lock := s.lock.release }.set t .done)
  | issues_final (hf : s.final = .pending) :
    Changes u final_edit s .issue_final
      { s with final := .issued, issued := s.issued ++ [final_edit] }
  | applies_final (hf : s.final = .issued) :
    Changes u final_edit s .apply_final
      { s with final := .applied, applied := s.applied ++ [final_edit.text] }

theorem step_changes {s s' : Streaming} (hs : s.step u final_edit a = some s') :
    s.Changes u final_edit a s' := by
  cases a with
  | spawn t text =>
    simp only [step] at hs
    split at hs
    · rename_i hf
      cases hs
      exact .spawn t text hf
    · cases hs
  | start t now =>
    simp only [step] at hs
    split at hs
    · rename_i text ht
      split at hs
      · rename_i hb
        cases hs
        exact .skips t text now ht hb
      · rename_i hb
        split at hs
        · cases hs
          exact .throttles t text now ht hb
        · rename_i hopen
          split at hs
          · rename_i hfree
            cases hs
            exact .enters t text now ht hb (Bool.not_eq_true _ ▸ hopen) hfree
          · cases hs
            exact .waits t text now ht hb
    · cases hs
  | grant t =>
    simp only [step] at hs
    split at hs
    · rename_i text now lock ht hl
      cases hs
      exact .grants t text now lock ht hl
    · cases hs
  | apply t =>
    simp only [step] at hs
    split at hs
    · rename_i text ht
      cases hs
      exact .applies t text ht
    · cases hs
  | finish t =>
    simp only [step] at hs
    split at hs
    · rename_i text b ht
      cases hs
      exact .finishes t text b ht
    · cases hs
  | issue_final =>
    simp only [step] at hs
    split at hs
    · rename_i hf
      cases hs
      exact .issues_final hf
    · cases hs
  | apply_final =>
    simp only [step] at hs
    split at hs
    · rename_i hf
      cases hs
      exact .applies_final hf
    · cases hs

theorem step_pending {s s' : Streaming} (h : s.final = .pending) (hc : s.FinalSettled u a)
    (hs : s.step u final_edit a = some s') : s'.final = .pending ∨ s'.Over u final_edit := by
  cases step_changes hs with
  | spawn t text hf => exact .inl h
  | skips t text now ht hb => exact .inl h
  | throttles t text now ht hb => exact .inl h
  | enters t text now ht hb hopen hfree => exact .inl ((enter_final _).trans h)
  | waits t text now ht hb => exact .inl h
  | grants t text now lock ht hl => exact .inl ((enter_final _).trans h)
  | applies t text ht => exact .inl h
  | finishes t text b ht => exact .inl h
  | issues_final hf => exact .inr ⟨hc, List.getLast?_concat .., fun he => by cases he⟩
  | applies_final hf => cases h.symm.trans hf

theorem step_over {s s' : Streaming} (h : s.Over u final_edit) (hf : s.final ≠ .pending)
    (hs : s.step u final_edit a = some s') : s'.final ≠ .pending ∧ s'.Over u final_edit := by
  have hsettled : ∀ {t x}, s.task t = some x → Settled u (some x) := fun ht => ht ▸ h.settled _
  cases step_changes hs with
  | spawn t text hp => exact absurd hp hf
  | skips t text now ht hb =>
    have hdone : Settled u (some .done) := trivial
    exact ⟨hf, forall_update h.settled hdone, h.last_issued, h.last_applied⟩
  | throttles t text now ht hb => exact absurd (hsettled ht) hb
  | enters t text now ht hb hopen hfree => exact absurd (hsettled ht) hb
  | waits t text now ht hb => exact absurd (hsettled ht) hb
  | grants t text now lock ht hl => exact (hsettled ht).elim
  | applies t text ht => exact (hsettled ht).elim
  | finishes t text b ht => exact (hsettled ht).elim
  | issues_final hp => exact absurd hp hf
  | applies_final hp =>
    exact ⟨by simp, h.settled, h.last_issued, fun _ => List.getLast?_concat ..⟩

/-- The final edit wins in every run that issues it after the stream has settled. -/
theorem final_edit_wins {s : Streaming}
    (h : Reach (step u final_edit) (FinalSettled u) Initial s) : s.FinalWins final_edit := by
  have hinv : s.final = .pending ∨ s.final ≠ .pending ∧ s.Over u final_edit := by
    refine h.invariant (I := fun s => s.final = .pending ∨ s.final ≠ .pending ∧
      s.Over u final_edit) (fun s hi => .inl (by rw [hi])) ?_
    rintro s a s' (hp | ⟨hf, ho⟩) hc hs
    · by_cases hf : s'.final = .pending
      · exact .inl hf
      · exact .inr ⟨hf, (step_pending hp hc hs).resolve_left hf⟩
    · exact .inr (step_over ho hf hs)
  rcases hinv with hp | ⟨hf, ho⟩
  · refine ⟨fun hf => absurd hp hf, fun ha => ?_⟩
    rw [hp] at ha
    cases ha
  · exact ⟨fun _ => ho.last_issued, ho.last_applied⟩

def updater : StreamUpdater := { post_id := "p" }

def answer_edit : Edit := ⟨"p", "answer", none⟩

/-- One stream edit that ends before the final one. -/
def settled_run : List Act :=
  [.spawn 0 "an", .start 0 1000, .apply 0, .finish 0, .issue_final, .apply_final]

theorem meets_settled_run :
    Meets (step updater answer_edit) (FinalSettled updater) {} settled_run := by
  refine ⟨trivial, trivial, trivial, trivial, ?_, trivial, trivial⟩
  intro t
  by_cases ht : t = 0
  · subst ht
    exact trivial
  · simp [enter, throttled, set, updater, ht, Settled]

theorem final_edit_wins_settled_run : ∃ s,
    exec (step updater answer_edit) {} settled_run = some s ∧ s.applied = ["an", "answer"] ∧
      s.FinalWins answer_edit := by
  have h : ((exec (step updater answer_edit) {} settled_run).any
      fun s => s.applied = ["an", "answer"]) = true := by decide
  obtain ⟨s, hs, ha⟩ := (Option.any_eq_true _ _).mp h
  have hi : Initial {} := rfl
  exact ⟨s, hs, of_decide_eq_true ha, final_edit_wins ((Reach.start hi).exec meets_settled_run hs)⟩

/-- A second task waits behind a slow edit while the final one is issued. -/
def late_run : List Act :=
  [.spawn 0 "an", .start 0 1000, .spawn 1 "answ", .start 1 2000, .issue_final, .apply_final,
    .apply 0, .finish 0, .grant 1, .apply 1, .finish 1]

theorem not_final_edit_wins : ∃ s, Reach (step updater answer_edit) Any Initial s ∧
    ¬ s.FinalWins answer_edit := by
  have h : ((exec (step updater answer_edit) {} late_run).any fun s =>
      s.final = .applied ∧ s.applied = ["answer", "an", "answ"] ∧
        s.issued.map (·.text) = ["an", "answer", "answ"]) = true := by decide
  obtain ⟨s, hs, ha⟩ := (Option.any_eq_true _ _).mp h
  obtain ⟨hf, ha, -⟩ := of_decide_eq_true ha
  have hi : Initial {} := rfl
  refine ⟨s, reach_of_exec hi hs, fun hw => ?_⟩
  have hlast := hw.last_applied hf
  rw [ha] at hlast
  revert hlast
  decide

end Streaming

end ClawMux
