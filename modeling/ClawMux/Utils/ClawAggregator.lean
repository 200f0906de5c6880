import Mathlib.Logic.Function.Basic
import ClawMux.Lib.Json

namespace ClawMux
set_option autoImplicit true
open Lib Lib.Text

/-- A chat event; `run_id` is the run of its frame, which the code does not keep. -/
structure ClawMessage where
  msg_id : String
  seq : Json
  text : String
  state : Json
  media_paths : List String
  run_id : Key

def JUNK_EXACT : List String := ["ok", "ok.", "thinking", "thinking...", "...", "…"]

def is_valid_text (claw_min_valid_text_len : Nat) (text : String) : Bool :=
  if text = "" then false
  else
    let stripped := strip text
    if stripped.length < claw_min_valid_text_len then false
    else !JUNK_EXACT.contains (lower stripped)

/-- `max(messages, key=lambda m: m.seq)`: the first of the greatest. -/
def max_seq (py : Dynamics) : ClawMessage → List ClawMessage → Except Unit ClawMessage
  | best, [] => .ok best
  | best, m :: rest =>
    match m.seq.gt py best.seq with
    | none => .error ()
    | some true => max_seq py m rest
    | some false => max_seq py best rest

def is_final (m : ClawMessage) : Bool := m.state.string = some "final"

def select_best (py : Dynamics) (claw_min_valid_text_len : Nat) (messages : List ClawMessage) :
    Except Unit (Option ClawMessage) :=
  let finals := messages.filter is_final
  match finals.filter fun m => is_valid_text claw_min_valid_text_len m.text with
  | m :: rest => (max_seq py m rest).map some
  | [] =>
    match finals.filter fun m => m.text ≠ "" && strip m.text ≠ "" with
    | m :: rest => (max_seq py m rest).map some
    | [] => .ok none

/-- The buffers by msg_id, and for each live debounce timer when it is due. -/
structure ClawAggregator where
  buffers : String → List ClawMessage := fun _ => []
  tasks : String → Option Nat := fun _ => none

namespace ClawAggregator

def add_event (debounce_ms now : Nat) (a : ClawAggregator) (msg : ClawMessage) : ClawAggregator :=
  if is_final msg then
    { buffers := Function.update a.buffers msg.msg_id (a.buffers msg.msg_id ++ [msg])
      tasks := Function.update a.tasks msg.msg_id (some (now + debounce_ms)) }
  else a

/-- `_finalize_later` once the timer has run out, up to the selection. -/
def pop (a : ClawAggregator) (msg_id : String) : ClawAggregator where
  buffers := Function.update a.buffers msg_id []
  tasks := Function.update a.tasks msg_id none

end ClawAggregator

theorem max_seq_mem {py : Dynamics} (h : max_seq py m rest = .ok best) : best ∈ m :: rest := by
  induction rest generalizing m with
  | nil =>
    cases h
    exact List.mem_cons_self
  | cons n rest ih =>
    simp only [max_seq] at h
    split at h
    · cases h
    · exact List.mem_cons_of_mem _ (ih h)
    · rcases List.mem_cons.mp (ih h) with rfl | hm
      · exact List.mem_cons_self
      · exact List.mem_cons_of_mem _ (List.mem_cons_of_mem _ hm)

/-- The message that is selected is in the buffer, and says something. -/
theorem select_best_mem {py : Dynamics} (h : select_best py n messages = .ok (some best)) :
    best ∈ messages ∧ best.text ≠ "" := by
  have hmap : ∀ {m rest}, (max_seq py m rest).map some = .ok (some best) → best ∈ m :: rest := by
    intro m rest hmax
    cases hr : max_seq py m rest with
    | error e =>
      rw [hr] at hmax
      cases hmax
    | ok x =>
      rw [hr] at hmax
      cases hmax
      exact max_seq_mem hr
  unfold select_best at h
  simp only at h
  split at h
  · rename_i m rest hl
    obtain ⟨hf, hv⟩ := List.mem_filter.mp (hl ▸ hmap h)
    refine ⟨(List.mem_filter.mp hf).1, ?_⟩
    rintro he
    simp [is_valid_text, he] at hv
  · split at h
    · rename_i m rest hl
      obtain ⟨hf, hv⟩ := List.mem_filter.mp (hl ▸ hmap h)
      refine ⟨(List.mem_filter.mp hf).1, ?_⟩
      rintro he
      simp [he] at hv
    · cases h

end ClawMux
