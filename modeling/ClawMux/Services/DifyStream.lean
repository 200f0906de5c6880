import ClawMux.Services.DifyClient

namespace ClawMux
set_option autoImplicit true
open Lib Lib.Text

/-- `json.JSONDecodeError`, or another exception of `json.loads`. -/
inductive LoadsError
  | decode
  | other
  deriving DecidableEq

inductive StreamError
  | loads
  | attribute_error
  | type_error
  deriving DecidableEq

namespace DifyClient

/-- What the loop over the lines has gathered; `texts` are the arguments of `on_stream`. -/
structure Gathered where
  answer_parts : List Json := []
  conversation_id : Json := .str ""
  texts : List String := []
  on_stream_failed : Nat := 0

/-- How one line leaves the loop. -/
inductive Turn
  | next (s : Gathered)
  | stop (s : Gathered)
  | failed (s : Gathered)
  | raised (e : StreamError) (s : Gathered)

structure StreamRun where
  result : Except StreamError (String × Json)
  texts : List String := []
  on_stream_failed : Nat := 0

abbrev Fields := List (String × Json)

variable (loads : String → Except LoadsError Json) (on_stream : Option (List String → Bool))

/-- The event of a line, `none` for a line that is passed over. -/
def parse_line (line : String) : Except StreamError (Option Fields) :=
  let raw := strip (dropLen line "data:")
  if startsWith line "data:" = false ∨ raw = "" ∨ raw = "[DONE]" then .ok none
  else
    match loads raw with
    | .error .decode => .ok none
    | .error .other => .error .loads
    | .ok (.obj event) => .ok (some event)
    | .ok _ => .error .attribute_error

def event_type (event : Fields) : Option String := (Json.get event "event" (.str "")).string

/-- `on_stream` is given the text so far; whatever fails here is only logged. -/
def call_on_stream (s : Gathered) : Gathered :=
  match on_stream with
  | none => s
  | some raises =>
    match join_parts s.answer_parts with
    | none => { s with on_stream_failed := s.on_stream_failed + 1 }
    | some text =>
      let texts := s.texts ++ [text]
      { s with
        texts := texts
        on_stream_failed := if raises texts then s.on_stream_failed + 1 else s.on_stream_failed }

def keep_id (conversation_id : Json) (event : Fields) : Json :=
  let found := Json.get event "conversation_id" .null
  if !conversation_id.truthy && found.truthy then found else conversation_id

def read_event (event : Fields) (s : Gathered) : Turn :=
  let s := { s with conversation_id := keep_id s.conversation_id event }
  if event_type event = some "message" ∨ event_type event = some "agent_message" then
    let chunk := Json.get event "answer" (.str "")
    if chunk.truthy then
      .next (call_on_stream on_stream { s with answer_parts := s.answer_parts ++ [chunk] })
    else .next s
  else if event_type event = some "message_end" then .stop s
  else if event_type event = some "error" then .failed s
  else .next s

def read_line (line : String) (s : Gathered) : Turn :=
  match parse_line loads line with
  | .ok none => .next s
  | .ok (some event) => read_event on_stream event s
  | .error e => .raised e s

/-- `"".join(answer_parts)` after the loop. -/
def finish (s : Gathered) : StreamRun :=
  match join_parts s.answer_parts with
  | some full_answer => ⟨.ok (full_answer, s.conversation_id), s.texts, s.on_stream_failed⟩
  | none => ⟨.error .type_error, s.texts, s.on_stream_failed⟩

def read_lines : List String → Gathered → StreamRun
  | [], s => finish s
  | line :: lines, s =>
    match read_line loads on_stream line s with
    | .next s => read_lines lines s
    | .stop s => finish s
    | .failed s => ⟨.ok ("", s.conversation_id), s.texts, s.on_stream_failed⟩
    | .raised e s => ⟨.error e, s.texts, s.on_stream_failed⟩

/-- `_stream_chat` on the status and the lines of the response. -/
def stream_chat (status_code : Nat) (lines : List String) : StreamRun :=
  if status_code ≠ 200 then ⟨.ok ("", .str ""), [], 0⟩ else read_lines loads on_stream lines {}

/-- Why there is no response, or no more of it. -/
inductive Transport
  | timeout
  | http_error

/-- `chat`, up to the cache. -/
def chat (response : Except Transport (Nat × List String)) : Except StreamError String :=
  match response with
  | .error _ => .ok ""
  | .ok (status_code, lines) =>
    (stream_chat loads on_stream status_code lines).result.map (·.1)

/-! What a response says -/

def ends (line : String) : Bool :=
  match parse_line loads line with
  | .ok (some event) => event_type event = some "message_end" || event_type event = some "error"
  | _ => false

/-- The lines up to the one that ends the stream. -/
def reached : List String → List String
  | [] => []
  | line :: lines => if ends loads line then [line] else line :: reached lines

def event_of (line : String) : Option Fields :=
  match parse_line loads line with
  | .ok event => event
  | .error _ => none

/-- The events up to the one that ends the stream. -/
def events (lines : List String) : List Fields := (reached loads lines).filterMap (event_of loads)

/-- The answer of a message event, unless it is empty. -/
def chunk_of (event : Fields) : Option Json :=
  if event_type event = some "message" ∨ event_type event = some "agent_message" then
    let chunk := Json.get event "answer" (.str "")
    if chunk.truthy then some chunk else none
  else none

/-- The answer strings, put together. -/
def concatenation (lines : List String) : String :=
  String.join (((events loads lines).filterMap chunk_of).filterMap Json.string)

def errored (lines : List String) : Bool :=
  (events loads lines).any fun event => event_type event = some "error"

def answer (lines : List String) : String :=
  if errored loads lines then "" else concatenation loads lines

/-- The first id that is not empty. -/
def first_id (lines : List String) : Json :=
  (((events loads lines).map fun event => Json.get event "conversation_id" .null).find?
    Json.truthy).getD (.str "")

def StrictPrefix (s t : String) : Prop := s.toList <+: t.toList ∧ s ≠ t

/-- The stream was read as it should be. -/
structure Exact (lines : List String) : Prop where
  result : (stream_chat loads on_stream 200 lines).result =
    .ok (answer loads lines, first_id loads lines)
  chat : chat loads on_stream (.ok (200, lines)) = .ok (answer loads lines)
  growing : (stream_chat loads on_stream 200 lines).texts.Pairwise StrictPrefix
  prefixes : ∀ t ∈ (stream_chat loads on_stream 200 lines).texts,
    t.toList <+: (concatenation loads lines).toList

/-- Every line read is an object or no JSON at all, and the answers are strings unless an error
event ends the stream. -/
structure Readable (lines : List String) : Prop where
  objects : ∀ line ∈ reached loads lines, ∀ e, parse_line loads line ≠ .error e
  strings : errored loads lines = true ∨
    ∀ chunk ∈ (events loads lines).filterMap chunk_of, ∃ s, chunk = .str s

variable {loads on_stream}

/-! One line -/

/-- What an event adds to what was gathered. -/
def absorb (on_stream : Option (List String → Bool)) (s : Gathered) (event : Fields) : Gathered :=
  let s := { s with conversation_id := keep_id s.conversation_id event }
  match chunk_of event with
  | some chunk => call_on_stream on_stream { s with answer_parts := s.answer_parts ++ [chunk] }
  | none => s

theorem read_event_eq (event : Fields) (s : Gathered) :
    read_event on_stream event s =
      if event_type event = some "message_end" then .stop (absorb on_stream s event)
      else if event_type event = some "error" then .failed (absorb on_stream s event)
      else .next (absorb on_stream s event) := by
  by_cases hm : event_type event = some "message" ∨ event_type event = some "agent_message"
  · have hend : event_type event ≠ some "message_end" := by
      rcases hm with h | h <;> rw [h] <;> decide
    have herr : event_type event ≠ some "error" := by
      rcases hm with h | h <;> rw [h] <;> decide
    simp only [read_event, absorb, chunk_of, if_pos hm, if_neg hend, if_neg herr]
    split <;> rfl
  · simp only [read_event, absorb, chunk_of, if_neg hm]

theorem ends_iff (h : parse_line loads line = .ok (some event)) : ends loads line = true ↔
    event_type event = some "message_end" ∨ event_type event = some "error" := by
  simp only [ends, h, Bool.or_eq_true, decide_eq_true_eq]

theorem not_ends_of_none (h : parse_line loads line = .ok none) : ends loads line = false := by
  rw [ends, h]

theorem not_ends_of_error (h : parse_line loads line = .error e) : ends loads line = false := by
  rw [ends, h]

theorem reached_of_ends (h : ends loads line = true) (lines : List String) :
    reached loads (line :: lines) = [line] := by
  rw [reached, if_pos h]

theorem reached_of_not_ends (h : ends loads line = false) (lines : List String) :
    reached loads (line :: lines) = line :: reached loads lines := by
  rw [reached, if_neg (by simp [h])]

/-! The loop -/

/-- Without a line that raises, the loop gathers the events up to the end of the stream. -/
theorem read_lines_eq (lines : List String) (s : Gathered)
    (h : ∀ line ∈ reached loads lines, ∀ e, parse_line loads line ≠ .error e) :
    read_lines loads on_stream lines s =
      let final := (events loads lines).foldl (absorb on_stream) s
      if errored loads lines then ⟨.ok ("", final.conversation_id), final.texts,
        final.on_stream_failed⟩
      else finish final := by
  induction lines generalizing s with
  | nil => rfl
  | cons line lines ih =>
    cases hp : parse_line loads line with
    | error e =>
      rw [reached_of_not_ends (not_ends_of_error hp)] at h
      exact absurd hp (h line List.mem_cons_self e)
    | ok found =>
      cases found with
      | none =>
        have hr := reached_of_not_ends (not_ends_of_none hp) lines
        have hev : events loads (line :: lines) = events loads lines := by
          rw [events, hr, List.filterMap_cons_none (by rw [event_of, hp]), events]
        rw [hr] at h
        rw [read_lines, read_line, hp, errored, hev]
        exact ih s fun l hl => h l (List.mem_cons_of_mem _ hl)
      | some event =>
        have hof : event_of loads line = some event := by rw [event_of, hp]
        rw [read_lines, read_line, hp]
        simp only [read_event_eq]
        by_cases he : ends loads line = true
        · have hev : events loads (line :: lines) = [event] := by
            rw [events, reached_of_ends he, List.filterMap_cons_some hof, List.filterMap_nil]
          rw [errored, hev]
          rcases (ends_iff hp).mp he with ht | ht
          · simp [ht]
          · simp [ht]
        · have hnot : ¬ (event_type event = some "message_end" ∨
              event_type event = some "error") := fun ht => he ((ends_iff hp).mpr ht)
          obtain ⟨hend, herr⟩ := not_or.mp hnot
          have hr := reached_of_not_ends (Bool.not_eq_true _ ▸ he) lines
          have hev : events loads (line :: lines) = event :: events loads lines := by
            rw [events, hr, List.filterMap_cons_some hof, events]
          have hsame : errored loads (line :: lines) = errored loads lines := by
            rw [errored, errored, hev, List.any_cons, decide_eq_false herr, Bool.false_or]
          rw [hr] at h
          rw [if_neg hend, if_neg herr, hsame, hev]
          exact ih _ fun l hl => h l (List.mem_cons_of_mem _ hl)

/-- A line that raises ends the call. -/
theorem read_lines_raised (lines : List String) (s : Gathered)
    (h : ∃ line ∈ reached loads lines, ∃ e, parse_line loads line = .error e) :
    ∃ e, (read_lines loads on_stream lines s).result = .error e := by
  induction lines generalizing s with
  | nil =>
    obtain ⟨line, hl, -⟩ := h
    cases hl
  | cons line lines ih =>
    cases hp : parse_line loads line with
    | error e => exact ⟨e, by rw [read_lines, read_line, hp]⟩
    | ok found =>
      have hlater : ends loads line = false → ∃ l ∈ reached loads lines, ∃ e,
          parse_line loads l = .error e := by
        intro he
        obtain ⟨l, hl, e, hle⟩ := h
        rw [reached_of_not_ends he] at hl
        rcases List.mem_cons.mp hl with rfl | hl
        · rw [hp] at hle
          cases hle
        · exact ⟨l, hl, e, hle⟩
      cases found with
      | none =>
        rw [read_lines, read_line, hp]
        exact ih s (hlater (not_ends_of_none hp))
      | some event =>
        by_cases he : ends loads line = true
        · obtain ⟨l, hl, e, hle⟩ := h
          rw [reached_of_ends he, List.mem_singleton] at hl
          rw [hl, hp] at hle
          cases hle
        · have hnot : ¬ (event_type event = some "message_end" ∨
              event_type event = some "error") := fun ht => he ((ends_iff hp).mpr ht)
          obtain ⟨hend, herr⟩ := not_or.mp hnot
          rw [read_lines, read_line, hp]
          simp only [read_event_eq, if_neg hend, if_neg herr]
          exact ih _ (hlater (Bool.not_eq_true _ ▸ he))

/-! What was gathered -/

theorem call_on_stream_kept (s : Gathered) :
    (call_on_stream on_stream s).answer_parts = s.answer_parts ∧
    (call_on_stream on_stream s).conversation_id = s.conversation_id := by
  unfold call_on_stream
  split
  · exact ⟨rfl, rfl⟩
  · split <;> exact ⟨rfl, rfl⟩

theorem absorb_parts (s : Gathered) (event : Fields) :
    (absorb on_stream s event).answer_parts = s.answer_parts ++ (chunk_of event).toList := by
  rw [absorb]
  split
  · rename_i chunk hc
    rw [(call_on_stream_kept _).1, hc]
    rfl
  · rename_i hc
    rw [hc]
    exact (List.append_nil _).symm

theorem absorb_id (s : Gathered) (event : Fields) :
    (absorb on_stream s event).conversation_id = keep_id s.conversation_id event := by
  rw [absorb]
  split
  · rw [(call_on_stream_kept _).2]
  · rfl

theorem gathered_parts (evs : List Fields) (s : Gathered) :
    (evs.foldl (absorb on_stream) s).answer_parts = s.answer_parts ++ evs.filterMap chunk_of := by
  induction evs generalizing s with
  | nil => exact (List.append_nil _).symm
  | cons event evs ih =>
    rw [List.foldl_cons, ih, absorb_parts, List.append_assoc]
    cases hc : chunk_of event with
    | none => rw [List.filterMap_cons_none hc, Option.toList_none, List.nil_append]
    | some chunk => rw [List.filterMap_cons_some hc, Option.toList_some, List.singleton_append]

theorem gathered_id (evs : List Fields) (s : Gathered) :
    (evs.foldl (absorb on_stream) s).conversation_id =
      if s.conversation_id.truthy then s.conversation_id
      else ((evs.map fun event => Json.get event "conversation_id" .null).find?
        Json.truthy).getD s.conversation_id := by
  induction evs generalizing s with
  | nil =>
    split <;> rfl
  | cons event evs ih =>
    rw [List.foldl_cons, ih, absorb_id, keep_id, List.map_cons, List.find?_cons]
    cases hs : s.conversation_id.truthy with
    | true => simp [hs]
    | false =>
      cases hf : (Json.get event "conversation_id" .null).truthy with
      | true => simp [hf]
      | false => simp [hs]

theorem join_parts_some {parts : List Json} (h : ∀ p ∈ parts, ∃ s, p = .str s) :
    join_parts parts = some (String.join (parts.filterMap Json.string)) := by
  have hmap : parts.mapM Json.string = some (parts.filterMap Json.string) := by
    induction parts with
    | nil => rfl
    | cons p parts ih =>
      obtain ⟨s, rfl⟩ := h p List.mem_cons_self
      rw [List.mapM_cons, ih fun q hq => h q (List.mem_cons_of_mem _ hq)]
      rfl
  rw [join_parts, hmap]
  rfl

theorem strings_of_join_parts {parts : List Json} (h : join_parts parts = some text) :
    ∀ p ∈ parts, ∃ s, p = .str s := by
  have hmap : ∀ texts, parts.mapM Json.string = some texts → ∀ p ∈ parts, ∃ s, p = .str s := by
    clear h
    induction parts with
    | nil =>
      intro _ _ p hp
      cases hp
    | cons q parts ih =>
      intro texts hm p hp
      rw [List.mapM_cons] at hm
      cases hq : q.string with
      | none =>
        rw [hq] at hm
        cases hm
      | some s =>
        rw [hq] at hm
        cases hrest : parts.mapM Json.string with
        | none =>
          rw [hrest] at hm
          cases hm
        | some rest =>
          rcases List.mem_cons.mp hp with rfl | hp
          · cases p with
            | str s => exact ⟨s, rfl⟩
            | _ => cases hq
          · exact ih rest hrest p hp
  rw [join_parts] at h
  cases hm : parts.mapM Json.string with
  | none =>
    rw [hm] at h
    cases h
  | some texts => exact hmap texts hm

/-! The texts of `on_stream` -/

/-- The answer strings so far. -/
def Gathered.so_far (s : Gathered) : String := String.join (s.answer_parts.filterMap Json.string)

/-- The texts grow, up to what was gathered. -/
structure Growing (s : Gathered) : Prop where
  growing : s.texts.Pairwise StrictPrefix
  prefixes : ∀ t ∈ s.texts, t.toList <+: s.so_far.toList

theorem Growing.parts {s : Gathered} (h : Growing s) (parts : List Json) (conversation_id : Json)
    (n : Nat) : Growing ⟨s.answer_parts ++ parts, conversation_id, s.texts, n⟩ := by
  refine ⟨h.growing, ?_⟩
  intro t ht
  rw [Gathered.so_far, List.filterMap_append, String.join_append, String.toList_append]
  exact (h.prefixes t ht).trans (List.prefix_append _ _)

theorem chunk_truthy (h : chunk_of event = some chunk) : chunk.truthy = true := by
  simp only [chunk_of] at h
  split at h
  · split at h
    · rename_i ht
      cases h
      exact ht
    · cases h
  · cases h

/-- A text that is passed on is all that was gathered, with one more answer string. -/
theorem Growing.passed {s : Gathered} (h : Growing s) (hc : chunk_of event = some chunk)
    (hj : join_parts (s.answer_parts ++ [chunk]) = some text) (conversation_id : Json) (n : Nat) :
    Growing ⟨s.answer_parts ++ [chunk], conversation_id, s.texts ++ [text], n⟩ := by
  have hstr := strings_of_join_parts hj
  obtain ⟨c, rfl⟩ := hstr chunk (List.mem_append_right _ (List.mem_singleton_self _))
  have htext : text = s.so_far ++ c := by
    rw [join_parts_some hstr] at hj
    rw [← Option.some.inj hj, List.filterMap_append, String.join_append]
    simp [Gathered.so_far, Json.string]
  have hne : c ≠ "" := of_decide_eq_true (chunk_truthy hc)
  have hold := h.parts [.str c] conversation_id n
  refine ⟨?_, ?_⟩
  · rw [List.pairwise_append]
    refine ⟨h.growing, List.pairwise_singleton _ _, ?_⟩
    intro t ht t' ht'
    rw [List.mem_singleton.mp ht', htext]
    have hp := h.prefixes t ht
    refine ⟨by rw [String.toList_append]; exact hp.trans (List.prefix_append _ _), ?_⟩
    rintro rfl
    have hlen := hp.length_le
    rw [String.toList_append, List.length_append] at hlen
    have hpos : 0 < c.toList.length := List.length_pos_iff.mpr fun he =>
      hne (String.toList_inj.mp he)
    omega
  · intro t ht
    rcases List.mem_append.mp ht with ht | ht
    · exact hold.prefixes t ht
    · rw [List.mem_singleton.mp ht, htext]
      simp [Gathered.so_far, Json.string]

theorem growing_absorb {s : Gathered} (h : Growing s) (event : Fields) :
    Growing (absorb on_stream s event) := by
  rw [absorb]
  split
  · rename_i chunk hc
    unfold call_on_stream
    split
    · exact h.parts [chunk] _ _
    · split
      · exact h.parts [chunk] _ _
      · rename_i text hj
        exact h.passed hc hj _ _
  · have hsame := h.parts [] (keep_id s.conversation_id event) s.on_stream_failed
    rwa [List.append_nil] at hsame

theorem growing_gathered (evs : List Fields) {s : Gathered} (h : Growing s) :
    Growing (evs.foldl (absorb on_stream) s) := by
  induction evs generalizing s with
  | nil => exact h
  | cons event evs ih => exact ih (growing_absorb h event)

theorem growing_start : Growing {} := ⟨.nil, fun _ ht => by cases ht⟩

/-! The whole stream -/

/-- What was gathered at the end of the stream. -/
def gathered (loads : String → Except LoadsError Json) (on_stream : Option (List String → Bool))
    (lines : List String) : Gathered := (events loads lines).foldl (absorb on_stream) {}

theorem gathered_answer_parts (lines : List String) :
    (gathered loads on_stream lines).answer_parts = (events loads lines).filterMap chunk_of :=
  gathered_parts _ _

theorem gathered_first_id (lines : List String) :
    (gathered loads on_stream lines).conversation_id = first_id loads lines :=
  gathered_id _ _

theorem stream_chat_eq (lines : List String)
    (h : ∀ line ∈ reached loads lines, ∀ e, parse_line loads line ≠ .error e) :
    stream_chat loads on_stream 200 lines =
      if errored loads lines then ⟨.ok ("", first_id loads lines),
        (gathered loads on_stream lines).texts, (gathered loads on_stream lines).on_stream_failed⟩
      else finish (gathered loads on_stream lines) := by
  rw [stream_chat, if_neg (by decide), read_lines_eq lines {} h, ← gathered_first_id]
  rfl

theorem stream_chat_result (h : Readable loads lines) :
    stream_chat loads on_stream 200 lines = ⟨.ok (answer loads lines, first_id loads lines),
      (gathered loads on_stream lines).texts,
      (gathered loads on_stream lines).on_stream_failed⟩ := by
  rw [stream_chat_eq lines h.objects, answer]
  by_cases hf : errored loads lines = true
  · rw [if_pos hf, if_pos hf]
  · have hstr := h.strings.resolve_left hf
    rw [if_neg hf, if_neg hf, finish, gathered_answer_parts, join_parts_some hstr,
      gathered_first_id]
    rfl

/-- The stream is read exactly in the cases where each line can be. -/
theorem stream_chat_exact_iff (loads : String → Except LoadsError Json)
    (on_stream : Option (List String → Bool)) (lines : List String) :
    Exact loads on_stream lines ↔ Readable loads lines := by
  constructor
  · intro h
    have hobjects : ∀ line ∈ reached loads lines, ∀ e, parse_line loads line ≠ .error e := by
      intro line hl e he
      obtain ⟨e', hr⟩ : ∃ e', (read_lines loads on_stream lines {}).result = .error e' :=
        read_lines_raised lines {} ⟨line, hl, e, he⟩
      have hres := h.result
      rw [stream_chat, if_neg (by decide), hr] at hres
      cases hres
    refine ⟨hobjects, ?_⟩
    by_cases hf : errored loads lines = true
    · exact .inl hf
    · right
      have hres := h.result
      rw [stream_chat_eq lines hobjects, if_neg hf, finish] at hres
      split at hres
      · rename_i full hj
        rw [gathered_answer_parts] at hj
        exact strings_of_join_parts hj
      · cases hres
  · intro h
    have hgrow : Growing (gathered loads on_stream lines) := growing_gathered _ growing_start
    have hprefix := hgrow.prefixes
    rw [Gathered.so_far, gathered_answer_parts] at hprefix
    have hrun : stream_chat loads on_stream 200 lines = _ := stream_chat_result h
    constructor
    · rw [hrun]
    · rw [chat, hrun]
      rfl
    · rw [hrun]
      exact hgrow.growing
    · rw [hrun]
      exact hprefix

/-- A `json.loads` that fails in one way only. -/
def decoding (loads : String → Option Json) (raw : String) : Except LoadsError Json :=
  (loads raw).elim (.error .decode) .ok

theorem finish_toOption (s : Gathered) : (finish s).result.toOption =
    (join_parts s.answer_parts).map fun answer => (answer, s.conversation_id) := by
  rw [finish]
  cases join_parts s.answer_parts <;> rfl

/-- The fallback model's loop at a line with an event. -/
theorem stream_lines_event {loads : String → Option Json} {lines : List String}
    (hskip : ¬ (startsWith line "data:" = false ∨ strip (dropLen line "data:") = "" ∨
      strip (dropLen line "data:") = "[DONE]"))
    (hl : loads (strip (dropLen line "data:")) = some (.obj event)) (parts : List Json)
    (id : Json) :
    stream_lines loads (line :: lines) parts id =
      if event_type event = some "message_end" then
        (join_parts parts).map fun answer => (answer, keep_id id event)
      else if event_type event = some "error" then some ("", keep_id id event)
      else stream_lines loads lines (parts ++ (chunk_of event).toList) (keep_id id event) := by
  have hstep : stream_lines loads (line :: lines) parts id =
      if event_type event = some "message" ∨ event_type event = some "agent_message" then
        stream_lines loads lines (if (Json.get event "answer" (.str "")).truthy then
          parts ++ [Json.get event "answer" (.str "")] else parts) (keep_id id event)
      else if event_type event = some "message_end" then
        (join_parts parts).map fun answer => (answer, keep_id id event)
      else if event_type event = some "error" then some ("", keep_id id event)
      else stream_lines loads lines parts (keep_id id event) := by
    rw [stream_lines]
    simp only [if_neg hskip, hl]
    rfl
  rw [hstep, chunk_of]
  by_cases hm : event_type event = some "message" ∨ event_type event = some "agent_message"
  · have hend : event_type event ≠ some "message_end" := by
      rcases hm with h | h <;> rw [h] <;> decide
    have herr : event_type event ≠ some "error" := by
      rcases hm with h | h <;> rw [h] <;> decide
    rw [if_pos hm, if_pos hm, if_neg hend, if_neg herr]
    by_cases ht : (Json.get event "answer" (.str "")).truthy = true
    · simp only [if_pos ht, Option.toList_some]
    · simp only [if_neg ht, Option.toList_none, List.append_nil]
  · rw [if_neg hm, if_neg hm, Option.toList_none, List.append_nil]

/-- Without the calls of `on_stream` the loop is the one of the fallback messages. -/
theorem stream_lines_eq (loads : String → Option Json) (on_stream : Option (List String → Bool))
    (lines : List String) (s : Gathered) :
    (read_lines (decoding loads) on_stream lines s).result.toOption =
      stream_lines loads lines s.answer_parts s.conversation_id := by
  induction lines generalizing s with
  | nil => exact finish_toOption s
  | cons line lines ih =>
    by_cases hskip : startsWith line "data:" = false ∨ strip (dropLen line "data:") = "" ∨
        strip (dropLen line "data:") = "[DONE]"
    · rw [stream_lines, read_lines, read_line, parse_line]
      simp only [if_pos hskip]
      exact ih s
    · cases hl : loads (strip (dropLen line "data:")) with
      | none =>
        rw [stream_lines, read_lines, read_line, parse_line]
        simp only [if_neg hskip, decoding, hl]
        exact ih s
      | some value =>
        cases value with
        | obj event =>
          have hp : parse_line (decoding loads) line = .ok (some event) := by
            simp only [parse_line, if_neg hskip, decoding, hl]
            rfl
          rw [stream_lines_event hskip hl, read_lines, read_line, hp]
          simp only [read_event_eq]
          by_cases hend : event_type event = some "message_end"
          · have hparts : (absorb on_stream s event).answer_parts = s.answer_parts := by
              rw [absorb_parts, chunk_of, hend]
              exact List.append_nil _
            rw [if_pos hend, if_pos hend, ← hparts, ← absorb_id]
            exact finish_toOption _
          · rw [if_neg hend, if_neg hend]
            by_cases herr : event_type event = some "error"
            · rw [if_pos herr, if_pos herr, ← absorb_id]
              rfl
            · rw [if_neg herr, if_neg herr, ← absorb_parts, ← absorb_id]
              exact ih _
        | _ =>
          rw [stream_lines, read_lines, read_line, parse_line]
          simp only [if_neg hskip, decoding, hl]
          rfl

def loads_one (raw : String) : Except LoadsError Json :=
  if raw = "1" then .ok (.num 1) else .error .decode

/-- A line with a number instead of an object. -/
theorem not_stream_chat_exact :
    (stream_chat loads_one none 200 ["data: 1"]).result = .error .attribute_error ∧
    (chat loads_one none (.ok (200, ["data: 1"]))) = .error .attribute_error ∧
    ¬ Exact loads_one none ["data: 1"] := by
  have hrun : (stream_chat loads_one none 200 ["data: 1"]).result = .error .attribute_error := by
    rfl
  refine ⟨hrun, rfl, ?_⟩
  intro h
  have hres := h.result
  rw [hrun] at hres
  cases hres

end DifyClient

end ClawMux
