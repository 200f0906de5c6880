import Mathlib.Data.Rat.Defs
import ClawMux.Services.RequestWindow
import ClawMux.Utils.SelectBest

namespace ClawMux
set_option autoImplicit true
open Lib Lib.Text

/-- The text parts that a message carries. -/
def message_parts (message_obj : List (String × Json)) : List Json :=
  match Json.get message_obj "content" (.arr []) with
  | .arr content => GatewayFrame.text_parts content
  | _ => []

/-- The text of a chat event: its text parts, or the flat text when it carries none. -/
def final_text (payload : List (String × Json)) : Option String :=
  let parts := message_parts (Json.get payload "message" .null).fields
  if parts.isEmpty then (Json.get payload "text" .null).string
  else (parts.mapM Json.string).map fun texts => "\n\n".intercalate texts

/-- A well-formed chat final of a session that is no subagent's: its payload and its text. -/
def chat_final (parsed : Json) : Option (List (String × Json) × String) :=
  let payload := (Json.get parsed.fields "payload" .null).fields
  match final_text payload, Json.get payload "seq" .null with
  | some text, .num n =>
    if strip text ≠ "" ∧ n.isInt = true ∧
        (Json.get parsed.fields "event" .null).string = some "chat" ∧
        (Json.get parsed.fields "type" .null).string ≠ some "res" ∧
        (Json.get payload "state" .null).string = some "final" ∧
        (Json.get payload "sessionKey" .null).contains ":subagent:" ≠ some true then
      some (payload, text)
    else none
  | _, _ => none

namespace RequestWindow
open OpenClawClient (Act Waits final_frame)

def run_of (payload : List (String × Json)) : Key :=
  ((Json.get payload "runId" (.str "")).key).getD (.str "")

/-- The text of the run where there is one. -/
def run_text (c : OpenClawClient) (payload : List (String × Json)) (text : String) : String :=
  (((c.agent_texts (run_of payload)).getD (.str text)).string).getD text

/-- What a well-formed final answers. -/
def answer (c : OpenClawClient) (m : String) (payload : List (String × Json)) (text : String) :
    ClawMessage where
  msg_id := m
  seq := Json.get payload "seq" .null
  text := clean_text (run_text c payload text)
  state := .str "final"
  media_paths := media_paths payload (run_text c payload text)
  run_id := run_of payload

/-- The well-formed final that a frame brings. -/
def well_formed (m : String) (c : OpenClawClient) : Act → Option ClawMessage
  | .frame parsed => (chat_final parsed).map fun (payload, text) => answer c m payload text
  | _ => none

variable (cfg : ClientConfig) (m : String)

/-- A frame that is skipped, or on which the dispatch raises. -/
def Dropped (c : OpenClawClient) (parsed : Json) : Prop :=
  match GatewayFrame.view parsed with
  | .ignored => True
  | .chat run_id _ text _ _ => (c.chat_text run_id text).string = none
  | _ => False

/-- The request is resolved with the best of its well-formed finals. -/
def Answered (s : RequestWindow) : Prop :=
  ∃ best reply, Best cfg.claw_min_valid_text_len s.finals best ∧
    s.client.future m = some (.result reply) ∧
      reply.text = .str best.text ∧ reply.media_paths = best.media_paths

/-- Other frames do not keep a request from its answer. -/
structure Unpoisoned (s : RequestWindow) : Prop where
  answered : s.finals ≠ [] → s.closed = true → s.Answered cfg m
  waiting : s.finals ≠ [] → s.closed = false → s.client.live = some m ∧ ∃ due,
    s.client.aggregator.tasks m = some due ∧ due ≤ s.client.now + cfg.claw_debounce_ms
  listening : s.client.connected = true ∧ ∀ parsed,
    (s.client.dispatch cfg parsed).connected = true ∧ (s.client.begun = true →
      s.client.step cfg (.frame parsed) = some (s.client.dispatch cfg parsed))
  silent : ∀ parsed, Dropped s.client parsed → ∃ outputs,
    s.client.dispatch cfg parsed = { s.client with outputs := outputs }

/-- A well-formed final can be dispatched: its message is absent or an object, its session and its
run have usable keys, a text that was kept for the run is a string, and something is left of the
text once the internal paths are taken out. -/
structure Readable (c : OpenClawClient) (payload : List (String × Json)) (text : String) :
    Prop where
  message : ∃ message_obj, Json.get payload "message" (.obj []) = .obj message_obj
  session : (Json.get payload "sessionKey" (.str "")).truthy = true →
    (Json.get payload "sessionKey" (.str "")).contains ":subagent:" ≠ none
  run : (Json.get payload "runId" (.str "")).key ≠ none
  kept : ∀ t, c.agent_texts (run_of payload) = some t → t.string ≠ none
  shown : strip (clean_text (run_text c payload text)) ≠ ""

/-- What can be selected is a well-formed final, or has a number as seq, below that of a well-formed
final that can be selected. -/
def Outranked (s : RequestWindow) : Prop :=
  ∀ x, Candidate cfg.claw_min_valid_text_len (s.client.aggregator.buffers m) x →
    x ∈ s.finals ∨ x.seq.number ≠ none ∧ ∃ y ∈ s.finals,
      Candidate cfg.claw_min_valid_text_len (s.client.aggregator.buffers m) y ∧ x.rank < y.rank

def Wholesome (s : RequestWindow) : Act → Prop
  | .frame parsed => ¬ OpenClawClient.decides (GatewayFrame.view parsed) ∧
      ∀ payload text, chat_final parsed = some (payload, text) → Readable s.client payload text
  | .fallback i => ∀ f, s.client.fallbacks[i]? = some f → f.msg_id ≠ m
  | .debounce k => k = m → s.finals ≠ [] → s.Outranked cfg m
  | _ => True

variable {cfg m} {c c' : OpenClawClient} {s s' : RequestWindow}

/-- A default plays no part in a field that is there. -/
theorem get_of_ne_null {fields : List (String × Json)} (d : Json)
    (h : Json.get fields name .null ≠ .null) :
    Json.get fields name d = Json.get fields name .null := by
  rw [Json.get] at h ⊢
  cases hl : fields.lookup name with
  | none =>
    rw [hl] at h
    exact absurd rfl h
  | some j =>
    rw [Json.get, hl]
    rfl

theorem get_of_string {fields : List (String × Json)} (d : Json)
    (h : (Json.get fields name .null).string = some t) : Json.get fields name d = .str t := by
  have hn : Json.get fields name .null = .str t := by
    cases hj : Json.get fields name .null with
    | str t' =>
      rw [hj] at h
      rw [Option.some.inj h]
    | _ =>
      rw [hj] at h
      cases h
  rw [get_of_ne_null d, hn]
  rw [hn]
  exact fun he => by cases he

theorem get_fields (fields : List (String × Json)) (name : String) :
    (Json.get fields name (.obj [])).fields = (Json.get fields name .null).fields := by
  rw [Json.get, Json.get]
  cases fields.lookup name with
  | none => rfl
  | some j => rfl

/-- A field has what null and the default have in common. -/
theorem get_default {P : Json → Prop} (hd : P d) (h : P (Json.get fields name .null)) :
    P (Json.get fields name d) := by
  rw [Json.get] at h ⊢
  cases hl : fields.lookup name with
  | none => exact hd
  | some j =>
    rw [hl] at h
    exact h

theorem extract_text_parts {payload : List (String × Json)}
    (hm : Json.get payload "message" (.obj []) = .obj message_obj) :
    GatewayFrame.extract_text payload =
      if (message_parts message_obj).isEmpty then
        let flat_text := Json.get payload "text" (.str "")
        some (if flat_text.truthy then flat_text else .str "")
      else ((message_parts message_obj).mapM Json.string).map
        fun texts => .str ("\n\n".intercalate texts) := by
  rw [GatewayFrame.extract_text, hm]
  rfl

/-- A readable final is extracted as it is meant. -/
theorem extract_final_text {payload : List (String × Json)}
    (hm : ∃ message_obj, Json.get payload "message" (.obj []) = .obj message_obj)
    (ht : final_text payload = some text) (hb : strip text ≠ "") :
    GatewayFrame.extract_text payload = some (.str text) := by
  obtain ⟨message_obj, hm⟩ := hm
  have hobj : (Json.get payload "message" .null).fields = message_obj := by
    rw [← get_fields, hm]
    rfl
  rw [final_text, hobj] at ht
  rw [extract_text_parts hm]
  dsimp only at ht ⊢
  by_cases hnone : (message_parts message_obj).isEmpty = true
  · have hne : text ≠ "" := by
      rintro rfl
      exact hb rfl
    rw [if_pos hnone] at ht ⊢
    rw [get_of_string _ ht]
    simp only [Json.truthy, decide_eq_true hne, if_true]
  · rw [if_neg hnone] at ht ⊢
    obtain ⟨texts, htexts, rfl⟩ := Option.map_eq_some_iff.mp ht
    rw [htexts]
    rfl

structure WellFormed (parsed : Json) (payload : List (String × Json)) (text : String) : Prop where
  fields : (Json.get parsed.fields "payload" .null).fields = payload
  content : final_text payload = some text
  nonblank : strip text ≠ ""
  seq : ∃ n : Int, Json.get payload "seq" .null = .num n
  event : (Json.get parsed.fields "event" .null).string = some "chat"
  type : (Json.get parsed.fields "type" .null).string ≠ some "res"
  state : (Json.get payload "state" .null).string = some "final"
  session : (Json.get payload "sessionKey" .null).contains ":subagent:" ≠ some true

theorem chat_final_spec (h : chat_final parsed = some (payload, text)) :
    WellFormed parsed payload text := by
  rw [chat_final] at h
  split at h
  · rename_i text' n ht hseq
    split at h
    · rename_i hc
      obtain ⟨hb, hint, hevent, htype, hstate, hsession⟩ := hc
      cases h
      refine ⟨rfl, ht, hb, ⟨n.num, ?_⟩, hevent, htype, hstate, hsession⟩
      rw [hseq, ← Rat.eq_num_of_isInt hint]
    · cases h
  · cases h

/-- The session of a readable final is no subagent's. -/
theorem session_passed (h : WellFormed parsed payload text) (hr : Readable c payload text) :
    (if (Json.get payload "sessionKey" (.str "")).truthy then
      (Json.get payload "sessionKey" (.str "")).contains ":subagent:" else some false) =
    some false := by
  have hno : (Json.get payload "sessionKey" (.str "")).contains ":subagent:" ≠ some true :=
    get_default (P := fun j => j.contains ":subagent:" ≠ some true) (by decide) h.session
  split
  · rename_i htruthy
    cases hc : (Json.get payload "sessionKey" (.str "")).contains ":subagent:" with
    | none => exact absurd hc (hr.session htruthy)
    | some b =>
      cases b with
      | true => exact absurd hc hno
      | false => rfl
  · rfl

/-- A readable final is seen as a chat event with its text. -/
theorem view_chat_final (h : WellFormed parsed payload text) (hr : Readable c payload text) :
    GatewayFrame.view parsed = .chat (run_of payload) (.str "final") (.str text)
      (Json.get payload "seq" .null) payload := by
  have hpayload : (Json.get parsed.fields "payload" (.obj [])).fields = payload := by
    rw [get_fields, h.fields]
  have htype : (Json.get parsed.fields "type" (.str "")).string ≠ some "res" :=
    get_default (P := fun j => j.string ≠ some "res") (by decide) h.type
  have hevent : Json.get parsed.fields "event" (.str "") = .str "chat" := get_of_string _ h.event
  have hstate : Json.get payload "state" (.str "") = .str "final" := get_of_string _ h.state
  have hrun : (Json.get payload "runId" (.str "")).key = some (run_of payload) := by
    obtain ⟨run_id, hrun⟩ := Option.ne_none_iff_exists'.mp hr.run
    rw [run_of, hrun]
    rfl
  have hseq : Json.get payload "seq" (.num 0) = Json.get payload "seq" .null := by
    obtain ⟨n, hn⟩ := h.seq
    apply get_of_ne_null
    rw [hn]
    exact fun he => by cases he
  have hchat : GatewayFrame.chat_event payload = .chat (run_of payload) (.str "final") (.str text)
      (Json.get payload "seq" .null) payload := by
    rw [GatewayFrame.chat_event, extract_final_text hr.message h.content h.nonblank, hrun, hstate,
      hseq]
  cases parsed with
  | obj frame =>
    rw [Json.fields] at hpayload htype hevent
    rw [GatewayFrame.view, hpayload, session_passed h hr, hevent, if_neg (by decide),
      if_neg (by decide), if_neg htype, if_neg (by decide),
      if_pos (by decide), hchat]
  | _ => cases h.event

/-- A readable final is fed to the aggregator. -/
theorem well_formed_accepts (ha : c.active_msg_id = some m) (h : WellFormed parsed payload text)
    (hr : Readable c payload text) :
    Finals.accepts c (.frame parsed) = some (answer c m payload text) := by
  have htext : (c.chat_text (run_of payload) (.str text)).string =
      some (run_text c payload text) := by
    rw [OpenClawClient.chat_text, run_text]
    cases hk : c.agent_texts (run_of payload) with
    | none => rfl
    | some t =>
      obtain ⟨raw, hraw⟩ := Option.ne_none_iff_exists'.mp (hr.kept t hk)
      rw [Option.getD_some, hraw]
      rfl
  rw [Finals.accepts, view_chat_final h hr]
  dsimp only
  rw [OpenClawClient.final_message, if_pos (by decide), htext, ha]
  rfl

/-- The finals that arrived are buffered, say something and can be compared. -/
structure Gathered (cfg : ClientConfig) (m : String) (s : RequestWindow) : Prop where
  waits : s.client.Waits cfg m
  kept : ∀ x ∈ s.finals, x ∈ s.client.aggregator.buffers m
  shown : ∀ x ∈ s.finals, ¬ x.Blank
  numbered : ∀ x ∈ s.finals, x.Numbered

structure Inv (cfg : ClientConfig) (m : String) (s : RequestWindow) : Prop where
  connected : s.client.connected = true
  gathered : s.closed = false → s.Gathered cfg m
  answered : s.finals ≠ [] → s.closed = true → s.Answered cfg m

theorem undecided (h : Wholesome cfg m s a) (he : ends a = false) (hc : closes m a = false) :
    s.client.Undecided m a := by
  cases a with
  | frame parsed => exact h.1
  | fallback i => exact h
  | debounce k => exact of_decide_eq_false hc
  | tick _ | send _ _ | sent | cleanup _ | listen | socket_lost | ws_close => trivial
  | _ => cases he

/-- A step inside the window. -/
theorem Gathered.step (h : s.Gathered cfg m) (hw : Wholesome cfg m s a)
    (hu : s.client.Undecided m a) (hs : s.client.step cfg a = some c) :
    Gathered cfg m { client := c, finals := s.finals ++ (well_formed m s.client a).toList } := by
  have hbuffers := OpenClawClient.buffers_step h.waits hu hs
  have hnew : ∀ x, well_formed m s.client a = some x →
      x ∈ c.aggregator.buffers m ∧ ¬ x.Blank ∧ x.Numbered := by
    intro x hx
    cases a with
    | frame parsed =>
      obtain ⟨⟨payload, text⟩, hfinal, rfl⟩ := Option.map_eq_some_iff.mp hx
      have hwf := chat_final_spec hfinal
      have hr := hw.2 payload text hfinal
      refine ⟨?_, hr.shown, hwf.seq⟩
      rw [hbuffers, well_formed_accepts h.waits.active hwf hr]
      exact List.mem_append_right _ List.mem_cons_self
    | _ => cases hx
  have hall : ∀ {P : ClawMessage → Prop}, (∀ x ∈ s.finals, P x) →
      (∀ x, well_formed m s.client a = some x → P x) →
      ∀ x ∈ s.finals ++ (well_formed m s.client a).toList, P x := by
    intro P hold hone x hx
    rcases List.mem_append.mp hx with hx | hx
    · exact hold x hx
    · exact hone x (Option.mem_toList.mp hx)
  exact {
    waits := OpenClawClient.waits_step h.waits hu hs
    kept := hall (fun x hx => hbuffers ▸ List.mem_append_left _ (h.kept x hx)) fun x hx =>
      (hnew x hx).1
    shown := hall h.shown fun x hx => (hnew x hx).2.1
    numbered := hall h.numbered fun x hx => (hnew x hx).2.2 }

/-- The selection from the whole buffer is the best of the well-formed finals. -/
theorem Gathered.best (h : s.Gathered cfg m) (hne : s.finals ≠ []) (ho : s.Outranked cfg m) :
    ∃ best, select_best cfg.py cfg.claw_min_valid_text_len (s.client.aggregator.buffers m) =
      .ok (some best) ∧ Best cfg.claw_min_valid_text_len s.finals best := by
  have hf : ∀ x ∈ s.client.aggregator.buffers m, is_final x = true := fun x hx =>
    (h.waits.steady.buffered.keyed m x hx).1
  have hn : ∀ x, Candidate cfg.claw_min_valid_text_len (s.client.aggregator.buffers m) x →
      x.seq.number ≠ none := by
    intro x hx
    rcases ho x hx with hx | ⟨hx, -⟩
    · exact (h.numbered x hx).number
    · exact hx
  rcases select_best_spec cfg.py cfg.claw_min_valid_text_len hf hn with
    ⟨best, hsel, hbest⟩ | ⟨-, hnone⟩
  · refine ⟨best, hsel, hbest.part h.kept ?_⟩
    rcases ho best hbest.1 with hin | ⟨-, y, -, hy, hlt⟩
    · exact hin
    · exact absurd (hbest.2 y hy) (Rat.not_le.mpr hlt)
  · obtain ⟨x, hx⟩ := List.exists_mem_of_ne_nil s.finals hne
    obtain ⟨y, hy⟩ := exists_candidate (h.kept x hx) (h.shown x hx)
    exact absurd hy (hnone y)

/-- The debounce timer answers the request. -/
theorem Gathered.answered (h : s.Gathered cfg m) (hne : s.finals ≠ [])
    (hw : Wholesome cfg m s (.debounce m)) :
    Answered cfg m {
      client := s.client.finalize cfg m
      finals := s.finals ++ (well_formed m s.client (.debounce m)).toList
      closed := closes m (.debounce m) } := by
  obtain ⟨best, hsel, hbest⟩ := h.best hne (hw rfl hne)
  obtain ⟨-, reply, hf, htext, hmedia⟩ := OpenClawClient.finalize_answers h.waits hsel
  refine ⟨best, reply, ?_, hf, htext, hmedia⟩
  simpa only [well_formed, Option.toList_none, List.append_nil] using hbest

theorem step_inv (h : s.Inv cfg m) (hw : Wholesome cfg m s a)
    (hs : s.step cfg m (well_formed m) a = some s') : s'.Inv cfg m := by
  obtain ⟨hopen, hends, c, hstep, rfl⟩ := step_cases hs
  have hg := h.gathered hopen
  cases hc : closes m a with
  | false =>
    have hg' := hg.step hw (undecided hw hends hc) hstep
    exact ⟨hg'.waits.connected, fun _ => ⟨hg'.waits, hg'.kept, hg'.shown, hg'.numbered⟩,
      fun _ hcl => by cases hcl⟩
  | true =>
    cases closes_eq hc
    cases OpenClawClient.steps_of_step hstep with
    | debounce ht hd =>
      refine ⟨OpenClawClient.handled_finalize.connected.trans h.connected,
        (fun hcl => by cases hcl), fun hne _ => ?_⟩
      have hfinals : s.finals ≠ [] := by
        simpa only [well_formed, Option.toList_none, List.append_nil] using hne
      rw [← hc]
      exact hg.answered hfinals hw

theorem inv_initial (h : Initial cfg m s) : s.Inv cfg m := by
  have hnil : ∀ {P : ClawMessage → Prop}, ∀ x ∈ s.finals, P x := by
    intro P x hx
    rw [h.finals] at hx
    cases hx
  exact ⟨h.connected, fun _ => ⟨h.waits, hnil, hnil, hnil⟩, fun hne => absurd h.finals hne⟩

/-- A frame that is dropped leaves at most a streamed text. -/
theorem dropped_dispatch (h : Dropped c parsed) :
    ∃ outputs, c.dispatch cfg parsed = { c with outputs := outputs } := by
  rw [Dropped] at h
  rw [OpenClawClient.dispatch]
  cases hv : GatewayFrame.view parsed with
  | ignored => exact ⟨_, rfl⟩
  | chat run_id state text seq payload =>
    rw [hv] at h
    have hnone : c.final_message run_id state text seq payload = none := by
      rw [OpenClawClient.final_message, h]
      split
      · rfl
      · rfl
    rw [OpenClawClient.handle, OpenClawClient.chat, hnone]
    split
    · rw [OpenClawClient.stream]
      split
      · exact ⟨_, rfl⟩
      · exact ⟨_, rfl⟩
    · exact ⟨_, rfl⟩
  | _ =>
    rw [hv] at h
    exact absurd h fun h => h

theorem Inv.closes (h : s.Inv cfg m) : s.Unpoisoned cfg m := by
  refine ⟨h.answered, fun hne hopen => ?_, ⟨h.connected, fun parsed => ?_⟩,
    fun _ => dropped_dispatch⟩
  · obtain ⟨hwaits, hkept, -, -⟩ := h.gathered hopen
    refine ⟨hwaits.live, hwaits.steady.buffered.timed m fun hnil => ?_⟩
    obtain ⟨x, hx⟩ := List.exists_mem_of_ne_nil s.finals hne
    have hbuf := hkept x hx
    rw [hnil] at hbuf
    cases hbuf
  · refine ⟨(OpenClawClient.handled_frame _).connected.trans h.connected, fun hbegun => ?_⟩
    rw [OpenClawClient.step, h.connected, hbegun]
    rfl

/-- Every order of the frames that a request receives. -/
theorem unpoisoned (h : Reach (step cfg m (well_formed m)) (Wholesome cfg m) (Initial cfg m) s) :
    s.Unpoisoned cfg m :=
  (h.invariant (fun _ => inv_initial) fun _ _ _ hi hw hs => step_inv hi hw hs).closes

/-- A chat final whose message is null. -/
def null_message (seq : Json) (text : String) : Json :=
  .obj [("event", .str "chat"), ("payload", .obj [("state", .str "final"), ("seq", seq),
    ("message", .null), ("text", .str text)])]

def mixed_frames : List Act :=
  [.frame (null_message .null "hello there"), .frame (final_frame "r" 1 "the answer"),
    .frame .null, .tick 150, .debounce "a"]

theorem readable_final {payload : List (String × Json)}
    (h : chat_final (final_frame "r" 1 "the answer") = some (payload, text)) :
    Readable asked payload text := by
  have hfinal : chat_final (final_frame "r" 1 "the answer") =
      some ([("runId", .str "r"), ("state", .str "final"), ("seq", .num 1),
        ("text", .str "the answer")], "the answer") := rfl
  rw [hfinal] at h
  cases h
  refine ⟨⟨[], rfl⟩, fun ht => ?_, fun hk => ?_, fun _ hk => ?_, by decide⟩
  · cases ht
  · cases hk
  · cases hk

theorem unpoisoned_mixed :
    ∃ s, exec (step {} "a" (well_formed "a")) { client := asked } mixed_frames = some s ∧
    s.closed = true ∧ s.finals.map (·.text) = ["the answer"] ∧ s.Unpoisoned {} "a" := by
  have h : ((exec (step {} "a" (well_formed "a")) { client := asked } mixed_frames).any fun s =>
      s.closed ∧ s.finals.map (·.text) = ["the answer"]) = true := by decide
  obtain ⟨s, hs, hboth⟩ := (Option.any_eq_true _ _).mp h
  obtain ⟨hclosed, hfinals⟩ := of_decide_eq_true hboth
  have hm : Meets (step {} "a" (well_formed "a")) (Wholesome {} "a") { client := asked }
      mixed_frames := by
    refine ⟨⟨fun h => h, ?_⟩, ⟨fun h => h, ?_⟩, ⟨fun h => h, ?_⟩, trivial, ?_, trivial⟩
    · intro _ _ hno
      cases hno
    · exact fun _ _ => readable_final
    · intro _ _ hno
      cases hno
    · intro _ _ x hx
      exact .inl hx.1
  exact ⟨s, hs, hclosed, hfinals, unpoisoned ((Reach.start initial_asked).exec hm hs)⟩

/-- The only final has a null message, and the request is left waiting. -/
theorem not_unpoisoned : ∃ s, Reach (step {} "a" (well_formed "a")) Any (Initial {} "a") s ∧
    ¬ s.Unpoisoned {} "a" := by
  have h : ((exec (step {} "a" (well_formed "a")) { client := asked }
      [.frame (null_message (.num 1) "hello there"), .tick 150]).any fun s =>
        s.finals.map (·.text) = ["hello there"] ∧ s.closed = false ∧
          (s.client.aggregator.tasks "a").isNone) = true := by decide
  obtain ⟨s, hs, hall⟩ := (Option.any_eq_true _ _).mp h
  obtain ⟨hfinals, hopen, hidle⟩ := of_decide_eq_true hall
  refine ⟨s, (Reach.start initial_asked).exec (meets_any _ _) hs, fun hu => ?_⟩
  have hne : s.finals ≠ [] := by
    intro hnil
    rw [hnil] at hfinals
    cases hfinals
  obtain ⟨-, due, hdue, -⟩ := hu.waiting hne hopen
  rw [hdue] at hidle
  cases hidle

end RequestWindow

end ClawMux
