import ClawMux.Services.Finals

namespace ClawMux
set_option autoImplicit true
open Lib Lib.Text

/-- A client with the latest assistant text of each run, whether a clean-up of the run has run
since, and the finals that were fed to the aggregator, each with the latest text at that time. -/
structure AgentTexts where
  client : OpenClawClient := {}
  heard : Key → Option Json := fun _ => none
  cleared : Key → Bool := fun _ => false
  fed : List (ClawMessage × Option Json) := []

namespace AgentTexts
open OpenClawClient (Act assistant_frame final_frame)

def hears : Act → Option (Key × Json)
  | .frame parsed =>
    match GatewayFrame.view parsed with
    | .assistant run_id text => some (run_id, text)
    | _ => none
  | _ => none

/-- The run whose clean-up callback is called. -/
def clears (c : OpenClawClient) : Act → Option Key
  | .cleanup i => c.cleanups[i]?.map (·.2)
  | _ => none

def hear (s : AgentTexts) : Option (Key × Json) → AgentTexts
  | some (run_id, text) =>
    { s with
      heard := Function.update s.heard run_id (some text)
      cleared := Function.update s.cleared run_id false }
  | none => s

def clear (s : AgentTexts) : Option Key → AgentTexts
  | some run_id => { s with cleared := Function.update s.cleared run_id true }
  | none => s

def feed (s : AgentTexts) : Option ClawMessage → AgentTexts
  | some msg => { s with fed := s.fed ++ [(msg, s.heard msg.run_id)] }
  | none => s

variable (cfg : ClientConfig)

def step (s : AgentTexts) (a : Act) : Option AgentTexts :=
  match s.client.step cfg a with
  | some c =>
    some { ((s.feed (Finals.accepts s.client a)).clear (clears s.client a)).hear (hears a) with
      client := c }
  | none => none

def Initial (s : AgentTexts) : Prop := ∃ begun, s = { client := { begun := begun } }

/-- The text of a final that is fed is computed from the latest assistant text of its run. -/
def Raw (s : AgentTexts) : Prop :=
  ∀ x ∈ s.fed, ∀ t, x.2 = some t → ∃ text, t = .str text ∧ x.1.text = clean_text text

/-- A final arrives before a clean-up of its run has run since the latest assistant event. -/
def Uncleared (s : AgentTexts) : Act → Prop
  | .frame parsed =>
    match GatewayFrame.view parsed with
    | .chat run_id state _ _ _ =>
      state.string = some "final" → s.heard run_id ≠ none → s.cleared run_id = false
    | _ => True
  | _ => True

variable {cfg} {c c' : OpenClawClient} {s s' : AgentTexts}

/-- The texts of a connection are the latest ones, but for the runs that were cleared. -/
structure Inv (s : AgentTexts) : Prop where
  latest : s.client.connected = true → ∀ run_id t, s.heard run_id = some t →
    s.cleared run_id = false → s.client.agent_texts run_id = some t
  raw : s.Raw

/-- The texts and the connection are as before. -/
def SameTexts (c c' : OpenClawClient) : Prop :=
  c'.agent_texts = c.agent_texts ∧ c'.connected = c.connected

theorem stream_texts (c : OpenClawClient) (r : Key) (t : Json) : SameTexts c (c.stream r t) := by
  rw [OpenClawClient.stream]
  split
  · exact ⟨rfl, rfl⟩
  · exact ⟨rfl, rfl⟩

theorem proactive_texts (c : OpenClawClient) (t : Json) (o : Option Origin) :
    SameTexts c (c.proactive cfg t o) := by
  rw [OpenClawClient.proactive]
  split
  · exact ⟨rfl, rfl⟩
  · exact ⟨rfl, rfl⟩

theorem chat_texts {payload : List (String × Json)} :
    SameTexts c (c.chat cfg run_id state text seq payload) := by
  rw [OpenClawClient.chat]
  split
  · exact stream_texts ..
  · split
    · exact ⟨rfl, rfl⟩
    · exact ⟨rfl, rfl⟩

/-- Only an assistant event stores a text. -/
theorem dispatch_texts (c : OpenClawClient) (parsed : Json) :
    (c.dispatch cfg parsed).connected = c.connected ∧
      (c.dispatch cfg parsed).agent_texts = match hears (.frame parsed) with
        | some (run_id, text) => Function.update c.agent_texts run_id (some text)
        | none => c.agent_texts := by
  rw [OpenClawClient.dispatch, hears]
  cases GatewayFrame.view parsed with
  | ignored => exact ⟨rfl, rfl⟩
  | rejected id error =>
    simp only [OpenClawClient.handle, OpenClawClient.chat_send_rejected]
    split
    · exact ⟨rfl, rfl⟩
    · exact ⟨rfl, rfl⟩
  | assistant run_id text => exact (stream_texts { c with
      agent_texts := Function.update c.agent_texts run_id (some text) } run_id text).symm
  | lifecycle_error run_id error =>
    simp only [OpenClawClient.handle, OpenClawClient.lifecycle_error]
    split
    · exact ⟨rfl, rfl⟩
    · exact ⟨rfl, rfl⟩
  | lifecycle_end run_id =>
    simp only [OpenClawClient.handle, OpenClawClient.lifecycle_end]
    split
    · exact ⟨rfl, rfl⟩
    · exact ⟨rfl, rfl⟩
  | chat run_id state text seq payload => exact chat_texts.symm
  | cron summary => exact (proactive_texts ..).symm

theorem route_texts (c : OpenClawClient) (m : ClawMessage) (rivals : List Origin) :
    SameTexts c (c.route cfg m rivals) := by
  have hun : SameTexts c (OpenClawClient.route.unsolicited cfg c m) := by
    rw [OpenClawClient.route.unsolicited]
    by_cases ht : c.timed_out_msg_id = some m.msg_id
    · simp only [if_pos ht]
      split
      · exact ⟨rfl, rfl⟩
      · exact proactive_texts ..
    · simp only [if_neg ht]
      split
      · exact ⟨rfl, rfl⟩
      · exact proactive_texts ..
  rw [OpenClawClient.route]
  split
  · split
    · exact ⟨rfl, rfl⟩
    · exact hun
  · exact hun

theorem finalize_texts (c : OpenClawClient) (k : String) : SameTexts c (c.finalize cfg k) := by
  rw [OpenClawClient.finalize]
  split
  · exact route_texts ..
  · exact ⟨rfl, rfl⟩

theorem delayed_fallback_texts (c : OpenClawClient) (f : Fallback) :
    SameTexts c (c.delayed_fallback f) := by
  rw [OpenClawClient.delayed_fallback]
  split
  · split
    · exact ⟨rfl, rfl⟩
    · exact ⟨rfl, rfl⟩
  · exact ⟨rfl, rfl⟩

theorem disconnected_connected (c : OpenClawClient) : c.disconnected.connected = false := by
  rw [OpenClawClient.disconnected]
  split
  · rfl
  · rfl

/-- The texts of a connection change with assistant events and clean-ups only. -/
theorem step_texts (hs : c.step cfg a = some c') (hc : c'.connected = true) :
    c.connected = true ∧ c'.agent_texts = match hears a, clears c a with
      | some (run_id, text), _ => Function.update c.agent_texts run_id (some text)
      | none, some run_id => Function.update c.agent_texts run_id none
      | none, none => c.agent_texts := by
  cases OpenClawClient.steps_of_step hs with
  | tick => exact ⟨hc, rfl⟩
  | send _ _ _ => exact ⟨hc, rfl⟩
  | shield_raised _ _ => exact ⟨hc, rfl⟩
  | sent _ _ => exact ⟨hc, rfl⟩
  | send_failed _ => exact ⟨hc, rfl⟩
  | returned _ _ => exact ⟨hc, rfl⟩
  | raised _ _ => exact ⟨hc, rfl⟩
  | timeout _ _ => exact ⟨hc, rfl⟩
  | cancel _ => exact ⟨hc, rfl⟩
  | frame hconn =>
    refine ⟨hconn, ?_⟩
    rw [(dispatch_texts c _).2]
    cases hears _ with
    | none => rfl
    | some heard => rfl
  | debounce _ _ =>
    obtain ⟨htexts, hconn⟩ : SameTexts c (c.finalize cfg _) := finalize_texts ..
    exact ⟨hconn.symm.trans hc, htexts⟩
  | fallback _ _ =>
    obtain ⟨htexts, hconn⟩ :=
      delayed_fallback_texts { c with fallbacks := c.fallbacks.eraseIdx _ } _
    exact ⟨hconn.symm.trans hc, htexts⟩
  | cleanup hi _ =>
    refine ⟨hc, ?_⟩
    simp only [hears, clears, hi, Option.map_some]
  | listen => exact ⟨hc, rfl⟩
  | socket_lost => exact ⟨hc, rfl⟩
  | ws_close _ _ => exact ⟨hc, rfl⟩
  | disconnect _ _ =>
    rw [disconnected_connected] at hc
    cases hc
  | close => cases hc

theorem feed_frame (s : AgentTexts) (m : Option ClawMessage) :
    (s.feed m).heard = s.heard ∧ (s.feed m).cleared = s.cleared := by
  cases m with
  | none => exact ⟨rfl, rfl⟩
  | some m => exact ⟨rfl, rfl⟩

theorem clear_fed (s : AgentTexts) (r : Option Key) : (s.clear r).fed = s.fed := by
  cases r with
  | none => rfl
  | some r => rfl

theorem hear_fed (s : AgentTexts) (x : Option (Key × Json)) : (s.hear x).fed = s.fed := by
  cases x with
  | none => rfl
  | some x => rfl

/-- What is stored stays the latest text through a clean-up and an assistant event. -/
theorem latest_step {texts texts' : Key → Option Json} {x : Option (Key × Json)} {r : Option Key}
    (h : ∀ run_id t, s.heard run_id = some t → s.cleared run_id = false →
      texts run_id = some t)
    (ht : texts' = match x, r with
      | some (run_id, text), _ => Function.update texts run_id (some text)
      | none, some run_id => Function.update texts run_id none
      | none, none => texts) :
    ∀ run_id t, ((s.clear r).hear x).heard run_id = some t →
      ((s.clear r).hear x).cleared run_id = false → texts' run_id = some t := by
  have hclear : ∀ run_id t, (s.clear r).heard run_id = some t →
      (s.clear r).cleared run_id = false → texts run_id = some t ∧ r ≠ some run_id := by
    intro run_id t hh hc
    cases r with
    | none => exact ⟨h run_id t hh hc, fun he => by cases he⟩
    | some r =>
      by_cases he : run_id = r
      · subst he
        rw [clear] at hc
        dsimp only at hc
        rw [Function.update_self] at hc
        cases hc
      · rw [clear] at hc
        dsimp only at hc
        rw [Function.update_of_ne he] at hc
        exact ⟨h run_id t hh hc, fun hr => he (Option.some.inj hr).symm⟩
  intro run_id t hh hc
  cases x with
  | some x =>
    obtain ⟨r₀, t₀⟩ := x
    dsimp only at ht
    rw [hear] at hh hc
    dsimp only at hh hc
    by_cases he : run_id = r₀
    · subst he
      rw [Function.update_self] at hh
      rw [ht, Function.update_self, hh]
    · rw [Function.update_of_ne he] at hh hc
      rw [ht, Function.update_of_ne he]
      exact (hclear run_id t hh hc).1
  | none =>
    obtain ⟨htext, hne⟩ := hclear run_id t hh hc
    cases r with
    | none =>
      rw [ht]
      exact htext
    | some r =>
      have he : run_id ≠ r := by
        rintro rfl
        exact hne rfl
      rw [ht]
      exact (Function.update_of_ne he ..).trans htext

/-- A final that is fed before a clean-up has its text from the latest assistant event. -/
theorem accepts_raw (h : s.Inv) (hconn : s.client.connected = true) (hc : s.Uncleared a)
    (ha : Finals.accepts s.client a = some m) (ht : s.heard m.run_id = some t) :
    ∃ text, t = .str text ∧ m.text = clean_text text := by
  cases a with
  | frame parsed =>
    simp only [Finals.accepts] at ha
    simp only [Uncleared] at hc
    cases hv : GatewayFrame.view parsed with
    | chat run_id state text seq payload =>
      rw [hv] at ha hc
      simp only [OpenClawClient.final_message] at ha
      split at ha
      · rename_i hstate
        obtain ⟨T, hT, rfl⟩ := Option.map_eq_some_iff.mp ha
        have hfree := hc hstate (by rw [ht]; exact Option.some_ne_none _)
        have htext := h.latest hconn run_id t ht hfree
        rw [OpenClawClient.chat_text, htext] at hT
        refine ⟨T, ?_, rfl⟩
        cases t with
        | str x => rw [Option.some.inj hT]
        | null | bool | num | arr | obj => cases hT
      · cases ha
    | _ =>
      rw [hv] at ha
      cases ha
  | _ => cases ha

theorem accepts_connected (hs : c.step cfg a = some c') (ha : Finals.accepts c a = some m) :
    c.connected = true := by
  cases OpenClawClient.steps_of_step hs with
  | frame hconn => exact hconn
  | _ => cases ha

theorem step_inv (h : s.Inv) (hc : s.Uncleared a) (hs : s.step cfg a = some s') : s'.Inv := by
  rw [step] at hs
  split at hs
  · rename_i c hclient
    cases hs
    refine ⟨?_, ?_⟩
    · intro hconn
      obtain ⟨hconn', htexts⟩ := step_texts hclient hconn
      apply latest_step (s := s.feed _) ?_ htexts
      rw [(feed_frame ..).1, (feed_frame ..).2]
      exact h.latest hconn'
    · intro x hx t ht
      dsimp only at hx
      rw [hear_fed, clear_fed] at hx
      cases ha : Finals.accepts s.client a with
      | none =>
        rw [ha] at hx
        exact h.raw x hx t ht
      | some m =>
        rw [ha, feed] at hx
        rcases List.mem_append.mp hx with hx | hx
        · exact h.raw x hx t ht
        · rw [List.mem_singleton.mp hx] at ht ⊢
          exact accepts_raw h (accepts_connected hclient ha) hc ha ht
  · cases hs

theorem inv_initial (h : Initial s) : s.Inv := by
  obtain ⟨begun, rfl⟩ := h
  exact ⟨(fun _ _ _ hh => by cases hh), fun _ hx => by cases hx⟩

/-- Every order of assistant events, finals and clean-ups on a connection. -/
theorem raw_text_used (h : Reach (step cfg) Uncleared Initial s) : s.Raw :=
  (h.invariant (fun _ => inv_initial) fun _ _ _ hi hc hs => step_inv hi hc hs).raw

def raw_run : List Act :=
  [.frame (assistant_frame "r" "100"), .frame (final_frame "r" 2 "1"), .tick 10000,
    .frame (assistant_frame "r" "1000"), .cleanup 0, .frame (assistant_frame "r" "2000"),
    .frame (final_frame "r" 150 "2")]

theorem raw_text_used_raw : ∃ s, exec (step {}) {} raw_run = some s ∧
    s.fed.map (·.1.text) = ["100", "2000"] ∧ s.Raw := by
  have h : ((exec (step {}) {} raw_run).any fun s =>
      s.fed.map (·.1.text) = ["100", "2000"]) = true := by decide
  obtain ⟨s, hs, hfed⟩ := (Option.any_eq_true _ _).mp h
  have hi : Initial {} := ⟨true, rfl⟩
  have hm : Meets (step {}) Uncleared {} raw_run :=
    ⟨trivial, fun _ _ => rfl, trivial, trivial, trivial, trivial, fun _ _ => rfl, trivial⟩
  exact ⟨s, hs, of_decide_eq_true hfed, raw_text_used ((Reach.start hi).exec hm hs)⟩

/-- The clean-up after the first final runs before the second one. -/
def cleared_run : List Act :=
  [.frame (assistant_frame "r" "100"), .frame (final_frame "r" 2 "1"), .tick 10000, .cleanup 0,
    .frame (final_frame "r" 150 "1")]

theorem not_raw_text_used : ∃ s, Reach (step {}) Any Initial s ∧ ¬ s.Raw := by
  have h : ((exec (step {}) {} cleared_run).any fun s =>
      s.fed.any fun x => x.1.text = "1" && x.2.any (·.string = some "100")) = true := by decide
  obtain ⟨s, hs, hfed⟩ := (Option.any_eq_true _ _).mp h
  have hi : Initial {} := ⟨true, rfl⟩
  refine ⟨s, reach_of_exec hi hs, fun hraw => ?_⟩
  obtain ⟨x, hx, hboth⟩ := List.any_eq_true.mp hfed
  obtain ⟨htext, hheard⟩ := Bool.and_eq_true_iff.mp hboth
  obtain ⟨t, ht, hstr⟩ := (Option.any_eq_true _ _).mp hheard
  obtain ⟨text, rfl, hclean⟩ := hraw x hx t ht
  have he : text = "100" := by simpa [Json.string] using hstr
  rw [he, of_decide_eq_true htext] at hclean
  revert hclean
  decide

end AgentTexts

end ClawMux
