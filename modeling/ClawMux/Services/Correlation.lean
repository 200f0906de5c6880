import ClawMux.Services.RequestState

namespace ClawMux
set_option autoImplicit true
open Lib

/-- The request that an origin was caused by, where `gateway` tells it for every run. -/
def Origin.cause (gateway : Key → Option String) : Origin → Option String
  | .res i => i.string
  | .run run_id => gateway run_id

def GatewayFrame.cause (gateway : Key → Option String) : GatewayFrame → Option String
  | .rejected i _ => i.string
  | .assistant run_id _ => gateway run_id
  | .lifecycle_error run_id _ => gateway run_id
  | .lifecycle_end run_id => gateway run_id
  | .chat run_id _ _ _ _ => gateway run_id
  | .ignored | .cron _ => none

/-- Everything that a reply was made from was caused by the request `m`. -/
def Reply.From (gateway : Key → Option String) (m : String) (r : Reply) : Prop :=
  (∀ o ∈ r.origin, o.cause gateway = some m) ∧ ∀ o ∈ r.rivals, o.cause gateway = some m

def Output.Own (gateway : Key → Option String) : Output → Prop
  | .streamed m _ run_id => gateway run_id = some m
  | .returned m reply => reply.From gateway m
  | .proactive _ _ => True

instance (r : Reply) : Decidable (r.From gateway m) :=
  inferInstanceAs (Decidable ((∀ o ∈ r.origin, _) ∧ ∀ o ∈ r.rivals, _))

instance : ∀ o : Output, Decidable (o.Own gateway)
  | .streamed m _ run_id => inferInstanceAs (Decidable (gateway run_id = some m))
  | .returned m reply => inferInstanceAs (Decidable (reply.From gateway m))
  | .proactive _ _ => isTrue trivial

namespace OpenClawClient

variable {cfg : ClientConfig} {gateway : Key → Option String} {s s' : OpenClawClient}

/-- The request on whose behalf a frame is used. -/
def used_for (s : OpenClawClient) : GatewayFrame → Option String
  | .rejected _ _ => s.live
  | .assistant _ _ => s.streaming
  | .lifecycle_error _ _ => s.live
  | .lifecycle_end run_id => if (s.fallback_text run_id).isSome then s.live else none
  | .chat run_id state text seq payload =>
    if is_partial state && (s.chat_text run_id text).truthy then s.streaming
    else if (s.final_message run_id state text seq payload).isSome then s.live
    else none
  | .ignored | .cron _ => none

/-- The frame that a step handles. -/
def Act.handled : Act → GatewayFrame
  | .frame parsed => .view parsed
  | _ => .ignored

/-- A frame that is used for a request was caused by it. -/
def OwnFrames (gateway : Key → Option String) (s : OpenClawClient) (a : Act) : Prop :=
  ∀ m ∈ s.used_for a.handled, a.handled.cause gateway = some m

instance : Decidable (OwnFrames gateway s a) :=
  inferInstanceAs (Decidable (∀ m ∈ s.used_for a.handled, a.handled.cause gateway = some m))

/-- Every value returned and every text streamed comes from frames of its own request. -/
def Correlated (gateway : Key → Option String) (s : OpenClawClient) : Prop :=
  ∀ o ∈ s.outputs, o.Own gateway

instance : Decidable (s.Correlated gateway) :=
  inferInstanceAs (Decidable (∀ o ∈ s.outputs, o.Own gateway))

/-- What is kept for a request that still waits was caused by it. -/
structure Traced (gateway : Key → Option String) (s : OpenClawClient) : Prop where
  buffered : ∀ k, s.future k = some .pending → ∀ msg ∈ s.aggregator.buffers k,
    gateway msg.run_id = some k
  fallback : ∀ f ∈ s.fallbacks, s.future f.msg_id = some .pending →
    gateway f.run_id = some f.msg_id
  result : ∀ m r, s.future m = some (.result r) → r.From gateway m
  outputs : Correlated gateway s

theorem Traced.same (h : s.Traced gateway) (e : SameRequest s s') (ho : Correlated gateway s') :
    s'.Traced gateway where
  buffered k hk msg hmsg := by
    rw [e.future] at hk
    rcases e.buffers k with he | he
    · exact h.buffered k hk msg (he ▸ hmsg)
    · rw [he] at hmsg
      cases hmsg
  fallback := by
    rw [e.fallbacks, e.future]
    exact h.fallback
  result := by
    rw [e.future]
    exact h.result
  outputs := ho

theorem Correlated.output (h : s.Correlated gateway) (ho : o.Own gateway) :
    (s.output o).Correlated gateway := by
  intro x hx
  rcases List.mem_append.mp hx with hx | hx
  · exact h x hx
  · rw [List.mem_singleton.mp hx]
    exact ho

theorem Traced.output (h : s.Traced gateway) (ho : o.Own gateway) :
    (s.output o).Traced gateway :=
  h.same (s.same_output o) (h.outputs.output ho)

theorem Traced.stream (h : s.Traced gateway) (hs : ∀ m ∈ s.streaming, gateway run_id = some m) :
    (s.stream run_id text).Traced gateway := by
  unfold OpenClawClient.stream
  split
  · exact h
  · rename_i m hm
    exact h.output (hs m hm)

theorem Traced.proactive (h : s.Traced gateway) : (s.proactive cfg text o).Traced gateway := by
  unfold OpenClawClient.proactive
  split
  · exact h.output trivial
  · exact h

theorem future_resolve {x : Future} (hx : x ≠ .pending)
    (hk : (s.resolve m x).future k = some .pending) : s.future k = some .pending := by
  rcases s.resolve_future m k x with he | ⟨-, -, he⟩
  · exact he.symm.trans hk
  · exact absurd (Option.some.inj (he.symm.trans hk)) hx

theorem Traced.resolve (h : s.Traced gateway) {x : Future} (hx : x ≠ .pending)
    (hr : ∀ r, x = .result r → r.From gateway m) : (s.resolve m x).Traced gateway where
  buffered k hk := h.buffered k (future_resolve hx hk)
  fallback f hf hp := h.fallback f hf (future_resolve hx hp)
  result k r hk := by
    rcases s.resolve_future m k x with he | ⟨rfl, -, he⟩
    · exact h.result k r (he.symm.trans hk)
    · exact hr r (Option.some.inj (he.symm.trans hk))
  outputs := h.outputs

theorem Traced.answer (h : s.Traced gateway) {r : Reply} (hr : r.From gateway m) :
    (s.resolve m (.result r)).Traced gateway := by
  refine h.resolve (fun he => by cases he) ?_
  rintro _ ⟨⟩
  exact hr

theorem from_origin (text : Json) (h : Origin.cause gateway o = some m) :
    Reply.From gateway m { text := text, origin := some o } := by
  refine ⟨?_, fun _ ho => by cases ho⟩
  rintro _ ⟨⟩
  exact h

theorem traced_chat (hw : s.Wf) (h : s.Traced gateway)
    (hc : ∀ m ∈ s.used_for (.chat run_id state text seq payload), gateway run_id = some m) :
    (s.chat cfg run_id state text seq payload).Traced gateway := by
  unfold OpenClawClient.chat
  simp only [used_for] at hc
  split
  · rename_i hpart
    rw [if_pos hpart] at hc
    exact h.stream hc
  · rename_i hpart
    rw [if_neg hpart] at hc
    split
    · exact h
    · rename_i msg hmsg
      rw [hmsg] at hc
      obtain ⟨hid, hrun⟩ := final_message_id hmsg
      refine ⟨?_, h.fallback, h.result, h.outputs⟩
      intro k hk x hx
      rcases add_event_buffers s.aggregator cfg.claw_debounce_ms s.now msg k with he | ⟨hkm, he⟩
      · exact h.buffered k hk x (he ▸ hx)
      · rcases List.mem_append.mp (he ▸ hx) with hx | hx
        · exact h.buffered k hk x hx
        · rw [List.mem_singleton.mp hx, hrun]
          have hne : k ≠ "proactive" := hw.ne_proactive (by rw [hk]; exact fun he => by cases he)
          cases ha : s.active_msg_id with
          | none =>
            rw [hid, ha] at hkm
            exact absurd hkm hne
          | some m =>
            rw [hid, ha] at hkm
            have hkm : k = m := hkm
            subst hkm
            exact hc k (live_eq_some.mpr ⟨hw.active ▸ ha, hk⟩)

theorem traced_handle (hw : s.Wf) (h : s.Traced gateway)
    (hc : ∀ m ∈ s.used_for f, f.cause gateway = some m) : (s.handle cfg f).Traced gateway := by
  cases f with
  | ignored => exact h
  | rejected i error =>
    simp only [handle, chat_send_rejected]
    split
    · exact ⟨h.buffered, h.fallback, h.result, h.outputs⟩
    · rename_i m hm
      have hr := h.answer (from_origin (o := .res i)
        (.str ("[Error: " ++ error.format cfg.py ++ "]")) (hc m hm))
      exact ⟨hr.buffered, hr.fallback, hr.result, hr.outputs⟩
  | assistant run_id text =>
    have hkept : { s with
        agent_texts := Function.update s.agent_texts run_id (some text) }.Traced gateway :=
      ⟨h.buffered, h.fallback, h.result, h.outputs⟩
    exact hkept.stream hc
  | lifecycle_error run_id error =>
    simp only [handle, lifecycle_error]
    split
    · rename_i m _ hl
      exact h.answer (from_origin (o := .run run_id) _ (hc m hl))
    · exact h
  | lifecycle_end run_id =>
    simp only [handle, lifecycle_end]
    split
    · rename_i m text n ha ht hl
      have hmn : m = n := by
        have hp := (live_eq_some.mp hl).1
        rw [← hw.active, ha] at hp
        exact Option.some.inj hp
      subst hmn
      refine ⟨h.buffered, ?_, h.result, h.outputs⟩
      intro f hf hp
      rcases List.mem_append.mp hf with hf | hf
      · exact h.fallback f hf hp
      · rw [List.mem_singleton.mp hf]
        refine hc m ?_
        simp only [used_for, ht, Option.isSome_some, if_true]
        exact hl
    · exact h
  | chat run_id state text seq payload => exact traced_chat hw h hc
  | cron summary => exact h.proactive

theorem traced_unsolicited (h : s.Traced gateway) :
    (route.unsolicited cfg s msg).Traced gateway := by
  have ht : ∀ x, { s with timed_out_msg_id := x }.Traced gateway := fun x =>
    ⟨h.buffered, h.fallback, h.result, h.outputs⟩
  unfold route.unsolicited
  dsimp only
  split
  · split
    · exact ht none
    · exact h
  · split
    · exact (ht none).proactive
    · exact h.proactive

theorem traced_finalize (hw : s.Wf) (h : s.Traced gateway) :
    (s.finalize cfg k).Traced gateway := by
  have hpop : { s with aggregator := s.aggregator.pop k }.Traced gateway :=
    h.same ⟨rfl, rfl, rfl, rfl, rfl, rfl, pop_buffers _ k, rfl⟩ h.outputs
  simp only [finalize]
  split
  · rename_i msg hmsg
    have hmem := (select_best_mem hmsg).1
    unfold route
    split
    · rename_i m hl
      split
      · rename_i hroute
        have hf := (live_eq_some.mp hl).2
        obtain rfl : m = k := (hw.live_msg_id hl hroute.1).trans (hw.keyed k msg hmem)
        refine hpop.answer ⟨?_, ?_⟩
        · rintro _ ⟨⟩
          exact h.buffered m hf msg hmem
        · intro o ho
          obtain ⟨x, hx, rfl⟩ := List.mem_map.mp ho
          exact h.buffered m hf x hx
      · exact traced_unsolicited hpop
    · exact traced_unsolicited hpop
  · exact hpop

theorem traced_disconnected (h : s.Traced gateway) : s.disconnected.Traced gateway := by
  have hcut : { s with
      connected := false, listening := false, agent_texts := fun _ => none }.Traced gateway :=
    ⟨h.buffered, h.fallback, h.result, h.outputs⟩
  unfold disconnected
  dsimp only
  split
  · exact hcut
  · exact hcut.resolve (fun he => by cases he) fun r hr => by cases hr

theorem Traced.finish (h : s.Traced gateway) : s.finish.Traced gateway :=
  ⟨h.buffered, h.fallback, h.result, h.outputs⟩

theorem traced_fallback (hw : s.Wf) (h : s.Traced gateway) (hf : s.fallbacks[i]? = some f) :
    (delayed_fallback { s with fallbacks := s.fallbacks.eraseIdx i } f).Traced gateway := by
  have hrest : { s with fallbacks := s.fallbacks.eraseIdx i }.Traced gateway :=
    ⟨h.buffered, fun f hf => h.fallback f (List.mem_of_mem_eraseIdx hf), h.result, h.outputs⟩
  unfold delayed_fallback
  split
  · rename_i m hl
    split
    · rename_i hid
      obtain rfl := hw.live_msg_id hl hid
      exact hrest.answer (from_origin (o := .run f.run_id) _
        (h.fallback f (List.mem_of_getElem? hf) (live_eq_some.mp hl).2))
    · exact hrest
  · exact hrest

theorem traced_step (hw : s.Wf) (h : s.Traced gateway) (hc : s.OwnFrames gateway a)
    (hs : s.step cfg a = some s') : s'.Traced gateway := by
  have hclosed : { s with aggregator := {} }.Traced gateway :=
    ⟨(fun _ _ _ hm => by cases hm), h.fallback, h.result, h.outputs⟩
  cases steps_of_step hs with
  | tick => exact ⟨h.buffered, h.fallback, h.result, h.outputs⟩
  | @send m on_stream hh hf hp =>
    have hold : ∀ {k x}, k ≠ m → Function.update s.future m (some .pending) k = some x →
        s.future k = some x := fun hk he => (Function.update_of_ne hk ..).symm.trans he
    refine ⟨?_, ?_, ?_, h.outputs⟩
    · intro k hk msg hmsg
      by_cases hkm : k = m
      · subst hkm
        exact absurd hf (hw.buffers k (List.ne_nil_of_mem hmsg) hp)
      · exact h.buffered k (hold hkm hk) msg hmsg
    · intro f hmem hk
      refine h.fallback f hmem (hold ?_ hk)
      rintro rfl
      exact hw.fallbacks f hmem hf
    · intro k r hk
      by_cases hkm : k = m
      · subst hkm
        have hx := (Function.update_self ..).symm.trans hk
        cases hx
      · exact h.result k r (hold hkm hk)
  | shield_raised | send_failed | raised | cancel => exact h.finish
  | sent => exact ⟨h.buffered, h.fallback, h.result, h.outputs⟩
  | @returned m deadline reply hh hf => exact h.finish.output (h.result _ reply hf)
  | timeout hh hd =>
    have ht : ∀ x, { s with timed_out_msg_id := x }.Traced gateway := fun x =>
      ⟨h.buffered, h.fallback, h.result, h.outputs⟩
    exact (ht _).finish.output ⟨(fun _ ho => by cases ho), fun _ ho => by cases ho⟩
  | frame => exact traced_handle hw h hc
  | debounce => exact traced_finalize hw h
  | fallback hf hd => exact traced_fallback hw h hf
  | cleanup => exact ⟨h.buffered, h.fallback, h.result, h.outputs⟩
  | disconnect => exact traced_disconnected h
  | close => exact ⟨hclosed.buffered, hclosed.fallback, hclosed.result, hclosed.outputs⟩
  | listen | socket_lost | ws_close => exact ⟨h.buffered, h.fallback, h.result, h.outputs⟩

/-- Answers belong to their requests in every run in which each frame that is used for a request
was caused by it. -/
theorem answers_correlated (h : Reach (step cfg) (OwnFrames gateway) Initial s) :
    s.Correlated gateway := by
  have hinv : s.Wf ∧ s.Traced gateway := by
    refine h.invariant (I := fun s => s.Wf ∧ s.Traced gateway) ?_ ?_
    · intro s hi
      refine ⟨wf_initial hi, ?_⟩
      obtain ⟨begun, rfl⟩ := hi
      exact ⟨(fun _ hk => by cases hk), (fun _ hf => by cases hf), (fun _ _ hr => by cases hr),
        fun _ ho => by cases ho⟩
    · rintro s a s' ⟨hw, ht⟩ hc hs
      exact ⟨wf_step hw hs, traced_step hw ht hc hs⟩
  exact hinv.2.outputs

def res_frame (msg_id : String) (error : String) : Json :=
  .obj [("type", .str "res"), ("id", .str msg_id), ("ok", .bool false), ("error", .str error)]

def assistant_frame (run_id text : String) : Json :=
  .obj [("event", .str "agent"), ("payload", .obj [("runId", .str run_id),
    ("stream", .str "assistant"), ("data", .obj [("text", .str text)])])]

def lifecycle_frame (run_id phase : String) : Json :=
  .obj [("event", .str "agent"), ("payload", .obj [("runId", .str run_id),
    ("stream", .str "lifecycle"), ("data", .obj [("phase", .str phase)])])]

def final_frame (run_id : String) (seq : Rat) (text : String) : Json :=
  .obj [("event", .str "chat"), ("payload", .obj [("runId", .str run_id),
    ("state", .str "final"), ("seq", .num seq), ("text", .str text)])]

/-- The request `m` was answered by `text`. -/
def Output.answers (m text : String) : Output → Bool
  | .returned m' reply => m = m' && reply.text.string = some text
  | _ => false

def answered_run : List Act :=
  [.send "a" true, .sent, .frame (assistant_frame "r" "hello there"),
    .frame (final_frame "r" 2 "hello ther"), .tick 150, .debounce "a", .resume]

theorem answers_correlated_answered : ∃ s,
    exec (step {}) {} answered_run = some s ∧ s.outputs.any (Output.answers "a" "hello there") ∧
      s.Correlated fun run_id => if run_id = .str "r" then some "a" else none := by
  have h : ((exec (step {}) {} answered_run).any
      fun s => s.outputs.any (Output.answers "a" "hello there")) = true := by decide
  obtain ⟨s, hs, ha⟩ := (Option.any_eq_true _ _).mp h
  have hm : Meets (step {})
      (OwnFrames fun run_id => if run_id = .str "r" then some "a" else none) {} answered_run := by
    decide
  have hi : Initial {} := ⟨true, rfl⟩
  exact ⟨s, hs, ha, answers_correlated ((Reach.start hi).exec hm hs)⟩

/-- The rejection of a request that has timed out arrives during the next one. -/
def late_rejection : List Act :=
  [.send "a" false, .sent, .tick 300000, .timeout, .send "b" false, .sent,
    .frame (res_frame "a" "busy"), .resume]

theorem not_answers_correlated : ∃ s, Reach (step {}) Any Initial s ∧
    s.outputs.any (Output.answers "b" "[Error: busy]") ∧ ¬ s.Correlated fun _ => none := by
  have h : ((exec (step {}) {} late_rejection).any fun s =>
      s.outputs.any (Output.answers "b" "[Error: busy]") ∧
        ¬ s.Correlated fun _ => none) = true := by
    decide
  obtain ⟨s, hs, ha⟩ := (Option.any_eq_true _ _).mp h
  have hi : Initial {} := ⟨true, rfl⟩
  exact ⟨s, reach_of_exec hi hs, of_decide_eq_true ha⟩

end OpenClawClient

end ClawMux
