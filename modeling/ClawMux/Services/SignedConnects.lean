import ClawMux.Services.FailedConnects

namespace ClawMux
set_option autoImplicit true
open Lib

/-- What goes over a WebSocket. -/
inductive GatewaySpeech
  | received (raw : String)
  | sent (frame : Json)

namespace Gateway

variable (py : GatewayPython) (g : Gateway)

def speech (w : Nat) : Sigma GatewayEffect.Answer → Option GatewaySpeech
  | ⟨.recv v, .ok raw⟩ => if v = w then some (.received raw) else none
  | ⟨.send v frame, _⟩ => if v = w then some (.sent frame) else none
  | _ => none

/-- What went over the WebSocket `w`. -/
def dialogue (w : Nat) (tr : GatewayTrace) : List GatewaySpeech := tr.filterMap (speech w)

/-- A challenge with its nonce. -/
structure Challenges (raw nonce : String) : Prop where
  event : ∃ data event, py.loads raw = .ok data ∧ Dynamic.get "event" .null data = .ok event ∧
    event.string = some "connect.challenge"
  nonce : ∃ data payload, py.loads raw = .ok data ∧ Dynamic.item "payload" data = .ok payload ∧
    Dynamic.item "nonce" payload = .ok (.str nonce)

/-- The part of a request that is signed for a nonce. -/
def device (sign : String → String) (signed_at_ms : Int) (nonce : String) : Json :=
  .obj [("id", .str g.credentials.device_id),
    ("publicKey", .str g.credentials.public_key_b64),
    ("signature", .str (sign ("|".intercalate ["v2", g.credentials.device_id, CLIENT_ID,
      CLIENT_MODE, ROLE, SCOPES_CSV, toString signed_at_ms, g.credentials.gateway_token, nonce]))),
    ("signedAt", .num signed_at_ms), ("nonce", .str nonce)]

/-- The identity is signed with the key of the client, for the nonce, at a time of the run. -/
def SignedFor (tr : GatewayTrace) (nonce : String) (identity : Identity) : Prop :=
  ∃ sign signed_at_ms, py.private_key g.credentials.private_key_b64 = .ok sign ∧
    ⟨.time, signed_at_ms⟩ ∈ tr ∧ identity.device = g.device sign signed_at_ms nonce

/-- A connect request that answers a challenge. -/
def Responds (tr : GatewayTrace) (raw : String) (frame : Json) : Prop :=
  ∃ nonce identity id, Challenges py raw nonce ∧ SignedFor py g tr nonce identity ∧
    frame = g.connect_msg id identity

/-- What may go over one WebSocket: a challenge, the request that is signed for it, and its
response. -/
inductive Dialogue (tr : GatewayTrace) : List GatewaySpeech → Prop
  | silent : Dialogue tr []
  | greeted (raw : String) : Dialogue tr [.received raw]
  | asked (h : Responds py g tr raw frame) : Dialogue tr [.received raw, .sent frame]
  | answered (h : Responds py g tr raw frame) (response : String) :
    Dialogue tr [.received raw, .sent frame, .received response]

/-- Every WebSocket keeps to the protocol, and `close()` has been called on all but the one that
the client has. -/
structure Polite (n : Nat) (tr : GatewayTrace) (c : GatewayConn) : Prop where
  spoken : ∀ v, Dialogue py g tr (dialogue v tr)
  unopened : ∀ v, c.opened ≤ v → dialogue v tr = []
  mine : ∀ v, c.ws = some v → v < c.opened
  others : ∀ v, n ≤ v → v < c.opened → Asked tr v ∨ c.ws = some v

/-- The client has the WebSocket `w`, and this went over it. -/
def Talking (n w : Nat) (said : List GatewaySpeech) (tr : GatewayTrace) (c : GatewayConn) : Prop :=
  Polite py g n tr c ∧ c.ws = some w ∧ dialogue w tr = said

/-- The request that the client has sent over its WebSocket has this response. -/
def Heard (n w : Nat) (res : Json) (tr : GatewayTrace) (c : GatewayConn) : Prop :=
  ∃ raw frame response, Talking py g n w [.received raw, .sent frame, .received response] tr c ∧
    Responds py g tr raw frame ∧ py.loads response = .ok res

/-- The gateway has accepted the signed request over the one WebSocket that is not closed. -/
structure Welcomed (n : Nat) (tr : GatewayTrace) (c : GatewayConn) : Prop where
  accepted : ∃ w res ok, Heard py g n w res tr c ∧ Dynamic.get "ok" .null res = .ok ok ∧
    ok.truthy = true
  connected : c.connected = true
  listening : c.listening = true

variable {py g} {n w : Nat} {tr : GatewayTrace} {c : GatewayConn} {said : List GatewaySpeech}
  {x : Sigma GatewayEffect.Answer}

theorem SignedFor.more {identity : Identity} (h : SignedFor py g tr nonce identity)
    (x : Sigma GatewayEffect.Answer) : SignedFor py g (tr ++ [x]) nonce identity := by
  obtain ⟨sign, signed_at_ms, hsign, ht, hdevice⟩ := h
  exact ⟨sign, signed_at_ms, hsign, List.mem_append_left _ ht, hdevice⟩

theorem Responds.more (h : Responds py g tr raw frame) (x : Sigma GatewayEffect.Answer) :
    Responds py g (tr ++ [x]) raw frame := by
  obtain ⟨nonce, identity, id, hchallenge, hsigned, hframe⟩ := h
  exact ⟨nonce, identity, id, hchallenge, hsigned.more x, hframe⟩

theorem Dialogue.more (h : Dialogue py g tr said) (x : Sigma GatewayEffect.Answer) :
    Dialogue py g (tr ++ [x]) said := by
  cases h with
  | silent => exact .silent
  | greeted raw => exact .greeted raw
  | asked h => exact .asked (h.more x)
  | answered h response => exact .answered (h.more x) response

theorem dialogue_snoc (v : Nat) (tr : GatewayTrace) (x : Sigma GatewayEffect.Answer) :
    dialogue v (tr ++ [x]) = dialogue v tr ++ (speech v x).toList := by
  rw [dialogue, List.filterMap_append, ← dialogue]
  cases h : speech v x with
  | none => rw [List.filterMap_cons_none h]; rfl
  | some y => rw [List.filterMap_cons_some h]; rfl

/-- An exchange over the WebSocket of the client, or over none. -/
theorem Polite.exchange (h : Polite py g n tr c) (hothers : ∀ v, c.ws ≠ some v → speech v x = none)
    (hmine : ∀ v, c.ws = some v →
      Dialogue py g (tr ++ [x]) (dialogue v tr ++ (speech v x).toList)) :
    Polite py g n (tr ++ [x]) c := by
  refine ⟨fun v => ?_, fun v hv => ?_, h.mine, fun v hle hlt => ?_⟩
  · rw [dialogue_snoc]
    by_cases hv : c.ws = some v
    · exact hmine v hv
    · rw [hothers v hv, Option.toList_none, List.append_nil]
      exact (h.spoken v).more x
  · have hne : c.ws ≠ some v := fun he => absurd (h.mine v he) (Nat.not_lt.mpr hv)
    rw [dialogue_snoc, h.unopened v hv, hothers v hne]
    rfl
  · exact (h.others v hle hlt).imp_left fun ha => asked_snoc.mpr (.inl ha)

/-- An exchange that says nothing. -/
theorem Polite.aside (h : Polite py g n tr c) (hx : ∀ v, speech v x = none) :
    Polite py g n (tr ++ [x]) c := by
  refine h.exchange (fun v _ => hx v) fun v _ => ?_
  rw [hx v, Option.toList_none, List.append_nil]
  exact (h.spoken v).more x

theorem Talking.aside (h : Talking py g n w said tr c) (hx : ∀ v, speech v x = none) :
    Talking py g n w said (tr ++ [x]) c := by
  refine ⟨h.1.aside hx, h.2.1, ?_⟩
  rw [dialogue_snoc, hx, Option.toList_none, List.append_nil]
  exact h.2.2

theorem Talking.says (h : Talking py g n w said tr c) (hothers : ∀ v, v ≠ w → speech v x = none)
    (hx : speech w x = some y) (hd : Dialogue py g (tr ++ [x]) (said ++ [y])) :
    Talking py g n w (said ++ [y]) (tr ++ [x]) c := by
  obtain ⟨hp, hw, rfl⟩ := h
  refine ⟨hp.exchange (fun v hv => hothers v fun he => hv (he ▸ hw)) fun v hv => ?_, hw, ?_⟩
  · cases hw.symm.trans hv
    rw [hx]
    exact hd
  · rw [dialogue_snoc, hx]
    rfl

end Gateway

namespace Handshake

variable {n w : Nat} {py : GatewayPython} {g : Gateway} {said : List GatewaySpeech}
  {P : GatewayTrace → GatewayConn → Prop}

/-- What is read of a value says nothing. -/
theorem polite_read {m : Except ε α} (f : ε → GatewayFault)
    (hP : ∀ tr c, P tr c → g.Polite py n tr c) :
    Action.Triple P (Action.ofExcept (m.mapError f) : Handshake α)
      (fun a tr c => P tr c ∧ m = .ok a) (fun _ => g.Polite py n) := by
  refine .ofExcept (fun a tr c he h => ⟨h, ?_⟩) fun _ tr c _ h => hP tr c h
  cases m with
  | ok b =>
    cases he
    rfl
  | error e => cases he

theorem talking_ws (hP : ∀ tr c, P tr c → c.ws = some w) :
    Action.Triple P (ws py) (fun v tr c => P tr c ∧ v = w) (fun _ => g.Polite py n) := by
  apply Action.Triple.bind (M := fun c tr c' => P tr c' ∧ c = c') (.get fun _ _ h => ⟨h, rfl⟩)
  intro c
  cases hc : c.ws with
  | some v =>
    refine .pure fun tr c' ⟨h, he⟩ => ⟨h, ?_⟩
    have hw := hP tr c' h
    rw [← he, hc] at hw
    exact Option.some.inj hw
  | none =>
    refine .throw fun tr c' ⟨h, he⟩ => ?_
    have hw := hP tr c' h
    rw [← he, hc] at hw
    cases hw

theorem polite_answer (answer : Except GatewayFault α) {Q : α → GatewayTrace → GatewayConn → Prop} :
    Action.Triple (fun tr c => g.Polite py n tr c ∧ ∀ a, answer = .ok a → Q a tr c)
      (Action.ofExcept answer : Handshake α) Q (fun _ => g.Polite py n) :=
  .ofExcept (fun a _ _ he h => h.2 a he) fun _ _ _ _ h => h.1

theorem talking_recv {S : GatewayTrace → Prop} (hS : ∀ tr x, S tr → S (tr ++ [x]))
    (hd : ∀ tr raw, S tr → g.Dialogue py tr (said ++ [.received raw])) :
    Action.Triple (fun tr c => g.Talking py n w said tr c ∧ S tr) (recv py)
      (fun data tr c => ∃ raw, (g.Talking py n w (said ++ [.received raw]) tr c ∧ S tr) ∧
        py.loads raw = .ok data) (fun _ => g.Polite py n) := by
  apply Action.Triple.bind (talking_ws fun _ _ h => h.1.2.1)
  intro v
  refine .bind (M := fun answer tr c => g.Polite py n tr c ∧ ∀ raw, answer = .ok raw →
    g.Talking py n w (said ++ [.received raw]) tr c ∧ S tr) (.ask ?_) fun answer => ?_
  · rintro tr c r ⟨⟨h, hs⟩, rfl⟩
    cases r with
    | ok raw =>
      have htalk : g.Talking py n v (said ++ [.received raw]) (tr ++ [⟨.recv v, .ok raw⟩]) c :=
        h.says (fun u hu => if_neg (Ne.symm hu)) (if_pos rfl) (hd _ raw (hS tr _ hs))
      refine ⟨htalk.1, fun raw' he => ?_⟩
      cases he
      exact ⟨htalk, hS tr _ hs⟩
    | error e => exact ⟨h.1.aside fun _ => rfl, nofun⟩
  · apply Action.Triple.bind (polite_answer answer)
    intro raw
    exact (polite_read .other fun _ _ h => h.1.1).conseq (fun _ _ h => h)
      (fun data tr c h => ⟨raw, h⟩) fun _ _ _ h => h

theorem talking_send {S : GatewayTrace → Prop} (hS : ∀ tr x, S tr → S (tr ++ [x])) (frame : Json)
    (hd : ∀ tr, S tr → g.Dialogue py tr (said ++ [.sent frame])) :
    Action.Triple (fun tr c => g.Talking py n w said tr c ∧ S tr) (send py frame)
      (fun _ tr c => g.Talking py n w (said ++ [.sent frame]) tr c ∧ S tr)
      (fun _ => g.Polite py n) := by
  apply Action.Triple.bind (talking_ws fun _ _ h => h.1.2.1)
  intro v
  refine .bind (M := fun answer tr c => g.Polite py n tr c ∧ ∀ u : Unit, answer = .ok u →
    g.Talking py n w (said ++ [.sent frame]) tr c ∧ S tr) (.ask ?_) fun answer =>
      polite_answer answer
  rintro tr c r ⟨⟨h, hs⟩, rfl⟩
  have htalk : g.Talking py n v (said ++ [.sent frame]) (tr ++ [⟨.send v frame, r⟩]) c :=
    h.says (fun u hu => if_neg (Ne.symm hu)) (if_pos rfl) (hd _ (hS tr _ hs))
  exact ⟨htalk.1, fun _ _ => ⟨htalk, hS tr _ hs⟩⟩

theorem talking_close :
    Action.Triple (g.Talking py n w said) (close py)
      (fun _ tr c => g.Polite py n tr c ∧ c.ws = some w ∧ Asked tr w) (fun _ => g.Polite py n) := by
  apply Action.Triple.bind (talking_ws fun _ _ h => h.2.1)
  intro v
  refine .bind (M := fun answer tr c => g.Polite py n tr c ∧ ∀ u : Unit, answer = .ok u →
    g.Polite py n tr c ∧ c.ws = some w ∧ Asked tr w) (.ask ?_) fun answer => polite_answer answer
  rintro tr c r ⟨h, rfl⟩
  have hp := h.1.aside (x := ⟨.close v, r⟩) fun _ => rfl
  exact ⟨hp, fun _ _ => ⟨hp, h.2.1, asked_snoc.mpr (.inr rfl)⟩⟩

/-- A new WebSocket, when the client has none that is not closed. -/
theorem polite_connect_socket (instance_url origin : String) :
    Action.Triple (fun tr c => g.Polite py n tr c ∧ ∀ v, c.ws = some v → Asked tr v)
      (connect_socket instance_url origin) (fun _ tr c => ∃ w, g.Talking py n w [] tr c)
      (fun _ => g.Polite py n) := by
  refine .bind (M := fun answer tr c => g.Polite py n tr c ∧ ∀ u : Unit, answer = .ok u →
    g.Polite py n tr c ∧ ∀ v, c.ws = some v → Asked tr v) (.ask fun tr c r ⟨h, hasked⟩ => ?_)
    fun answer => ?_
  · have hp := h.aside (x := ⟨.connect instance_url origin, r⟩) fun _ => rfl
    exact ⟨hp, fun _ _ => ⟨hp, fun v hv => asked_snoc.mpr (.inl (hasked v hv))⟩⟩
  · apply Action.Triple.bind (polite_answer answer)
    intro _
    refine .modify fun tr c ⟨h, hasked⟩ => ⟨c.opened, ⟨h.spoken, fun v hv => ?_, fun v hv => ?_,
      fun v hle hlt => ?_⟩, rfl, h.unopened _ (Nat.le_refl _)⟩
    · exact h.unopened v (Nat.le_of_succ_le hv)
    · cases hv
      exact Nat.lt_succ_self _
    · by_cases hv : v = c.opened
      · exact .inr (congrArg some hv.symm)
      · have hlt' : v < c.opened := Nat.lt_of_le_of_ne (Nat.le_of_lt_succ hlt) hv
        exact .inl ((h.others v hle hlt').elim id (hasked v))

end Handshake

namespace Gateway

variable {n w : Nat} {py : GatewayPython} {g : Gateway} {raw : String} {identity : Identity}

/-- The client has a challenge and the identity that answers it. -/
def Prepared (py : GatewayPython) (g : Gateway) (n w : Nat) (raw : String) (identity : Identity)
    (tr : GatewayTrace) (c : GatewayConn) : Prop :=
  Talking py g n w [.received raw] tr c ∧
    ∃ nonce, Challenges py raw nonce ∧ SignedFor py g tr nonce identity

theorem talking_challenge (expected : String) :
    Action.Triple (Talking py g n w []) (challenge py expected)
      (fun nonce tr c => ∃ raw, Talking py g n w [.received raw] tr c ∧
        ∀ text, nonce = .str text → Challenges py raw text) (fun _ => Polite py g n) := by
  refine .bind ((Handshake.talking_recv (S := fun _ => True) (fun _ _ h => h)
    fun _ raw _ => .greeted raw).weaken fun _ _ h => ⟨h, trivial⟩) fun data => ?_
  apply Action.Triple.exists
  intro raw
  apply Action.Triple.bind (Handshake.polite_read _ fun _ _ h => h.1.1.1)
  intro event
  apply Action.Triple.ite (fun _ => .throw fun _ _ h => h.1.1.1.1)
  intro hevent
  apply Action.Triple.bind (Handshake.polite_read _ fun _ _ h => h.1.1.1.1)
  intro payload
  refine (Handshake.polite_read _ fun _ _ h => h.1.1.1.1.1).conseq (fun _ _ h => h)
    (fun nonce tr c h => ?_) fun _ _ _ h => h
  obtain ⟨⟨⟨⟨⟨htalk, -⟩, hloads⟩, hget⟩, hpayload⟩, hnonce⟩ := h
  refine ⟨raw, htalk, fun text htext => ?_⟩
  rw [htext] at hnonce
  exact ⟨⟨data, event, hloads, hget, not_not.mp hevent⟩, data, payload, hloads, hpayload, hnonce⟩

theorem talking_sign_connect (nonce : Json) :
    Action.Triple (fun tr c => Talking py g n w [.received raw] tr c ∧
        ∀ text, nonce = .str text → Challenges py raw text)
      (g.sign_connect py nonce) (fun identity => Prepared py g n w raw identity)
      (fun _ => Polite py g n) := by
  apply Action.Triple.bind (Handshake.polite_read _ fun _ _ h => h.1.1)
  intro sign
  refine .bind (M := fun (signed_at_ms : Int) tr c => (Talking py g n w [.received raw] tr c ∧
      ∀ text, nonce = .str text → Challenges py raw text) ∧
      py.private_key g.credentials.private_key_b64 = .ok sign ∧
      ⟨.time, signed_at_ms⟩ ∈ tr) (.ask fun tr c r ⟨⟨h, hc⟩, hsign⟩ => ?_) fun signed_at_ms => ?_
  · exact ⟨⟨h.aside fun _ => rfl, hc⟩, hsign, List.mem_append_right _ List.mem_cons_self⟩
  · cases nonce with
    | str text =>
      refine .pure fun tr c ⟨⟨h, hc⟩, hsign, ht⟩ => ⟨h, text, hc text rfl, ?_⟩
      exact ⟨sign, signed_at_ms, hsign, ht, rfl⟩
    | _ => exact .throw fun _ _ h => h.1.1.1

theorem prepared_uuid4 :
    Action.Triple (Prepared py g n w raw identity)
      (Action.ask GatewayEffect.uuid4 : Handshake String)
      (fun _ => Prepared py g n w raw identity) (fun _ => Polite py g n) := by
  refine .ask fun tr c r ⟨h, nonce, hc, hs⟩ => ?_
  exact ⟨h.aside fun _ => rfl, nonce, hc, hs.more _⟩

theorem prepared_send (id : String) :
    Action.Triple (Prepared py g n w raw identity) (Handshake.send py (g.connect_msg id identity))
      (fun _ tr c => Talking py g n w [.received raw, .sent (g.connect_msg id identity)] tr c ∧
        Responds py g tr raw (g.connect_msg id identity)) (fun _ => Polite py g n) := by
  have hsend := @Handshake.talking_send n w py g [.received raw]
    (fun tr => Responds py g tr raw (g.connect_msg id identity)) (fun _ x h => h.more x)
    (g.connect_msg id identity) fun _ h => .asked h
  apply hsend.weaken
  intro tr c ⟨h, nonce, hc, hs⟩
  exact ⟨h, nonce, identity, id, hc, hs, rfl⟩

theorem asked_recv (frame : Json) :
    Action.Triple (fun tr c => Talking py g n w [.received raw, .sent frame] tr c ∧
        Responds py g tr raw frame) (Handshake.recv py) (fun res => Heard py g n w res)
      (fun _ => Polite py g n) := by
  refine (Handshake.talking_recv (S := fun tr => Responds py g tr raw frame)
    (fun _ x h => h.more x) fun _ response h => ?_).conseq (fun _ _ h => h)
    (fun res tr c h => ?_) fun _ _ _ h => h
  · exact .answered h response
  · obtain ⟨response, ⟨htalk, hresponds⟩, hloads⟩ := h
    exact ⟨raw, frame, response, htalk, hresponds, hloads⟩

theorem Heard.polite (h : Heard py g n w res tr c) : Polite py g n tr c := by
  obtain ⟨raw, frame, response, htalk, -⟩ := h
  exact htalk.1

theorem heard_gateway_build_id (res : Json) :
    Action.Triple (Heard py g n w res) (gateway_build_id py res) (fun _ => Heard py g n w res)
      (fun _ => Polite py g n) :=
  .bind (Handshake.polite_read _ fun _ _ h => h.polite) fun _ => .pure fun _ _ h => h.1

theorem heard_retry (id : String) (gw_build_id : Json) :
    Action.Triple (Heard py g n w res) (g.retry py id gw_build_id)
      (fun res tr c => ∃ v, Heard py g n v res tr c) (fun _ => Polite py g n) := by
  apply Action.Triple.exists
  intro raw
  apply Action.Triple.exists
  intro frame
  apply Action.Triple.exists
  intro response
  apply Action.Triple.bind (Handshake.talking_close.weaken fun _ _ h => h.1)
  intro _
  refine .bind ((Handshake.polite_connect_socket g.instance_url g.origin).weaken ?_) fun _ => ?_
  · rintro tr c ⟨h, hw, hasked⟩
    refine ⟨h, fun v hv => ?_⟩
    cases hw.symm.trans hv
    exact hasked
  apply Action.Triple.exists
  intro v
  apply Action.Triple.bind (talking_challenge _)
  intro nonce
  apply Action.Triple.exists
  intro raw
  apply Action.Triple.bind (talking_sign_connect nonce)
  intro identity
  have hsend := @prepared_send n v py g raw
    { identity with client := identity.client ++ [("buildId", gw_build_id)] } id
  apply Action.Triple.bind (hsend.weaken fun _ _ h => h)
  intro _
  exact (asked_recv _).conseq (fun _ _ h => h) (fun _ _ _ h => ⟨v, h⟩) fun _ _ _ h => h

theorem heard_second_response (id : String) (res : Json) :
    Action.Triple (Heard py g n w res) (g.second_response py id res)
      (fun res tr c => ∃ v, Heard py g n v res tr c) (fun _ => Polite py g n) := by
  apply Action.Triple.bind (heard_gateway_build_id res)
  intro gw_build_id
  exact .ite (fun _ => heard_retry id gw_build_id) fun _ => .pure fun _ _ h => ⟨w, h⟩

theorem heard_established (hok : ok.truthy = true) :
    Action.Triple (fun tr c => Heard py g n w res tr c ∧ Dynamic.get "ok" .null res = .ok ok)
      established (fun _ => Welcomed py g n) (fun _ => Polite py g n) := by
  refine .modify fun tr c ⟨⟨raw, frame, response, ⟨hp, hw, hsaid⟩, hrest⟩, hget⟩ => ?_
  refine ⟨⟨w, res, ok, ⟨raw, frame, response, ⟨?_, hw, hsaid⟩, hrest⟩, hget, hok⟩, rfl, rfl⟩
  exact ⟨hp.spoken, hp.unopened, hp.mine, hp.others⟩

/-- The client of an attempt. -/
def Ready (py : GatewayPython) (g : Gateway) (n : Nat) (tr : GatewayTrace) (c : GatewayConn) :
    Prop :=
  Polite py g n tr c ∧ c.ws = none

theorem ready_handshake :
    Action.Triple (Ready py g n) (g.handshake py) (fun _ => Welcomed py g n)
      (fun _ => Polite py g n) := by
  apply Action.Triple.ite (fun _ => .throw fun _ _ h => h.1)
  intro _
  refine .bind ((Handshake.polite_connect_socket g.instance_url g.origin).weaken ?_) fun _ => ?_
  · rintro tr c ⟨h, hw⟩
    refine ⟨h, fun v hv => ?_⟩
    cases hw.symm.trans hv
  apply Action.Triple.exists
  intro w
  apply Action.Triple.bind (talking_challenge _)
  intro nonce
  apply Action.Triple.exists
  intro raw
  apply Action.Triple.bind (talking_sign_connect nonce)
  intro identity
  apply Action.Triple.bind prepared_uuid4
  intro id
  apply Action.Triple.bind (prepared_send id)
  intro _
  apply Action.Triple.bind (asked_recv _)
  intro res
  apply Action.Triple.bind (Handshake.polite_read _ fun _ _ h => h.polite)
  intro ok
  apply Action.Triple.ite heard_established
  intro _
  refine .bind ((heard_second_response id res).weaken fun _ _ h => h.1) fun res => .exists
    fun v => ?_
  apply Action.Triple.bind (Handshake.polite_read _ fun _ _ h => h.polite)
  intro ok
  apply Action.Triple.ite heard_established
  intro _
  exact .bind (Handshake.polite_read _ fun _ _ h => h.1.polite) fun _ =>
    .throw fun _ _ h => h.1.1.polite

/-- How an attempt that fails leaves the client. -/
def Parted (py : GatewayPython) (g : Gateway) (n : Nat) (e : GatewayFault) (tr : GatewayTrace)
    (c : GatewayConn) : Prop :=
  Polite py g n tr c ∧ (e ≠ .cancelled → c.ws = none)

theorem polite_close_held :
    Action.Triple (Polite py g n) close_held
      (fun _ tr c => Polite py g n tr c ∧ ∀ v, c.ws = some v → Asked tr v) (Parted py g n) := by
  apply Action.Triple.bind (M := fun c tr c' => Polite py g n tr c' ∧ c = c')
    (.get fun _ _ h => ⟨h, rfl⟩)
  intro c
  cases hw : c.ws with
  | none =>
    refine .pure fun tr c' ⟨h, he⟩ => ⟨h, fun v hv => ?_⟩
    rw [← he, hw] at hv
    cases hv
  | some w =>
    refine .bind (M := fun _ tr c => Polite py g n tr c ∧ ∀ v, c.ws = some v → Asked tr v)
      (.ask fun tr c' r ⟨h, he⟩ => ?_) fun answer => ?_
    · refine ⟨h.aside fun _ => rfl, fun v hv => ?_⟩
      rw [← he, hw] at hv
      cases hv
      exact asked_snoc.mpr (.inr rfl)
    · exact .ite (fun _ => .throw fun _ _ h => ⟨h.1, fun hne => absurd rfl hne⟩) fun _ =>
        .pure fun _ _ h => h

theorem polite_cleanup (e : GatewayFault) {Q : Unit → GatewayTrace → GatewayConn → Prop} :
    Action.Triple (Polite py g n) (cleanup e) Q (Parted py g n) := by
  refine .ite (fun he => .throw fun tr c h => ⟨h, fun hne => absurd he hne⟩) fun he => ?_
  refine .bind (M := fun _ => Polite py g n) (.modify fun tr c h => ?_) fun _ => ?_
  · exact ⟨h.spoken, h.unopened, h.mine, h.others⟩
  apply Action.Triple.bind polite_close_held
  intro _
  refine .bind (M := fun _ => Ready py g n) (.modify fun tr c ⟨h, hasked⟩ => ?_) fun _ =>
    .throw fun _ _ h => ⟨h.1, fun _ => h.2⟩
  refine ⟨⟨h.spoken, h.unopened, nofun, fun v hle hlt => ?_⟩, rfl⟩
  exact .inl ((h.others v hle hlt).elim id (hasked v))

theorem ready_connect :
    Action.Triple (Ready py g n) (g.connect py) (fun _ => Welcomed py g n) (Parted py g n) :=
  .catching ready_handshake fun e => polite_cleanup e

theorem ready_attempt :
    Action.Triple (Ready py g n) (g.attempt py)
      (fun failed tr c => (failed = none → Welcomed py g n tr c) ∧
        (failed ≠ none → Ready py g n tr c)) (Parted py g n) := by
  apply Action.Triple.catching (.bind ready_connect fun _ => .pure fun _ _ h =>
    ⟨fun _ => h, fun hne => absurd rfl hne⟩)
  intro e
  cases e with
  | connection_error message => exact .pure fun tr c h => ⟨nofun, fun _ => ⟨h.1, h.2 nofun⟩⟩
  | _ => exact .throw fun _ _ h => h

theorem ready_sleep (delay : Rat) :
    Action.Triple (Ready py g n) (Handshake.sleep delay) (fun _ => Ready py g n)
      (Parted py g n) := by
  refine .bind (M := fun _ => Ready py g n) (.ask fun tr c r h => ?_) fun answer => ?_
  · exact ⟨h.1.aside fun _ => rfl, h.2⟩
  · exact .ofExcept (fun _ _ _ _ h => h) fun _ _ _ _ h => ⟨h.1, fun _ => h.2⟩

theorem ready_attempts (max_retries : Nat) (base_delay : Rat) (left k : Nat) (last_error : String) :
    Action.Triple (Ready py g n) (g.attempts py max_retries base_delay left k last_error)
      (fun _ => Welcomed py g n) (Parted py g n) := by
  induction left generalizing k last_error with
  | zero => exact .throw fun _ _ h => ⟨h.1, fun _ => h.2⟩
  | succ left ih =>
    apply Action.Triple.bind ready_attempt
    intro failed
    cases failed with
    | none => exact .pure fun _ _ h => h.1 rfl
    | some message =>
      have hnext := ih (k + 1) message
      refine .ite (fun _ => ?_) fun _ => hnext.weaken fun _ _ h => h.2 nofun
      apply Action.Triple.bind ((ready_sleep _).weaken fun _ _ h => h.2 nofun)
      intro _
      exact hnext

end Gateway

theorem GatewayConn.ready {c : GatewayConn} (hc : c.ws = none) (py : GatewayPython) (g : Gateway) :
    g.Ready py c.opened [] c := by
  refine ⟨⟨fun _ => .silent, fun _ _ => rfl, fun v hv => ?_, fun v hle hlt => ?_⟩, hc⟩
  · cases hc.symm.trans hv
  · exact absurd hlt (Nat.not_lt.mpr hle)

/-- Whatever the gateway answers, a client sends at most one request over a WebSocket, which it has
signed for the challenge that it got over that very WebSocket; and it is connected only when the
gateway has accepted the request over the one WebSocket that the client has not closed. -/
theorem connects_are_signed {g : Gateway} {max_retries : Nat} {base_delay : Rat}
    {p : Handshake Unit} {x : Except GatewayFault Unit} {c c' : GatewayConn} {tr : GatewayTrace}
    (hp : p = g.connect py ∨ p = g.connect_with_retry py max_retries base_delay)
    (hc : c.ws = none) (hends : Program.Ends (p c) tr (x, c')) :
    (∀ w, g.Dialogue py tr (Gateway.dialogue w tr)) ∧
      (x = .ok () → g.Welcomed py c.opened tr c') := by
  have hready := GatewayConn.ready hc py g
  have htriple : Action.Triple (g.Ready py c.opened) p (fun _ => g.Welcomed py c.opened)
      (g.Parted py c.opened) := by
    rcases hp with rfl | rfl
    · exact Gateway.ready_connect
    · exact Gateway.ready_attempts _ _ _ _ _
  have hpost := htriple [] c tr x c' hready hends
  cases x with
  | ok u =>
    obtain ⟨w, res, ok, hheard, -⟩ := hpost.accepted
    exact ⟨hheard.polite.spoken, fun _ => hpost⟩
  | error e => exact ⟨hpost.1.spoken, nofun⟩

/-- The gateway sends its challenge, and accepts what answers it. -/
def welcoming : GatewayPython where
  loads raw :=
    if raw = "challenge" then
      .ok (.obj [("event", .str "connect.challenge"), ("payload", .obj [("nonce", .str "n1")])])
    else .ok (.obj [("ok", .bool true)])

def welcoming_world (tr : GatewayTrace) : (e : GatewayEffect) → e.Answer
  | .recv _ => .ok (if tr.length = 1 then "challenge" else "response")
  | .connect .. | .send .. | .close _ | .sleep _ => .ok ()
  | .time => (0 : Int)
  | .uuid4 => "request"

theorem connects_are_signed_welcomed : ∃ tr c',
    Program.Ends (local_gateway.connect welcoming {}) tr (.ok (), c') ∧
      local_gateway.Welcomed welcoming 0 tr c' := by
  obtain ⟨tr, -, hends⟩ := Program.run_ends welcoming_world (local_gateway.connect welcoming {}) []
  have hok : ((local_gateway.connect welcoming {}).run welcoming_world []).2.1.isOk = true := by
    decide +kernel
  have hp : local_gateway.connect welcoming = local_gateway.connect welcoming ∨
    local_gateway.connect welcoming = local_gateway.connect_with_retry welcoming 5 1 := .inl rfl
  generalize (local_gateway.connect welcoming {}).run welcoming_world [] = ended at hends hok
  obtain ⟨_, x, c'⟩ := ended
  cases x with
  | ok u => exact ⟨tr, c', hends, (connects_are_signed hp rfl hends).2 rfl⟩
  | error e => cases hok

end ClawMux
