import ClawMux.Services.FailedConnects

namespace ClawMux
set_option autoImplicit true
open Lib

def pause : Sigma GatewayEffect.Answer → Option Rat
  | ⟨.sleep delay, _⟩ => some delay
  | _ => none

/-- The waits between the attempts. -/
def pauses (tr : GatewayTrace) : List Rat := tr.filterMap pause

/-- `base_delay`, and each wait twice the one before. -/
def doubling (base_delay : Rat) (n : Nat) : List Rat :=
  (List.range n).map fun i => base_delay * 2 ^ i

theorem doubling_succ (base_delay : Rat) (n : Nat) :
    doubling base_delay (n + 1) = doubling base_delay n ++ [base_delay * 2 ^ n] := by
  rw [doubling, List.range_succ, List.map_append]
  rfl

theorem pauses_snoc (tr : GatewayTrace) (x : Sigma GatewayEffect.Answer) :
    pauses (tr ++ [x]) = pauses tr ++ (pause x).toList := by
  rw [pauses, List.filterMap_append, ← pauses]
  cases h : pause x with
  | none => rw [List.filterMap_cons_none h]; rfl
  | some d => rw [List.filterMap_cons_some h]; rfl

def Awake : GatewayEffect → Prop
  | .sleep _ => False
  | _ => True

namespace Handshake

variable {py : GatewayPython}

theorem ws_awake : (ws py).Asks Awake := by
  apply Action.Asks.bind .get
  intro c
  cases c.ws with
  | some w => exact .pure
  | none => exact .throw

theorem connect_socket_awake (instance_url origin : String) :
    (connect_socket instance_url origin).Asks Awake :=
  .bind (.of_ask trivial) fun _ => .bind .ofExcept fun _ => .modify

theorem recv_awake : (recv py).Asks Awake :=
  .bind ws_awake fun _ => .bind (.of_ask trivial) fun _ => .bind .ofExcept fun _ => .ofExcept

theorem send_awake (frame : Json) : (send py frame).Asks Awake :=
  .bind ws_awake fun _ => .bind (.of_ask trivial) fun _ => .ofExcept

theorem close_awake : (close py).Asks Awake :=
  .bind ws_awake fun _ => .bind (.of_ask trivial) fun _ => .ofExcept

end Handshake

namespace Gateway

variable {py : GatewayPython} {g : Gateway}

theorem challenge_awake (expected : String) : (challenge py expected).Asks Awake := by
  apply Action.Asks.bind Handshake.recv_awake
  intro data
  apply Action.Asks.bind .ofExcept
  intro event
  apply Action.Asks.ite .throw
  exact .bind .ofExcept fun _ => .ofExcept

theorem sign_connect_awake (nonce : Json) : (g.sign_connect py nonce).Asks Awake := by
  apply Action.Asks.bind .ofExcept
  intro sign
  apply Action.Asks.bind (.of_ask trivial)
  intro signed_at_ms
  cases nonce with
  | str text => exact .pure
  | _ => exact .throw

theorem retry_awake (id : String) (gw_build_id : Json) :
    (g.retry py id gw_build_id).Asks Awake := by
  apply Action.Asks.bind Handshake.close_awake
  intro _
  apply Action.Asks.bind (Handshake.connect_socket_awake _ _)
  intro _
  apply Action.Asks.bind (challenge_awake _)
  intro nonce
  apply Action.Asks.bind (sign_connect_awake nonce)
  intro identity
  exact .bind (Handshake.send_awake _) fun _ => Handshake.recv_awake

theorem second_response_awake (id : String) (res : Json) :
    (g.second_response py id res).Asks Awake := by
  apply Action.Asks.bind (.bind .ofExcept fun _ => .pure)
  intro gw_build_id
  exact .ite (retry_awake id gw_build_id) .pure

theorem handshake_awake : (g.handshake py).Asks Awake := by
  apply Action.Asks.ite .throw
  apply Action.Asks.bind (Handshake.connect_socket_awake _ _)
  intro _
  apply Action.Asks.bind (challenge_awake _)
  intro nonce
  apply Action.Asks.bind (sign_connect_awake nonce)
  intro identity
  apply Action.Asks.bind (.of_ask trivial)
  intro id
  apply Action.Asks.bind (Handshake.send_awake _)
  intro _
  apply Action.Asks.bind Handshake.recv_awake
  intro res
  apply Action.Asks.bind .ofExcept
  intro ok
  apply Action.Asks.ite .modify
  apply Action.Asks.bind (second_response_awake id res)
  intro res
  apply Action.Asks.bind .ofExcept
  intro ok
  exact .ite .modify (.bind .ofExcept fun _ => .throw)

theorem close_held_awake : close_held.Asks Awake := by
  apply Action.Asks.bind .get
  intro c
  cases c.ws with
  | none => exact .pure
  | some w => exact .bind (.of_ask trivial) fun _ => .ite .throw .pure

theorem cleanup_awake (e : GatewayFault) : (cleanup e).Asks Awake := by
  apply Action.Asks.ite .throw
  apply Action.Asks.bind .modify
  intro _
  apply Action.Asks.bind close_held_awake
  intro _
  apply Action.Asks.bind .modify
  intro _
  exact .throw

theorem connect_awake : (g.connect py).Asks Awake := .catching handshake_awake cleanup_awake

theorem attempt_awake : (g.attempt py).Asks Awake := by
  apply Action.Asks.catching (.bind connect_awake fun _ => .pure)
  intro e
  cases e with
  | connection_error message => exact .pure
  | _ => exact .throw

theorem cleanup_raises (e : GatewayFault) {P : GatewayTrace → GatewayConn → Prop}
    {Q : Unit → GatewayTrace → GatewayConn → Prop} :
    Action.Triple P (cleanup e) Q
      (fun e _ _ => e = .cancelled ∨ ∃ message, e = .connection_error message) := by
  refine .ite (fun he => .throw fun _ _ _ => .inl he) fun he => ?_
  apply Action.Triple.bind (M := fun _ _ _ => True) (.modify fun _ _ _ => trivial)
  intro _
  refine .bind (M := fun _ _ _ => True) ?_ fun _ => ?_
  · apply Action.Triple.bind (M := fun _ _ _ => True) (.get fun _ _ _ => trivial)
    intro c
    cases c.ws with
    | none => exact .pure fun _ _ _ => trivial
    | some w =>
      apply Action.Triple.bind (M := fun _ _ _ => True) (.ask fun _ _ _ _ => trivial)
      intro answer
      exact .ite (fun _ => .throw fun _ _ _ => .inl rfl) fun _ => .pure fun _ _ _ => trivial
  · apply Action.Triple.bind (M := fun _ _ _ => True) (.modify fun _ _ _ => trivial)
    intro _
    refine .throw fun _ _ _ => ?_
    cases e with
    | cancelled => exact absurd rfl he
    | connection_error message => exact .inr ⟨_, rfl⟩
    | other text => exact .inr ⟨_, rfl⟩

theorem connect_raises :
    Action.Triple (fun _ _ => True) (g.connect py) (fun _ _ _ => True)
      (fun e _ _ => e = .cancelled ∨ ∃ message, e = .connection_error message) :=
  .catching .trivial fun e => cleanup_raises e

/-- Nothing but a cancellation ends the attempts early. -/
theorem attempt_raises :
    Action.Triple (fun _ _ => True) (g.attempt py) (fun _ _ _ => True)
      (fun e _ _ => e = .cancelled) := by
  refine .catching (.bind connect_raises fun _ => .pure fun _ _ _ => trivial) fun e => ?_
  cases e with
  | connection_error message => exact .pure fun _ _ _ => trivial
  | cancelled => exact .throw fun _ _ _ => rfl
  | other text =>
    refine .throw fun _ _ h => ?_
    rcases h with h | ⟨message, h⟩
    · exact h
    · cases h

theorem attempt_pauses (delays : List Rat) :
    Action.Triple (fun tr _ => pauses tr = delays) (g.attempt py)
      (fun _ tr _ => pauses tr = delays) (fun e tr _ => pauses tr = delays ∧ e = .cancelled) := by
  have hawake : (g.attempt py).Asks Awake := attempt_awake
  have hkept := hawake.triple (S := fun tr => pauses tr = delays) fun hist x hx hs => ?_
  · exact (hkept.and attempt_raises).conseq (fun _ _ h => ⟨h, trivial⟩) (fun _ _ _ h => h.1)
      fun _ _ _ h => h
  · obtain ⟨e, r⟩ := x
    rw [pauses_snoc, hs]
    cases e with
    | sleep delay => exact absurd hx id
    | _ => exact List.append_nil delays

end Gateway

/-- The waits of attempts that are made up to `max_retries` times, and how they end. -/
structure BacksOff (max_retries : Nat) (base_delay : Rat) (tr : GatewayTrace)
    (x : Except GatewayFault Unit) : Prop where
  doubles : ∃ n ≤ max_retries - 1, pauses tr = doubling base_delay n
  ends : ∀ e, x = .error e → e = .cancelled ∨ (∃ delay, ⟨.sleep delay, .error e⟩ ∈ tr) ∨
    pauses tr = doubling base_delay (max_retries - 1) ∧ ∃ last_error, e = .connection_error
      ("Failed to connect after " ++ toString max_retries ++ " attempts: " ++ last_error)

namespace Gateway

variable {py : GatewayPython} {g : Gateway}

/-- Before the attempt `k`. -/
theorem attempts_back_off (max_retries : Nat) (base_delay : Rat) (left k : Nat)
    (last_error : String) (hleft : left + k = max_retries) :
    Action.Triple (fun tr _ => pauses tr = doubling base_delay (min k (max_retries - 1)))
      (g.attempts py max_retries base_delay left (k + 1) last_error)
      (fun _ tr _ => BacksOff max_retries base_delay tr (.ok ()))
      (fun e tr _ => BacksOff max_retries base_delay tr (.error e)) := by
  induction left generalizing k last_error with
  | zero =>
    refine .throw fun tr _ h => ?_
    have hk : min k (max_retries - 1) = max_retries - 1 := by omega
    rw [hk] at h
    refine ⟨⟨_, Nat.le_refl _, h⟩, ?_⟩
    rintro e he
    cases he
    exact .inr (.inr ⟨h, last_error, rfl⟩)
  | succ left ih =>
    have hle : min k (max_retries - 1) ≤ max_retries - 1 := Nat.min_le_right ..
    refine .bind ((attempt_pauses _).conseq (fun _ _ h => h) (fun _ _ _ h => h)
      fun e tr _ ⟨h, he⟩ => ?_) fun failed => ?_
    · refine ⟨⟨_, hle, h⟩, fun e' he' => ?_⟩
      cases he'
      exact .inl he
    cases failed with
    | none => exact .pure fun tr _ h => ⟨⟨_, hle, h⟩, nofun⟩
    | some message =>
      have hnext := ih (k + 1) message (by omega)
      refine .ite (fun hk => ?_) fun hk => hnext.weaken fun tr _ h => ?_
      · refine .bind (.bind (M := fun answer tr _ =>
            pauses tr = doubling base_delay (min (k + 1) (max_retries - 1)) ∧
            ∀ e, answer = .error e → ⟨.sleep (base_delay * 2 ^ (k + 1 - 1)), .error e⟩ ∈ tr)
          (.ask fun tr _ r h => ?_) fun answer => .ofExcept (fun _ _ _ _ h => h.1)
            fun e tr _ he h => ?_) fun _ => hnext
        · constructor
          · rw [pauses_snoc, h, Nat.min_eq_left (by omega), Nat.min_eq_left (by omega),
              doubling_succ]
            rfl
          · rintro e rfl
            exact List.mem_append_right _ List.mem_cons_self
        · refine ⟨⟨_, Nat.min_le_right .., h.1⟩, fun e' he' => ?_⟩
          cases he'
          exact .inr (.inl ⟨_, h.2 e he⟩)
      · rw [h]
        congr 1
        omega

end Gateway

/-- Whatever the gateway does, the attempts wait for `base_delay`, and each time twice as long, and
they end in a failure only when they are cancelled or after all of them. -/
theorem connects_back_off {g : Gateway} {max_retries : Nat} {base_delay : Rat}
    {x : Except GatewayFault Unit} {c c' : GatewayConn} {tr : GatewayTrace}
    (hends : Program.Ends (g.connect_with_retry py max_retries base_delay c) tr (x, c')) :
    BacksOff max_retries base_delay tr x := by
  have hpost := Gateway.attempts_back_off max_retries base_delay max_retries 0 "None" rfl [] c tr x
    c' (by rw [Nat.zero_min]; rfl) hends
  cases x with
  | ok u => exact hpost
  | error e => exact hpost

def unanswered (_ : GatewayTrace) : (e : GatewayEffect) → e.Answer
  | .recv _ => .error (.other "timed out")
  | .connect .. | .send .. | .close _ | .sleep _ => .ok ()
  | .time => (0 : Int)
  | .uuid4 => "request"

theorem connects_back_off_unanswered : ∃ tr e c',
    Program.Ends (local_gateway.connect_with_retry {} 3 1 {}) tr (.error e, c') ∧
      BacksOff 3 1 tr (.error e) := by
  obtain ⟨tr, -, hends⟩ :=
    Program.run_ends unanswered (local_gateway.connect_with_retry {} 3 1 {}) []
  have hfails : ((local_gateway.connect_with_retry {} 3 1 {}).run unanswered []).2.1.isOk =
      false := by decide +kernel
  generalize (local_gateway.connect_with_retry {} 3 1 {}).run unanswered [] = ended at hends hfails
  obtain ⟨_, x, c'⟩ := ended
  cases x with
  | ok u => cases hfails
  | error e => exact ⟨tr, e, c', hends, connects_back_off hends⟩

end ClawMux
