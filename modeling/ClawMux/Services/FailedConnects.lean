import ClawMux.Services.Handshake

namespace ClawMux
set_option autoImplicit true
open Lib

/-- The exchanges of a connecting client. -/
abbrev GatewayTrace := List (Sigma GatewayEffect.Answer)

/-- An await of `connect` in which the task is cancelled. -/
def cut : Sigma GatewayEffect.Answer → Bool
  | ⟨.recv _, r⟩ => was_cancelled r
  | ⟨.connect .., r⟩ => was_cancelled r
  | ⟨.send .., r⟩ => was_cancelled r
  | ⟨.close _, r⟩ => was_cancelled r
  | _ => false

def opens : Sigma GatewayEffect.Answer → Bool
  | ⟨.connect .., .ok ()⟩ => true
  | _ => false

def rests : Sigma GatewayEffect.Answer → Bool
  | ⟨.sleep _, _⟩ => true
  | _ => false

/-- The WebSocket whose `close()` is called. -/
def closes : Sigma GatewayEffect.Answer → Option Nat
  | ⟨.close w, _⟩ => some w
  | _ => none

/-- The WebSocket that is closed. -/
def shuts : Sigma GatewayEffect.Answer → Option Nat
  | ⟨.close w, .ok ()⟩ => some w
  | _ => none

/-- Whether the present attempt has opened a WebSocket, and whether the task has been cancelled in
an await of an attempt that had. -/
def watch (b : Bool × Bool) (x : Sigma GatewayEffect.Answer) : Bool × Bool :=
  (if opens x then true else if rests x then false else b.1, b.2 || (b.1 && cut x))

def holding (tr : GatewayTrace) : Bool := (tr.foldl watch (false, false)).1

def interrupted (tr : GatewayTrace) : Bool := (tr.foldl watch (false, false)).2

/-- The client as it is made, and as a failure is to leave it. -/
structure GatewayConn.Idle (c : GatewayConn) : Prop where
  ws : c.ws = none
  connected : c.connected = false
  listening : c.listening = false

/-- Every WebSocket that was opened is closed, and the client has none. -/
structure Released (c : GatewayConn) (tr : GatewayTrace) (c' : GatewayConn) : Prop where
  closed : ∀ w, c.opened ≤ w → w < c'.opened → ∃ x ∈ tr, shuts x = some w
  idle : c'.Idle

/-- The task is not cancelled when it has a WebSocket, and one that is closed once is closed. -/
structure Undisturbed (tr : GatewayTrace) : Prop where
  uncut : interrupted tr = false
  shut : ∀ x ∈ tr, ∀ w, closes x = some w → ∃ y ∈ tr, shuts y = some w

theorem holding_snoc (tr : GatewayTrace) (x : Sigma GatewayEffect.Answer) :
    holding (tr ++ [x]) = if opens x then true else if rests x then false else holding tr := by
  rw [holding, List.foldl_append]
  rfl

theorem interrupted_snoc (tr : GatewayTrace) (x : Sigma GatewayEffect.Answer) :
    interrupted (tr ++ [x]) = (interrupted tr || (holding tr && cut x)) := by
  rw [interrupted, List.foldl_append]
  rfl

/-- `close()` has been called. -/
def Asked (tr : GatewayTrace) (w : Nat) : Prop := ∃ x ∈ tr, closes x = some w

theorem asked_snoc {tr : GatewayTrace} : Asked (tr ++ [x]) w ↔ Asked tr w ∨ closes x = some w := by
  rw [Asked, Asked]
  constructor
  · rintro ⟨y, hy, hw⟩
    rcases List.mem_append.mp hy with hy | hy
    · exact .inl ⟨y, hy, hw⟩
    · exact .inr (List.mem_singleton.mp hy ▸ hw)
  · rintro (⟨y, hy, hw⟩ | hw)
    · exact ⟨y, List.mem_append_left _ hy, hw⟩
    · exact ⟨x, List.mem_append_right _ List.mem_cons_self, hw⟩

/-- The client has the one WebSocket whose `close()` has not been called, if any. -/
structure Tidy (n : Nat) (tr : GatewayTrace) (c : GatewayConn) : Prop where
  connected : c.connected = false
  listening : c.listening = false
  uncut : interrupted tr = false
  held : ∀ w, c.ws = some w → holding tr = true
  bound : n ≤ c.opened
  mine : ∀ w, Asked tr w ∨ c.ws = some w ↔ n ≤ w ∧ w < c.opened

/-- Cancelled with a WebSocket. -/
structure Dropped (tr : GatewayTrace) (c : GatewayConn) : Prop where
  connected : c.connected = false
  listening : c.listening = false
  cut : interrupted tr = true
  ws : c.ws ≠ none

/-- How a failure leaves the client inside the `try` block. -/
def Failing (n : Nat) (e : GatewayFault) (tr : GatewayTrace) (c : GatewayConn) : Prop :=
  Tidy n tr c ∧ (e = .cancelled → c.ws = none) ∨ e = .cancelled ∧ Dropped tr c

/-- How it leaves the client at last. -/
def Failed (n : Nat) (e : GatewayFault) (tr : GatewayTrace) (c : GatewayConn) : Prop :=
  Tidy n tr c ∧ c.ws = none ∨ e = .cancelled ∧ Dropped tr c

/-- What a failure leaves behind. -/
theorem Failed.released_iff {c c' : GatewayConn} (h : Failed c.opened e tr c') :
    Released c tr c' ↔ Undisturbed tr := by
  rcases h with ⟨h, hws⟩ | ⟨-, h⟩
  · constructor
    · intro hr
      refine ⟨h.uncut, fun x hx w hw => ?_⟩
      obtain ⟨hle, hlt⟩ := (h.mine w).mp (.inl ⟨x, hx, hw⟩)
      exact hr.closed w hle hlt
    · intro hu
      refine ⟨fun w hle hlt => ?_, hws, h.connected, h.listening⟩
      rcases (h.mine w).mpr ⟨hle, hlt⟩ with ⟨x, hx, hw⟩ | hsome
      · exact hu.shut x hx w hw
      · cases hws.symm.trans hsome
  · constructor
    · exact fun hr => absurd hr.idle.ws h.ws
    · exact fun hu => absurd (hu.uncut.symm.trans h.cut) Bool.false_ne_true

/-- An exchange that opens nothing, closes nothing but what the client has, and is not cut. -/
theorem Tidy.exchange (h : Tidy n tr c) (hopens : opens x = false) (hrests : rests x = false)
    (hcut : cut x = false) (hcloses : ∀ w, closes x = some w → c.ws = some w) :
    Tidy n (tr ++ [x]) c := by
  refine ⟨h.connected, h.listening, ?_, ?_, h.bound, ?_⟩
  · rw [interrupted_snoc, h.uncut, hcut, Bool.and_false, Bool.or_false]
  · intro w hw
    rw [holding_snoc, hopens, hrests]
    exact h.held w hw
  · intro w
    rw [asked_snoc, ← h.mine w]
    constructor
    · rintro ((hasked | hclose) | hw)
      · exact .inl hasked
      · exact .inr (hcloses w hclose)
      · exact .inr hw
    · rintro (hasked | hw)
      · exact .inl (.inl hasked)
      · exact .inr hw

/-- An exchange of a client that has none. -/
theorem Tidy.apart (h : Tidy n tr c) (hw : c.ws = none) (hcut : (holding tr && cut x) = false)
    (hcloses : closes x = none) : Tidy n (tr ++ [x]) c := by
  refine ⟨h.connected, h.listening, ?_, ?_, h.bound, ?_⟩
  · rw [interrupted_snoc, h.uncut, hcut, Bool.or_false]
  · intro w hsome
    cases hw.symm.trans hsome
  · intro w
    rw [asked_snoc, hcloses, ← h.mine w]
    simp only [reduceCtorEq, or_false]

theorem Tidy.dropped (h : Tidy n tr c) (hw : c.ws = some w) (hcut : cut x = true) :
    Dropped (tr ++ [x]) c := by
  refine ⟨h.connected, h.listening, ?_, ?_⟩
  · rw [interrupted_snoc, h.held w hw, hcut, Bool.and_true, Bool.or_true]
  · rw [hw]
    exact fun hn => by cases hn

/-- The client has the WebSocket `w`. -/
def Opened (n w : Nat) (tr : GatewayTrace) (c : GatewayConn) : Prop := Tidy n tr c ∧ c.ws = some w

/-- `close()` has been called on what it has. -/
def Spent (n : Nat) (tr : GatewayTrace) (c : GatewayConn) : Prop :=
  Tidy n tr c ∧ ∀ w, c.ws = some w → Asked tr w

/-- After an await that asks for nothing but what the client has. -/
def Awaited (n w : Nat) (answer : Except GatewayFault α) (tr : GatewayTrace) (c : GatewayConn) :
    Prop :=
  was_cancelled answer = false ∧ Opened n w tr c ∨ was_cancelled answer = true ∧ Dropped tr c

theorem Opened.awaited {answer : Except GatewayFault α} (h : Opened n w tr c)
    (hopens : opens x = false) (hrests : rests x = false) (hcut : cut x = was_cancelled answer)
    (hcloses : ∀ v, closes x = some v → v = w) : Awaited n w answer (tr ++ [x]) c := by
  obtain ⟨ht, hw⟩ := h
  cases ha : was_cancelled answer with
  | false =>
    refine .inl ⟨ha, ht.exchange hopens hrests (hcut.trans ha) fun v hv => ?_, hw⟩
    rw [hcloses v hv]
    exact hw
  | true => exact .inr ⟨ha, ht.dropped hw (hcut.trans ha)⟩

theorem cancelled_of {e : GatewayFault}
    (h : was_cancelled (.error e : Except GatewayFault α) = true) : e = .cancelled := by
  cases e with
  | cancelled => rfl
  | connection_error message => cases h
  | other text => cases h

namespace Handshake

variable {n w : Nat} {py : GatewayPython} {P : GatewayTrace → GatewayConn → Prop}

theorem failing_other (h : Tidy n tr c) (text : String) : Failing n (.other text) tr c :=
  .inl ⟨h, fun he => by cases he⟩

theorem tidy_raises (text : String) {Q : α → GatewayTrace → GatewayConn → Prop} :
    Action.Triple (Tidy n) (raises text : Handshake α) Q (Failing n) :=
  .throw fun _ _ h => failing_other h text

/-- What is read of a value changes nothing. -/
theorem tidy_read {m : Except String α} (hP : ∀ tr c, P tr c → Tidy n tr c) :
    Action.Triple P (Action.ofExcept (m.mapError .other) : Handshake α) (fun _ => P)
      (Failing n) := by
  refine .ofExcept (fun _ _ _ _ h => h) fun e tr c he h => ?_
  cases m with
  | ok a => cases he
  | error text =>
    cases he
    exact failing_other (hP tr c h) text

theorem tidy_python {m : Except Raised α} (hP : ∀ tr c, P tr c → Tidy n tr c) :
    Action.Triple P (python py m) (fun _ => P) (Failing n) := by
  refine .ofExcept (fun _ _ _ _ h => h) fun e tr c he h => ?_
  cases m with
  | ok a => cases he
  | error r =>
    cases he
    exact failing_other (hP tr c h) _

theorem tidy_ws (hP : ∀ tr c, P tr c → Tidy n tr c) :
    Action.Triple P (ws py) (fun w tr c => P tr c ∧ c.ws = some w) (Failing n) := by
  apply Action.Triple.bind (M := fun c tr c' => P tr c' ∧ c = c') (.get fun _ _ h => ⟨h, rfl⟩)
  intro c
  cases hw : c.ws with
  | some w => exact .pure fun tr c' ⟨h, he⟩ => ⟨h, he ▸ hw⟩
  | none => exact .throw fun tr c' ⟨h, _⟩ => failing_other (hP tr c' h) _

/-- The answer of an await is a value, or raised. -/
theorem awaited_answer (answer : Except GatewayFault α) (S : GatewayTrace → GatewayConn → Prop) :
    Action.Triple (fun tr c => Awaited n w answer tr c ∧ S tr c)
      (Action.ofExcept answer : Handshake α) (fun _ tr c => Opened n w tr c ∧ S tr c)
      (Failing n) := by
  refine .ofExcept (fun a tr c he ⟨h, hs⟩ => ?_) fun e tr c he ⟨h, _⟩ => ?_
  · rcases h with ⟨-, ho⟩ | ⟨hc, -⟩
    · exact ⟨ho, hs⟩
    · rw [he] at hc
      cases hc
  · rw [he] at h
    rcases h with ⟨hc, ho⟩ | ⟨hc, hd⟩
    · refine .inl ⟨ho.1, fun hcancelled => ?_⟩
      rw [hcancelled] at hc
      cases hc
    · exact .inr ⟨cancelled_of hc, hd⟩

theorem opened_recv : Action.Triple (Opened n w) (recv py) (fun _ => Opened n w) (Failing n) := by
  apply Action.Triple.bind (tidy_ws fun _ _ h => h.1)
  intro v
  refine .bind (M := fun answer tr c => Awaited n w answer tr c ∧ True)
    (.ask fun tr c r ⟨h, _⟩ => ⟨h.awaited rfl rfl rfl nofun, trivial⟩) fun answer => ?_
  apply Action.Triple.bind (awaited_answer answer fun _ _ => True)
  intro raw
  exact (tidy_read fun _ _ h => h.1).weaken fun _ _ h => h.1

theorem opened_send (frame : Json) :
    Action.Triple (Opened n w) (send py frame) (fun _ => Opened n w) (Failing n) := by
  apply Action.Triple.bind (tidy_ws fun _ _ h => h.1)
  intro v
  refine .bind (M := fun answer tr c => Awaited n w answer tr c ∧ True)
    (.ask fun tr c r ⟨h, _⟩ => ⟨h.awaited rfl rfl rfl nofun, trivial⟩) fun answer => ?_
  exact (awaited_answer answer fun _ _ => True).conseq (fun _ _ h => h) (fun _ _ _ h => h.1)
    fun _ _ _ h => h

theorem opened_close :
    Action.Triple (Opened n w) (close py) (fun _ tr c => Opened n w tr c ∧ Asked tr w)
      (Failing n) := by
  apply Action.Triple.bind (tidy_ws fun _ _ h => h.1)
  intro v
  refine .bind (M := fun answer tr c => Awaited n w answer tr c ∧ Asked tr w)
    (.ask fun tr c r ⟨h, hv⟩ => ?_) fun answer => awaited_answer answer fun tr _ => Asked tr w
  cases h.2.symm.trans hv
  refine ⟨h.awaited rfl rfl rfl fun u hu => ?_, asked_snoc.mpr (.inr rfl)⟩
  cases hu
  rfl

/-- A WebSocket is opened by a client that has none to lose. -/
theorem Spent.opened {e : Sigma GatewayEffect.Answer} (h : Spent n tr c) (hopens : opens e = true)
    (hcut : cut e = false) (hcloses : closes e = none) :
    Opened n c.opened (tr ++ [e]) { c with ws := some c.opened, opened := c.opened + 1 } := by
  obtain ⟨ht, hasked⟩ := h
  refine ⟨⟨ht.connected, ht.listening, ?_, ?_, Nat.le_succ_of_le ht.bound, ?_⟩, rfl⟩
  · rw [interrupted_snoc, ht.uncut, hcut, Bool.and_false, Bool.or_false]
  · intro w _
    rw [holding_snoc, hopens]
    rfl
  · intro w
    rw [asked_snoc, hcloses]
    have hmine : Asked tr w ↔ n ≤ w ∧ w < c.opened := by
      rw [← ht.mine w]
      exact ⟨.inl, fun hw => hw.elim id (hasked w)⟩
    have hbound := ht.bound
    simp only [hmine, reduceCtorEq, or_false, Option.some.injEq]
    omega

theorem spent_connect_socket (instance_url origin : String) :
    Action.Triple (fun tr c => Spent n tr c ∧ (c.ws = none → holding tr = false))
      (connect_socket instance_url origin) (fun _ tr c => ∃ w, Opened n w tr c) (Failing n) := by
  refine .bind (M := fun answer tr c =>
      (answer = .ok () ∧
        ∃ w, Opened n w tr { c with ws := some c.opened, opened := c.opened + 1 }) ∨
      ∃ e, answer = .error e ∧ Failing n e tr c) (.ask fun tr c r ⟨h, hnone⟩ => ?_)
    fun answer => ?_
  · cases r with
    | ok u => exact .inl ⟨rfl, _, Spent.opened h rfl rfl rfl⟩
    | error e =>
      refine .inr ⟨e, rfl, ?_⟩
      cases hc : was_cancelled (.error e : Except GatewayFault Unit) with
      | false =>
        refine .inl ⟨h.1.exchange rfl rfl hc nofun, fun he => ?_⟩
        rw [he] at hc
        cases hc
      | true =>
        cases hw : c.ws with
        | some w => exact .inr ⟨cancelled_of hc, h.1.dropped hw hc⟩
        | none => exact .inl ⟨h.1.apart hw (by rw [hnone hw, Bool.false_and]) rfl, fun _ => hw⟩
  · refine .bind (M := fun _ tr c =>
      ∃ w, Opened n w tr { c with ws := some c.opened, opened := c.opened + 1 })
      (.ofExcept ?_ ?_) fun _ => .modify fun _ _ h => h
    · rintro a tr c rfl (⟨-, ho⟩ | ⟨e, he, -⟩)
      · exact ho
      · cases he
    · rintro e tr c rfl (⟨he, -⟩ | ⟨e', he, hf⟩)
      · cases he
      · cases he
        exact hf

/-- An exchange that is not an await. -/
theorem opened_aside {e : GatewayEffect} (h : ∀ r : GatewayEffect.Answer e, opens ⟨e, r⟩ = false ∧
    rests ⟨e, r⟩ = false ∧ cut ⟨e, r⟩ = false ∧ closes ⟨e, r⟩ = none) :
    Action.Triple (Opened n w) (Action.ask e : Handshake _) (fun _ => Opened n w) (Failing n) := by
  refine .ask fun tr c r ⟨ht, hw⟩ => ?_
  obtain ⟨hopens, hrests, hcut, hcloses⟩ := h r
  refine ⟨ht.exchange hopens hrests hcut fun v hv => ?_, hw⟩
  cases hcloses.symm.trans hv

end Handshake

namespace Gateway

variable {n w : Nat} {py : GatewayPython} {g : Gateway}

theorem opened_sign_connect (nonce : Json) :
    Action.Triple (Opened n w) (g.sign_connect py nonce) (fun _ => Opened n w) (Failing n) := by
  apply Action.Triple.bind (Handshake.tidy_read fun _ _ h => h.1)
  intro sign
  apply Action.Triple.bind (Handshake.opened_aside fun _ => ⟨rfl, rfl, rfl, rfl⟩)
  intro signed_at_ms
  cases nonce with
  | str text => exact .pure fun _ _ h => h
  | _ => exact (Handshake.tidy_raises _).weaken fun _ _ h => h.1

theorem opened_challenge (expected : String) :
    Action.Triple (Opened n w) (challenge py expected) (fun _ => Opened n w) (Failing n) := by
  apply Action.Triple.bind Handshake.opened_recv
  intro data
  apply Action.Triple.bind (Handshake.tidy_python fun _ _ h => h.1)
  intro event
  apply Action.Triple.ite (fun _ => .throw fun _ _ h => .inl ⟨h.1, nofun⟩)
  intro _
  exact .bind (Handshake.tidy_python fun _ _ h => h.1) fun payload =>
    Handshake.tidy_python fun _ _ h => h.1

theorem opened_gateway_build_id (res : Json) :
    Action.Triple (Opened n w) (gateway_build_id py res) (fun _ => Opened n w) (Failing n) :=
  .bind (Handshake.tidy_python fun _ _ h => h.1) fun _ => .pure fun _ _ h => h

theorem opened_retry (id : String) (gw_build_id : Json) :
    Action.Triple (Opened n w) (g.retry py id gw_build_id)
      (fun _ tr c => ∃ v, Opened n v tr c) (Failing n) := by
  apply Action.Triple.bind Handshake.opened_close
  intro _
  refine .bind ((Handshake.spent_connect_socket g.instance_url g.origin).weaken ?_) fun _ => ?_
  · rintro tr c ⟨⟨ht, hw⟩, hasked⟩
    refine ⟨⟨ht, fun v hv => ?_⟩, fun hnone => ?_⟩
    · cases hw.symm.trans hv
      exact hasked
    · cases hw.symm.trans hnone
  apply Action.Triple.exists
  intro v
  apply Action.Triple.bind (opened_challenge _)
  intro nonce
  apply Action.Triple.bind (opened_sign_connect nonce)
  intro identity
  apply Action.Triple.bind (Handshake.opened_send _)
  intro _
  exact Handshake.opened_recv.conseq (fun _ _ h => h) (fun _ _ _ h => ⟨v, h⟩) fun _ _ _ h => h

theorem opened_second_response (id : String) (res : Json) :
    Action.Triple (Opened n w) (g.second_response py id res)
      (fun _ tr c => ∃ v, Opened n v tr c) (Failing n) := by
  apply Action.Triple.bind (opened_gateway_build_id res)
  intro gw_build_id
  exact .ite (fun _ => opened_retry id gw_build_id) fun _ => .pure fun _ _ h => ⟨w, h⟩

theorem opened_refused (res : Json) {Q : Unit → GatewayTrace → GatewayConn → Prop} :
    Action.Triple (Opened n w) (refused py res) Q (Failing n) :=
  .bind (Handshake.tidy_python fun _ _ h => h.1) fun _ =>
    .throw fun _ _ h => .inl ⟨h.1, nofun⟩

/-- The client of an attempt. -/
def Fresh (n : Nat) (tr : GatewayTrace) (c : GatewayConn) : Prop :=
  Tidy n tr c ∧ c.ws = none ∧ holding tr = false

theorem fresh_handshake :
    Action.Triple (Fresh n) (g.handshake py) (fun _ _ _ => True) (Failing n) := by
  apply Action.Triple.ite (fun _ => .throw fun _ _ h => .inl ⟨h.1, nofun⟩)
  intro _
  refine .bind ((Handshake.spent_connect_socket g.instance_url g.origin).weaken ?_) fun _ => ?_
  · rintro tr c ⟨ht, hw, hholding⟩
    refine ⟨⟨ht, fun v hv => ?_⟩, fun _ => hholding⟩
    cases hw.symm.trans hv
  apply Action.Triple.exists
  intro w
  apply Action.Triple.bind (opened_challenge _)
  intro nonce
  apply Action.Triple.bind (opened_sign_connect nonce)
  intro identity
  apply Action.Triple.bind (Handshake.opened_aside fun _ => ⟨rfl, rfl, rfl, rfl⟩)
  intro id
  apply Action.Triple.bind (Handshake.opened_send _)
  intro _
  apply Action.Triple.bind Handshake.opened_recv
  intro res
  apply Action.Triple.bind (Handshake.tidy_python fun _ _ h => h.1)
  intro ok
  apply Action.Triple.ite (fun _ => .modify fun _ _ _ => trivial)
  intro _
  refine .bind (opened_second_response id res) fun res => .exists fun v => ?_
  apply Action.Triple.bind (Handshake.tidy_python fun _ _ h => h.1)
  intro ok
  exact .ite (fun _ => .modify fun _ _ _ => trivial) fun _ => opened_refused res

theorem tidy_close_held :
    Action.Triple (Tidy n) close_held (fun _ => Spent n) (Failed n) := by
  apply Action.Triple.bind (M := fun c tr c' => Tidy n tr c' ∧ c = c') (.get fun _ _ h => ⟨h, rfl⟩)
  intro c
  cases hw : c.ws with
  | none =>
    refine .pure fun tr c' ⟨h, he⟩ => ⟨h, fun v hv => ?_⟩
    rw [← he, hw] at hv
    cases hv
  | some w =>
    refine .bind (M := fun answer tr c => Awaited n w answer tr c ∧ Asked tr w)
      (.ask fun tr c' r ⟨h, he⟩ => ?_) fun answer => ?_
    · have ho : Opened n w tr c' := ⟨h, he ▸ hw⟩
      refine ⟨ho.awaited rfl rfl rfl fun u hu => ?_, asked_snoc.mpr (.inr rfl)⟩
      cases hu
      rfl
    · refine .ite (fun hc => .throw fun tr c' ⟨h, _⟩ => ?_)
        fun hc => .pure fun tr c' ⟨h, hasked⟩ => ?_
      · rcases h with ⟨hn, -⟩ | ⟨-, hd⟩
        · exact absurd (hn.symm.trans hc) Bool.false_ne_true
        · exact .inr ⟨rfl, hd⟩
      · rcases h with ⟨-, ho⟩ | ⟨hcut, -⟩
        · refine ⟨ho.1, fun v hv => ?_⟩
          cases ho.2.symm.trans hv
          exact hasked
        · exact absurd hcut hc

/-- The clause leaves the client without a WebSocket, unless it is cancelled. -/
theorem failing_cleanup (e : GatewayFault) :
    Action.Triple (Failing n e) (cleanup e) (fun _ _ _ => True) (Failed n) := by
  refine .ite (fun he => .throw fun tr c h => ?_) fun he => ?_
  · rcases h with ⟨ht, hws⟩ | ⟨-, hd⟩
    · exact .inl ⟨ht, hws he⟩
    · exact .inr ⟨he, hd⟩
  refine .bind (M := fun _ => Tidy n) (.modify fun tr c h => ?_) fun _ => ?_
  · rcases h with ⟨ht, -⟩ | ⟨hc, -⟩
    · exact { ht with connected := rfl }
    · exact absurd hc he
  apply Action.Triple.bind tidy_close_held
  intro _
  refine .bind (M := fun _ tr c => Tidy n tr c ∧ c.ws = none)
    (.modify fun tr c ⟨ht, hasked⟩ => ?_) fun _ => .throw fun _ _ h => .inl h
  refine ⟨{ ht with held := nofun, mine := fun w => ?_ }, rfl⟩
  rw [← ht.mine w]
  exact ⟨fun h => h.imp_right nofun, fun h => .inl (h.elim id (hasked w))⟩

theorem fresh_connect :
    Action.Triple (Fresh n) (g.connect py) (fun _ _ _ => True) (Failed n) :=
  .catching fresh_handshake failing_cleanup

theorem fresh_attempt :
    Action.Triple (Fresh n) (g.attempt py)
      (fun failed tr c => failed ≠ none → Tidy n tr c ∧ c.ws = none) (Failed n) := by
  apply Action.Triple.catching (.bind fresh_connect fun _ => .pure fun _ _ _ hn => absurd rfl hn)
  intro e
  cases e with
  | connection_error message =>
    refine .pure fun tr c h _ => ?_
    rcases h with h | ⟨he, -⟩
    · exact h
    · cases he
  | _ => exact .throw fun _ _ h => h

/-- The wait before the next attempt. -/
theorem tidy_sleep (delay : Rat) :
    Action.Triple (fun tr c => Tidy n tr c ∧ c.ws = none) (Handshake.sleep delay)
      (fun _ => Fresh n) (Failed n) := by
  refine .bind (M := fun _ => Fresh n) (.ask fun tr c r ⟨ht, hw⟩ => ?_) fun answer => ?_
  · refine ⟨ht.apart hw (Bool.and_false _) rfl, hw, ?_⟩
    rw [holding_snoc]
    rfl
  · exact .ofExcept (fun _ _ _ _ h => h) fun _ _ _ _ h => .inl ⟨h.1, h.2.1⟩

theorem tidy_attempts (max_retries : Nat) (base_delay : Rat) (left k : Nat) (last_error : String)
    (hleft : left + k = max_retries + 1) :
    Action.Triple (fun tr c => Tidy n tr c ∧ c.ws = none ∧ (left ≠ 0 → holding tr = false))
      (g.attempts py max_retries base_delay left k last_error) (fun _ _ _ => True) (Failed n) := by
  induction left generalizing k last_error with
  | zero => exact .throw fun _ _ h => .inl ⟨h.1, h.2.1⟩
  | succ left ih =>
    refine .bind (fresh_attempt.weaken fun _ _ h => ⟨h.1, h.2.1, h.2.2 (Nat.succ_ne_zero left)⟩)
      fun failed => ?_
    cases failed with
    | none => exact .pure fun _ _ _ => trivial
    | some message =>
      have hnext := ih (k + 1) message (by omega)
      refine .ite (fun hk => ?_) fun hk => hnext.weaken fun tr c h => ?_
      · apply Action.Triple.bind ((tidy_sleep _).weaken fun tr c h => h nofun)
        intro _
        exact hnext.weaken fun _ _ h => ⟨h.1, h.2.1, fun _ => h.2.2⟩
      · obtain ⟨ht, hw⟩ := h nofun
        exact ⟨ht, hw, fun hne => absurd (by omega) hne⟩

theorem fresh_connect_with_retry (max_retries : Nat) (base_delay : Rat) :
    Action.Triple (Fresh n) (g.connect_with_retry py max_retries base_delay)
      (fun _ _ _ => True) (Failed n) :=
  (tidy_attempts max_retries base_delay max_retries 1 "None" rfl).weaken fun _ _ h =>
    ⟨h.1, h.2.1, fun _ => h.2.2⟩

end Gateway

theorem GatewayConn.Idle.fresh (hc : GatewayConn.Idle c) : Gateway.Fresh c.opened [] c := by
  refine ⟨⟨hc.connected, hc.listening, rfl, fun w hw => ?_, Nat.le_refl _, fun w => ?_⟩, hc.ws, rfl⟩
  · cases hc.ws.symm.trans hw
  · constructor
    · rintro (⟨x, hx, -⟩ | hw)
      · cases hx
      · cases hc.ws.symm.trans hw
    · exact fun ⟨hle, hlt⟩ => absurd hlt (Nat.not_lt.mpr hle)

/-- A connect that fails leaves nothing behind exactly when its task is not cancelled while it has
a WebSocket, and each WebSocket that it closes is closed. -/
theorem failed_connect_released_iff {g : Gateway} {max_retries : Nat} {base_delay : Rat}
    {p : Handshake Unit}
    (hp : p = g.connect py ∨ p = g.connect_with_retry py max_retries base_delay)
    (hc : GatewayConn.Idle c) (hends : Program.Ends (p c) tr (.error e, c')) :
    Released c tr c' ↔ Undisturbed tr := by
  have hfailed : Failed c.opened e tr c' := by
    rcases hp with rfl | rfl
    · exact Gateway.fresh_connect [] c tr (.error e) c' hc.fresh hends
    · exact Gateway.fresh_connect_with_retry max_retries base_delay [] c tr (.error e) c'
        hc.fresh hends
  exact hfailed.released_iff

def local_gateway : Gateway :=
  ⟨"ws://openclaw:18789/ws", ⟨"device", "public", "private", "token", "gateway"⟩⟩

/-- The gateway sends another event than the challenge. -/
def greeted : GatewayPython :=
  { loads := fun _ => .ok (.obj [("event", .str "hello")]) }

def greeted_trace : GatewayTrace :=
  [⟨.connect local_gateway.instance_url local_gateway.origin, .ok ()⟩,
    ⟨.recv 0, .ok "hello"⟩, ⟨.close 0, .ok ()⟩]

theorem local_gateway_complete : local_gateway.missing = [] := by decide +kernel

theorem failed_connect_released_iff_greeted : ∃ e tr c',
    Program.Ends (local_gateway.connect greeted {}) tr (.error e, c') ∧ Released {} tr c' := by
  have hends : Program.Ends (local_gateway.connect greeted {}) greeted_trace
      (.error (.connection_error "Expected connect.challenge, got: hello"), { opened := 1 }) := by
    rw [Gateway.connect, Gateway.handshake, if_neg (not_not.mpr local_gateway_complete)]
    apply Program.Ends.ask
    apply Program.Ends.ask
    apply Program.Ends.ask
    apply Program.Ends.done
  have hp : local_gateway.connect greeted = local_gateway.connect greeted ∨
      local_gateway.connect greeted = local_gateway.connect_with_retry greeted 5 1 := .inl rfl
  refine ⟨_, _, _, hends, (failed_connect_released_iff hp ⟨rfl, rfl, rfl⟩ hends).mpr ⟨rfl, ?_⟩⟩
  intro x hx w hw
  have hshut : shuts ⟨.close 0, .ok ()⟩ = some 0 := rfl
  simp only [greeted_trace, List.mem_cons, List.not_mem_nil, or_false] at hx
  rcases hx with rfl | rfl | rfl
  · cases hw
  · cases hw
  · cases hw
    exact ⟨_, by simp [greeted_trace], hshut⟩

/-- The task is cancelled while it waits for the challenge. -/
theorem not_failed_connect_released : ¬ ∀ (py : GatewayPython) (g : Gateway) (c c' : GatewayConn)
    (tr : GatewayTrace) (e : GatewayFault), c.Idle →
      Program.Ends (g.connect py c) tr (.error e, c') → Released c tr c' := by
  intro h
  have hends : Program.Ends (local_gateway.connect greeted {})
      [⟨.connect local_gateway.instance_url local_gateway.origin, .ok ()⟩,
        ⟨.recv 0, .error .cancelled⟩]
      (.error .cancelled, { ws := some 0, opened := 1 }) := by
    rw [Gateway.connect, Gateway.handshake, if_neg (not_not.mpr local_gateway_complete)]
    apply Program.Ends.ask
    apply Program.Ends.ask
    apply Program.Ends.done
  have hreleased := h greeted local_gateway {} _ _ _ ⟨rfl, rfl, rfl⟩ hends
  cases hreleased.idle.ws

end ClawMux
