import ClawMux.Router.ChannelRuns

namespace ClawMux
set_option autoImplicit true
open Lib.Text

namespace Router

/-- The callback of the client of `identity_key`, as `main` wires it: the provider is left out. -/
def on_proactive (registered : List String) (a : Answers) (s : RouterState)
    (identity_key text : String) : Ran Unit :=
  handle_proactive registered a s identity_key text DEFAULT_PROVIDER

/-- The channel that an identity resolves to: the one in the table unless the router has one in
memory, or else the direct channel of the user. -/
def Resolved (registered : List String) (a : Answers) (s : RouterState) (p u c : String) : Prop :=
  c ≠ "" ∧
    (truthy (s.user_channels (identity_key p u)) = none ∧ read_channel a s p u = some c ∨
      (truthy (s.user_channels (identity_key p u)) ≠ none ∨ truthy (read_channel a s p u) = none) ∧
        ∃ adapter, get_adapter registered p = some adapter ∧
          a.get_or_create_dm_channel adapter u = .ok c)

/-- Every send goes through the adapter of `p` to the channel of `(p, u)`, and there is one when
that channel can be resolved. -/
structure Delivered (registered : List String) (a : Answers) (s : RouterState) (p u text : String)
    (out : Ran Unit) : Prop where
  only : ∀ adapter c t, .send_reply adapter c t ∈ out.calls →
    adapter = p ∧ t = text ∧ Resolved registered a s p u c
  sent : ∀ c, Resolved registered a s p u c → .send_reply p c text ∈ out.calls

variable {registered : List String} {a : Answers} {s : RouterState}

theorem truthy_eq_some {x : Option String} : truthy x = some c ↔ x = some c ∧ c ≠ "" := by
  simp [truthy, Option.filter_eq_some_iff]

theorem create_channel_result :
    (create_channel registered a s (identity_key p u) u p).result = .ok c ∧ c ≠ "" ↔
      c ≠ "" ∧ ∃ adapter, get_adapter registered p = some adapter ∧
        a.get_or_create_dm_channel adapter u = .ok c := by
  rw [create_channel]
  cases get_adapter registered p with
  | none =>
    simp only [Except.ok.injEq, reduceCtorEq, false_and, exists_const, and_false, iff_false,
      not_and, Decidable.not_not]
    exact fun h => h.symm
  | some adapter =>
    simp only [Option.some.injEq, exists_eq_left']
    cases a.get_or_create_dm_channel adapter u with
    | error e => simp
    | ok d =>
      by_cases hd : d = ""
      · subst hd
        simp [and_comm]
      · simp [hd, and_comm]

theorem get_or_create_result :
    (get_or_create_channel registered a s (identity_key p u) u p).result = .ok c ∧ c ≠ "" ↔
      Resolved registered a s p u c := by
  unfold get_or_create_channel Resolved
  cases hl : truthy (s.user_channels (identity_key p u)) with
  | some x => simp [create_channel_result]
  | none =>
    cases hr : truthy (read_channel a s p u) with
    | none =>
      have hn : ∀ d, d ≠ "" → read_channel a s p u ≠ some d := by
        intro d hd he
        rw [truthy_eq_some.mpr ⟨he, hd⟩] at hr
        cases hr
      simp only [create_channel_result]
      constructor
      · exact fun ⟨hc, h⟩ => ⟨hc, .inr ⟨.inr trivial, h⟩⟩
      · rintro ⟨hc, ⟨-, h⟩ | ⟨-, h⟩⟩
        · exact absurd h (hn c hc)
        · exact ⟨hc, h⟩
    | some d =>
      obtain ⟨hd, hne⟩ := truthy_eq_some.mp hr
      simp only [hd, Except.ok.injEq, Option.some.injEq, true_and, ne_eq, not_true, reduceCtorEq,
        or_self, false_and, or_false]
      exact and_comm

theorem create_channel_calls (key u p adapter c t : String) :
    .send_reply adapter c t ∉ (create_channel registered a s key u p).calls := by
  rw [create_channel]
  split
  · exact List.not_mem_nil
  · dsimp only
    split
    · simp
    · split <;> simp

theorem get_or_create_calls (key u p adapter c t : String) :
    .send_reply adapter c t ∉ (get_or_create_channel registered a s key u p).calls := by
  rw [get_or_create_channel]
  split
  · exact create_channel_calls key u p adapter c t
  · split
    · exact List.not_mem_nil
    · exact create_channel_calls key u p adapter c t

/-- What `handle_proactive` sends, for the identity that it makes of its arguments. -/
theorem handle_proactive_sends (ht : text ≠ "")
    (hk : normalize_identity_key p v = identity_key p u) :
    .send_reply adapter c t ∈ (handle_proactive registered a s v text p).calls ↔
      get_adapter registered p = some adapter ∧ t = text ∧ Resolved registered a s p u c := by
  rw [← get_or_create_result]
  simp only [handle_proactive, hk, provider_user_id_prefixed]
  have hcalls := @get_or_create_calls registered a s (identity_key p u) u p adapter c t
  cases hg : get_adapter registered p with
  | none => simp
  | some ad =>
    simp only [Option.some.injEq]
    cases hout : get_or_create_channel registered a s (identity_key p u) u p with
    | mk s' calls result =>
      rw [hout] at hcalls
      cases result with
      | error e => simpa using hcalls
      | ok d =>
        simp only [Except.ok.injEq]
        split
        · rename_i hd
          constructor
          · exact fun h => absurd h hcalls
          · rintro ⟨-, -, rfl, hne⟩
            exact (hne (hd.resolve_right ht)).elim
        · rename_i hd
          rw [List.mem_append, List.mem_singleton, PlatformCall.send_reply.injEq]
          constructor
          · rintro (h | ⟨rfl, rfl, rfl⟩)
            · exact absurd h hcalls
            · exact ⟨rfl, rfl, rfl, fun he => hd (.inl he)⟩
          · rintro ⟨rfl, rfl, rfl, -⟩
            exact .inr ⟨rfl, rfl, rfl⟩

theorem supported_validate (h : p ∈ SUPPORTED_PROVIDERS) : validate_provider p = .ok p := by
  revert p
  decide

/-- The key of one provider's identity never looks like a key of another provider. -/
theorem normalize_other (hp : p ∈ SUPPORTED_PROVIDERS) (hq : q ∈ SUPPORTED_PROVIDERS)
    (hne : q ≠ p) (u : String) :
    normalize_identity_key q (identity_key p u) = identity_key q (identity_key p u) := by
  rw [normalize_identity_key, if_neg]
  intro h
  have he := append_dropLen h
  have hkey : app_user_id q (dropLen (identity_key p u) (q ++ ":")) = app_user_id p u := he
  exact hne (app_user_id_inj hq hp hkey).1

theorem normalize_self (p u : String) :
    normalize_identity_key p (identity_key p u) = identity_key p u := by
  rw [normalize_identity_key, identity_key, if_pos (startsWith_append ..)]

/-- A delivery for another identity through the same adapter is right only where both identities
have the same channel. -/
theorem delivered_same {v : String} (hp : p ∈ SUPPORTED_PROVIDERS) (hr : p ∈ registered)
    (ht : text ≠ "") (hk : normalize_identity_key p v = identity_key p w) :
    Delivered registered a s p u text (handle_proactive registered a s v text p) ↔
      ∀ c, Resolved registered a s p w c ↔ Resolved registered a s p u c := by
  have ha := get_adapter_registered (supported_validate hp) hr
  constructor
  · intro h c
    constructor
    · intro hw
      exact (h.only p c text ((handle_proactive_sends ht hk).mpr ⟨ha, rfl, hw⟩)).2.2
    · intro hu
      exact ((handle_proactive_sends ht hk).mp (h.sent c hu)).2.2
  · intro h
    refine ⟨fun ad c t hm => ?_, fun c hu => ?_⟩
    · obtain ⟨had, rfl, hw⟩ := (handle_proactive_sends ht hk).mp hm
      exact ⟨Option.some.inj (had.symm.trans ha), rfl, (h c).mp hw⟩
    · exact (handle_proactive_sends ht hk).mpr ⟨ha, rfl, (h c).mpr hu⟩

/-- A delivery under another provider is right only where it sends nothing and had nothing to
send. -/
theorem delivered_other {v : String} (hq : q ∈ SUPPORTED_PROVIDERS) (hne : q ≠ p) (ht : text ≠ "")
    (hk : normalize_identity_key q v = identity_key q w) :
    Delivered registered a s p u text (handle_proactive registered a s v text q) ↔
      (q ∉ registered ∨ ∀ c, ¬ Resolved registered a s q w c) ∧
        ∀ c, ¬ Resolved registered a s p u c := by
  have hv := supported_validate hq
  constructor
  · intro h
    have hsend : ∀ ad c t,
        .send_reply ad c t ∉ (handle_proactive registered a s v text q).calls := by
      intro ad c t hm
      obtain ⟨rfl, -, -⟩ := h.only ad c t hm
      obtain ⟨had, -, -⟩ := (handle_proactive_sends ht hk).mp hm
      have hreg := get_adapter_some hv had
      rw [get_adapter_registered hv hreg] at had
      exact hne (Option.some.inj had)
    refine ⟨?_, fun c hu => hsend _ _ _ (h.sent c hu)⟩
    by_cases hreg : q ∈ registered
    · exact .inr fun c hw => hsend q c text
        ((handle_proactive_sends ht hk).mpr ⟨get_adapter_registered hv hreg, rfl, hw⟩)
    · exact .inl hreg
  · rintro ⟨hw, hu⟩
    refine ⟨fun ad c t hm => ?_, fun c hc => absurd hc (hu c)⟩
    obtain ⟨had, rfl, hc⟩ := (handle_proactive_sends ht hk).mp hm
    rcases hw with hw | hw
    · exact absurd (get_adapter_some hv had) hw
    · exact absurd hc (hw c)

/-- Messages of the instance keep the identity for Mattermost, and elsewhere only where nothing is
sent and nothing was to be sent; notifications keep it unless the user id looks prefixed and the
rest of it has another channel. -/
theorem proactive_keeps_identity (hp : p ∈ SUPPORTED_PROVIDERS) (hr : p ∈ registered)
    (ht : text ≠ "") :
    (Delivered registered a s p u text (on_proactive registered a s (identity_key p u) text) ↔
      p = DEFAULT_PROVIDER ∨
        (DEFAULT_PROVIDER ∉ registered ∨
          ∀ c, ¬ Resolved registered a s DEFAULT_PROVIDER (identity_key p u) c) ∧
        ∀ c, ¬ Resolved registered a s p u c) ∧
    (Delivered registered a s p u text (handle_proactive registered a s u text p) ↔
      startsWith u (p ++ ":") = false ∨
        ∀ c, Resolved registered a s p (dropLen u (p ++ ":")) c ↔
          Resolved registered a s p u c) := by
  constructor
  · by_cases hd : p = DEFAULT_PROVIDER
    · subst hd
      simp only [true_or, iff_true]
      exact (delivered_same hp hr ht (normalize_self ..)).mpr fun c => Iff.rfl
    · have hq : DEFAULT_PROVIDER ∈ SUPPORTED_PROVIDERS := by decide
      simp only [hd, false_or]
      exact delivered_other hq (Ne.symm hd) ht (normalize_other hp hq (Ne.symm hd) u)
  · cases hu : startsWith u (p ++ ":") with
    | true =>
      simp only [Bool.true_eq_false, false_or]
      apply delivered_same hp hr ht
      rw [normalize_identity_key, if_pos hu, identity_key, append_dropLen hu]
    | false =>
      simp only [true_or, iff_true]
      refine (delivered_same hp hr ht (w := u) ?_).mpr fun c => Iff.rfl
      rw [normalize_identity_key, if_neg (by simp [hu])]

theorem proactive_keeps_identity_mattermost :
    Delivered ["mattermost"] ChannelSystem.direct (ChannelSystem.start.state 0)
      "mattermost" "7" "hi"
      (on_proactive ["mattermost"] ChannelSystem.direct (ChannelSystem.start.state 0)
        "mattermost:7" "hi") :=
  (proactive_keeps_identity (by decide) (by decide) (by decide)).1.mpr (.inl rfl)

/-- A Telegram user's proactive message goes out through Mattermost. -/
theorem not_proactive_keeps_identity :
    ¬ Delivered ["mattermost", "telegram"] ChannelSystem.direct (ChannelSystem.start.state 0)
      "telegram" "7" "hi"
      (on_proactive ["mattermost", "telegram"] ChannelSystem.direct (ChannelSystem.start.state 0)
        "telegram:7" "hi") := by
  intro h
  have hm := h.only "mattermost" "dm" "hi" (by decide)
  exact absurd hm.1 (by decide)

end Router

end ClawMux
