import ClawMux.Core.Models

namespace ClawMux
set_option autoImplicit true
open Lib.Text

/-- `CREDENTIAL_ENCRYPTION_KEY` is unset, or a key that the constructor takes. -/
def Configured (F : Fernet) (credential_encryption_key : String) : Prop :=
  strip credential_encryption_key = "" ∨ F.accepts (strip credential_encryption_key) = true

theorem encrypt_secret_unset (hk : strip k = "") : encrypt_secret F k v = .ok v := by
  rw [encrypt_secret, if_pos hk]

theorem encrypt_secret_set (hk : strip k ≠ "") (ha : F.accepts (strip k) = true) :
    encrypt_secret F k v = .ok (PREFIX ++ F.encrypt (strip k) v) := by
  rw [encrypt_secret, if_neg hk, get_fernet, if_neg hk, if_pos ha]
  rfl

theorem decrypt_secret_plain (hv : is_encrypted v = false) : decrypt_secret F k v = .ok v := by
  rw [decrypt_secret, if_neg (by simp [hv])]

theorem encrypt_secret_total (hk : Configured F k) (v : String) :
    ∃ stored, encrypt_secret F k v = .ok stored := by
  by_cases hs : strip k = ""
  · exact ⟨v, encrypt_secret_unset hs⟩
  · exact ⟨_, encrypt_secret_set hs (hk.resolve_left hs)⟩

theorem is_encrypted_encrypt (hk : strip k ≠ "") (h : encrypt_secret F k v = .ok stored) :
    is_encrypted stored = true := by
  rw [encrypt_secret, if_neg hk] at h
  cases hf : get_fernet F k with
  | error e =>
    rw [hf] at h
    cases h
  | ok key =>
    rw [hf] at h
    cases h
    exact startsWith_append _ _

/-- A value that carries the prefix is read with the configured key, and only with it. -/
theorem decrypt_secret_prefixed (hv : is_encrypted v = true) (ha : Configured F k) :
    decrypt_secret F k v = .ok text ↔
      strip k ≠ "" ∧ F.decrypt (strip k) (dropLen v PREFIX) = some text := by
  rw [decrypt_secret, if_pos hv, get_fernet]
  by_cases hs : strip k = ""
  · rw [if_pos hs]
    constructor
    · intro h
      cases h
    · intro h
      exact absurd hs h.1
  · rw [if_neg hs, if_pos (ha.resolve_left hs)]
    simp only [ne_eq, hs, not_false_eq_true, true_and]
    dsimp only [bind, Except.bind]
    cases F.decrypt (strip k) (dropLen v PREFIX) with
    | none =>
      constructor
      · intro h
        cases h
      · intro h
        cases h
    | some found => simp only [pure, Except.pure, Except.ok.injEq, Option.some.injEq]

theorem bind_prefixed (hv : is_encrypted v = true) : process_bind_param F k v = .ok v := by
  rw [process_bind_param, if_pos hv]

/-- A value without the prefix is read back as it was stored, with a key and without one. A value
with the prefix is taken to be encrypted: it is stored as it is, and read by decrypting it. -/
theorem encrypted_text_round_trip (hF : F.Inverse) (hk : Configured F k) (v : String) :
    (is_encrypted v = false → ∃ stored, process_bind_param F k v = .ok stored ∧
      process_result_value F k stored = .ok v) ∧
    (is_encrypted v = true → process_bind_param F k v = .ok v ∧
      ∀ text, process_result_value F k v = .ok text ↔ strip k ≠ "" ∧
        F.decrypt (strip k) (dropLen v PREFIX) = some text) := by
  constructor
  · intro hv
    obtain ⟨stored, hs⟩ := encrypt_secret_total hk v
    refine ⟨stored, ?_, decrypt_of_encrypt hF hv hs⟩
    rw [process_bind_param, if_neg (by simp [hv])]
    exact hs
  · intro hv
    exact ⟨bind_prefixed hv, fun _ => decrypt_secret_prefixed hv hk⟩

/-- Tokens that begin as those of Fernet do, and keys of their length. -/
def Fernet.tagged : Fernet where
  accepts key := key.toList.length = 44
  encrypt _ text := "gAAAAA" ++ text
  decrypt _ token := if startsWith token "gAAAAA" then some (dropLen token "gAAAAA") else none

theorem Fernet.tagged_inverse : Fernet.tagged.Inverse := by
  intro key text _
  simp only [Fernet.tagged, startsWith_append, ↓reduceIte, dropLen_append]

def sample_key : String := "AAAAAAAAAAAAAAAAAAAAAAAAAAAAAAAAAAAAAAAAAAA="

theorem encrypted_text_round_trip_ran :
    ∃ stored, process_bind_param Fernet.tagged sample_key "s3cr3t" = .ok stored ∧
      process_result_value Fernet.tagged sample_key stored = .ok "s3cr3t" :=
  (encrypted_text_round_trip Fernet.tagged_inverse (.inr (by decide)) "s3cr3t").1 (by decide)

/-- A webhook's value that begins with the prefix cannot be read again, with a key or without. -/
theorem prefixed_secret_lost : Fernet.tagged.Inverse ∧
    Fernet.tagged.accepts (strip sample_key) = true ∧
    ∀ k ∈ [sample_key, ""], process_bind_param Fernet.tagged k "fernet:v1:x" = .ok "fernet:v1:x" ∧
      ∀ text, process_result_value Fernet.tagged k "fernet:v1:x" ≠ .ok text := by
  refine ⟨Fernet.tagged_inverse, by decide, ?_⟩
  intro k hk
  have hp : is_encrypted "fernet:v1:x" = true := by decide
  have hc : Configured Fernet.tagged k := by
    rcases List.mem_pair.mp hk with rfl | rfl
    · exact .inr (by decide)
    · exact .inl (by decide)
  refine ⟨bind_prefixed hp, ?_⟩
  intro text h
  have hnone : Fernet.tagged.decrypt (strip k) (dropLen "fernet:v1:x" PREFIX) = none := rfl
  have hsome := ((decrypt_secret_prefixed hp hc).mp h).2
  rw [hnone] at hsome
  cases hsome

end ClawMux
