import ClawMux.Lib.Text

namespace ClawMux
open Lib.Text

def PREFIX : String := "fernet:v1:"

/-- Raised when a value cannot be (de)crypted with the configured key. -/
inductive CredentialEncryptionError
  | notConfigured
  | invalidKey
  | invalidToken
  deriving DecidableEq, Repr

/-- `cryptography.fernet`, which is not part of the repository: the keys its constructor takes,
one draw of the randomised encryption, and decryption with `InvalidToken` as `none`. -/
structure Fernet where
  accepts : String → Bool
  encrypt : String → String → String
  decrypt : String → String → Option String

/-- Decryption undoes encryption under the same key. -/
def Fernet.Inverse (F : Fernet) : Prop :=
  ∀ key text, F.accepts key = true → F.decrypt key (F.encrypt key text) = some text

/-- The key and the token do nothing. -/
def Fernet.clear : Fernet := ⟨fun _ => true, fun _ text => text, fun _ token => some token⟩

theorem Fernet.clear_inverse : Fernet.clear.Inverse := fun _ _ _ => rfl

variable (F : Fernet) (credential_encryption_key : String)

def get_fernet : Except CredentialEncryptionError String :=
  let key := strip credential_encryption_key
  if key = "" then .error .notConfigured
  else if F.accepts key then .ok key
  else .error .invalidKey

def is_encrypted (value : String) : Bool := startsWith value PREFIX

/-- Encrypt with the configured key; passthrough when the key is unset. -/
def encrypt_secret (plaintext : String) : Except CredentialEncryptionError String :=
  if strip credential_encryption_key = "" then .ok plaintext
  else do
    let key ← get_fernet F credential_encryption_key
    return PREFIX ++ F.encrypt key plaintext

/-- Decrypt a stored value; legacy plaintext passes through. -/
def decrypt_secret (value : String) : Except CredentialEncryptionError String :=
  if is_encrypted value then do
    let key ← get_fernet F credential_encryption_key
    match F.decrypt key (dropLen value PREFIX) with
    | some text => return text
    | none => throw .invalidToken
  else .ok value

/-- `EncryptedText.process_bind_param` -/
def process_bind_param (value : String) : Except CredentialEncryptionError String :=
  if is_encrypted value then .ok value else encrypt_secret F credential_encryption_key value

/-- `EncryptedText.process_result_value` -/
def process_result_value (value : String) : Except CredentialEncryptionError String :=
  decrypt_secret F credential_encryption_key value

variable {F credential_encryption_key}

/-- What was encrypted, or passed through without a key, is read back. -/
theorem decrypt_of_encrypt {v stored : String} (hF : F.Inverse) (hv : is_encrypted v = false)
    (hs : encrypt_secret F credential_encryption_key v = .ok stored) :
    decrypt_secret F credential_encryption_key stored = .ok v := by
  rw [encrypt_secret] at hs
  by_cases hk : strip credential_encryption_key = ""
  · rw [if_pos hk] at hs
    cases hs
    rw [decrypt_secret, if_neg (by simp [hv])]
  · rw [if_neg hk, get_fernet, if_neg hk] at hs
    by_cases ha : F.accepts (strip credential_encryption_key) = true
    · rw [if_pos ha] at hs
      cases hs
      simp only [decrypt_secret, is_encrypted, startsWith_append, ↓reduceIte, get_fernet,
        if_neg hk, if_pos ha, dropLen_append]
      change (match F.decrypt _ _ with | some text => _ | none => _) = _
      rw [hF _ _ ha]
      rfl
    · rw [if_neg ha] at hs
      cases hs

/-- A secret that does not already carry the prefix is read back as it was bound. -/
theorem process_result_of_bind {v stored : String} (hF : F.Inverse) (hv : is_encrypted v = false)
    (hs : process_bind_param F credential_encryption_key v = .ok stored) :
    process_result_value F credential_encryption_key stored = .ok v := by
  rw [process_bind_param, if_neg (by simp [hv])] at hs
  exact decrypt_of_encrypt hF hv hs

end ClawMux
