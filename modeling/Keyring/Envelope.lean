import Keyring.Cipher.Gcm
import Keyring.Encoding.Base64
import Keyring.Error
import Keyring.Text.Blank

/-!
# Mnemonics at rest

A stored mnemonic is a blob: a nonce of 12 bytes, the ciphertext under AES-256 in
Galois counter mode, and the tag.  The key comes as 32 bytes or as Base64 text, for
instance from the environment.
-/

namespace Keyring

/-- The key that seals and opens mnemonics. -/
structure Envelope where
  key : Bytes
  length_key : key.length = 32

namespace Envelope

/-- The environment variable that holds the key. -/
def keyVariable : String :=
  "WALLET_ENC_KEY"

/-- The number of bytes of a nonce. -/
def nonceLength : Nat :=
  12

/-- The envelope of a key; it must have 32 bytes. -/
def ofBytes (key : Bytes) : Except WalletError Envelope :=
  if h : key.length = 32 then .ok ⟨key, h⟩
  else .error (.config (.envelopeKeyLength key.length))

/-- Reads the key from Base64 text, white space around it apart. -/
def ofBase64 (text : String) : Except WalletError Envelope :=
  match Base64.decode? (Text.trim text) with
  | some key => ofBytes key
  | none => .error (.config .envelopeKeyText)

/-- Reads the key from the value of the environment variable. -/
def ofVariable : Option String → Except WalletError Envelope
  | some text => ofBase64 text
  | none => .error (.config (.unset keyVariable))

/-- The blob of a plaintext under a nonce. -/
def sealWith (e : Envelope) (nonce plaintext : Bytes) : Bytes :=
  nonce ++ Gcm.encrypt e.key nonce plaintext

/-- Seals a plaintext, which must not be too long for a nonce. -/
def sealBlob (e : Envelope) (nonce plaintext : Bytes) : Except WalletError Bytes :=
  if Gcm.maxLength < plaintext.length then .error (.internal "mnemonic encryption failed")
  else .ok (e.sealWith nonce plaintext)

/-- Opens a blob. -/
def openBlob (e : Envelope) (blob : Bytes) : Except WalletError Bytes :=
  if blob.length ≤ nonceLength then .error (.decryption .truncated)
  else
    match Gcm.decrypt? e.key (blob.take nonceLength) (blob.drop nonceLength) with
    | some plaintext => .ok plaintext
    | none => .error (.decryption .tagMismatch)

end Envelope

end Keyring
