import Keyring.Cipher.Gcm
import Keyring.Proofs.Cipher.Aes

/-!
# Decryption and encryption

A text is encrypted by a key stream that depends on the key, on the nonce and on the length of the
text, but not on the text.  The stream is never shorter than the text, since it consists of whole
blocks, so encrypting twice gives the text back (`crypt_crypt`), also where the last block is not
full.

Behind a ciphertext there is only one tag that is accepted.  So a text can be decrypted exactly if
it is what some plaintext is encrypted to, and then this is the plaintext it is decrypted to
(`decrypt?_eq_some_iff`).
-/

namespace Keyring

/-- What is combined twice with the same bytes, of which there are enough, is as before. -/
theorem Bytes.xor_xor_cancel {text stream : Bytes} (h : text.length ≤ stream.length) :
    Bytes.xor (Bytes.xor text stream) stream = text := by
  induction text generalizing stream with
  | nil => rfl
  | cons x text ih =>
      cases stream with
      | nil => cases h
      | cons y stream =>
          have hrest : Bytes.xor (Bytes.xor text stream) stream = text :=
            ih (Nat.le_of_succ_le_succ h)
          have hbyte : x ^^^ y ^^^ y = x := by
            rw [UInt8.xor_assoc, UInt8.xor_self, UInt8.xor_zero]
          rw [Bytes.xor, Bytes.xor] at hrest ⊢
          rw [List.zipWith_cons_cons, List.zipWith_cons_cons, hbyte, hrest]

namespace Gcm

variable {key nonce plaintext text : Bytes}

/-! ## The key stream -/

theorem length_counterBlock (hnonce : nonce.length = 12) (i : Nat) :
    (counterBlock nonce i).length = 16 := by
  rw [counterBlock, List.length_append, hnonce, Bytes.length_ofNat]

theorem length_keyStream {keys : List Bytes} (hkeys : ∀ key ∈ keys, key.length = 16)
    (hnonce : nonce.length = 12) (count i : Nat) :
    (keyStream keys nonce count i).length = 16 * count := by
  induction count generalizing i with
  | zero => rfl
  | succ count ih =>
      rw [keyStream, List.length_append, ih,
        Aes.length_encryptBlock hkeys (length_counterBlock hnonce i)]
      omega

/-- There is enough of the key stream for a text. -/
theorem length_le_keyStream (hkey : key.length = 32) (hnonce : nonce.length = 12) (length : Nat) :
    length ≤ (keyStream (Aes.roundKeys key) nonce ((length + 15) / 16) 2).length := by
  rw [length_keyStream (fun _ => Aes.length_of_mem_roundKeys hkey) hnonce]
  omega

theorem length_crypt (hkey : key.length = 32) (hnonce : nonce.length = 12) (text : Bytes) :
    (crypt key nonce text).length = text.length := by
  rw [crypt, Bytes.length_xor]
  exact Nat.min_eq_left (length_le_keyStream hkey hnonce text.length)

/-- Encrypting twice gives the text back. -/
theorem crypt_crypt (hkey : key.length = 32) (hnonce : nonce.length = 12) (text : Bytes) :
    crypt key nonce (crypt key nonce text) = text := by
  -- Both texts have the same length, so the key stream is the same.
  rw [crypt, length_crypt hkey hnonce, crypt]
  exact Bytes.xor_xor_cancel (length_le_keyStream hkey hnonce text.length)

/-! ## Tags -/

theorem length_tag (hkey : key.length = 32) (hnonce : nonce.length = 12) (ciphertext : Bytes) :
    (tag key nonce ciphertext).length = 16 := by
  have hmask := Aes.length_encryptBlock (fun _ => Aes.length_of_mem_roundKeys hkey)
    (length_counterBlock hnonce 1)
  rw [tag, Bytes.length_xor, Bytes.length_ofNat, hmask, Nat.min_self]

theorem length_encrypt (hkey : key.length = 32) (hnonce : nonce.length = 12) (plaintext : Bytes) :
    (encrypt key nonce plaintext).length = plaintext.length + 16 := by
  rw [encrypt, List.length_append, length_crypt hkey hnonce, length_tag hkey hnonce]

theorem decrypt?_eq_some_iff_tag : decrypt? key nonce text = some plaintext ↔
    16 ≤ text.length ∧ text.length ≤ maxLength + 16 ∧
      tag key nonce (text.take (text.length - 16)) = text.drop (text.length - 16) ∧
      crypt key nonce (text.take (text.length - 16)) = plaintext := by
  simp only [decrypt?, Option.ite_none_left_eq_some, Option.ite_none_right_eq_some,
    Option.some.injEq, not_or, Nat.not_lt, and_assoc]

/-- A text is decrypted to the plaintext that it is the encryption of. -/
theorem decrypt?_eq_some_iff (hkey : key.length = 32) (hnonce : nonce.length = 12) :
    decrypt? key nonce text = some plaintext ↔
      plaintext.length ≤ maxLength ∧ text = encrypt key nonce plaintext := by
  rw [decrypt?_eq_some_iff_tag]
  constructor
  · rintro ⟨hshort, hlong, htag, rfl⟩
    rw [length_crypt hkey hnonce, List.length_take, encrypt, crypt_crypt hkey hnonce, htag,
      List.take_append_drop]
    exact ⟨by omega, rfl⟩
  · rintro ⟨hlength, rfl⟩
    have hsplit : (encrypt key nonce plaintext).length - 16 =
        (crypt key nonce plaintext).length := by
      rw [length_encrypt hkey hnonce, length_crypt hkey hnonce, Nat.add_sub_cancel]
    rw [hsplit, length_encrypt hkey hnonce, encrypt, List.take_left, List.drop_left]
    exact ⟨by omega, by omega, rfl, crypt_crypt hkey hnonce plaintext⟩

end Gcm

end Keyring
