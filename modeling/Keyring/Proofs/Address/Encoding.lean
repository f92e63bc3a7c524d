import Keyring.Address.Encoding
import Keyring.Proofs.Address.Evm

/-!
# Texts of other encodings are no addresses of account chains

A public key has five address texts, and only one of them can be read as the address of an
account chain (`ofText_address_eq_ok`).  The Base58 texts are too short for the 40 digits:
two bytes take up three Base58 digits at most, so 25 bytes have no more than 38.  The Bech32
text has a `q` behind its separator, which is no digit.
-/

namespace Keyring

/-! ## Base58 -/

namespace Base58

theorem digit_mem (v : Nat) : digit v ∈ alphabet := by
  unfold digit
  rw [List.getD_eq_getElem?_getD]
  cases hv : alphabet[v]? with
  | none => decide
  | some c => exact List.mem_of_getElem? hv

theorem length_digitsOf_le {k n : Nat} (h : n < 58 ^ k) : (digitsOf n).length ≤ k := by
  induction k generalizing n with
  | zero =>
      have hzero : n = 0 := by simpa using h
      rw [hzero, digitsOf, if_pos rfl]
      exact Nat.le_refl _
  | succ k ih =>
      rw [digitsOf]
      split
      · exact Nat.zero_le _
      · have hquotient : n / 58 < 58 ^ k := by
          rw [Nat.div_lt_iff_lt_mul (by omega), ← pow_succ]
          exact h
        rw [List.length_append, List.length_singleton]
        exact Nat.succ_le_succ (ih hquotient)

/-- Two bytes take up at most three digits. -/
theorem pow_256_le : ∀ m : Nat, 256 ^ m ≤ 58 ^ ((3 * m + 1) / 2)
  | 0 => Nat.le_refl _
  | 1 => by decide
  | m + 2 => by
      have hexponent : (3 * (m + 2) + 1) / 2 = (3 * m + 1) / 2 + 3 := by omega
      calc 256 ^ (m + 2) = 256 ^ m * 256 ^ 2 := pow_add _ _ _
        _ ≤ 58 ^ ((3 * m + 1) / 2) * 58 ^ 3 := Nat.mul_le_mul (pow_256_le m) (by decide)
        _ = 58 ^ ((3 * (m + 2) + 1) / 2) := by rw [hexponent, pow_add]

theorem leading_le_length (b : Bytes) : leading 0 b ≤ b.length :=
  (List.takeWhile_prefix _).length_le

/-- Leading zeros do not count for the number of a byte string. -/
theorem toNat_lt_pow_leading (b : Bytes) : Bytes.toNat b < 256 ^ (b.length - leading 0 b) := by
  induction b with
  | nil => simp
  | cons x b ih =>
      by_cases hx : x = 0
      · have hleading : leading 0 (x :: b) = leading 0 b + 1 := by simp [leading, hx]
        rw [hleading, List.length_cons, Nat.add_sub_add_right, hx, Bytes.toNat_cons]
        simpa using ih
      · have hleading : leading 0 (x :: b) = 0 := by simp [leading, hx]
        rw [hleading, Nat.sub_zero]
        exact Bytes.toNat_lt _

theorem length_encode_le (b : Bytes) : (encode b).toList.length ≤ (3 * b.length + 1) / 2 := by
  have hdigits := length_digitsOf_le
    (Nat.lt_of_lt_of_le (toNat_lt_pow_leading b) (pow_256_le _))
  have hleading := leading_le_length b
  rw [encode, String.toList_ofList, List.length_map, List.length_append, List.length_replicate]
  omega

theorem mem_alphabet_of_mem_encode {b : Bytes} {c : Char} (h : c ∈ (encode b).toList) :
    c ∈ alphabet := by
  rw [encode, String.toList_ofList] at h
  obtain ⟨v, -, rfl⟩ := List.mem_map.mp h
  exact digit_mem v

theorem toNat_lt_of_mem_alphabet {c : Char} (h : c ∈ alphabet) : c.toNat < 128 := by
  have hall : alphabet.all (fun c => c.toNat < 128) = true := by rfl
  exact of_decide_eq_true (List.all_eq_true.mp hall c h)

theorem zero_not_mem_alphabet : '0' ∉ alphabet := by
  decide

/-- The Base58Check text of 21 bytes is shorter than any other address. -/
theorem length_encodeCheck_le {payload : Bytes} (h : payload.length = 21) :
    (encodeCheck payload).toList.length ≤ 38 := by
  have hchecksum : (payload ++ checksum payload).length = 25 := by
    rw [List.length_append, checksum, List.length_take, length_doubleSha256, h]
    rfl
  have hbound := length_encode_le (payload ++ checksum payload)
  rwa [hchecksum] at hbound

/-- The Base58Check text of 21 bytes is no address of an account chain. -/
theorem ofText_encodeCheck_ne_ok {payload : Bytes} (hpayload : payload.length = 21)
    (a : EvmAddress) : EvmAddress.ofText (encodeCheck payload) ≠ .ok a := by
  intro h
  obtain ⟨b, hdecode, hb⟩ := EvmAddress.ofText_eq_ok h
  have hascii : ∀ c ∈ (encodeCheck payload).toList, c.toNat < 128 :=
    fun _ hc => toNat_lt_of_mem_alphabet (mem_alphabet_of_mem_encode hc)
  have hstrip : EvmAddress.stripPrefix (encodeCheck payload) = (encodeCheck payload).toList := by
    cases hcs : (encodeCheck payload).toList with
    | nil => rw [EvmAddress.stripPrefix, hcs]
    | cons c cs =>
        have hc : c ≠ '0' := by
          rintro rfl
          exact zero_not_mem_alphabet
            (mem_alphabet_of_mem_encode (hcs ▸ List.mem_cons_self))
        rw [EvmAddress.stripPrefix_of_ne_zero hcs hc, hcs]
  have hlength := Hex.length_of_decodeBytes_eq_ok hdecode
  rw [hstrip, Bytes.ofChars_of_ascii hascii, List.length_map, hb] at hlength
  have hbound := length_encodeCheck_le hpayload
  omega

end Base58

/-! ## Bech32 -/

/-- A witness address is no address of an account chain. -/
theorem Bech32.ofText_encodeWitnessV0_ne_ok (network : Network) (program : Bytes)
    (a : EvmAddress) :
    EvmAddress.ofText (encodeWitnessV0 network.witnessPrefix program) ≠ .ok a := by
  intro h
  obtain ⟨b, hdecode, -⟩ := EvmAddress.ofText_eq_ok h
  obtain ⟨c, cs, ds, hcs, hc⟩ : ∃ c cs ds, (encodeWitnessV0 network.witnessPrefix program).toList =
      c :: cs ++ 'q' :: ds ∧ c ≠ '0' := by
    cases network with
    | mainnet => exact ⟨'b', ['c', '1'], _, by simp [encodeWitnessV0, encode]; rfl, by decide⟩
    | testnet => exact ⟨'t', ['b', '1'], _, by simp [encodeWitnessV0, encode]; rfl, by decide⟩
  rw [EvmAddress.stripPrefix_of_ne_zero hcs hc, hcs] at hdecode
  have hq : (0x71 : UInt8) ∈ Bytes.ofChars (c :: cs ++ 'q' :: ds) := by
    rw [Bytes.ofChars_append, Bytes.ofChars_cons]
    exact List.mem_append_right _ List.mem_cons_self
  exact Hex.value?_ne_none_of_decodeBytes_eq_ok hdecode hq (by decide)

/-! ## Address texts -/

/-- Only the address of an account chain reads as one, and it reads as itself. -/
theorem ofText_address_eq_ok {key : Secp256k1.Point} {encoding : AddressEncoding}
    {network : Network} {a : EvmAddress}
    (h : EvmAddress.ofText (key.address encoding network) = .ok a) :
    encoding = .evm ∧ a = EvmAddress.ofPublicKey key := by
  cases encoding with
  | evm =>
      rw [Secp256k1.Point.address, EvmAddress.ofText_checksumText] at h
      cases h
      exact ⟨rfl, rfl⟩
  | tron =>
      refine absurd h (Base58.ofText_encodeCheck_ne_ok ?_ a)
      rw [List.length_cons, EvmAddress.length_toBytes]
  | p2pkh =>
      refine absurd h (Base58.ofText_encodeCheck_ne_ok ?_ a)
      rw [List.length_cons, length_hash160]
  | p2wpkh => exact absurd h (Bech32.ofText_encodeWitnessV0_ne_ok network _ a)
  | p2shP2wpkh =>
      refine absurd h (Base58.ofText_encodeCheck_ne_ok ?_ a)
      rw [List.length_cons, length_hash160]

end Keyring
