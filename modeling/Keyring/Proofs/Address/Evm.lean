import Keyring.Address.Evm
import Keyring.Proofs.Bytes
import Keyring.Proofs.Hex

/-!
# Addresses of account chains, read back

An address is its 20 bytes, and its text is the hexadecimal text of these.  The checksum is in
the case of the letters, which reading does not look at (`charValue?_toUpper_digit`), so the
text with its checksum is read back to the address (`ofText_checksumText`).
-/

namespace Keyring.EvmAddress

/-! ## Bytes -/

@[simp] theorem length_toBytes (a : EvmAddress) : a.toBytes.length = 20 :=
  Bytes.length_ofNat _ _

@[simp] theorem ofBytes_toBytes (a : EvmAddress) : ofBytes a.toBytes = a := by
  have hlt : a.toNat < 256 ^ 20 := a.isLt
  rw [ofBytes, toBytes, Bytes.toNat_ofNat_of_lt hlt, BitVec.ofNat_toNat, BitVec.setWidth_eq]

theorem toBytes_ofBytes {b : Bytes} (h : b.length = 20) : (ofBytes b).toBytes = b := by
  have hlt : Bytes.toNat b < 2 ^ 160 := by
    have hlt := Bytes.toNat_lt b
    rwa [h] at hlt
  rw [toBytes, ofBytes, BitVec.toNat_ofNat, Nat.mod_eq_of_lt hlt, Bytes.ofNat_toNat h]

@[simp] theorem toBytes_inj {a b : EvmAddress} : a.toBytes = b.toBytes ↔ a = b := by
  refine ⟨fun h => ?_, congrArg toBytes⟩
  rw [← ofBytes_toBytes a, h, ofBytes_toBytes]

/-! ## Texts -/

theorem charValue?_toUpper_digit :
    ∀ n < 16, Hex.charValue? (Hex.digit n).toUpper = some n := by
  decide

/-- Raising letters does not change what they spell, as long as there is a mark for each. -/
theorem map_charValue?_raise : ∀ {values : List Nat} {marks : List Char},
    (∀ n ∈ values, n < 16) → values.length ≤ marks.length →
      (raise (values.map Hex.digit) marks).map Hex.charValue? = values.map some
  | [], _, _, _ => rfl
  | _ :: _, [], _, hmarks => absurd hmarks (by simp)
  | n :: values, mark :: marks, hvalues, hmarks => by
      obtain ⟨hn, hrest⟩ := List.forall_mem_cons.mp hvalues
      have ih := map_charValue?_raise hrest (Nat.le_of_succ_le_succ hmarks : _ ≤ marks.length)
      have hchar : Hex.charValue? (if '8' ≤ mark then (Hex.digit n).toUpper else Hex.digit n) =
          some n := by
        split
        · exact charValue?_toUpper_digit n hn
        · exact Hex.charValue?_digit n hn
      rw [raise] at ih ⊢
      rw [List.map_cons, List.zipWith_cons_cons, List.map_cons, List.map_cons, hchar, ih]

/-- The text of an address with its checksum is read back. -/
theorem ofText_checksumText (a : EvmAddress) : ofText a.checksumText = .ok a := by
  have hmarks : (Hex.nibbles a.toBytes).length ≤
      (Hex.digits (keccak256 (Bytes.ofString (Hex.encode a.toBytes)))).length := by
    rw [Hex.digits_eq, List.length_map, Hex.length_nibbles, Hex.length_nibbles, length_toBytes,
      length_keccak256]
    omega
  have hraise := map_charValue?_raise (fun _ => Hex.lt_of_mem_nibbles) hmarks
  rw [← Hex.digits_eq] at hraise
  have hstrip : stripPrefix a.checksumText =
      raise (Hex.digits a.toBytes)
        (Hex.digits (keccak256 (Bytes.ofString (Hex.encode a.toBytes)))) := by
    simp only [stripPrefix, checksumText, String.toList_append, String.toList_ofList, Hex.encode]
    rfl
  rw [ofText, hstrip, Hex.decode_ofList hraise]
  simp only [length_toBytes, if_true, ofBytes_toBytes]

/-- A text is read as the address that its bytes spell, if there are 20 of them. -/
theorem ofText_eq_ok_iff_bytes {s : String} {a : EvmAddress} : ofText s = .ok a ↔
    ∃ b, Hex.decode (String.ofList (stripPrefix s)) = .ok b ∧ b.length = 20 ∧ a = ofBytes b := by
  unfold ofText
  cases Hex.decode (String.ofList (stripPrefix s)) with
  | error fault => simp
  | ok b => by_cases hlength : b.length = 20 <;> simp [hlength, eq_comm]

/-- A text is read only if it has two digits for each byte. -/
theorem ofText_eq_ok {s : String} {a : EvmAddress} (h : ofText s = .ok a) :
    ∃ b : Bytes, Hex.decodeBytes (Bytes.ofChars (stripPrefix s)) = .ok b ∧ b.length = 20 := by
  obtain ⟨b, hdecode, hlength, -⟩ := ofText_eq_ok_iff_bytes.mp h
  rw [Hex.decode, Bytes.ofString_ofList] at hdecode
  exact ⟨b, hdecode, hlength⟩

theorem stripPrefix_of_ne_zero {s : String} {c : Char} {cs : List Char}
    (h : s.toList = c :: cs) (hc : c ≠ '0') : stripPrefix s = s.toList := by
  rw [stripPrefix, h]
  split
  · next heq => exact absurd (List.cons.inj heq).1 hc
  · next heq => exact absurd (List.cons.inj heq).1 hc
  · rfl

end Keyring.EvmAddress
