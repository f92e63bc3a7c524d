import Keyring.Evm.Request
import Keyring.Proofs.Address.Evm
import Keyring.Proofs.Json.Reading

/-!
# Hexadecimal fields of requests

Addresses, storage keys, amounts and data are written as hexadecimal texts with `0x` in front.
All but data are read by pairing their digits one by one: the digits that were written are no
white space, so pairing them gives the bytes that they are the halves of (`paired?_eq`).  An
amount of an odd number of digits is paired from its second digit on.
-/

namespace Keyring.Evm.Read

open Json

/-! ## Pairs of digits -/

/-- The bytes of pairs of halves. -/
def pairs : List Nat → Bytes
  | h :: l :: rest => UInt8.ofNat (16 * h + l) :: pairs rest
  | _ => []

theorem pairs_nibbles (b : Bytes) : pairs (Hex.nibbles b) = b := by
  induction b with
  | nil => rfl
  | cons x b ih =>
      rw [Hex.nibbles_cons, pairs, ih, Nat.div_add_mod, UInt8.ofNat_toNat]

/-- Pairs of halves spell the number that the halves spell. -/
theorem foldl_pairs : ∀ (values : List Nat) (n : Nat), (∀ d ∈ values, d < 16) →
    values.length % 2 = 0 →
      (pairs values).foldl (fun n x => n * 256 + x.toNat) n =
        values.foldl (fun n d => 16 * n + d) n
  | [], _, _, _ => rfl
  | [_], _, _, heven => absurd heven (by simp)
  | h :: l :: rest, n, hlt, heven => by
      obtain ⟨hh, hlt⟩ := List.forall_mem_cons.mp hlt
      obtain ⟨hl, hlt⟩ := List.forall_mem_cons.mp hlt
      have hrest : rest.length % 2 = 0 := by
        simp only [List.length_cons] at heven
        omega
      have hbyte : (UInt8.ofNat (16 * h + l)).toNat = 16 * h + l := by
        rw [UInt8.toNat_ofNat']
        omega
      have hstep : n * 256 + (16 * h + l) = 16 * (16 * n + h) + l := by omega
      rw [pairs, List.foldl_cons, List.foldl_cons, List.foldl_cons, hbyte, hstep]
      exact foldl_pairs rest _ hlt hrest

theorem toNat_pairs {values : List Nat} (hlt : ∀ d ∈ values, d < 16)
    (heven : values.length % 2 = 0) : Bytes.toNat (pairs values) = Hex.value values :=
  foldl_pairs values 0 hlt heven

theorem isBlank_of_value? {x : UInt8} {n : Nat} (h : Hex.value? x = some n) :
    Json.isBlank x = false := by
  refine Bool.eq_false_iff.mpr fun hblank => ?_
  rcases Grammar.eq_of_isBlank hblank with rfl | rfl | rfl | rfl <;> cases h

/-- Digits without white space between them are paired, after the one that waits. -/
theorem paired?_eq {text : Bytes} {values : List Nat} (pending : Option Nat)
    (h : text.map Hex.value? = values.map some) :
    paired? pending text = some (pairs (pending.toList ++ values)) := by
  induction text generalizing pending values with
  | nil =>
      obtain rfl : values = [] := by simpa using h.symm
      cases pending <;> rfl
  | cons x text ih =>
      cases values with
      | nil => simp at h
      | cons d values =>
          obtain ⟨hx, htext⟩ := List.cons.inj h
          rw [paired?, isBlank_of_value? hx, hx]
          cases pending with
          | none =>
              have hpaired := ih (some d) htext
              simpa using hpaired
          | some waiting =>
              have hpaired := ih none htext
              simp [hpaired, pairs]

/-! ## Texts -/

theorem ofString_hex (s : String) :
    Bytes.ofString ("0x" ++ s) = 0x30 :: 0x78 :: Bytes.ofString s := by
  rw [Bytes.ofString_eq, String.toList_append, Bytes.ofChars_append, ← Bytes.ofString_eq s]
  rfl

theorem digits?_hex (s : String) :
    digits? (Value.string ("0x" ++ s)).toTree = some (Bytes.ofString s) := by
  rw [digits?, Tree.string?_toTree, Option.map_some, digits, ofString_hex]
  rfl

theorem fixed?_hex {length : Nat} {b : Bytes} (hlength : b.length = length) :
    fixed? length (Value.string ("0x" ++ Hex.encode b)).toTree = some b := by
  have hvalues := Hex.map_value?_encode b
  have hdigits : (Bytes.ofString (Hex.encode b)).length = 2 * length := by
    have hcount := congrArg List.length hvalues
    rwa [List.length_map, List.length_map, Hex.length_nibbles, hlength] at hcount
  have hpaired := paired?_eq none hvalues
  rw [Option.toList_none, List.nil_append, pairs_nibbles] at hpaired
  simp [fixed?, digits?_hex, hdigits, hpaired, hlength]

theorem address?_lowerText (a : EvmAddress) :
    address? (Value.string a.lowerText).toTree = some a := by
  rw [address?, EvmAddress.lowerText, fixed?_hex a.length_toBytes, Option.map_some,
    EvmAddress.ofBytes_toBytes]

theorem storageKey?_data (key : Word256) :
    storageKey? (Write.data key.toBytes).toTree = some key := by
  rw [storageKey?, Write.data, fixed?_hex key.length_toBytes, Option.map_some,
    Word256.ofBytes_toBytes]

theorem data?_data (b : Bytes) : data? (Write.data b).toTree = some b := by
  have hdecode : Hex.decodeBytes (Bytes.ofString (Hex.encode b)) = .ok b := Hex.decode_encode b
  simp only [data?, Write.data, Tree.string?_toTree, Option.bind_eq_bind, Option.bind_some,
    ofString_hex, hdecode]
  rfl

theorem amount?_amount (w : Word256) : amount? (Write.amount w).toTree = some w := by
  obtain ⟨values, htext, hne, hlt, hvalue, hfew⟩ := Hex.ofNat_spec w.toNat
  have hvalues : (Bytes.ofString (Hex.ofNat w.toNat)).map Hex.value? = values.map some := by
    rw [htext]
    exact Hex.map_value?_ofChars (Hex.map_charValue?_digit hlt)
  have hlength : (Bytes.ofString (Hex.ofNat w.toNat)).length = values.length := by
    simpa using congrArg List.length hvalues
  have hshort : values.length ≤ 64 := hfew 64 (by omega) w.isLt
  have hpos : values.length ≠ 0 := fun hzero => hne (List.length_eq_zero_iff.mp hzero)
  obtain ⟨b, hpaired, hnumber⟩ : ∃ b,
      paired? (if values.length % 2 = 1 then some 0 else none)
        (Bytes.ofString (Hex.ofNat w.toNat)) = some b ∧ Bytes.toNat b = w.toNat := by
    refine ⟨_, paired?_eq _ hvalues, ?_⟩
    rw [← hvalue]
    split
    · -- A zero in front makes the number of digits even and adds nothing.
      next hodd =>
        have hpadded : Bytes.toNat (pairs (0 :: values)) = Hex.value (0 :: values) := by
          refine toNat_pairs (List.forall_mem_cons.mpr ⟨by omega, hlt⟩) ?_
          rw [List.length_cons]
          omega
        exact hpadded
    · next heven =>
        have heven' : values.length % 2 = 0 := by omega
        exact toNat_pairs hlt heven'
  have hword : Word256.ofBytes b = w := by
    rw [Word256.ofBytes, hnumber, BitVec.ofNat_toNat, BitVec.setWidth_eq]
  have hempty : (Bytes.ofString (Hex.ofNat w.toNat)).isEmpty = false := by
    rw [List.isEmpty_eq_false_iff, ← List.length_pos_iff, hlength]
    omega
  have hfits : ¬ 64 < values.length := by omega
  simp only [amount?, Write.amount, digits?_hex, hempty, hlength, hfits, hpaired, hword,
    Option.bind_eq_bind, Option.bind_some]
  rfl

end Keyring.Evm.Read
