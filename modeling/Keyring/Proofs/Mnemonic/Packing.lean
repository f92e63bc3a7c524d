import Keyring.Mnemonic.Basic
import Keyring.Proofs.Bytes

/-!
# Entropy in positions

The entropy of a phrase comes in groups of four bytes, from four groups up to eight.  A group is
three positions less one bit: 32 bits of entropy, and a check bit that makes 33 of them.  So the
positions of `groups` groups spell the number of the entropy with `groups` check bits behind it
(`pack_ofEntropy`), and the entropy is what is left of it without them (`entropyOf_ofEntropy`).

Nothing else has right check bits: positions for which they are right are the ones of their entropy
(`ofEntropy_entropyOf`).
-/

namespace Keyring.Mnemonic

variable {positions : List Nat} {entropy : Bytes} {groups : Nat}

/-! ## Numbers in base 2048 -/

theorem pack_cons (i : Nat) (positions : List Nat) :
    pack (i :: positions) = i * 2048 ^ positions.length + pack positions := by
  suffices h : ∀ n : Nat, positions.foldl (fun n i => n * 2048 + i) n =
      n * 2048 ^ positions.length + pack positions by
    rw [pack, List.foldl_cons, h, Nat.zero_mul, Nat.zero_add]
  induction positions with
  | nil => simp [pack]
  | cons i positions ih =>
      intro n
      rw [pack, List.foldl_cons, List.foldl_cons, ih, ih (0 * 2048 + i), List.length_cons]
      ring

theorem length_unpack (count n : Nat) : (unpack count n).length = count := by
  induction count with
  | zero => rfl
  | succ count ih => rw [unpack, List.length_cons, ih]

theorem lt_of_mem_unpack {count n i : Nat} (h : i ∈ unpack count n) : i < 2048 := by
  induction count with
  | zero => cases h
  | succ count ih =>
      rcases List.mem_cons.mp h with rfl | h
      · exact Nat.mod_lt _ (by omega)
      · exact ih h

theorem pack_unpack (count n : Nat) : pack (unpack count n) = n % 2048 ^ count := by
  induction count with
  | zero => simp [unpack, pack, Nat.mod_one]
  | succ count ih =>
      have hshift : n >>> (11 * count) = n / 2048 ^ count := by
        rw [Nat.shiftRight_eq_div_pow, Nat.pow_mul]
      rw [unpack, pack_cons, length_unpack, ih, hshift, Nat.mod_pow_succ, Nat.add_comm,
        Nat.mul_comm]

theorem pack_lt (h : ∀ i ∈ positions, i < 2048) : pack positions < 2048 ^ positions.length := by
  induction positions with
  | nil => simp [pack]
  | cons i positions ih =>
      obtain ⟨hi, hpositions⟩ := List.forall_mem_cons.mp h
      calc pack (i :: positions) = i * 2048 ^ positions.length + pack positions := pack_cons _ _
        _ < (i + 1) * 2048 ^ positions.length := by
            rw [Nat.succ_mul]
            exact Nat.add_lt_add_left (ih hpositions) _
        _ ≤ 2048 * 2048 ^ positions.length := Nat.mul_le_mul_right _ hi
        _ = 2048 ^ (i :: positions).length := by rw [List.length_cons, pow_succ, Nat.mul_comm]

/-- Positions are the digits of their number. -/
theorem unpack_pack (h : ∀ i ∈ positions, i < 2048) :
    unpack positions.length (pack positions) = positions := by
  suffices hdigits : ∀ n, n % 2048 ^ positions.length = pack positions →
      unpack positions.length n = positions from hdigits _ (Nat.mod_eq_of_lt (pack_lt h))
  induction positions with
  | nil => exact fun _ _ => rfl
  | cons i positions ih =>
      obtain ⟨hi, hpositions⟩ := List.forall_mem_cons.mp h
      intro n hn
      have hrest := pack_lt hpositions
      have hpos : 0 < 2048 ^ positions.length := Nat.pow_pos (by omega)
      have hshift : n >>> (11 * positions.length) = n / 2048 ^ positions.length := by
        rw [Nat.shiftRight_eq_div_pow, Nat.pow_mul]
      rw [List.length_cons, pack_cons, Nat.mod_pow_succ] at hn
      -- The first position is the quotient, the ones behind it are the remainder.
      have hhead : n / 2048 ^ positions.length % 2048 = i := by
        have hdiv := congrArg (· / 2048 ^ positions.length) hn
        simpa only [Nat.add_mul_div_left _ _ hpos, Nat.add_comm (_ * _),
          Nat.add_mul_div_right _ _ hpos, Nat.div_eq_of_lt (Nat.mod_lt n hpos),
          Nat.div_eq_of_lt hrest, Nat.zero_add] using hdiv
      have htail : n % 2048 ^ positions.length = pack positions := by
        rw [hhead, Nat.mul_comm, Nat.add_comm] at hn
        exact Nat.add_left_cancel hn
      rw [List.length_cons, unpack, hshift, hhead, ih hpositions n htail]

/-! ## Check bits -/

theorem checkBits_lt (entropy : Bytes) {bits : Nat} (h : bits ≤ 8) :
    checkBits entropy bits < 2 ^ bits := by
  have hbyte := ((sha256 entropy).headD 0).toNat_lt
  rw [checkBits, Nat.shiftRight_eq_div_pow, Nat.div_lt_iff_lt_mul (Nat.two_pow_pos _), ← pow_add,
    Nat.add_sub_cancel' h]
  exact hbyte

/-- The number of some entropy with check bits behind it. -/
def checked (entropy : Bytes) (groups : Nat) : Nat :=
  Bytes.toNat entropy * 2 ^ groups + checkBits entropy groups

theorem checked_div (entropy : Bytes) (h : groups ≤ 8) :
    checked entropy groups / 2 ^ groups = Bytes.toNat entropy := by
  rw [checked, Nat.add_comm, Nat.add_mul_div_right _ _ (Nat.two_pow_pos _),
    Nat.div_eq_of_lt (checkBits_lt entropy h), Nat.zero_add]

theorem checked_mod (entropy : Bytes) (h : groups ≤ 8) :
    checked entropy groups % 2 ^ groups = checkBits entropy groups := by
  rw [checked, Nat.add_comm, Nat.add_mul_mod_self_right, Nat.mod_eq_of_lt (checkBits_lt entropy h)]

/-- Eleven bits of three positions are the bits of four bytes and a check bit. -/
theorem pow_groups (groups : Nat) : 2048 ^ (3 * groups) = 256 ^ (4 * groups) * 2 ^ groups := by
  rw [Nat.pow_mul, Nat.pow_mul, ← Nat.mul_pow]

theorem checked_lt (hlength : entropy.length = 4 * groups) (h : groups ≤ 8) :
    checked entropy groups < 2048 ^ (3 * groups) := by
  have hentropy := Bytes.toNat_lt entropy
  rw [hlength] at hentropy
  calc checked entropy groups < Bytes.toNat entropy * 2 ^ groups + 2 ^ groups :=
        Nat.add_lt_add_left (checkBits_lt entropy h) _
    _ = (Bytes.toNat entropy + 1) * 2 ^ groups := (Nat.succ_mul _ _).symm
    _ ≤ 256 ^ (4 * groups) * 2 ^ groups := Nat.mul_le_mul_right _ hentropy
    _ = 2048 ^ (3 * groups) := (pow_groups groups).symm

/-! ## From entropy to positions and back -/

theorem ofEntropy_eq (hlength : entropy.length = 4 * groups) :
    ofEntropy entropy = ⟨unpack (3 * groups) (checked entropy groups)⟩ := by
  have hgroups : entropy.length / 4 = groups := by omega
  simp only [ofEntropy, hgroups, checked, Nat.shiftLeft_eq]

theorem length_ofEntropy (hlength : entropy.length = 4 * groups) :
    (ofEntropy entropy).positions.length = 3 * groups := by
  rw [ofEntropy_eq hlength, length_unpack]

theorem lt_of_mem_ofEntropy {i : Nat} (h : i ∈ (ofEntropy entropy).positions) : i < 2048 :=
  lt_of_mem_unpack h

theorem pack_ofEntropy (hlength : entropy.length = 4 * groups) (h : groups ≤ 8) :
    pack (ofEntropy entropy).positions = checked entropy groups := by
  rw [ofEntropy_eq hlength, pack_unpack, Nat.mod_eq_of_lt (checked_lt hlength h)]

theorem entropyOf_eq (hlength : positions.length = 3 * groups) :
    entropyOf positions = Bytes.ofNat (4 * groups) (pack positions / 2 ^ groups) := by
  have hgroups : positions.length / 3 = groups := by omega
  simp only [entropyOf, hgroups, Nat.shiftRight_eq_div_pow]

theorem checksumHolds_iff (hlength : positions.length = 3 * groups) :
    checksumHolds positions = true ↔
      pack positions % 2 ^ groups = checkBits (entropyOf positions) groups := by
  have hgroups : positions.length / 3 = groups := by omega
  simp only [checksumHolds, hgroups, Nat.one_shiftLeft, beq_iff_eq]

/-- The positions of some entropy carry this entropy. -/
theorem entropyOf_ofEntropy (hlength : entropy.length = 4 * groups) (h : groups ≤ 8) :
    entropyOf (ofEntropy entropy).positions = entropy := by
  rw [entropyOf_eq (length_ofEntropy hlength), pack_ofEntropy hlength h, checked_div entropy h,
    Bytes.ofNat_toNat hlength]

theorem checksumHolds_ofEntropy (hlength : entropy.length = 4 * groups) (h : groups ≤ 8) :
    checksumHolds (ofEntropy entropy).positions = true := by
  rw [checksumHolds_iff (length_ofEntropy hlength), pack_ofEntropy hlength h,
    entropyOf_ofEntropy hlength h, checked_mod entropy h]

/-- Positions with right check bits are the positions of the entropy that they carry. -/
theorem ofEntropy_entropyOf (hlength : positions.length = 3 * groups)
    (hpositions : ∀ i ∈ positions, i < 2048) (hchecksum : checksumHolds positions = true) :
    ofEntropy (entropyOf positions) = ⟨positions⟩ := by
  have hpack := pack_lt hpositions
  rw [hlength, pow_groups] at hpack
  have hentropy : Bytes.toNat (entropyOf positions) = pack positions / 2 ^ groups := by
    rw [entropyOf_eq hlength]
    exact Bytes.toNat_ofNat_of_lt ((Nat.div_lt_iff_lt_mul (Nat.two_pow_pos _)).mpr hpack)
  have hbytes : (entropyOf positions).length = 4 * groups := by
    rw [entropyOf_eq hlength, Bytes.length_ofNat]
  have hchecked : checked (entropyOf positions) groups = pack positions := by
    rw [checked, hentropy, ← (checksumHolds_iff hlength).mp hchecksum, Nat.mul_comm]
    exact Nat.div_add_mod _ _
  rw [ofEntropy_eq hbytes, hchecked, ← hlength, unpack_pack hpositions]

end Keyring.Mnemonic
