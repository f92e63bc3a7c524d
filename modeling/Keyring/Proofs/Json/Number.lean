import Keyring.Json.Reader
import Keyring.Json.Value
import Keyring.Proofs.Json.Grammar
import Keyring.Proofs.Text.Utf8

/-!
# Reading written numbers

Numbers are written as integers: a sign if they are negative, and their decimal digits without
leading zeros, which is a spelling of the number (`number_numberText`).
-/

namespace Keyring.Json

open Keyring.Bytes Grammar

/-- The decimal digits of a number as bytes. -/
def decimal (n : Nat) : Bytes :=
  (Nat.toDigits 10 n).map fun c => UInt8.ofNat c.toNat

/-- A written integer. -/
def numberText (n : Int) : NumberText :=
  ⟨decide (n < 0), decimal n.natAbs, none, none⟩

/-! ## Digits -/

theorem toNat_bounds_of_isDigit {c : Char} (h : c.isDigit = true) :
    48 ≤ c.toNat ∧ c.toNat ≤ 57 := by
  simpa [Char.isDigit, UInt32.le_iff_toNat_le] using h

theorem toNat_bounds_of_mem_toDigits {n : Nat} {c : Char} (h : c ∈ Nat.toDigits 10 n) :
    48 ≤ c.toNat ∧ c.toNat ≤ 57 :=
  toNat_bounds_of_isDigit (Nat.isDigit_of_mem_toDigits (by omega) (by omega) h)

theorem ofChars_toDigits (n : Nat) : ofChars (Nat.toDigits 10 n) = decimal n :=
  ofChars_of_ascii fun c hc => by
    have hbounds := toNat_bounds_of_mem_toDigits hc
    omega

theorem isDigit_of_mem_decimal {n : Nat} {b : UInt8} (h : b ∈ decimal n) : isDigit b = true := by
  obtain ⟨c, hc, rfl⟩ := List.mem_map.mp h
  have hbounds := toNat_bounds_of_mem_toDigits hc
  have hvalue : (UInt8.ofNat c.toNat).toNat = c.toNat := by
    rw [UInt8.toNat_ofNat']
    omega
  simp only [isDigit, Bool.and_eq_true, decide_eq_true_eq, UInt8.le_iff_toNat_le, hvalue]
  exact hbounds

theorem decimal_ne_nil (n : Nat) : decimal n ≠ [] := by
  rw [decimal, Ne, List.map_eq_nil_iff]
  exact Nat.toDigits_ne_nil

theorem digitChar_ne_zero : ∀ n < 10, 0 < n → some n.digitChar ≠ some '0' := by
  decide

/-- A number that is not zero is written without leading zeros. -/
theorem head?_toDigits_ne_zero {n : Nat} (h : 0 < n) :
    (Nat.toDigits 10 n).head? ≠ some '0' := by
  induction n using Nat.strongRecOn with
  | ind n ih =>
      by_cases hsmall : n < 10
      · rw [Nat.toDigits_of_lt_base hsmall, List.head?_cons]
        exact digitChar_ne_zero n hsmall h
      · rw [Nat.toDigits_of_base_le (by omega) (by omega),
          List.head?_append_of_ne_nil _ Nat.toDigits_ne_nil]
        exact ih (n / 10) (by omega) (by omega)

theorem head?_decimal_ne_zero {n : Nat} (h : 0 < n) : (decimal n).head? ≠ some 0x30 := by
  intro hhead
  rw [decimal, List.head?_map, Option.map_eq_some_iff] at hhead
  obtain ⟨c, hc, hbyte⟩ := hhead
  have hbounds := toNat_bounds_of_mem_toDigits (List.mem_of_mem_head? hc)
  have hvalue := congrArg UInt8.toNat hbyte
  rw [UInt8.toNat_ofNat', Nat.mod_eq_of_lt (by omega)] at hvalue
  have hzero : c = '0' := Char.toNat_inj.mp hvalue
  exact head?_toDigits_ne_zero h (hzero ▸ hc)

theorem digitsValue_decimal (n : Nat) : NumberText.digitsValue (decimal n) = n := by
  have hdigits : NumberText.digitsValue (decimal n) =
      Nat.ofDigitChars 10 (Nat.toDigits 10 n) 0 := by
    rw [NumberText.digitsValue, decimal, List.foldl_map, Nat.ofDigitChars_eq_foldl]
    refine List.foldl_ext _ _ _ fun value c hc => ?_
    have hbounds := toNat_bounds_of_mem_toDigits hc
    rw [UInt8.toNat_ofNat', Nat.mod_eq_of_lt (by omega)]
    rfl
  rw [hdigits, Nat.ofDigitChars_ten_toDigits]

/-- An integer is written as its sign and its digits. -/
theorem ofChars_toString (n : Int) :
    ofChars (toString n).toList = (if n < 0 then [0x2d] else []) ++ decimal n.natAbs := by
  cases n with
  | ofNat n =>
      have htext : (toString (Int.ofNat n)).toList = Nat.toDigits 10 n := by
        show (toString n).toList = _
        rw [Nat.toString_eq_repr, Nat.toList_repr]
      rw [htext, ofChars_toDigits]
      rfl
  | negSucc n =>
      have htext : (toString (Int.negSucc n)).toList = '-' :: Nat.toDigits 10 (n + 1) := by
        show ("-" ++ Nat.repr (n + 1)).toList = _
        rw [String.toList_append, Nat.toList_repr]
        rfl
      rw [htext, ofChars_cons_of_ascii (by decide), ofChars_toDigits,
        if_pos (Int.negSucc_lt_zero n)]
      rfl

theorem whole_decimal (n : Nat) : Whole (decimal n) := by
  refine ⟨⟨decimal_ne_nil n, fun _ => isDigit_of_mem_decimal⟩, fun hhead => ?_⟩
  rcases Nat.eq_zero_or_pos n with rfl | hpos
  · rfl
  · exact absurd hhead (head?_decimal_ne_zero hpos)

/-- A written number is spelled as it was written. -/
theorem number_numberText (n : Int) : Number (numberText n) (ofChars (toString n).toList) := by
  have hspelled : Number (numberText n) (sign (decide (n < 0)) ++ (decimal n.natAbs ++ [])) :=
    .mk (whole_decimal n.natAbs) .absent .absent
  rw [List.append_nil, sign] at hspelled
  rw [ofChars_toString]
  simpa only [decide_eq_true_eq] using hspelled

/-! ## Values -/

/-- A written natural number below a bound is read back. -/
theorem Tree.unsigned?_numberText {bound n : Nat} (h : n < bound) :
    unsigned? bound (.number (numberText n)) = some n := by
  have hnatural : (numberText n).natural? = some n := by
    simp [NumberText.natural?, numberText, NumberText.isInteger, digitsValue_decimal]
  simp only [unsigned?, hnatural, Option.bind_eq_bind, Option.bind_some, if_pos h]

theorem Tree.uint64?_numberText (n : UInt64) :
    uint64? (.number (numberText n.toNat)) = some n := by
  rw [uint64?, unsigned?_numberText n.toNat_lt, Option.map_some, UInt64.ofNat_toNat]

theorem Tree.uint32?_numberText (n : UInt32) :
    uint32? (.number (numberText n.toNat)) = some n := by
  rw [uint32?, unsigned?_numberText n.toNat_lt, Option.map_some, UInt32.ofNat_toNat]

/-! ## Ranges -/

theorem le_foldl_digits (digits : Bytes) (significand : Nat) :
    significand ≤ digits.foldl (fun n d => 10 * n + (d.toNat - 48)) significand := by
  induction digits generalizing significand with
  | nil => exact Nat.le_refl _
  | cons d digits ih =>
      have hstep := ih (10 * significand + (d.toNat - 48))
      rw [List.foldl_cons]
      omega

/-- Digits are all pushed as long as their number fits. -/
theorem pushDigits_of_lt {digits : Bytes} {significand : Nat}
    (h : digits.foldl (fun n d => 10 * n + (d.toNat - 48)) significand < UInt64.size) :
    NumberText.pushDigits significand digits =
      (digits.foldl (fun n d => 10 * n + (d.toNat - 48)) significand, []) := by
  induction digits generalizing significand with
  | nil => rfl
  | cons d digits ih =>
      rw [List.foldl_cons] at h ⊢
      have hnext := Nat.lt_of_le_of_lt (le_foldl_digits digits _) h
      rw [NumberText.pushDigits, if_pos hnext, ih h]

/-- Rounding to the bits that a floating point number has does not double a number. -/
theorem round_le (n : Nat) : Float64.round n ≤ 2 * n := by
  unfold Float64.round
  dsimp only
  split
  · omega
  · next hbits =>
      have hne : n ≠ 0 := by
        rintro rfl
        exact hbits (by decide)
      have hunit : 1 <<< (n.log2 + 1 - 53) ≤ n := by
        rw [Nat.one_shiftLeft]
        exact Nat.le_trans (Nat.pow_le_pow_right (by omega) (by omega)) (Nat.log2_self_le hne)
      -- What is rounded to is a multiple of `unit`, which is no more than the number itself.
      generalize 1 <<< (n.log2 + 1 - 53) = unit at hunit
      have hdown : n / unit * unit ≤ n := Nat.div_mul_le_self n unit
      split
      · rw [Nat.add_mul, Nat.one_mul]
        omega
      · omega

/-- A natural number of 64 bits is in range. -/
theorem inRange_numberText {n : Nat} (h : n < UInt64.size) :
    (numberText n).inRange = true := by
  have hvalue : (decimal n).foldl (fun n d => 10 * n + (d.toNat - 48)) 0 = n :=
    digitsValue_decimal n
  have hpush : NumberText.pushDigits 0 (decimal n) = (n, []) := by
    rw [pushDigits_of_lt (by rwa [hvalue]), hvalue]
  have hscaled : (numberText n).scaled = (n, 0) := by
    simp only [NumberText.scaled, numberText, Int.natAbs_natCast, hpush]
    rfl
  have hround : Float64.round n * Float64.round (Nat.pow 10 0) < Float64.overflowBound := by
    have hone : Float64.round (Nat.pow 10 0) = 1 := by decide
    have hbound : 2 * UInt64.size < Float64.overflowBound := by decide
    have hn := round_le n
    rw [hone]
    omega
  rw [NumberText.inRange, hscaled]
  show Float64.isFiniteProduct n 0 = true
  unfold Float64.isFiniteProduct
  split
  · rfl
  · simpa using hround

end Keyring.Json
