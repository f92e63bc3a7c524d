import Mathlib.Data.Nat.Digits.Lemmas
import Mathlib.Data.Set.Function
import Keyring.Encoding.Base58
import Keyring.Proofs.Bytes
import Keyring.Proofs.Outcome

/-!
# Base58 texts and the byte strings they spell

A byte string and a Base58 text are both a number behind leading zeros, the one in base 256
and the other in base 58.  In either base a list of digits is nothing but its leading zeros and
the digits of its number (`padded_leading`), so changing the base loses nothing in either
direction: a text spells a byte string exactly if it is the text of it (`decode?_eq_some_iff`),
and no two texts spell the same.  A checksum at the end does not change this
(`decodeCheck?_eq_some_iff`): payloads and the texts that are read as payloads are in bijection
(`payloads_match_texts`).
-/

namespace Keyring.Base58

/-! ## Numbers behind leading zeros -/

/-- Zeros, and behind them the digits of a number, most significant first. -/
def padded (base zeros n : Nat) : List Nat :=
  List.replicate zeros 0 ++ (Nat.digits base n).reverse

theorem foldl_eq_ofDigits (base : Nat) (l : List Nat) :
    l.foldl (fun n v => n * base + v) 0 = Nat.ofDigits base l.reverse := by
  rw [Nat.ofDigits_eq_foldr, List.foldr_reverse]
  refine List.foldl_ext _ _ _ fun n v _ => ?_
  rw [Nat.cast_id, Nat.mul_comm, Nat.add_comm]

theorem leading_cons_of_ne {α : Type} [DecidableEq α] {a x : α} (h : x ≠ a) (l : List α) :
    leading a (x :: l) = 0 := by
  simp [leading, h]

theorem leading_cons_self {α : Type} [DecidableEq α] (a : α) (l : List α) :
    leading a (a :: l) = leading a l + 1 := by
  simp [leading]

theorem leading_replicate_append {α : Type} [DecidableEq α] (a : α) (k : Nat) (l : List α) :
    leading a (List.replicate k a ++ l) = k + leading a l := by
  induction k with
  | zero => simp
  | succ k ih =>
      rw [List.replicate_succ, List.cons_append, leading_cons_self, ih]
      omega

theorem leading_reverse_digits (base n : Nat) : leading 0 (Nat.digits base n).reverse = 0 := by
  rcases Nat.eq_zero_or_pos n with rfl | hpos
  · simp [leading]
  · have hne : Nat.digits base n ≠ [] := Nat.digits_ne_nil_iff_ne_zero.mpr (by omega)
    have htop := Nat.getLast_digit_ne_zero base (show n ≠ 0 by omega)
    rw [← List.dropLast_append_getLast hne, List.reverse_append, List.reverse_singleton,
      List.singleton_append]
    exact leading_cons_of_ne htop _

/-- The zeros of a list of digits can be counted. -/
theorem leading_padded (base zeros n : Nat) : leading 0 (padded base zeros n) = zeros := by
  rw [padded, leading_replicate_append, leading_reverse_digits, Nat.add_zero]

/-- Its number does not depend on its zeros. -/
theorem ofDigits_padded (base zeros n : Nat) :
    Nat.ofDigits base (padded base zeros n).reverse = n := by
  rw [padded, List.reverse_append, List.reverse_reverse, List.reverse_replicate,
    Nat.ofDigits_append_replicate_zero, Nat.ofDigits_digits]

theorem lt_of_mem_padded {base zeros n d : Nat} (hbase : 1 < base)
    (h : d ∈ padded base zeros n) : d < base := by
  rcases List.mem_append.mp h with hzero | hdigit
  · rw [List.eq_of_mem_replicate hzero]
    omega
  · exact Nat.digits_lt_base hbase (List.mem_reverse.mp hdigit)

/-- A list of digits is its zeros and the digits of its number. -/
theorem padded_leading {base : Nat} (hbase : 1 < base) {l : List Nat}
    (h : ∀ d ∈ l, d < base) : padded base (leading 0 l) (Nat.ofDigits base l.reverse) = l := by
  induction l with
  | nil => simp [padded, leading]
  | cons d l ih =>
      obtain ⟨-, hrest⟩ := List.forall_mem_cons.mp h
      by_cases hd : d = 0
      · subst hd
        rw [leading_cons_self, Nat.ofDigits_reverse_zero_cons, padded, List.replicate_succ,
          List.cons_append]
        exact congrArg (0 :: ·) (ih hrest)
      · -- A first digit that is no zero is the top digit of the number.
        have hdigits : Nat.digits base (Nat.ofDigits base (d :: l).reverse) = (d :: l).reverse := by
          refine Nat.digits_ofDigits base hbase _ (fun v hv => h v (List.mem_reverse.mp hv)) ?_
          intro hne
          rw [List.getLast_reverse]
          exact hd
        rw [leading_cons_of_ne hd, padded, hdigits, List.reverse_reverse]
        rfl

/-! ## Digits and bytes -/

theorem digitsOf_eq (n : Nat) : digitsOf n = (Nat.digits 58 n).reverse := by
  induction n using Nat.strongRecOn with
  | ind n ih =>
      rw [digitsOf]
      split
      · next hzero => simp [hzero]
      · next hpos =>
          rw [ih (n / 58) (by omega), Nat.digits_eq_cons_digits_div (by omega) hpos,
            List.reverse_cons]

theorem map_toNat_minimal (n : Nat) :
    (Bytes.minimal n).map UInt8.toNat = (Nat.digits 256 n).reverse := by
  induction n using Nat.strongRecOn with
  | ind n ih =>
      rcases Nat.eq_zero_or_pos n with rfl | hpos
      · simp
      · rw [Bytes.minimal_of_pos hpos, List.map_append, ih (n / 256) (by omega),
          Nat.digits_eq_cons_digits_div (by omega) (show n ≠ 0 by omega), List.reverse_cons,
          List.map_singleton, UInt8.toNat_ofNat']

theorem toNat_eq_ofDigits (b : Bytes) :
    Bytes.toNat b = Nat.ofDigits 256 (b.map UInt8.toNat).reverse := by
  rw [← foldl_eq_ofDigits, List.foldl_map]
  rfl

theorem leading_map_toNat (b : Bytes) : leading 0 (b.map UInt8.toNat) = leading 0 b := by
  induction b with
  | nil => rfl
  | cons x b ih =>
      by_cases hx : x = 0
      · rw [hx, List.map_cons, leading_cons_self, ← ih]
        exact leading_cons_self 0 _
      · have hvalue : x.toNat ≠ 0 := fun h => hx (UInt8.toNat_inj.mp h)
        rw [List.map_cons, leading_cons_of_ne hvalue, leading_cons_of_ne hx]

/-- The bytes of a list of digits of the other base. -/
theorem map_toNat_zeros_append_minimal (zeros n : Nat) :
    (List.replicate zeros 0 ++ Bytes.minimal n).map UInt8.toNat = padded 256 zeros n := by
  rw [List.map_append, List.map_replicate, map_toNat_minimal]
  rfl

/-- A byte string is its zeros and the bytes of its number. -/
theorem zeros_append_minimal (b : Bytes) :
    List.replicate (leading 0 b) 0 ++ Bytes.minimal (Bytes.toNat b) = b := by
  have hinjective : Function.Injective UInt8.toNat := fun x y h => UInt8.toNat_inj.mp h
  have hbytes : ∀ d ∈ b.map UInt8.toNat, d < 256 := by
    intro d hd
    obtain ⟨x, -, rfl⟩ := List.mem_map.mp hd
    exact x.toNat_lt
  refine List.map_injective_iff.mpr hinjective ?_
  rw [map_toNat_zeros_append_minimal, toNat_eq_ofDigits, ← leading_map_toNat]
  exact padded_leading (by omega) hbytes

/-! ## Characters -/

theorem value?_digit : ∀ v < 58, value? (digit v) = some v := by
  decide

theorem digit_of_value?_eq_some {c : Char} {v : Nat} (h : value? c = some v) :
    v < 58 ∧ digit v = c := by
  have hlength : alphabet.length = 58 := by decide
  rw [value?, List.idxOf?_eq_some_iff] at h
  obtain ⟨hlt, hchar, -⟩ := h
  refine ⟨hlength ▸ hlt, ?_⟩
  rw [digit, List.getD_eq_getElem?_getD, List.getElem?_eq_getElem hlt, hchar, Option.getD_some]

/-- A list of characters is read as digits exactly if it is how these are written. -/
theorem mapM_value?_eq_some_iff {cs : List Char} {values : List Nat} :
    cs.mapM value? = some values ↔ cs = values.map digit ∧ ∀ v ∈ values, v < 58 := by
  rw [mapM_eq_some_iff]
  constructor
  · intro h
    induction h with
    | nil => simp
    | cons hc _ ih =>
        obtain ⟨hlt, hdigit⟩ := digit_of_value?_eq_some hc
        refine ⟨?_, List.forall_mem_cons.mpr ⟨hlt, ih.2⟩⟩
        rw [List.map_cons, hdigit, ← ih.1]
  · rintro ⟨rfl, hvalues⟩
    rw [List.forall₂_map_left_iff, List.forall₂_same]
    exact fun v hv => value?_digit v (hvalues v hv)

theorem toList_encode (b : Bytes) :
    (encode b).toList = (padded 58 (leading 0 b) (Bytes.toNat b)).map digit := by
  rw [encode, String.toList_ofList, digitsOf_eq, padded]

theorem decode?_eq_some_iff_digits {s : String} {b : Bytes} :
    decode? s = some b ↔ ∃ values, s.toList = values.map digit ∧ (∀ v ∈ values, v < 58) ∧
      b = List.replicate (leading 0 values) 0
        ++ Bytes.minimal (Nat.ofDigits 58 values.reverse) := by
  simp only [decode?, Option.bind_eq_bind, Option.bind_eq_some_iff, mapM_value?_eq_some_iff,
    foldl_eq_ofDigits, Option.pure_def, Option.some.injEq, and_assoc, eq_comm (b := b)]

/-! ## Texts -/

/-- A text spells a byte string exactly if it is the text of it. -/
theorem decode?_eq_some_iff {s : String} {b : Bytes} : decode? s = some b ↔ s = encode b := by
  rw [decode?_eq_some_iff_digits]
  constructor
  · rintro ⟨values, hs, hvalues, rfl⟩
    -- Zeros and number go through the change of the base as they are.
    have hbytes := map_toNat_zeros_append_minimal (leading 0 values)
      (Nat.ofDigits 58 values.reverse)
    have hleading : leading 0 (List.replicate (leading 0 values) 0 ++
        Bytes.minimal (Nat.ofDigits 58 values.reverse)) = leading 0 values := by
      rw [← leading_map_toNat, hbytes, leading_padded]
    have hnumber : Bytes.toNat (List.replicate (leading 0 values) 0 ++
        Bytes.minimal (Nat.ofDigits 58 values.reverse)) = Nat.ofDigits 58 values.reverse := by
      rw [toNat_eq_ofDigits, hbytes, ofDigits_padded]
    rw [← String.toList_inj, toList_encode, hleading, hnumber,
      padded_leading (by omega) hvalues, hs]
  · rintro rfl
    refine ⟨_, toList_encode b, fun v => lt_of_mem_padded (by omega), ?_⟩
    rw [leading_padded, ofDigits_padded, zeros_append_minimal]

theorem length_checksum (payload : Bytes) : (checksum payload).length = 4 := by
  rw [checksum, List.length_take, length_doubleSha256]
  rfl

/-- A text carries a payload exactly if it is the text of it with its checksum. -/
theorem decodeCheck?_eq_some_iff {s : String} {payload : Bytes} :
    decodeCheck? s = some payload ↔ s = encodeCheck payload := by
  rw [decodeCheck?, encodeCheck, ← decode?_eq_some_iff]
  simp only [Option.bind_eq_bind, Option.bind_eq_some_iff]
  constructor
  · rintro ⟨raw, hraw, hcheck⟩
    split_ifs at hcheck with hshort hsum
    cases hcheck
    rw [hraw, hsum, List.take_append_drop]
  · intro hraw
    refine ⟨_, hraw, ?_⟩
    have hlength : (payload ++ checksum payload).length - 4 = payload.length := by
      rw [List.length_append, length_checksum, Nat.add_sub_cancel]
    have hlong : ¬ (payload ++ checksum payload).length < 4 := by
      rw [List.length_append, length_checksum]
      omega
    rw [if_neg hlong, hlength, List.take_left, List.drop_left, if_pos rfl]

/-! ## Main statement -/

/-- **Payloads are in bijection with the texts that are read.**  Every payload, of any length and
with any number of zero bytes in front, is read back from its text; a text that is read is the
text of what is read from it; so two texts from which the same payload is read are one. -/
theorem payloads_match_texts :
    Set.BijOn encodeCheck Set.univ {s | ∃ payload, decodeCheck? s = some payload} ∧
    (∀ payload, decodeCheck? (encodeCheck payload) = some payload) ∧
    (∀ s payload, decodeCheck? s = some payload → encodeCheck payload = s) ∧
    (∀ s t payload, decodeCheck? s = some payload → decodeCheck? t = some payload → s = t) := by
  have hread : ∀ payload, decodeCheck? (encodeCheck payload) = some payload :=
    fun payload => decodeCheck?_eq_some_iff.mpr rfl
  have hwritten : ∀ s payload, decodeCheck? s = some payload → encodeCheck payload = s :=
    fun s payload h => (decodeCheck?_eq_some_iff.mp h).symm
  refine ⟨⟨?_, ?_, ?_⟩, hread, hwritten, ?_⟩
  · intro payload _
    exact ⟨payload, hread payload⟩
  · intro p _ q _ htext
    rw [← Option.some.injEq, ← hread p, htext, hread q]
  · rintro s ⟨payload, h⟩
    exact ⟨payload, Set.mem_univ payload, hwritten s payload h⟩
  · intro s t payload hs ht
    rw [← hwritten s payload hs, hwritten t payload ht]

end Keyring.Base58
