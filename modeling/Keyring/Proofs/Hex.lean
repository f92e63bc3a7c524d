import Mathlib.Algebra.Order.Ring.Nat
import Keyring.Hex
import Keyring.Proofs.Outcome
import Keyring.Proofs.Text.Utf8

/-!
# Reading hexadecimal texts

A text is read by the values of its bytes: it is the text of `b` exactly if these are the two
halves of each byte of `b` in turn (`decodeBytes_eq_ok_iff`).  So the case of the digits does
not matter, a text of `n` bytes has `2 * n` digits, and what was written is read back
(`decode_encode`).
-/

namespace Keyring.Hex

/-- The two halves of each byte, the upper one first. -/
def nibbles (b : Bytes) : List Nat :=
  b.flatMap fun x => [x.toNat / 16, x.toNat % 16]

@[simp] theorem nibbles_nil : nibbles [] = [] := rfl

@[simp] theorem nibbles_cons (x : UInt8) (b : Bytes) :
    nibbles (x :: b) = x.toNat / 16 :: x.toNat % 16 :: nibbles b := rfl

theorem length_nibbles (b : Bytes) : (nibbles b).length = 2 * b.length := by
  induction b with
  | nil => rfl
  | cons x b ih =>
      rw [nibbles_cons, List.length_cons, List.length_cons, List.length_cons, ih]
      omega

theorem lt_of_mem_nibbles {b : Bytes} {n : Nat} (h : n ∈ nibbles b) : n < 16 := by
  obtain ⟨x, -, hn⟩ := List.mem_flatMap.mp h
  have hx := x.toNat_lt
  simp only [List.mem_cons, List.not_mem_nil, or_false] at hn
  omega

/-! ## Reading -/

theorem value?_lt {x : UInt8} {n : Nat} (h : value? x = some n) : n < 16 := by
  simp only [value?] at h
  split_ifs at h <;> simp only [Option.some.injEq] at h <;> omega

theorem decodePairs_eq_ok_iff : ∀ {position : Nat} {text b : Bytes}, text.length % 2 = 0 →
    (decodePairs position text = .ok b ↔ text.map value? = (nibbles b).map some)
  | _, [], b, _ => by
      cases b <;> simp [decodePairs]
  | _, [_], _, heven => by
      simp at heven
  | position, hi :: lo :: rest, b, heven => by
      have hrest : rest.length % 2 = 0 := by
        simp only [List.length_cons] at heven
        omega
      have ih : ∀ {tail : Bytes}, decodePairs (position + 2) rest = .ok tail ↔
          rest.map value? = (nibbles tail).map some :=
        decodePairs_eq_ok_iff hrest
      cases hhi : value? hi with
      | none => cases b <;> simp [decodePairs, hhi]
      | some h =>
          cases hlo : value? lo with
          | none => cases b <;> simp [decodePairs, hhi, hlo]
          | some l =>
              have hh := value?_lt hhi
              have hl := value?_lt hlo
              simp only [decodePairs, hhi, hlo, bind_eq_ok_iff, pure_eq_ok_iff, ih]
              cases b with
              | nil => simp
              | cons x b =>
                  have hx := x.toNat_lt
                  simp only [nibbles_cons, List.map_cons, hhi, hlo, List.cons.injEq,
                    Option.some.injEq]
                  constructor
                  · rintro ⟨tail, htail, hbyte, rfl⟩
                    rw [← hbyte, UInt8.toNat_ofNat']
                    exact ⟨by omega, by omega, htail⟩
                  · rintro ⟨rfl, rfl, htail⟩
                    refine ⟨b, htail, ?_, rfl⟩
                    rw [Nat.div_add_mod, UInt8.ofNat_toNat]

/-- A text is the text of the bytes whose halves its digits spell. -/
theorem decodeBytes_eq_ok_iff {text b : Bytes} :
    decodeBytes text = .ok b ↔ text.map value? = (nibbles b).map some := by
  unfold decodeBytes
  split
  · next hodd =>
      refine ⟨fun h => (by cases h), fun h => ?_⟩
      have hlength := congrArg List.length h
      rw [List.length_map, List.length_map, length_nibbles] at hlength
      omega
  · next heven => exact decodePairs_eq_ok_iff (by omega)

theorem length_of_decodeBytes_eq_ok {text b : Bytes} (h : decodeBytes text = .ok b) :
    text.length = 2 * b.length := by
  have hlength := congrArg List.length (decodeBytes_eq_ok_iff.mp h)
  rwa [List.length_map, List.length_map, length_nibbles] at hlength

theorem value?_ne_none_of_decodeBytes_eq_ok {text b : Bytes} (h : decodeBytes text = .ok b)
    {x : UInt8} (hx : x ∈ text) : value? x ≠ none := by
  intro hnone
  have hmem : none ∈ text.map value? := hnone ▸ List.mem_map_of_mem hx
  rw [decodeBytes_eq_ok_iff.mp h] at hmem
  simp at hmem

/-! ## Texts -/

/-- The value of a character that is a digit. -/
def charValue? (c : Char) : Option Nat :=
  if c.toNat < 128 then value? (UInt8.ofNat c.toNat) else none

/-- The bytes of characters that are digits are read by the values of the characters. -/
theorem map_value?_ofChars {cs : List Char} {values : List Nat}
    (h : cs.map charValue? = values.map some) :
    (Bytes.ofChars cs).map value? = values.map some := by
  have hascii : ∀ c ∈ cs, c.toNat < 128 := by
    intro c hc
    have hmem : charValue? c ∈ values.map some := h ▸ List.mem_map_of_mem hc
    by_contra hbig
    rw [charValue?, if_neg hbig] at hmem
    simp at hmem
  rw [Bytes.ofChars_of_ascii hascii, ← h, List.map_map]
  exact List.map_congr_left fun c hc => (if_pos (hascii c hc)).symm

theorem decode_ofList {cs : List Char} {b : Bytes}
    (h : cs.map charValue? = (nibbles b).map some) : decode (String.ofList cs) = .ok b := by
  rw [decode, Bytes.ofString_ofList, decodeBytes_eq_ok_iff]
  exact map_value?_ofChars h

theorem charValue?_digit : ∀ n < 16, charValue? (digit n) = some n := by
  decide

theorem digits_eq (b : Bytes) : digits b = (nibbles b).map digit := by
  induction b with
  | nil => rfl
  | cons x b ih => rw [digits, ih, nibbles_cons, List.map_cons, List.map_cons]

theorem length_digits (b : Bytes) : (digits b).length = 2 * b.length := by
  rw [digits_eq, List.length_map, length_nibbles]

theorem ascii_digit : ∀ n < 16, (digit n).toNat < 128 := by
  decide

theorem ascii_of_mem_digits {b : Bytes} : ∀ c ∈ digits b, c.toNat < 128 := by
  intro c hc
  rw [digits_eq] at hc
  obtain ⟨n, hn, rfl⟩ := List.mem_map.mp hc
  exact ascii_digit n (lt_of_mem_nibbles hn)

theorem length_encode (b : Bytes) : (encode b).length = 2 * b.length := by
  rw [encode, String.length_ofList, length_digits]

theorem digit_mem : ∀ n < 16, digit n ∈ "0123456789abcdef".toList := by
  decide

/-- Digits are written in lower case. -/
theorem mem_of_mem_encode {b : Bytes} {c : Char} (h : c ∈ (encode b).toList) :
    c ∈ "0123456789abcdef".toList := by
  rw [encode, String.toList_ofList, digits_eq] at h
  obtain ⟨n, hn, rfl⟩ := List.mem_map.mp h
  exact digit_mem n (lt_of_mem_nibbles hn)

theorem map_charValue?_digit {values : List Nat} (h : ∀ n ∈ values, n < 16) :
    (values.map digit).map charValue? = values.map some := by
  rw [List.map_map]
  exact List.map_congr_left fun n hn => charValue?_digit n (h n hn)

@[simp] theorem decode_encode (b : Bytes) : decode (encode b) = .ok b := by
  refine decode_ofList ?_
  rw [digits_eq]
  exact map_charValue?_digit fun n => lt_of_mem_nibbles

theorem map_value?_encode (b : Bytes) :
    (Bytes.ofString (encode b)).map value? = (nibbles b).map some := by
  rw [← decodeBytes_eq_ok_iff]
  exact decode_encode b

/-! ## Numbers -/

/-- The number that digits spell. -/
def value (values : List Nat) : Nat :=
  values.foldl (fun n d => 16 * n + d) 0

theorem foldlM_eq_some {text : Bytes} {values : List Nat}
    (h : text.map value? = values.map some) (n : Nat) :
    text.foldlM (fun n b => (value? b).map (16 * n + ·)) n =
      some (values.foldl (fun n d => 16 * n + d) n) := by
  induction text generalizing values n with
  | nil =>
      cases values with
      | nil => rfl
      | cons d values => simp at h
  | cons b text ih =>
      cases values with
      | nil => simp at h
      | cons d values =>
          obtain ⟨hb, hrest⟩ := List.cons.inj h
          rw [List.foldlM_cons, hb]
          exact ih hrest (16 * n + d)

/-- A sequence of digits spells the number of their values. -/
theorem toNat?_eq_some {text : Bytes} {values : List Nat}
    (h : text.map value? = values.map some) : toNat? text = some (value values) :=
  foldlM_eq_some h 0

theorem value_nibbles (b : Bytes) : value (nibbles b) = Bytes.toNat b := by
  suffices h : ∀ n, (nibbles b).foldl (fun n d => 16 * n + d) n =
      b.foldl (fun n x => n * 256 + x.toNat) n from h 0
  induction b with
  | nil => exact fun _ => rfl
  | cons x b ih =>
      intro n
      have hx : 16 * (16 * n + x.toNat / 16) + x.toNat % 16 = n * 256 + x.toNat := by omega
      rw [nibbles_cons, List.foldl_cons, List.foldl_cons, hx, ih, List.foldl_cons]

theorem exists_naturalDigits (n : Nat) :
    ∃ values, naturalDigits n = values.map digit ∧ (∀ d ∈ values, d < 16) ∧ value values = n := by
  induction n using Nat.strongRecOn with
  | ind n ih =>
      rcases Nat.eq_zero_or_pos n with rfl | hpos
      · exact ⟨[], by rw [naturalDigits, if_pos rfl, List.map_nil], by simp, rfl⟩
      · obtain ⟨values, hdigits, hlt, hvalue⟩ := ih (n / 16) (by omega)
        refine ⟨values ++ [n % 16], ?_, ?_, ?_⟩
        · rw [naturalDigits, if_neg (by omega), hdigits, List.map_append, List.map_singleton]
        · intro d hd
          rcases List.mem_append.mp hd with hd | hd
          · exact hlt d hd
          · rw [List.mem_singleton.mp hd]
            omega
        · rw [value] at hvalue ⊢
          rw [List.foldl_append, hvalue, List.foldl_cons, List.foldl_nil]
          omega

theorem length_naturalDigits_le {k n : Nat} (h : n < 16 ^ k) : (naturalDigits n).length ≤ k := by
  induction k generalizing n with
  | zero =>
      have hzero : n = 0 := by simpa using h
      rw [hzero, naturalDigits, if_pos rfl]
      exact Nat.le_refl 0
  | succ k ih =>
      rw [naturalDigits]
      split
      · exact Nat.zero_le _
      · have hrest : (naturalDigits (n / 16)).length ≤ k := by
          refine ih (Nat.div_lt_of_lt_mul ?_)
          rwa [Nat.mul_comm, ← Nat.pow_succ]
        rw [List.length_append, List.length_singleton]
        omega

/-- A number is written with at least one digit, and with no more than it needs. -/
theorem ofNat_spec (n : Nat) :
    ∃ values, Bytes.ofString (ofNat n) = Bytes.ofChars (values.map digit) ∧ values ≠ [] ∧
      (∀ d ∈ values, d < 16) ∧ value values = n ∧
      ∀ k, 0 < k → n < 16 ^ k → values.length ≤ k := by
  rw [ofNat]
  split
  · next hzero =>
      refine ⟨[0], rfl, by simp, by simp, hzero.symm, fun k hk _ => hk⟩
  · next hne =>
      obtain ⟨values, hdigits, hlt, hvalue⟩ := exists_naturalDigits n
      refine ⟨values, by rw [Bytes.ofString_ofList, hdigits], ?_, hlt, hvalue, fun k _ hk => ?_⟩
      · rintro rfl
        exact hne hvalue.symm
      · rw [← List.length_map (f := digit), ← hdigits]
        exact length_naturalDigits_le hk

end Keyring.Hex
