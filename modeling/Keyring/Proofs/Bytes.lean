import Mathlib.Algebra.Order.Ring.Nat
import Mathlib.Tactic.Ring
import Keyring.Word

/-!
# Numbers and byte strings

A byte string is a number written in base 256.  Two ways of writing are in use, with as
many bytes as asked for and with as few as possible, and both are undone by `toNat`.  A byte
string of known length is determined by its number (`toNat_inj_of_length`), so words of a
fixed width and their bytes are the same thing.
-/

namespace Keyring

namespace Bytes

/-! ## The number of a byte string -/

@[simp] theorem toNat_nil : toNat [] = 0 := rfl

theorem toNat_append (b c : Bytes) : toNat (b ++ c) = toNat b * 256 ^ c.length + toNat c := by
  suffices h : ∀ n : Nat, c.foldl (fun n x => n * 256 + x.toNat) n =
      n * 256 ^ c.length + toNat c by
    rw [toNat, List.foldl_append, h]
    rfl
  induction c with
  | nil => simp
  | cons x c ih =>
      intro n
      rw [toNat, List.foldl_cons, List.foldl_cons, ih, ih (0 * 256 + x.toNat), List.length_cons]
      ring

theorem toNat_singleton (x : UInt8) : toNat [x] = x.toNat := by
  simp [toNat]

theorem toNat_concat (b : Bytes) (x : UInt8) : toNat (b ++ [x]) = toNat b * 256 + x.toNat := by
  rw [toNat_append, toNat_singleton, List.length_singleton, pow_one]

theorem toNat_cons (x : UInt8) (b : Bytes) :
    toNat (x :: b) = x.toNat * 256 ^ b.length + toNat b := by
  rw [← List.singleton_append, toNat_append, toNat_singleton]

theorem toNat_lt (b : Bytes) : toNat b < 256 ^ b.length := by
  induction b with
  | nil => simp
  | cons x b ih =>
      have hx : x.toNat + 1 ≤ 256 := x.toNat_lt
      calc toNat (x :: b) = x.toNat * 256 ^ b.length + toNat b := toNat_cons x b
        _ < (x.toNat + 1) * 256 ^ b.length := by
            rw [Nat.succ_mul]
            exact Nat.add_lt_add_left ih _
        _ ≤ 256 * 256 ^ b.length := Nat.mul_le_mul_right _ hx
        _ = 256 ^ (x :: b).length := by rw [List.length_cons, pow_succ, Nat.mul_comm]

/-- Byte strings of one length are told apart by their numbers. -/
theorem toNat_inj_of_length {b c : Bytes} (hlength : b.length = c.length)
    (h : toNat b = toNat c) : b = c := by
  induction b generalizing c with
  | nil => exact (List.length_eq_zero_iff.mp hlength.symm).symm
  | cons x b ih =>
      cases c with
      | nil => cases hlength
      | cons y c =>
          have hrest : b.length = c.length := Nat.succ.inj hlength
          have hb := toNat_lt b
          have hc := toNat_lt c
          rw [toNat_cons, toNat_cons, hrest] at h
          rw [hrest] at hb
          -- The leading byte is the quotient, the bytes behind it are the remainder.
          have hhead : x.toNat = y.toNat := by
            have hpos : 0 < 256 ^ c.length := Nat.pow_pos (by omega)
            have hdiv := congrArg (· / 256 ^ c.length) h
            simpa only [Nat.add_comm (_ * _), Nat.add_mul_div_right _ _ hpos,
              Nat.div_eq_of_lt hb, Nat.div_eq_of_lt hc, Nat.zero_add] using hdiv
          rw [hhead, Nat.add_left_cancel_iff] at h
          rw [UInt8.toNat_inj.mp hhead, ih hrest h]

/-! ## Writing with a fixed number of bytes -/

theorem toNat_ofNat (len n : Nat) : toNat (ofNat len n) = n % 256 ^ len := by
  induction len with
  | zero => simp [ofNat, Nat.mod_one]
  | succ len ih =>
      have hshift : n >>> (8 * len) = n / 256 ^ len := by
        rw [Nat.shiftRight_eq_div_pow, Nat.pow_mul]
      have hdigit : (UInt8.ofNat (n >>> (8 * len))).toNat = n / 256 ^ len % 256 := by
        rw [UInt8.toNat_ofNat', hshift]
      rw [ofNat, toNat_cons, ih, length_ofNat, hdigit, Nat.mod_pow_succ, Nat.add_comm,
        Nat.mul_comm]

theorem toNat_ofNat_of_lt {len n : Nat} (h : n < 256 ^ len) : toNat (ofNat len n) = n := by
  rw [toNat_ofNat, Nat.mod_eq_of_lt h]

theorem ofNat_toNat {len : Nat} {b : Bytes} (h : b.length = len) : ofNat len (toNat b) = b := by
  subst h
  exact toNat_inj_of_length (length_ofNat _ _) (toNat_ofNat_of_lt (toNat_lt b))

/-! ## Writing with as few bytes as possible -/

@[simp] theorem minimal_zero : minimal 0 = [] := by
  rw [minimal, if_pos rfl]

theorem minimal_of_pos {n : Nat} (h : 0 < n) :
    minimal n = minimal (n / 256) ++ [UInt8.ofNat n] := by
  rw [minimal, if_neg (by omega)]

@[simp] theorem toNat_minimal (n : Nat) : toNat (minimal n) = n := by
  induction n using Nat.strongRecOn with
  | ind n ih =>
      rcases Nat.eq_zero_or_pos n with rfl | hpos
      · simp
      · rw [minimal_of_pos hpos, toNat_concat, ih (n / 256) (by omega), UInt8.toNat_ofNat']
        omega

theorem minimal_injective {m n : Nat} (h : minimal m = minimal n) : m = n := by
  rw [← toNat_minimal m, h, toNat_minimal]

theorem length_minimal_le {k n : Nat} (h : n < 256 ^ k) : (minimal n).length ≤ k := by
  induction k generalizing n with
  | zero =>
      have hzero : n = 0 := by simpa using h
      simp [hzero]
  | succ k ih =>
      rcases Nat.eq_zero_or_pos n with rfl | hpos
      · simp
      · have hquotient : n / 256 < 256 ^ k := by
          rw [Nat.div_lt_iff_lt_mul (by omega), ← pow_succ]
          exact h
        rw [minimal_of_pos hpos, List.length_append, List.length_singleton]
        exact Nat.succ_le_succ (ih hquotient)

theorem length_minimal_pos {n : Nat} (h : 0 < n) : 0 < (minimal n).length := by
  rw [minimal_of_pos h, List.length_append, List.length_singleton]
  omega

/-! ## Words of 32 bits -/

theorem toNat_shiftLeft_byte (x : UInt8) {k : Nat} (hk : k ≤ 24) :
    (x.toUInt32 <<< UInt32.ofNat k).toNat = x.toNat <<< k := by
  have hx := x.toNat_lt
  have hshift : k % 2 ^ 32 % 32 = k := by omega
  have hlt : x.toNat * 2 ^ k < 2 ^ 32 :=
    calc x.toNat * 2 ^ k < 2 ^ 8 * 2 ^ k := Nat.mul_lt_mul_of_pos_right hx (Nat.two_pow_pos k)
      _ ≤ 2 ^ 8 * 2 ^ 24 := Nat.mul_le_mul_left _ (Nat.pow_le_pow_right (by omega) hk)
  rw [UInt32.toNat_shiftLeft, UInt32.toNat_ofNat', UInt8.toNat_toUInt32, hshift,
    Nat.shiftLeft_eq, Nat.mod_eq_of_lt hlt]

/-- A word is the number that its four bytes spell. -/
theorem toNat_word32 (a b c d : UInt8) : (word32 a b c d).toNat = toNat [a, b, c, d] := by
  have hb := b.toNat_lt
  have hc := c.toNat_lt
  have hd := d.toNat_lt
  have h24 : (a.toUInt32 <<< 24).toNat = a.toNat <<< 24 := toNat_shiftLeft_byte a (Nat.le_refl 24)
  have h16 : (b.toUInt32 <<< 16).toNat = b.toNat <<< 16 :=
    toNat_shiftLeft_byte b (show 16 ≤ 24 by omega)
  have h8 : (c.toUInt32 <<< 8).toNat = c.toNat <<< 8 :=
    toNat_shiftLeft_byte c (show 8 ≤ 24 by omega)
  -- What is already joined fits below the next byte, so joining is adding.
  have hcd : c.toNat <<< 8 ||| d.toNat = c.toNat <<< 8 + d.toNat :=
    (Nat.shiftLeft_add_eq_or_of_lt hd _).symm
  have hbcd : b.toNat <<< 16 ||| (c.toNat <<< 8 + d.toNat) =
      b.toNat <<< 16 + (c.toNat <<< 8 + d.toNat) :=
    (Nat.shiftLeft_add_eq_or_of_lt (by omega) _).symm
  have habcd : a.toNat <<< 24 ||| (b.toNat <<< 16 + (c.toNat <<< 8 + d.toNat)) =
      a.toNat <<< 24 + (b.toNat <<< 16 + (c.toNat <<< 8 + d.toNat)) :=
    (Nat.shiftLeft_add_eq_or_of_lt (by omega) _).symm
  rw [word32, UInt32.toNat_or, UInt32.toNat_or, UInt32.toNat_or, h24, h16, h8,
    UInt8.toNat_toUInt32, Nat.or_assoc, Nat.or_assoc, hcd, hbcd, habcd]
  simp only [Bytes.toNat, List.foldl]
  omega

theorem ofWord32_eq (w : UInt32) : ofWord32 w = ofNat 4 w.toNat := by
  have hbyte : ∀ k < 32, (w >>> UInt32.ofNat k).toUInt8 = UInt8.ofNat (w.toNat >>> k) := by
    intro k hk
    have hshift : k % 2 ^ 32 % 32 = k := by omega
    rw [← UInt8.toNat_inj, UInt32.toNat_toUInt8, UInt32.toNat_shiftRight, UInt8.toNat_ofNat',
      UInt32.toNat_ofNat', hshift]
  have h24 : (w >>> 24).toUInt8 = UInt8.ofNat (w.toNat >>> 24) := hbyte 24 (by omega)
  have h16 : (w >>> 16).toUInt8 = UInt8.ofNat (w.toNat >>> 16) := hbyte 16 (by omega)
  have h8 : (w >>> 8).toUInt8 = UInt8.ofNat (w.toNat >>> 8) := hbyte 8 (by omega)
  have h0 : w.toUInt8 = UInt8.ofNat (w.toNat >>> 0) := by
    rw [← UInt8.toNat_inj, UInt32.toNat_toUInt8, UInt8.toNat_ofNat', Nat.shiftRight_zero]
  rw [ofWord32, h24, h16, h8, h0]
  rfl

@[simp] theorem length_ofWord32 (w : UInt32) : (ofWord32 w).length = 4 := rfl

theorem ofWord32_word32 (a b c d : UInt8) : ofWord32 (word32 a b c d) = [a, b, c, d] := by
  rw [ofWord32_eq, toNat_word32]
  exact ofNat_toNat rfl

theorem words32_ofWord32_append (w : UInt32) (rest : Bytes) :
    words32 (ofWord32 w ++ rest) = w :: words32 rest := by
  have hw : word32 (w >>> 24).toUInt8 (w >>> 16).toUInt8 (w >>> 8).toUInt8 w.toUInt8 = w := by
    rw [← UInt32.toNat_inj, toNat_word32]
    show toNat (ofWord32 w) = w.toNat
    rw [ofWord32_eq]
    exact toNat_ofNat_of_lt w.toNat_lt
  show word32 _ _ _ _ :: words32 rest = _
  rw [hw]

/-- Four bytes in front are the word that is read there. -/
theorem exists_word_of_length {b : Bytes} (h : b.length = 4) : ∃ w, b = ofWord32 w := by
  match b, h with
  | [x, y, z, t], _ => exact ⟨word32 x y z t, (ofWord32_word32 x y z t).symm⟩

end Bytes

/-! ## Words -/

namespace Word256

@[simp] theorem length_toBytes (w : Word256) : w.toBytes.length = 32 :=
  Bytes.length_ofNat _ _

@[simp] theorem ofBytes_toBytes (w : Word256) : ofBytes w.toBytes = w := by
  have hlt : w.toNat < 256 ^ 32 := w.isLt
  rw [ofBytes, toBytes, Bytes.toNat_ofNat_of_lt hlt, BitVec.ofNat_toNat, BitVec.setWidth_eq]

theorem toBytes_ofBytes {b : Bytes} (h : b.length = 32) : (ofBytes b).toBytes = b := by
  have hlt : Bytes.toNat b < 2 ^ 256 := by
    have hlt := Bytes.toNat_lt b
    rwa [h] at hlt
  rw [toBytes, ofBytes, BitVec.toNat_ofNat, Nat.mod_eq_of_lt hlt, Bytes.ofNat_toNat h]

end Word256

end Keyring
