import Keyring.Json.Value
import Keyring.Proofs.Json.Grammar
import Keyring.Proofs.Text.Utf8

/-!
# Reading written strings

A string is written character by character, and there are three ways of writing a character
(`Written`): it is escaped by a letter, or by four digits, or it stands for itself.  What
stands for itself has no byte that could be taken for a quotation mark, a backslash or a
control character (`plain_of_mem_utf8EncodeChar`).  So what is written may stand between
quotation marks (`inside_rawText`), and the escapes are undone one by one
(`Text.decode?_rawText`).
-/

namespace Keyring.Json

open Keyring.Bytes Grammar

/-- The ways in which a character is written. -/
inductive Written (c : Char) : Bytes → Prop
  /-- As it is. -/
  | itself (h : ∀ b ∈ String.utf8EncodeChar c, Plain b) : Written c (String.utf8EncodeChar c)
  /-- As a letter behind a backslash. -/
  | letter {e x : UInt8} (he : Text.simpleEscape? e = some x) (hu : e ≠ 0x75)
      (hc : String.utf8EncodeChar c = [x]) : Written c [0x5c, e]
  /-- As four digits. -/
  | digits {d₁ d₂ d₃ d₄ : UInt8} {n : Nat} (hn : Text.hex4? d₁ d₂ d₃ d₄ = some n)
      (hsurrogate : n < 0xd800) (hc : String.utf8EncodeChar c = Text.utf8 n) :
      Written c [0x5c, 0x75, d₁, d₂, d₃, d₄]

theorem hex4?_hexDigit : ∀ n < 32,
    Text.hex4? 0x30 0x30 (UInt8.ofNat (Text.hexDigit (n / 16)).toNat)
      (UInt8.ofNat (Text.hexDigit (n % 16)).toNat) = some n := by
  decide

theorem toNat_hexDigit_lt : ∀ n < 16, (Text.hexDigit n).toNat < 128 := by
  decide

theorem utf8_toNat (c : Char) : Text.utf8 c.toNat = String.utf8EncodeChar c := by
  rw [Text.utf8, Char.ofNat_toNat, ofString_eq, String.toList_singleton, ofChars_cons, ofChars_nil,
    List.append_nil]

theorem plain_of_mem_utf8EncodeChar {c : Char} (hquote : c ≠ '"') (hbackslash : c ≠ '\\')
    (hcontrol : ¬ c.toNat < 0x20) {b : UInt8} (hb : b ∈ String.utf8EncodeChar c) : Plain b := by
  by_cases hascii : c.toNat < 128
  · rw [utf8EncodeChar_of_ascii hascii, List.mem_singleton] at hb
    have hvalue : b.toNat = c.toNat := by
      rw [hb, UInt8.toNat_ofNat', Nat.mod_eq_of_lt (by omega)]
    refine ⟨?_, ?_, ?_⟩
    · rintro rfl
      exact hquote (Char.toNat_inj.mp hvalue.symm)
    · rintro rfl
      exact hbackslash (Char.toNat_inj.mp hvalue.symm)
    · rw [UInt8.lt_iff_toNat_lt, hvalue]
      exact hcontrol
  · have hbig := toNat_of_mem_utf8EncodeChar (by omega) hb
    refine ⟨?_, ?_, ?_⟩
    · rintro rfl
      exact absurd hbig (by decide)
    · rintro rfl
      exact absurd hbig (by decide)
    · rw [UInt8.lt_iff_toNat_lt]
      exact Nat.not_lt.mpr (Nat.le_trans (by decide) hbig)

theorem written_escapeChar (c : Char) : Written c (ofChars (Text.escapeChar c)) := by
  unfold Text.escapeChar
  split_ifs with h₁ h₂ h₃ h₄ h₅ h₆ h₇ h₈
  · subst h₁
    exact .letter (e := 0x22) rfl (by decide) rfl
  · subst h₂
    exact .letter (e := 0x5c) rfl (by decide) rfl
  · subst h₃
    exact .letter (e := 0x62) rfl (by decide) rfl
  · subst h₄
    exact .letter (e := 0x74) rfl (by decide) rfl
  · subst h₅
    exact .letter (e := 0x6e) rfl (by decide) rfl
  · subst h₆
    exact .letter (e := 0x66) rfl (by decide) rfl
  · subst h₇
    exact .letter (e := 0x72) rfl (by decide) rfl
  · have hhigh := utf8EncodeChar_of_ascii (toNat_hexDigit_lt (c.toNat / 16) (by omega))
    have hlow := utf8EncodeChar_of_ascii (toNat_hexDigit_lt (c.toNat % 16) (by omega))
    simp only [ofChars_cons, ofChars_nil, hhigh, hlow]
    exact .digits (hex4?_hexDigit c.toNat h₈) (by omega) (utf8_toNat c).symm
  · rw [ofChars_cons, ofChars_nil, List.append_nil]
    exact .itself fun b hb => plain_of_mem_utf8EncodeChar h₁ h₂ h₈ hb

theorem inside_append_of_plain {bs rest : Bytes} (hbs : ∀ b ∈ bs, Plain b) (h : Inside rest) :
    Inside (bs ++ rest) := by
  induction bs with
  | nil => exact h
  | cons b bs ih =>
      obtain ⟨hb, hbs⟩ := List.forall_mem_cons.mp hbs
      exact .plain hb (ih hbs)

theorem inside_append_of_written {c : Char} {bs rest : Bytes} (hbs : Written c bs)
    (h : Inside rest) : Inside (bs ++ rest) := by
  cases hbs with
  | itself hbs => exact inside_append_of_plain hbs h
  | letter he hu hc => exact .letter he h
  | digits hn hsurrogate hc => exact .digits hn h

/-- The inside of a written text as bytes. -/
def rawText (s : String) : Bytes :=
  ofChars (Text.escape s.toList)

theorem inside_rawText (s : String) : Inside (rawText s) := by
  unfold rawText
  induction s.toList with
  | nil => exact .nil
  | cons c cs ih =>
      rw [Text.escape] at ih
      rw [Text.escape, List.flatMap_cons, ofChars_append]
      exact inside_append_of_written (written_escapeChar c) ih

/-! ## Undoing escapes -/

theorem Text.unescape?_cons_of_plain {b : UInt8} (h : Plain b) (rest : Bytes) :
    unescape? (b :: rest) = (unescape? rest).map (b :: ·) := by
  obtain ⟨-, hbackslash, -⟩ := h
  conv_lhs => rw [unescape?.eq_def]
  split
  · next heq => cases heq
  · next heq => exact absurd (List.cons.inj heq).1 hbackslash
  · next heq => exact absurd (List.cons.inj heq).1 hbackslash
  · next heq => exact absurd (List.cons.inj heq).1 hbackslash
  · next heq =>
      cases heq
      exact Option.map_eq_bind.symm

theorem Text.unescape?_append_of_plain {bs : Bytes} (h : ∀ b ∈ bs, Plain b) (rest : Bytes) :
    unescape? (bs ++ rest) = (unescape? rest).map (bs ++ ·) := by
  induction bs with
  | nil => simp
  | cons b bs ih =>
      obtain ⟨hb, hbs⟩ := List.forall_mem_cons.mp h
      rw [List.cons_append, unescape?_cons_of_plain hb, ih hbs, Option.map_map]
      rfl

theorem Text.unescape?_append_of_written {c : Char} {bs : Bytes} (h : Written c bs)
    (rest : Bytes) :
    unescape? (bs ++ rest) = (unescape? rest).map (String.utf8EncodeChar c ++ ·) := by
  cases h with
  | itself h => exact unescape?_append_of_plain h rest
  | letter he hu hc =>
      conv_lhs => rw [List.cons_append, List.cons_append, List.nil_append, unescape?.eq_def]
      split
      · next heq => cases heq
      · next heq => exact absurd (List.cons.inj (List.cons.inj heq).2).1 hu
      · next heq =>
          cases heq
          rw [he, hc]
          exact Option.map_eq_bind.symm
      · next heq => cases heq
      · next hletter _ heq =>
          cases heq
          exact (hletter _ _ rfl rfl).elim
  | @digits _ _ _ _ n hn hsurrogate hc =>
      have hlow : ¬ (0xdc00 ≤ n ∧ n ≤ 0xdfff) := by omega
      have hhigh : ¬ (0xd800 ≤ n ∧ n ≤ 0xdbff) := by omega
      simp only [List.cons_append, List.nil_append, unescape?, hn, Option.bind_eq_bind,
        Option.bind_some, if_neg hlow, if_neg hhigh, hc]
      exact Option.map_eq_bind.symm

theorem Text.unescape?_rawText (s : String) : unescape? (rawText s) = some (ofString s) := by
  rw [rawText, ofString_eq]
  induction s.toList with
  | nil => rfl
  | cons c cs ih =>
      rw [escape, List.flatMap_cons, ofChars_append,
        unescape?_append_of_written (written_escapeChar c)]
      rw [escape] at ih
      rw [ih, Option.map_some, ofChars_cons]

/-- A written text is read back. -/
@[simp] theorem Text.decode?_rawText (s : String) : decode? (rawText s) = some s := by
  rw [decode?, unescape?_rawText, Option.bind_some, toString?_eq_some_iff]

end Keyring.Json
