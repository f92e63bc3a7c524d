import Mathlib.Data.List.Basic
import Keyring.Text.Blank
import Keyring.Text.Decimal

/-!
# Decimal texts of words

A word is printed as the decimal digits of its number, without a sign and without leading
zeros.  Two facts are all that texts built from such numbers need to be told apart: equal digits
belong to equal words, and digits that are followed by something else end where the first other
character stands (`digits_append_inj`).  To be read back they need two more: the digits of a
word are read as that word (`uint32?_wordDigits`), and parts without a separator are what a text
is split into that was put together from them (`split_append_cons`).  Where white space around a
number is dropped, none of its digits is (`trim_of_isDigit`).
-/

namespace Keyring.Text

/-- The digits under which a 32-bit word is printed. -/
def wordDigits (w : UInt32) : List Char :=
  Nat.toDigits 10 w.toNat

theorem toList_toString_word (w : UInt32) : (toString w).toList = wordDigits w := by
  show (toString w.toNat).toList = wordDigits w
  rw [Nat.toString_eq_repr, Nat.toList_repr, wordDigits]

theorem isDigit_of_mem_wordDigits {w : UInt32} {c : Char} (h : c ∈ wordDigits w) :
    c.isDigit = true :=
  Nat.isDigit_of_mem_toDigits (by omega) (by omega) h

theorem wordDigits_injective {v w : UInt32} (h : wordDigits v = wordDigits w) : v = w := by
  have hvalue := congrArg (fun digits => Nat.ofDigitChars 10 digits 0) h
  simp only [wordDigits, Nat.ofDigitChars_ten_toDigits] at hvalue
  exact UInt32.toNat_inj.mp hvalue

/-- A text of digits is cut off by the first character that is no digit. -/
theorem takeWhile_digits_append {digits rest : List Char}
    (hdigits : ∀ c ∈ digits, c.isDigit = true) (hrest : ∀ c ∈ rest.head?, c.isDigit = false) :
    (digits ++ rest).takeWhile Char.isDigit = digits := by
  rw [List.takeWhile_append_of_pos hdigits]
  cases rest with
  | nil => simp
  | cons c cs => simp [hrest c (by simp)]

theorem digits_append_inj {digits₁ digits₂ rest₁ rest₂ : List Char}
    (hdigits₁ : ∀ c ∈ digits₁, c.isDigit = true) (hdigits₂ : ∀ c ∈ digits₂, c.isDigit = true)
    (hrest₁ : ∀ c ∈ rest₁.head?, c.isDigit = false)
    (hrest₂ : ∀ c ∈ rest₂.head?, c.isDigit = false)
    (h : digits₁ ++ rest₁ = digits₂ ++ rest₂) : digits₁ = digits₂ ∧ rest₁ = rest₂ := by
  have hdigits : digits₁ = digits₂ := by
    rw [← takeWhile_digits_append hdigits₁ hrest₁, h, takeWhile_digits_append hdigits₂ hrest₂]
  subst hdigits
  exact ⟨rfl, List.append_cancel_left h⟩

/-- Two words that are printed in front of something that starts with no digit. -/
theorem wordDigits_append_inj {v w : UInt32} {rest₁ rest₂ : List Char}
    (hrest₁ : ∀ c ∈ rest₁.head?, c.isDigit = false)
    (hrest₂ : ∀ c ∈ rest₂.head?, c.isDigit = false)
    (h : wordDigits v ++ rest₁ = wordDigits w ++ rest₂) : v = w ∧ rest₁ = rest₂ := by
  obtain ⟨hdigits, hrest⟩ := digits_append_inj (fun _ => isDigit_of_mem_wordDigits)
    (fun _ => isDigit_of_mem_wordDigits) hrest₁ hrest₂ h
  exact ⟨wordDigits_injective hdigits, hrest⟩

/-! ## Reading -/

theorem digit?_of_isDigit {c : Char} (h : c.isDigit = true) : digit? c = some (c.toNat - 48) := by
  rw [Char.isDigit, Bool.and_eq_true, decide_eq_true_eq, decide_eq_true_eq] at h
  exact if_pos h

theorem foldlM_digit? {cs : List Char} (h : ∀ c ∈ cs, c.isDigit = true) (n : Nat) :
    cs.foldlM (fun n c => (digit? c).map (10 * n + ·)) n = some (Nat.ofDigitChars 10 cs n) := by
  induction cs generalizing n with
  | nil => rfl
  | cons c cs ih =>
      obtain ⟨hc, hcs⟩ := List.forall_mem_cons.mp h
      rw [List.foldlM_cons, digit?_of_isDigit hc, Nat.ofDigitChars_cons]
      exact ih hcs _

theorem natural?_of_isDigit {cs : List Char} (hne : cs ≠ []) (h : ∀ c ∈ cs, c.isDigit = true) :
    natural? cs = some (Nat.ofDigitChars 10 cs 0) := by
  cases cs with
  | nil => exact absurd rfl hne
  | cons c cs => exact foldlM_digit? h 0

theorem isDigit_of_digit?_eq_some {c : Char} {n : Nat} (h : digit? c = some n) :
    c.isDigit = true := by
  unfold digit? at h
  split at h
  · next hrange =>
      rw [Char.isDigit, Bool.and_eq_true, decide_eq_true_eq, decide_eq_true_eq]
      exact hrange
  · cases h

theorem isDigit_of_foldlM_digit?_eq_some {cs : List Char} {start n : Nat}
    (h : cs.foldlM (fun n c => (digit? c).map (10 * n + ·)) start = some n) :
    ∀ c ∈ cs, c.isDigit = true := by
  induction cs generalizing start with
  | nil => simp
  | cons c cs ih =>
      rw [List.foldlM_cons, Option.bind_eq_bind, Option.bind_eq_some_iff] at h
      obtain ⟨next, hfirst, hrest⟩ := h
      obtain ⟨d, hd, -⟩ := Option.map_eq_some_iff.mp hfirst
      exact List.forall_mem_cons.mpr ⟨isDigit_of_digit?_eq_some hd, ih hrest⟩

/-- Nothing but digits is read as a number, and no number is read from nothing. -/
theorem natural?_eq_some_iff {cs : List Char} {n : Nat} :
    natural? cs = some n ↔
      cs ≠ [] ∧ (∀ c ∈ cs, c.isDigit = true) ∧ Nat.ofDigitChars 10 cs 0 = n := by
  constructor
  · intro h
    have hne : cs ≠ [] := by
      rintro rfl
      cases h
    have hdigits : ∀ c ∈ cs, c.isDigit = true := by
      cases cs with
      | nil => exact absurd rfl hne
      | cons c cs => exact isDigit_of_foldlM_digit?_eq_some h
    rw [natural?_of_isDigit hne hdigits] at h
    exact ⟨hne, hdigits, Option.some.inj h⟩
  · rintro ⟨hne, hdigits, rfl⟩
    exact natural?_of_isDigit hne hdigits

/-- One plus sign may stand in front of the digits of a number that is read. -/
theorem unsigned?_eq_some_iff {bound : Nat} {cs : List Char} {n : Nat} :
    unsigned? bound cs = some n ↔ n < bound ∧
      ∃ sign digits, cs = sign ++ digits ∧ (sign = [] ∨ sign = ['+']) ∧
        natural? digits = some n := by
  have hread : ∀ digits : List Char,
      (natural? digits >>= fun n => if n < bound then some n else none) = some n ↔
        n < bound ∧ natural? digits = some n := by
    intro digits
    rw [Option.bind_eq_bind, Option.bind_eq_some_iff]
    constructor
    · rintro ⟨m, hm, h⟩
      split at h
      · next hlt =>
          obtain rfl := Option.some.inj h
          exact ⟨hlt, hm⟩
      · cases h
    · rintro ⟨hlt, hm⟩
      exact ⟨n, hm, if_pos hlt⟩
  unfold unsigned?
  split
  · next rest =>
      dsimp only
      rw [hread]
      refine and_congr_right fun _ => ⟨fun h => ⟨['+'], rest, rfl, Or.inr rfl, h⟩, ?_⟩
      rintro ⟨sign, digits, hcs, rfl | rfl, h⟩
      · -- A plus sign is no digit.
        obtain rfl : '+' :: rest = digits := hcs
        obtain ⟨-, hdigits, -⟩ := natural?_eq_some_iff.mp h
        exact absurd (hdigits '+' List.mem_cons_self) (by decide)
      · obtain ⟨-, rfl⟩ := List.cons.inj hcs
        exact h
  · next hunsigned =>
      dsimp only
      rw [hread]
      refine and_congr_right fun _ => ⟨fun h => ⟨[], cs, rfl, Or.inl rfl, h⟩, ?_⟩
      rintro ⟨sign, digits, hcs, rfl | rfl, h⟩
      · rwa [hcs]
      · exact absurd hcs (hunsigned digits)

theorem uint32?_eq_some_iff {cs : List Char} {w : UInt32} :
    uint32? cs = some w ↔
      ∃ sign digits, cs = sign ++ digits ∧ (sign = [] ∨ sign = ['+']) ∧
        natural? digits = some w.toNat := by
  rw [uint32?, Option.map_eq_some_iff]
  constructor
  · rintro ⟨n, hn, rfl⟩
    obtain ⟨hlt, hspelled⟩ := unsigned?_eq_some_iff.mp hn
    rwa [UInt32.toNat_ofNat_of_lt' hlt]
  · intro hspelled
    exact ⟨w.toNat, unsigned?_eq_some_iff.mpr ⟨w.toNat_lt, hspelled⟩, UInt32.ofNat_toNat⟩

/-- Digits have no sign in front of them. -/
theorem unsigned?_of_isDigit {bound : Nat} {cs : List Char} (hne : cs ≠ [])
    (h : ∀ c ∈ cs, c.isDigit = true) (hlt : Nat.ofDigitChars 10 cs 0 < bound) :
    unsigned? bound cs = some (Nat.ofDigitChars 10 cs 0) := by
  unfold unsigned?
  split
  · exact absurd (h '+' List.mem_cons_self) (by decide)
  · dsimp only
    rw [natural?_of_isDigit hne h, Option.bind_eq_bind, Option.bind_some, if_pos hlt]

/-- A number below the bound is read back from its digits. -/
theorem unsigned?_toDigits {bound n : Nat} (h : n < bound) :
    unsigned? bound (Nat.toDigits 10 n) = some n := by
  have hvalue : Nat.ofDigitChars 10 (Nat.toDigits 10 n) 0 = n := Nat.ofDigitChars_ten_toDigits
  have hdigits : ∀ c ∈ Nat.toDigits 10 n, c.isDigit = true :=
    fun c hc => Nat.isDigit_of_mem_toDigits (by omega) (by omega) hc
  rw [unsigned?_of_isDigit Nat.toDigits_ne_nil hdigits (by rwa [hvalue]), hvalue]

theorem uint32?_wordDigits (w : UInt32) : uint32? (wordDigits w) = some w := by
  rw [uint32?, wordDigits, unsigned?_toDigits w.toNat_lt, Option.map_some, UInt32.ofNat_toNat]

theorem uint64?_toDigits (w : UInt64) : uint64? (Nat.toDigits 10 w.toNat) = some w := by
  rw [uint64?, unsigned?_toDigits w.toNat_lt, Option.map_some, UInt64.ofNat_toNat]

theorem isBlank_of_isDigit {c : Char} (h : c.isDigit = true) : isBlank c = false := by
  have hrange : 48 ≤ c.toNat ∧ c.toNat ≤ 57 := by
    simpa [Char.isDigit, Char.le_def, UInt32.le_iff_toNat_le] using h
  simp only [isBlank, Bool.or_eq_false_iff, Bool.and_eq_false_iff, decide_eq_false_iff_not,
    beq_eq_false_iff_ne]
  omega

/-- There is no white space around digits that could be dropped. -/
theorem trim_of_isDigit {s : String} (h : ∀ c ∈ s.toList, c.isDigit = true) : trim s = s := by
  have hkeep : ∀ cs : List Char, (∀ c ∈ cs, c.isDigit = true) → trimStart cs = cs := by
    intro cs hcs
    cases cs with
    | nil => rfl
    | cons c cs =>
        rw [trimStart, List.dropWhile_cons_of_neg]
        rw [isBlank_of_isDigit (hcs c List.mem_cons_self)]
        exact Bool.false_ne_true
  have hreverse : ∀ c ∈ s.toList.reverse, c.isDigit = true :=
    fun c hc => h c (List.mem_reverse.mp hc)
  rw [trim, hkeep _ h, hkeep _ hreverse, List.reverse_reverse, String.ofList_toList]

theorem split_ne_nil (separator : Char) (cs : List Char) : split separator cs ≠ [] := by
  induction cs with
  | nil => exact List.cons_ne_nil _ _
  | cons c cs ih =>
      rw [split]
      split
      · exact List.cons_ne_nil _ _
      · split
        · exact List.cons_ne_nil _ _
        · exact List.cons_ne_nil _ _

theorem split_of_notMem {separator : Char} {part : List Char} (h : separator ∉ part) :
    split separator part = [part] := by
  induction part with
  | nil => rfl
  | cons c part ih =>
      obtain ⟨hc, hpart⟩ := not_or.mp (mt List.mem_cons.mpr h)
      rw [split, if_neg (Ne.symm hc), ih hpart]

/-- A part without a separator ends at the separator behind it. -/
theorem split_append_cons {separator : Char} {part : List Char} (h : separator ∉ part)
    (rest : List Char) :
    split separator (part ++ separator :: rest) = part :: split separator rest := by
  induction part with
  | nil => rw [List.nil_append, split, if_pos rfl]
  | cons c part ih =>
      obtain ⟨hc, hpart⟩ := not_or.mp (mt List.mem_cons.mpr h)
      rw [List.cons_append, split, if_neg (Ne.symm hc), ih hpart]

/-- What a text is split into are the parts between its separators. -/
theorem split_eq_iff {separator : Char} {cs first : List Char} {rest : List (List Char)} :
    split separator cs = first :: rest ↔
      cs = first ++ rest.flatMap (separator :: ·) ∧ ∀ part ∈ first :: rest, separator ∉ part := by
  constructor
  · intro h
    induction cs generalizing first rest with
    | nil =>
        cases h
        simp
    | cons c cs ih =>
        rw [split] at h
        split at h
        · next hc =>
            cases h
            -- The separator ends an empty first part.
            cases hparts : split separator cs with
            | nil => exact absurd hparts (split_ne_nil separator cs)
            | cons part parts =>
                obtain ⟨hcs, hplain⟩ := ih hparts
                refine ⟨?_, List.forall_mem_cons.mpr ⟨List.not_mem_nil, hplain⟩⟩
                rw [List.nil_append, List.flatMap_cons, List.cons_append, ← hcs, hc]
        · next hc =>
            split at h
            · next part parts hparts =>
                cases h
                obtain ⟨hcs, hplain⟩ := ih hparts
                obtain ⟨hfirst, hrest⟩ := List.forall_mem_cons.mp hplain
                refine ⟨congrArg (c :: ·) hcs, List.forall_mem_cons.mpr ⟨?_, hrest⟩⟩
                exact fun hmem => (List.mem_cons.mp hmem).elim (Ne.symm hc) hfirst
            · next hnone => exact absurd hnone (split_ne_nil separator cs)
  · rintro ⟨rfl, hplain⟩
    induction rest generalizing first with
    | nil =>
        rw [List.flatMap_nil, List.append_nil]
        exact split_of_notMem (hplain first List.mem_cons_self)
    | cons part rest ih =>
        obtain ⟨hfirst, hrest⟩ := List.forall_mem_cons.mp hplain
        rw [List.flatMap_cons, List.cons_append, split_append_cons hfirst, ih hrest]

end Keyring.Text
