import Keyring.Proofs.Path.Indices
import Keyring.Proofs.Text.Decimal

/-!
# Paths as texts

The text of a path is split at its slashes into `m` and one part for each level, the decimal
number of the level and, for the first three, an apostrophe.  Neither digits nor apostrophes are
slashes, so the parts come back as they were written (`split_text`); and digits are no markers,
so each part gives its number back (`level?_digits_append`).  This holds for all numbers, also for
those that are refused as child numbers.
-/

namespace Keyring.Bip44Path

open Text

theorem isMarker_of_isDigit {c : Char} (h : c.isDigit = true) : isMarker c = false := by
  rw [isMarker, Bool.or_eq_false_iff, beq_eq_false_iff_ne, beq_eq_false_iff_ne]
  constructor <;> rintro rfl <;> exact absurd h (by decide)

/-- The markers at the end of a level are dropped, and there have to be some exactly if the level
is hardened.  What stands in front of them is read as its number. -/
theorem level?_append {body markers : List Char} (hbody : ∀ c ∈ body.getLast?, isMarker c = false)
    (hmarkers : ∀ c ∈ markers, isMarker c = true) (hardened : Bool) :
    level? hardened (body ++ markers) =
      if (!markers.isEmpty) = hardened then uint32? body else none := by
  have hmarked : ∀ c ∈ markers.reverse, isMarker c = true := fun c hc =>
    hmarkers c (List.mem_reverse.mp hc)
  have hkept : body.reverse.dropWhile isMarker = body.reverse := by
    rw [List.getLast?_eq_head?_reverse] at hbody
    cases hreverse : body.reverse with
    | nil => rfl
    | cons c cs =>
        have hc : isMarker c = false := hbody c (by rw [hreverse]; rfl)
        exact List.dropWhile_cons_of_neg (by simp [hc])
  have hdropped : (body ++ markers).reverse.dropWhile isMarker = body.reverse := by
    rw [List.reverse_append, List.dropWhile_append_of_pos hmarked, hkept]
  have hhardened : ((body ++ markers).reverse.head?.any isMarker) = !markers.isEmpty := by
    rw [List.reverse_append]
    cases hcases : markers.reverse with
    | nil =>
        obtain rfl := List.reverse_eq_nil_iff.mp hcases
        rw [List.nil_append, ← List.getLast?_eq_head?_reverse]
        cases hlast : body.getLast? with
        | none => rfl
        | some c => exact hbody c hlast
    | cons c cs =>
        have hfilled : markers.isEmpty = false := by
          rw [← List.isEmpty_reverse, hcases]
          rfl
        rw [hfilled]
        exact hmarked c (hcases ▸ List.mem_cons_self)
  rw [level?, hhardened, hdropped, List.reverse_reverse]
  simp only [beq_iff_eq]

/-- The markers behind a number say whether the level is hardened. -/
theorem level?_digits_append {digits markers : List Char}
    (hdigits : ∀ c ∈ digits, c.isDigit = true) (hmarkers : ∀ c ∈ markers, isMarker c = true) :
    level? (!markers.isEmpty) (digits ++ markers) = uint32? digits := by
  have hlast : ∀ c ∈ digits.getLast?, isMarker c = false := fun c hc =>
    isMarker_of_isDigit (hdigits c (List.mem_of_getLast? hc))
  rw [level?_append hlast hmarkers, if_pos rfl]

theorem toList_text (p : Bip44Path) : p.text.toList =
    ['m'] ++ '/' :: ((wordDigits p.purpose ++ ['\'']) ++ '/' ::
      ((wordDigits p.coinType ++ ['\'']) ++ '/' :: ((wordDigits p.account ++ ['\'']) ++ '/' ::
        (wordDigits p.change ++ '/' :: wordDigits p.addressIndex)))) := by
  simp only [text, String.toList_append, toList_toString_word]
  simp

theorem split_text (p : Bip44Path) : split '/' p.text.toList =
    [['m'], wordDigits p.purpose ++ ['\''], wordDigits p.coinType ++ ['\''],
      wordDigits p.account ++ ['\''], wordDigits p.change, wordDigits p.addressIndex] := by
  have hplain : ∀ w, '/' ∉ wordDigits w := fun w hmem =>
    absurd (isDigit_of_mem_wordDigits hmem) (by decide)
  have hmarked : ∀ w, '/' ∉ wordDigits w ++ ['\''] := fun w => by
    simpa using hplain w
  rw [toList_text, split_append_cons (by decide), split_append_cons (hmarked _),
    split_append_cons (hmarked _), split_append_cons (hmarked _), split_append_cons (hplain _),
    split_of_notMem (hplain _)]

/-- A path is read back from its text. -/
theorem ofText_text (p : Bip44Path) : ofText p.text = .ok p := by
  have hmarked : ∀ w, level? true (wordDigits w ++ ['\'']) = some w := fun w =>
    (level?_digits_append (fun _ => isDigit_of_mem_wordDigits)
      (List.forall_mem_singleton.mpr rfl)).trans (uint32?_wordDigits w)
  have hplain : ∀ w, level? false (wordDigits w) = some w := by
    intro w
    have hnone : level? (!List.isEmpty []) (wordDigits w ++ []) = uint32? (wordDigits w) :=
      level?_digits_append (fun _ => isDigit_of_mem_wordDigits) (List.forall_mem_nil _)
    rw [List.append_nil, uint32?_wordDigits] at hnone
    exact hnone
  have hparts : ofParts? (split '/' p.text.toList) = some p := by
    simp only [split_text, ofParts?, hmarked, hplain, Option.bind_eq_bind, Option.bind_some]
    rfl
  rw [ofText, hparts]

theorem text_injective {p q : Bip44Path} (h : p.text = q.text) : p = q := by
  have hread := congrArg ofText h
  rw [ofText_text, ofText_text] at hread
  exact Except.ok.inj hread

/-- **The text and the child numbers of a path identify it.**  Every path is read back from its
text, whatever its levels, so no two paths have the same text.  A path has child numbers exactly
if each of its levels is below `2 ^ 31`; then there are five of them, the first three at or above
`2 ^ 31` and the last two below, and no other such path has the same.  What a request chooses of
a path, put back under its purpose and coin type, is the path. -/
theorem text_and_indices_identify_path :
    (∀ p : Bip44Path, ofText p.text = .ok p) ∧
    (∀ p q : Bip44Path, p.text = q.text → p = q) ∧
    (∀ p : Bip44Path, (∃ indices, p.indices = .ok indices) ↔
      ∀ level ∈ [p.purpose, p.coinType, p.account, p.change, p.addressIndex],
        level.toNat < 2 ^ 31) ∧
    (∀ (p : Bip44Path) (indices : List UInt32), p.indices = .ok indices →
      ∃ purpose coinType account change addressIndex : UInt32,
        indices = [purpose, coinType, account, change, addressIndex] ∧
        2 ^ 31 ≤ purpose.toNat ∧ 2 ^ 31 ≤ coinType.toNat ∧ 2 ^ 31 ≤ account.toNat ∧
        change.toNat < 2 ^ 31 ∧ addressIndex.toNat < 2 ^ 31) ∧
    (∀ (p q : Bip44Path) (indices : List UInt32), p.indices = .ok indices →
      q.indices = .ok indices → p = q) ∧
    (∀ p : Bip44Path, ofAddressPath p.purpose p.coinType p.relative = p) := by
  have hrange : ∀ p : Bip44Path, p.InRange ↔
      ∀ level ∈ [p.purpose, p.coinType, p.account, p.change, p.addressIndex],
        level.toNat < 2 ^ 31 := by
    intro p
    simp only [inRange_iff, List.forall_mem_cons, List.not_mem_nil, false_imp_iff, implies_true,
      and_true]
    rfl
  refine ⟨ofText_text, fun p q => text_injective, fun p => ?_, fun p indices h => ?_,
    fun p q indices hp hq => ?_, fun p => rfl⟩
  · rw [← hrange]
    exact ⟨fun ⟨indices, h⟩ => (indices_eq_ok_iff.mp h).1, fun h => ⟨_, indices_of_inRange h⟩⟩
  · obtain ⟨hp, rfl⟩ := indices_eq_ok_iff.mp h
    obtain ⟨hpurpose, hcoin, haccount, hchange, hindex⟩ := inRange_iff.mp hp
    exact ⟨_, _, _, _, _, rfl, hardenedOffset_le_hardened hpurpose,
      hardenedOffset_le_hardened hcoin, hardenedOffset_le_hardened haccount, hchange, hindex⟩
  · exact indices_injective (indices_eq_ok_iff.mp hp).1 (indices_eq_ok_iff.mp hq).1
      (hp.trans hq.symm)

end Keyring.Bip44Path
