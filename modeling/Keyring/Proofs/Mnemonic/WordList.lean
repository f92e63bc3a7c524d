import Mathlib.Data.List.GetD
import Mathlib.Data.List.Nodup
import Keyring.Mnemonic.WordList
import Keyring.Proofs.Text.Utf8
import Keyring.Proofs.Text.Words

/-!
# Words and positions

The list has 2048 words, none of them twice, and words are made of lower-case letters.  So a
position below 2048 and its word determine each other (`position?_eq_some_iff`), and words can be
told apart in a text that has white space between them.

What has to be checked word by word is checked on the bytes of the words, filled up to eight bytes
and taken as numbers: these ascend, as the words do.
-/

namespace Keyring.Mnemonic

/-! ## The list -/

theorem length_wordList : wordList.length = 2048 := by
  decide +kernel

/-- The number that the bytes of a word spell, filled up with zeros behind them. -/
def rank (word : String) : Nat :=
  Bytes.toNat ((Bytes.ofString word ++ List.replicate 8 0).take 8)

set_option maxRecDepth 4096 in
theorem isChain_rank : (wordList.map rank).IsChain (· < ·) := by
  decide +kernel

theorem wordList_nodup : wordList.Nodup := by
  have hascending : (wordList.map rank).Pairwise (· < ·) :=
    List.isChain_iff_pairwise.mp isChain_rank
  exact .of_map rank (hascending.imp Nat.ne_of_lt)

/-- A byte that is a lower-case letter. -/
def isLetter (b : UInt8) : Bool :=
  97 ≤ b && b ≤ 122

theorem letters_wordList : ∀ word ∈ wordList,
    Bytes.ofString word ≠ [] ∧ (Bytes.ofString word).all isLetter = true := by
  decide +kernel

/-- A character all of whose bytes are letters is no white space. -/
theorem isBlank_of_letters {c : Char}
    (h : ∀ b ∈ String.utf8EncodeChar c, isLetter b = true) : Text.isBlank c = false := by
  have hletter : ∀ b, isLetter b = true → 97 ≤ b.toNat ∧ b.toNat ≤ 122 := by
    intro b hb
    simpa [isLetter, UInt8.le_iff_toNat_le] using hb
  have hascii : c.toNat < 128 := by
    by_contra hbig
    obtain ⟨b, hb⟩ := List.exists_mem_of_ne_nil _ (String.utf8EncodeChar_ne_nil (c := c))
    have hhigh := Bytes.toNat_of_mem_utf8EncodeChar (Nat.le_of_not_lt hbig) hb
    have hlow := hletter b (h b hb)
    omega
  rw [Bytes.utf8EncodeChar_of_ascii hascii, List.forall_mem_singleton] at h
  have hbounds := hletter _ h
  rw [UInt8.toNat_ofNat', Nat.mod_eq_of_lt (by omega)] at hbounds
  simp only [Text.isBlank, Bool.or_eq_false_iff, Bool.and_eq_false_iff, decide_eq_false_iff_not,
    beq_eq_false_iff_ne]
  omega

theorem isWord_of_mem_wordList {word : String} (h : word ∈ wordList) :
    Text.IsWord word.toList := by
  obtain ⟨hne, hletters⟩ := letters_wordList word h
  rw [Bytes.ofString_eq] at hne hletters
  constructor
  · intro hnil
    rw [hnil] at hne
    exact hne rfl
  · intro c hc
    refine isBlank_of_letters fun b hb => ?_
    exact List.all_eq_true.mp hletters b (List.mem_flatMap.mpr ⟨c, hc, hb⟩)

/-! ## Positions -/

theorem wordAt_eq_get {i : Nat} (h : i < 2048) :
    wordAt i = wordList.get ⟨i, by rwa [length_wordList]⟩ :=
  List.getD_eq_getElem _ _ _

theorem wordAt_mem {i : Nat} (h : i < 2048) : wordAt i ∈ wordList := by
  rw [wordAt_eq_get h]
  exact List.getElem_mem _

/-- A word is at the position that stands for it, and at no other. -/
theorem position?_eq_some_iff {word : String} {i : Nat} :
    position? word = some i ↔ i < 2048 ∧ wordAt i = word := by
  rw [position?, List.idxOf?_eq_some_iff]
  constructor
  · rintro ⟨hi, rfl, -⟩
    rw [length_wordList] at hi
    exact ⟨hi, wordAt_eq_get hi⟩
  · rintro ⟨hi, rfl⟩
    refine ⟨by rwa [length_wordList], (wordAt_eq_get hi).symm, fun j hj hsame => ?_⟩
    rw [wordAt_eq_get hi] at hsame
    have hindex := (wordList_nodup.getElem_inj_iff).mp hsame
    omega

end Keyring.Mnemonic
