import Keyring.Proofs.Mnemonic.Master
import Keyring.Proofs.Mnemonic.Packing
import Keyring.Proofs.Mnemonic.WordList

/-!
# Generated phrases and valid phrases

A text is a valid phrase exactly if its words are the words of some entropy of 16, 20, 24, 28 or 32
bytes (`ofPhrase_eq_ok_iff`).  So the phrases that can be generated are valid, and up to the white
space between their words there are no other valid ones.  Which entropy it is can be read off the
phrase (`entropyOf_ofEntropy`), and how the words are set apart does not matter for anything that
is made of them, the seed included.
-/

namespace Keyring.Mnemonic

variable {text : String} {m : Mnemonic} {entropy : Bytes} {count : Nat}

/-! ## Lengths -/

/-- An entropy that phrases are made of. -/
def IsEntropy (entropy : Bytes) : Prop :=
  ∃ groups, 4 ≤ groups ∧ groups ≤ 8 ∧ entropy.length = 4 * groups

theorem exists_groups (h : count ∈ [12, 15, 18, 21, 24]) :
    ∃ groups, 4 ≤ groups ∧ groups ≤ 8 ∧ count = 3 * groups := by
  refine ⟨count / 3, ?_⟩
  simp only [List.mem_cons, List.not_mem_nil, or_false] at h
  omega

theorem mem_wordCounts {groups : Nat} (hfew : 4 ≤ groups) (hmany : groups ≤ 8) :
    3 * groups ∈ [12, 15, 18, 21, 24] := by
  simp only [List.mem_cons, List.not_mem_nil, or_false]
  omega

/-- As many bytes as a number of words asks for are an entropy. -/
theorem exists_groups_of_length (hcount : count ∈ [12, 15, 18, 21, 24])
    (hlength : entropy.length = count * 4 / 3) :
    ∃ groups, 4 ≤ groups ∧ groups ≤ 8 ∧ count = 3 * groups ∧ entropy.length = 4 * groups := by
  obtain ⟨groups, hfew, hmany, rfl⟩ := exists_groups hcount
  exact ⟨groups, hfew, hmany, rfl, by omega⟩

/-! ## Words -/

/-- Listed words are the words at their positions. -/
theorem map_position?_eq_iff {words : List String} {positions : List Nat} :
    words.map position? = positions.map some ↔
      (∀ i ∈ positions, i < 2048) ∧ words = positions.map wordAt := by
  induction words generalizing positions with
  | nil => cases positions <;> simp
  | cons word words ih =>
      cases positions with
      | nil => simp
      | cons i positions =>
          simp only [List.map_cons, List.cons.injEq, ih, position?_eq_some_iff,
            List.forall_mem_cons]
          constructor
          · rintro ⟨⟨hi, rfl⟩, hpositions, rfl⟩
            exact ⟨⟨hi, hpositions⟩, rfl, rfl⟩
          · rintro ⟨⟨hi, hpositions⟩, rfl, rfl⟩
            exact ⟨⟨hi, rfl⟩, hpositions, rfl⟩

/-- The words of a written phrase are the words of the mnemonic. -/
theorem words_phrase (h : ∀ i ∈ m.positions, i < 2048) : Text.words m.phrase = m.words :=
  Text.words_intercalate <| List.forall_mem_map.mpr fun i hi =>
    isWord_of_mem_wordList (wordAt_mem (h i hi))

/-- Reading words gives their positions back. -/
theorem positions_of_words {m' : Mnemonic} (h : ∀ i ∈ m.positions, i < 2048)
    (h' : ∀ i ∈ m'.positions, i < 2048) (hwords : m.words = m'.words) : m = m' := by
  have hread : m.words.map position? = m.positions.map some :=
    map_position?_eq_iff.mpr ⟨h, rfl⟩
  have hread' : m.words.map position? = m'.positions.map some :=
    map_position?_eq_iff.mpr ⟨h', hwords⟩
  have hpositions : m.positions = m'.positions :=
    List.map_injective_iff.mpr (Option.some_injective _) (hread.symm.trans hread')
  cases m
  cases m'
  exact congrArg Mnemonic.mk hpositions

/-! ## Valid phrases -/

theorem reads_ofEntropy (hentropy : IsEntropy entropy)
    (hwords : Text.words text = (ofEntropy entropy).words) : Reads text (ofEntropy entropy) := by
  obtain ⟨groups, hfew, hmany, hlength⟩ := hentropy
  constructor
  case count =>
    rw [hwords, words, List.length_map, length_ofEntropy hlength]
    exact mem_wordCounts hfew hmany
  case listed => exact map_position?_eq_iff.mpr ⟨fun _ => lt_of_mem_ofEntropy, hwords⟩
  case checksum => exact checksumHolds_ofEntropy hlength hmany

/-- A text is read as a phrase exactly if it has the words of some entropy. -/
theorem ofPhrase_eq_ok_iff : ofPhrase text = .ok m ↔
    ∃ entropy, IsEntropy entropy ∧ ofEntropy entropy = m ∧ Text.words text = m.words := by
  rw [ofPhrase_eq_ok_iff_reads]
  constructor
  · intro h
    obtain ⟨hpositions, hwords⟩ := map_position?_eq_iff.mp h.listed
    obtain ⟨groups, hfew, hmany, hgroups⟩ := exists_groups h.count
    have hlength : m.positions.length = 3 * groups := by
      rw [← hgroups, hwords, List.length_map]
    refine ⟨entropyOf m.positions, ⟨groups, hfew, hmany, ?_⟩,
      ofEntropy_entropyOf hlength hpositions h.checksum, hwords⟩
    rw [entropyOf_eq hlength, Bytes.length_ofNat]
  · rintro ⟨entropy, hentropy, rfl, hwords⟩
    exact reads_ofEntropy hentropy hwords

theorem isValid_iff : isValid text = true ↔ ∃ m, ofPhrase text = .ok m := by
  unfold isValid
  cases ofPhrase text <;> simp

theorem seedOfPhrase_eq_ok_iff {seed : Bytes} :
    seedOfPhrase text = .ok seed ↔ ∃ m, ofPhrase text = .ok m ∧ m.seed = seed := by
  unfold seedOfPhrase
  cases ofPhrase text <;> simp

/-! ## Generated phrases -/

theorem generate_of_unsupported (h : count ∉ [12, 15, 18, 21, 24]) (draw : Nat → Bytes) :
    generate count draw = .error (.mnemonic (.unsupportedWordCount count)) :=
  if_neg (List.contains_iff_mem.not.mpr h)

theorem generate_eq_ok_iff {draw : Nat → Bytes} : generate count draw = .ok m ↔
    count ∈ [12, 15, 18, 21, 24] ∧ ofEntropy (draw (count * 4 / 3)) = m := by
  by_cases h : count ∈ [12, 15, 18, 21, 24]
  · have hok : generate count draw = .ok (ofEntropy (draw (count * 4 / 3))) :=
      if_pos (List.contains_iff_mem.mpr h)
    rw [hok, Except.ok.injEq, and_iff_right h]
  · rw [generate_of_unsupported h]
    simp [h]

theorem isEntropy_of_length (hcount : count ∈ [12, 15, 18, 21, 24])
    (hlength : entropy.length = count * 4 / 3) : IsEntropy entropy := by
  obtain ⟨groups, hfew, hmany, -, hgroups⟩ := exists_groups_of_length hcount hlength
  exact ⟨groups, hfew, hmany, hgroups⟩

/-- The phrase of some entropy is read as the mnemonic that it was written for. -/
theorem ofPhrase_phrase (hentropy : IsEntropy entropy) :
    ofPhrase (ofEntropy entropy).phrase = .ok (ofEntropy entropy) :=
  ofPhrase_eq_ok_iff.mpr ⟨entropy, hentropy, rfl, words_phrase fun _ => lt_of_mem_ofEntropy⟩

/-- Two phrases with the same words have the same entropy. -/
theorem ofEntropy_words_injective {entropy' : Bytes} (h : IsEntropy entropy)
    (h' : IsEntropy entropy') (hwords : (ofEntropy entropy).words = (ofEntropy entropy').words) :
    entropy = entropy' := by
  obtain ⟨groups, -, hmany, hlength⟩ := h
  obtain ⟨groups', -, hmany', hlength'⟩ := h'
  have hsame := positions_of_words (fun _ => lt_of_mem_ofEntropy)
    (fun _ => lt_of_mem_ofEntropy) hwords
  rw [← entropyOf_ofEntropy hlength hmany, hsame, entropyOf_ofEntropy hlength' hmany']

/-- A generated phrase has the words it was asked for. -/
theorem length_words_ofEntropy (hcount : count ∈ [12, 15, 18, 21, 24])
    (hlength : entropy.length = count * 4 / 3) :
    (Text.words (ofEntropy entropy).phrase).length = count := by
  obtain ⟨groups, -, -, rfl, hgroups⟩ := exists_groups_of_length hcount hlength
  rw [words_phrase fun _ => lt_of_mem_ofEntropy, words, List.length_map, length_ofEntropy hgroups]

/-- A valid text has the words of a phrase that can be generated. -/
theorem exists_generate_of_ofPhrase (h : ofPhrase text = .ok m) :
    ∃ count draw, generate count draw = .ok m ∧
      (draw (count * 4 / 3)).length = count * 4 / 3 ∧ Text.words text = Text.words m.phrase := by
  obtain ⟨entropy, ⟨groups, hfew, hmany, hlength⟩, rfl, hwords⟩ := ofPhrase_eq_ok_iff.mp h
  refine ⟨3 * groups, fun _ => entropy, ?_, ?_, ?_⟩
  · exact generate_eq_ok_iff.mpr ⟨mem_wordCounts hfew hmany, rfl⟩
  · show entropy.length = 3 * groups * 4 / 3
    omega
  · rw [hwords, words_phrase fun _ => lt_of_mem_ofEntropy]

/-! ## White space -/

/-- Texts with the same words are read alike. -/
theorem ofPhrase_of_separated {text' : String} {parts : List (List Char)}
    (h : Text.Separated parts text.toList) (h' : Text.Separated parts text'.toList) :
    ofPhrase text' = ofPhrase text := by
  have hwords : ∀ {s : String}, Text.Separated parts s.toList →
      Text.words s = parts.map String.ofList := fun hs => by
    rw [Text.words, Text.wordsFrom_of_separated hs]
  rw [ofPhrase, ofPhrase, hwords h, hwords h']

/-! ## Main statement -/

/-- **The phrases that are generated are the ones that are valid.**

* Phrases are generated of 12, 15, 18, 21 and 24 words, and of no other number.
* For every entropy of as many bytes as a number of words asks for, the phrase that is generated has
  as many words, it is valid and it has a seed, which has 64 bytes.
* Phrases of different entropies are different, also if they have different numbers of words.
* Conversely a text is valid only if its words are those of a generated phrase.
* If a text is valid, then so is every text with the same words, whatever the white space between
  them, and it has the same seed.
* A text is valid exactly if it has a seed. -/
theorem generated_phrases_are_valid :
    (∀ count draw, count ∉ [12, 15, 18, 21, 24] →
      generate count draw = .error (.mnemonic (.unsupportedWordCount count))) ∧
    (∀ count draw, count ∈ [12, 15, 18, 21, 24] →
      (draw (count * 4 / 3)).length = count * 4 / 3 →
      ∃ m, generate count draw = .ok m ∧ (Text.words m.phrase).length = count ∧
        isValid m.phrase = true ∧ seedOfPhrase m.phrase = .ok m.seed ∧ m.seed.length = 64) ∧
    (∀ count draw m count' draw' m', generate count draw = .ok m → generate count' draw' = .ok m' →
      (draw (count * 4 / 3)).length = count * 4 / 3 →
      (draw' (count' * 4 / 3)).length = count' * 4 / 3 →
      m.phrase = m'.phrase → draw (count * 4 / 3) = draw' (count' * 4 / 3)) ∧
    (∀ text, isValid text = true → ∃ count draw m, generate count draw = .ok m ∧
      (draw (count * 4 / 3)).length = count * 4 / 3 ∧ Text.words text = Text.words m.phrase) ∧
    (∀ text text' parts, isValid text = true → Text.Separated parts text.toList →
      Text.Separated parts text'.toList →
      isValid text' = true ∧ seedOfPhrase text' = seedOfPhrase text) ∧
    (∀ text, isValid text = true ↔ ∃ seed, seedOfPhrase text = .ok seed) := by
  refine ⟨fun count draw h => generate_of_unsupported h draw, ?_, ?_, ?_, ?_, ?_⟩
  · intro count draw hcount hlength
    have hread := ofPhrase_phrase (isEntropy_of_length hcount hlength)
    exact ⟨_, generate_eq_ok_iff.mpr ⟨hcount, rfl⟩, length_words_ofEntropy hcount hlength,
      isValid_iff.mpr ⟨_, hread⟩, seedOfPhrase_eq_ok_iff.mpr ⟨_, hread, rfl⟩, length_seed _⟩
  · intro count draw m count' draw' m' h h' hlength hlength' hphrase
    obtain ⟨hcount, rfl⟩ := generate_eq_ok_iff.mp h
    obtain ⟨hcount', rfl⟩ := generate_eq_ok_iff.mp h'
    refine ofEntropy_words_injective (isEntropy_of_length hcount hlength)
      (isEntropy_of_length hcount' hlength') ?_
    rw [← words_phrase fun _ => lt_of_mem_ofEntropy, hphrase,
      words_phrase fun _ => lt_of_mem_ofEntropy]
  · intro text hvalid
    obtain ⟨m, hm⟩ := isValid_iff.mp hvalid
    obtain ⟨count, draw, hgenerate⟩ := exists_generate_of_ofPhrase hm
    exact ⟨count, draw, m, hgenerate⟩
  · intro text text' parts hvalid h h'
    have hsame := ofPhrase_of_separated h h'
    refine ⟨?_, by rw [seedOfPhrase, seedOfPhrase, hsame]⟩
    rwa [isValid_iff, hsame, ← isValid_iff]
  · intro text
    rw [isValid_iff]
    simp only [seedOfPhrase_eq_ok_iff]
    constructor
    · rintro ⟨m, hm⟩
      exact ⟨m.seed, m, hm, rfl⟩
    · rintro ⟨seed, m, hm, -⟩
      exact ⟨m, hm⟩

end Keyring.Mnemonic
