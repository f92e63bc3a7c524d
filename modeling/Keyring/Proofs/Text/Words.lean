import Mathlib.Data.List.Basic
import Keyring.Text.Blank

/-!
# The words of a text

A text has given words if it consists of these words in their order, with white space between them
(`Separated`).  How much there is, and whether there is some around them, is left open, so one
sequence of words has many texts.  Each text has the words that it is split into and no others
(`words_eq_iff`).
-/

namespace Keyring.Text

/-- White space, or nothing. -/
def IsGap (cs : List Char) : Prop :=
  ∀ c ∈ cs, isBlank c = true

/-- At least one character, and no white space. -/
def IsWord (cs : List Char) : Prop :=
  cs ≠ [] ∧ ∀ c ∈ cs, isBlank c = false

/-- What can follow a word: white space and more, or nothing at all. -/
def EndsWord (cs : List Char) : Prop :=
  ∀ c ∈ cs.head?, isBlank c = true

/-- A text consists of words and of white space between them and around them. -/
inductive Separated : List (List Char) → List Char → Prop
  | gap {gap : List Char} (hgap : IsGap gap) : Separated [] gap
  | word {gap word cs : List Char} {words : List (List Char)} (hgap : IsGap gap)
      (hword : IsWord word) (hends : EndsWord cs) (h : Separated words cs) :
      Separated (word :: words) (gap ++ (word ++ cs))

variable {gap word cs : List Char} {parts : List (List Char)} {c : Char}

theorem isGap_nil : IsGap [] := by
  intro c hc
  cases hc

theorem endsWord_of_isGap (hgap : IsGap gap) : EndsWord gap :=
  fun c hc => hgap c (List.mem_of_mem_head? hc)

/-- No white space is needed in front of the first word. -/
theorem Separated.word_append (h : Separated parts cs) (hword : IsWord word)
    (hends : EndsWord cs) : Separated (word :: parts) (word ++ cs) :=
  .word isGap_nil hword hends h

/-! ## Splitting -/

theorem wordsFrom_cons_of_blank (h : isBlank c = true) (cs : List Char) :
    wordsFrom [] (c :: cs) = wordsFrom [] cs := by
  rw [wordsFrom, if_pos h]
  rfl

theorem wordsFrom_gap_append (hgap : IsGap gap) (cs : List Char) :
    wordsFrom [] (gap ++ cs) = wordsFrom [] cs := by
  induction gap with
  | nil => rfl
  | cons c gap ih =>
      obtain ⟨hc, hgap⟩ := List.forall_mem_cons.mp hgap
      rw [List.cons_append, wordsFrom_cons_of_blank hc, ih hgap]

theorem wordsFrom_word_append (hword : ∀ c ∈ word, isBlank c = false) (read cs : List Char) :
    wordsFrom read (word ++ cs) = wordsFrom (word.reverse ++ read) cs := by
  induction word generalizing read with
  | nil => rfl
  | cons c word ih =>
      obtain ⟨hc, hword⟩ := List.forall_mem_cons.mp hword
      rw [List.cons_append, wordsFrom, if_neg (by simp [hc]), ih hword, List.reverse_cons,
        List.append_assoc, List.singleton_append]

/-- A word is over where white space begins, or the end is reached. -/
theorem wordsFrom_of_endsWord {read : List Char} (hread : read ≠ []) (h : EndsWord cs) :
    wordsFrom read cs = read.reverse :: wordsFrom [] cs := by
  have hmore : read.isEmpty = false := by simpa using hread
  cases cs with
  | nil => simp [wordsFrom, hmore]
  | cons c cs =>
      have hc : isBlank c = true := h c rfl
      rw [wordsFrom_cons_of_blank hc, wordsFrom, if_pos hc, if_neg (by simp [hmore])]

theorem wordsFrom_of_separated (h : Separated parts cs) : wordsFrom [] cs = parts := by
  induction h with
  | gap hgap =>
      have hsplit := wordsFrom_gap_append hgap []
      rwa [List.append_nil] at hsplit
  | word hgap hword hends _ ih =>
      have hne := List.reverse_ne_nil_iff.mpr hword.1
      rw [wordsFrom_gap_append hgap, wordsFrom_word_append hword.2, List.append_nil,
        wordsFrom_of_endsWord hne hends, List.reverse_reverse, ih]

/-! ## Every text has words -/

theorem Separated.cons_of_blank (h : Separated parts cs) (hc : isBlank c = true) :
    Separated parts (c :: cs) := by
  cases h with
  | gap hgap => exact .gap (List.forall_mem_cons.mpr ⟨hc, hgap⟩)
  | word hgap hword hends h =>
      rw [← List.cons_append]
      exact .word (List.forall_mem_cons.mpr ⟨hc, hgap⟩) hword hends h

/-- Where no word goes on, a character that is not blank is a word of its own. -/
theorem Separated.cons_of_endsWord (h : Separated parts cs) (hends : EndsWord cs)
    (hc : isBlank c = false) : Separated ([c] :: parts) (c :: cs) :=
  h.word_append ⟨List.cons_ne_nil _ _, List.forall_mem_singleton.mpr hc⟩ hends

theorem exists_separated (cs : List Char) : ∃ parts, Separated parts cs := by
  induction cs with
  | nil => exact ⟨[], .gap isGap_nil⟩
  | cons c cs ih =>
      obtain ⟨parts, h⟩ := ih
      cases hc : isBlank c with
      | true => exact ⟨parts, h.cons_of_blank hc⟩
      | false =>
          cases h with
          | gap hgap => exact ⟨_, (Separated.gap hgap).cons_of_endsWord (endsWord_of_isGap hgap) hc⟩
          | @word gap word rest words hgap hword hends h =>
              cases gap with
              | nil =>
                  -- The character belongs to the word behind it.
                  refine ⟨(c :: word) :: words, h.word_append ?_ hends⟩
                  exact ⟨List.cons_ne_nil _ _, List.forall_mem_cons.mpr ⟨hc, hword.2⟩⟩
              | cons b gap =>
                  have hblank : EndsWord (b :: gap ++ (word ++ rest)) := by
                    rintro b ⟨⟩
                    exact hgap b List.mem_cons_self
                  exact ⟨_, (Separated.word hgap hword hends h).cons_of_endsWord hblank hc⟩

/-- The words of a text are the ones that it consists of. -/
theorem words_eq_iff {s : String} {ws : List String} :
    words s = ws ↔ Separated (ws.map String.toList) s.toList := by
  constructor
  · rintro rfl
    obtain ⟨parts, h⟩ := exists_separated s.toList
    have hread : String.toList ∘ String.ofList = id := funext fun _ => String.toList_ofList
    rwa [words, wordsFrom_of_separated h, List.map_map, hread, List.map_id]
  · intro h
    have hread : String.ofList ∘ String.toList = id := funext fun _ => String.ofList_toList
    rw [words, wordsFrom_of_separated h, List.map_map, hread, List.map_id]

/-! ## Joined words -/

theorem separated_intercalate (h : ∀ part ∈ parts, IsWord part) :
    Separated parts ([' '].intercalate parts) := by
  induction parts with
  | nil => exact .gap isGap_nil
  | cons part parts ih =>
      obtain ⟨hpart, hparts⟩ := List.forall_mem_cons.mp h
      cases parts with
      | nil =>
          have hlast := (Separated.gap isGap_nil).word_append hpart (endsWord_of_isGap isGap_nil)
          simpa [List.intercalate] using hlast
      | cons part' parts =>
          have hends : EndsWord (' ' :: [' '].intercalate (part' :: parts)) := by
            rintro c ⟨⟩
            rfl
          have hmore := ((ih hparts).cons_of_blank rfl).word_append hpart hends
          simpa [List.intercalate] using hmore

/-- Words that are joined by single spaces are the words of the text. -/
theorem words_intercalate {ws : List String} (h : ∀ w ∈ ws, IsWord w.toList) :
    words (" ".intercalate ws) = ws := by
  rw [words_eq_iff, String.toList_intercalate]
  exact separated_intercalate (List.forall_mem_map.mpr h)

end Keyring.Text
