import Mathlib.Data.List.TakeWhile
import Keyring.Json.Tree

/-!
# The grammar of documents

Which bytes spell a document is said here without a word on how they are read: there are rules
for the parts of a number, for the inside of a string and for the parts of a document (`Part`),
and a document is what the rules derive (`Spelled`).  White space may stand around values and
around the names of members, and nowhere else.

The parts are the values of one index, not relations of their own, so one induction goes through
all rules at once.
-/

namespace Keyring.Json.Grammar

/-- White space between tokens, or none. -/
def Gap (bs : Bytes) : Prop :=
  ∀ b ∈ bs, isBlank b = true

/-! ## Numbers -/

def Digits (bs : Bytes) : Prop :=
  bs ≠ [] ∧ ∀ b ∈ bs, isDigit b = true

/-- A zero alone, or digits of which the first is no zero. -/
def Whole (bs : Bytes) : Prop :=
  Digits bs ∧ (bs.head? = some 0x30 → bs = [0x30])

inductive Fraction : Option Bytes → Bytes → Prop
  | absent : Fraction none []
  | present {digits : Bytes} (h : Digits digits) : Fraction (some digits) (0x2e :: digits)

inductive Exponent : Option (Bool × Bytes) → Bytes → Prop
  | absent : Exponent none []
  | unsigned {e : UInt8} {digits : Bytes} (he : e = 0x65 ∨ e = 0x45) (h : Digits digits) :
      Exponent (some (false, digits)) (e :: digits)
  | plus {e : UInt8} {digits : Bytes} (he : e = 0x65 ∨ e = 0x45) (h : Digits digits) :
      Exponent (some (false, digits)) (e :: 0x2b :: digits)
  | minus {e : UInt8} {digits : Bytes} (he : e = 0x65 ∨ e = 0x45) (h : Digits digits) :
      Exponent (some (true, digits)) (e :: 0x2d :: digits)

def sign (negative : Bool) : Bytes :=
  if negative then [0x2d] else []

inductive Number : NumberText → Bytes → Prop
  | mk {negative : Bool} {whole behind power : Bytes} {fraction : Option Bytes}
      {exponent : Option (Bool × Bytes)} (hwhole : Whole whole)
      (hfraction : Fraction fraction behind) (hexponent : Exponent exponent power) :
      Number ⟨negative, whole, fraction, exponent⟩
        (sign negative ++ (whole ++ (behind ++ power)))

/-! ## Strings -/

/-- A byte that stands for itself in a string. -/
def Plain (b : UInt8) : Prop :=
  b ≠ 0x22 ∧ b ≠ 0x5c ∧ ¬ b < 0x20

/-- What may stand between quotation marks. -/
inductive Inside : Bytes → Prop
  | nil : Inside []
  | plain {b : UInt8} {rest : Bytes} (hb : Plain b) (h : Inside rest) : Inside (b :: rest)
  | letter {e x : UInt8} {rest : Bytes} (he : Text.simpleEscape? e = some x)
      (h : Inside rest) : Inside (0x5c :: e :: rest)
  | digits {a b c d : UInt8} {n : Nat} {rest : Bytes} (hn : Text.hex4? a b c d = some n)
      (h : Inside rest) : Inside (0x5c :: 0x75 :: a :: b :: c :: d :: rest)

/-! ## Documents -/

/-- The parts that documents are made of: a value, a value with white space around it, the items
of an array and the members of an object. -/
inductive Part
  | value (tree : Tree)
  | element (tree : Tree)
  | items (trees : List Tree)
  | members (members : List (Bytes × Tree))

inductive Spelled : Part → Bytes → Prop
  | null : Spelled (.value .null) [0x6e, 0x75, 0x6c, 0x6c]
  | yes : Spelled (.value (.bool true)) [0x74, 0x72, 0x75, 0x65]
  | no : Spelled (.value (.bool false)) [0x66, 0x61, 0x6c, 0x73, 0x65]
  | number {text : NumberText} {bs : Bytes} (h : Number text bs) :
      Spelled (.value (.number text)) bs
  | string {raw : Bytes} (h : Inside raw) :
      Spelled (.value (.string raw)) (0x22 :: (raw ++ [0x22]))
  | emptyArray {gap : Bytes} (h : Gap gap) :
      Spelled (.value (.array [])) (0x5b :: (gap ++ [0x5d]))
  | array {items : List Tree} {bs : Bytes} (h : Spelled (.items items) bs) :
      Spelled (.value (.array items)) (0x5b :: (bs ++ [0x5d]))
  | emptyObject {gap : Bytes} (h : Gap gap) :
      Spelled (.value (.object [])) (0x7b :: (gap ++ [0x7d]))
  | object {members : List (Bytes × Tree)} {bs : Bytes} (h : Spelled (.members members) bs) :
      Spelled (.value (.object members)) (0x7b :: (bs ++ [0x7d]))
  | element {tree : Tree} {before bs after : Bytes} (hbefore : Gap before)
      (h : Spelled (.value tree) bs) (hafter : Gap after) :
      Spelled (.element tree) (before ++ (bs ++ after))
  | lastItem {item : Tree} {bs : Bytes} (h : Spelled (.element item) bs) :
      Spelled (.items [item]) bs
  | moreItems {item : Tree} {items : List Tree} {bs more : Bytes}
      (h : Spelled (.element item) bs) (hmore : Spelled (.items items) more) :
      Spelled (.items (item :: items)) (bs ++ 0x2c :: more)
  | lastMember {name before between bs : Bytes} {item : Tree} (hbefore : Gap before)
      (hname : Inside name) (hbetween : Gap between) (h : Spelled (.element item) bs) :
      Spelled (.members [(name, item)])
        (before ++ 0x22 :: (name ++ 0x22 :: (between ++ 0x3a :: bs)))
  | moreMembers {name before between bs more : Bytes} {item : Tree}
      {members : List (Bytes × Tree)} (hbefore : Gap before) (hname : Inside name)
      (hbetween : Gap between) (h : Spelled (.element item) bs)
      (hmore : Spelled (.members members) more) :
      Spelled (.members ((name, item) :: members))
        (before ++ 0x22 :: (name ++ 0x22 :: (between ++ 0x3a :: (bs ++ 0x2c :: more))))

/-! ## White space -/

variable {gap bs : Bytes}

theorem gap_nil : Gap [] := by
  intro b hb
  cases hb

theorem Gap.append {gap' : Bytes} (h : Gap gap) (h' : Gap gap') : Gap (gap ++ gap') := by
  intro b hb
  exact (List.mem_append.mp hb).elim (h b) (h' b)

theorem Spelled.value_is_element {tree : Tree} (h : Spelled (.value tree) bs) :
    Spelled (.element tree) bs := by
  have helement := Spelled.element gap_nil h gap_nil
  rwa [List.append_nil, List.nil_append] at helement

theorem Spelled.gap_append_element {tree : Tree} (hgap : Gap gap)
    (h : Spelled (.element tree) bs) : Spelled (.element tree) (gap ++ bs) := by
  cases h with
  | element hbefore h hafter =>
      rw [← List.append_assoc]
      exact .element (hgap.append hbefore) h hafter

theorem Spelled.gap_append_items {items : List Tree} (hgap : Gap gap)
    (h : Spelled (.items items) bs) : Spelled (.items items) (gap ++ bs) := by
  cases h with
  | lastItem h => exact .lastItem (h.gap_append_element hgap)
  | moreItems h hmore =>
      rw [← List.append_assoc]
      exact .moreItems (h.gap_append_element hgap) hmore

theorem Spelled.gap_append_members {members : List (Bytes × Tree)} (hgap : Gap gap)
    (h : Spelled (.members members) bs) : Spelled (.members members) (gap ++ bs) := by
  cases h with
  | lastMember hbefore hname hbetween h =>
      rw [← List.append_assoc]
      exact .lastMember (hgap.append hbefore) hname hbetween h
  | moreMembers hbefore hname hbetween h hmore =>
      rw [← List.append_assoc]
      exact .moreMembers (hgap.append hbefore) hname hbetween h hmore

/-! ## First bytes -/

/-- A byte with which a value can begin; the bracket that closes an empty array is none. -/
def Starts (b : UInt8) : Prop :=
  isBlank b = false ∧ b ≠ 0x5d

theorem eq_of_isBlank {b : UInt8} (h : isBlank b = true) :
    b = 0x20 ∨ b = 0x09 ∨ b = 0x0a ∨ b = 0x0d := by
  simpa only [isBlank, Bool.or_eq_true, beq_iff_eq, or_assoc] using h

theorem ne_of_isDigit {b x : UInt8} (h : isDigit b = true) (hx : isDigit x = false) : b ≠ x := by
  rintro rfl
  rw [h] at hx
  cases hx

theorem starts_of_isDigit {b : UInt8} (h : isDigit b = true) : Starts b := by
  refine ⟨Bool.eq_false_iff.mpr fun hblank => ?_, ne_of_isDigit h rfl⟩
  rcases eq_of_isBlank hblank with rfl | rfl | rfl | rfl <;> exact absurd h (by decide)

theorem Whole.exists_digit (h : Whole bs) :
    ∃ b tail, bs = b :: tail ∧ isDigit b = true := by
  obtain ⟨⟨hne, hdigits⟩, -⟩ := h
  obtain ⟨b, tail, rfl⟩ := List.exists_cons_of_ne_nil hne
  exact ⟨b, tail, rfl, hdigits b List.mem_cons_self⟩

/-- A number begins with a minus sign or a digit. -/
theorem Number.exists_first {text : NumberText} (h : Number text bs) :
    ∃ b tail, bs = b :: tail ∧ (b = 0x2d ∨ isDigit b = true) := by
  obtain @⟨negative, whole, behind, power, fraction, exponent, hwhole, -, -⟩ := h
  cases negative with
  | false =>
      obtain ⟨b, tail, rfl, hb⟩ := hwhole.exists_digit
      exact ⟨b, tail ++ (behind ++ power), rfl, Or.inr hb⟩
  | true => exact ⟨0x2d, whole ++ (behind ++ power), rfl, Or.inl rfl⟩

theorem Spelled.value_starts {tree : Tree} (h : Spelled (.value tree) bs) :
    ∃ b tail, bs = b :: tail ∧ Starts b := by
  cases h with
  | number h =>
      obtain ⟨b, tail, rfl, hb⟩ := h.exists_first
      refine ⟨b, tail, rfl, ?_⟩
      rcases hb with rfl | hdigit
      · exact ⟨rfl, by decide⟩
      · exact starts_of_isDigit hdigit
  | _ => exact ⟨_, _, rfl, rfl, by decide⟩

theorem Spelled.element_starts {tree : Tree} (h : Spelled (.element tree) bs) :
    ∃ gap b tail, bs = gap ++ b :: tail ∧ Gap gap ∧ Starts b := by
  cases h with
  | element hbefore h hafter =>
      obtain ⟨b, tail, rfl, hb⟩ := h.value_starts
      exact ⟨_, b, _, by rw [List.cons_append], hbefore, hb⟩

theorem Spelled.items_starts {items : List Tree} (h : Spelled (.items items) bs) :
    ∃ gap b tail, bs = gap ++ b :: tail ∧ Gap gap ∧ Starts b := by
  cases h with
  | lastItem h => exact h.element_starts
  | moreItems h hmore =>
      obtain ⟨gap, b, tail, rfl, hgap, hb⟩ := h.element_starts
      exact ⟨gap, b, _, by rw [List.append_assoc, List.cons_append], hgap, hb⟩

theorem Spelled.members_starts {members : List (Bytes × Tree)}
    (h : Spelled (.members members) bs) : ∃ gap tail, bs = gap ++ 0x22 :: tail ∧ Gap gap := by
  cases h with
  | lastMember hbefore hname hbetween h => exact ⟨_, _, rfl, hbefore⟩
  | moreMembers hbefore hname hbetween h hmore => exact ⟨_, _, rfl, hbefore⟩

end Keyring.Json.Grammar
