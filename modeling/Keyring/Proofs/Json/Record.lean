import Keyring.Json.Reader
import Keyring.Proofs.Outcome

/-!
# Records in documents

A record is read from an object or from an array of its fields.  What is found in the place of each
field is said here without the steps of reading (`Record`): in an object it is the one value whose
name, with its escapes replaced, is the name of the field, and in an array it is the item that
stands in the same place.  A field that is not there leaves its place empty.

The members of an object that are named after no field do not matter, but their names have to be
texts.
-/

namespace Keyring.Json

/-- A natural number is written without sign, fraction and exponent. -/
theorem NumberText.natural?_eq_some_iff {text : NumberText} {n : Nat} : text.natural? = some n ↔
    ∃ digits, text = ⟨false, digits, none, none⟩ ∧ digitsValue digits = n := by
  obtain ⟨negative, whole, fraction, exponent⟩ := text
  cases negative <;> cases fraction <;> cases exponent <;>
    simp [natural?, isInteger]

namespace Tree

/-- The values of the members with a name. -/
def named (name : String) (members : List (Bytes × Tree)) : List Tree :=
  (members.filter fun member => Text.decode? member.1 == some name).map (·.2)

/-- A document holds a value for each of the fields of a record, or none. -/
inductive Record (names : List String) : Tree → List (Option Tree) → Prop
  | object {members : List (Bytes × Tree)} {slots : List (Option Tree)}
      (htexts : ∀ member ∈ members, ∃ s, Text.decode? member.1 = some s)
      (hslots : List.Forall₂ (fun name slot => named name members = slot.toList) names slots) :
      Record names (.object members) slots
  | array {items : List Tree} {missing : Nat} (hcount : items.length + missing = names.length) :
      Record names (.array items) (items.map some ++ List.replicate missing none)

variable {names : List String} {tree : Tree} {slots : List (Option Tree)}
  {members : List (Bytes × Tree)} {decoded : List (String × Tree)}

theorem Record.length_eq (h : Record names tree slots) : slots.length = names.length := by
  cases h with
  | object htexts hslots => exact hslots.length_eq.symm
  | array hcount => rw [List.length_append, List.length_map, List.length_replicate, hcount]

/-! ## Objects -/

theorem decodeMembers?_eq_some_iff : decodeMembers? members = some decoded ↔
    List.Forall₂ (fun member found => Text.decode? member.1 = some found.1 ∧ member.2 = found.2)
      members decoded := by
  have hmember : ∀ (member : Bytes × Tree) (found : String × Tree),
      (do return (← Text.decode? member.1, member.2) : Option (String × Tree)) = some found ↔
        Text.decode? member.1 = some found.1 ∧ member.2 = found.2 := by
    rintro ⟨raw, item⟩ ⟨name, found⟩
    simp only [Option.bind_eq_bind, Option.bind_eq_some_iff, Option.pure_def, Option.some.injEq,
      Prod.mk.injEq]
    constructor
    · rintro ⟨s, hs, rfl, rfl⟩
      exact ⟨hs, rfl⟩
    · rintro ⟨hs, rfl⟩
      exact ⟨name, hs, rfl, rfl⟩
  rw [decodeMembers?, mapM_eq_some_iff]
  simp only [hmember]

theorem exists_decodeMembers?_iff : (∃ decoded, decodeMembers? members = some decoded) ↔
    ∀ member ∈ members, ∃ s, Text.decode? member.1 = some s := by
  simp only [decodeMembers?_eq_some_iff]
  induction members with
  | nil => simp
  | cons member members ih =>
      rw [List.forall_mem_cons, ← ih]
      constructor
      · rintro ⟨decoded, hdecoded⟩
        cases hdecoded with
        | cons hmember hrest => exact ⟨⟨_, hmember.1⟩, _, hrest⟩
      · rintro ⟨⟨s, hs⟩, decoded, hrest⟩
        exact ⟨(s, member.2) :: decoded, .cons ⟨hs, rfl⟩ hrest⟩

/-- A member that was decoded has its name if it had it as written. -/
theorem valuesOf_of_decodeMembers? (h : decodeMembers? members = some decoded) (name : String) :
    valuesOf name decoded = named name members := by
  rw [decodeMembers?_eq_some_iff] at h
  unfold valuesOf named
  induction h with
  | nil => rfl
  | @cons member found members decoded hmember hrest ih =>
      obtain ⟨hname, hitem⟩ := hmember
      by_cases hsame : found.1 = name
      · rw [List.filter_cons_of_pos (by simpa using hsame),
          List.filter_cons_of_pos (by simpa [hname] using hsame), List.map_cons, List.map_cons, ih,
          hitem]
      · rw [List.filter_cons_of_neg (by simpa using hsame),
          List.filter_cons_of_neg (by simpa [hname] using hsame), ih]

/-- Where repeated fields are refused, a field has one value or none. -/
theorem slot?_refused_eq_some_iff {name : String} {slot : Option Tree} :
    slot? .refused decoded name = some slot ↔ valuesOf name decoded = slot.toList := by
  unfold slot?
  split
  · next hnone => cases slot <;> simp [hnone]
  · next t hone => cases slot <;> simp [hone]
  · next ts hnone hone =>
      rw [if_neg (by decide)]
      refine ⟨fun h => (by cases h), fun h => ?_⟩
      cases slot with
      | none => exact absurd h hnone
      | some t => exact absurd h (hone t)

/-! ## Main statement -/

theorem record?_array_eq_some_iff {items : List Tree} :
    (Tree.array items).record? .refused names = some slots ↔ Record names (.array items) slots := by
  have hcount : ∀ missing, items.length + missing = names.length →
      missing = names.length - items.length := fun missing h => by omega
  rw [record?, Option.ite_none_right_eq_some, Option.some.injEq]
  constructor
  · rintro ⟨hle, rfl⟩
    exact .array (Nat.add_sub_cancel' hle)
  · rintro ⟨⟩
    next missing hmissing =>
      exact ⟨by omega, by rw [hcount missing hmissing]⟩

/-- **Reading a record finds the fields that the document holds.** -/
theorem record?_eq_some_iff :
    tree.record? .refused names = some slots ↔ Record names tree slots := by
  cases tree with
  | array items => exact record?_array_eq_some_iff
  | object members =>
      rw [record?, Option.bind_eq_bind, Option.bind_eq_some_iff]
      have hslots : ∀ decoded, decodeMembers? members = some decoded →
          (names.mapM (slot? .refused decoded) = some slots ↔
            List.Forall₂ (fun name slot => named name members = slot.toList) names slots) := by
        intro decoded hdecoded
        rw [mapM_eq_some_iff]
        simp only [slot?_refused_eq_some_iff, valuesOf_of_decodeMembers? hdecoded]
      constructor
      · rintro ⟨decoded, hdecoded, hread⟩
        exact .object (exists_decodeMembers?_iff.mp ⟨decoded, hdecoded⟩)
          ((hslots decoded hdecoded).mp hread)
      · rintro ⟨⟩
        next htexts hread =>
          obtain ⟨decoded, hdecoded⟩ := exists_decodeMembers?_iff.mpr htexts
          exact ⟨decoded, hdecoded, (hslots decoded hdecoded).mpr hread⟩
  | _ =>
      constructor
      · intro h
        cases h
      · rintro ⟨⟩

/-! ## Fields -/

theorem string?_eq_some_iff {s : String} :
    tree.string? = some s ↔ ∃ raw, tree = .string raw ∧ Text.decode? raw = some s := by
  cases tree <;> simp [string?]

theorem uint32?_eq_some_iff {n : UInt32} : tree.uint32? = some n ↔
    ∃ digits, tree = .number ⟨false, digits, none, none⟩ ∧
      NumberText.digitsValue digits = n.toNat := by
  cases tree with
  | number text =>
      simp only [uint32?, unsigned?, Option.map_eq_some_iff, Option.bind_eq_bind,
        Option.bind_eq_some_iff, Option.ite_none_right_eq_some, Option.some.injEq,
        NumberText.natural?_eq_some_iff, Tree.number.injEq]
      constructor
      · rintro ⟨k, ⟨value, ⟨digits, rfl, rfl⟩, hlt, rfl⟩, rfl⟩
        exact ⟨digits, rfl, (UInt32.toNat_ofNat_of_lt' hlt).symm⟩
      · rintro ⟨digits, rfl, hvalue⟩
        exact ⟨n.toNat, ⟨n.toNat, ⟨digits, rfl, hvalue⟩, n.toNat_lt, rfl⟩, UInt32.ofNat_toNat⟩
  | _ => simp [uint32?, unsigned?]

theorem list?_eq_some_iff {α : Type} {read : Tree → Option α} {values : List α} :
    tree.list? read = some values ↔ ∃ items, tree = .array items ∧
      List.Forall₂ (fun item value => read item = some value) items values := by
  cases tree <;> simp [list?, mapM_eq_some_iff]

end Tree

end Keyring.Json
