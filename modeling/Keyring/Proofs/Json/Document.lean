import Keyring.Proofs.Json.Reading

/-!
# Documents that are read as a whole

Where all of a document is read, each of its parts is held to more than the grammar: a number
has to be in range, a string and the name of a member have to be texts, and an array or an object
must not stand too deep.  So a document is one that the grammar spells and all parts of which are
readable (`Document`).

What the library writes itself is readable as long as its numbers are: a text is written so that
it can be read, and the depth is that of the value.
-/

namespace Keyring.Json

open Grammar

namespace Tree

/-- A document holds a part inside of so many brackets and braces. -/
inductive Holds : Tree → Nat → Tree → Prop
  | itself (tree : Tree) : Holds tree 0 tree
  | item {items : List Tree} {item part : Tree} {depth : Nat} (hitem : item ∈ items)
      (h : Holds item depth part) : Holds (.array items) (depth + 1) part
  | member {members : List (Bytes × Tree)} {name : Bytes} {item part : Tree} {depth : Nat}
      (hmember : (name, item) ∈ members) (h : Holds item depth part) :
      Holds (.object members) (depth + 1) part

/-- A part can be read that stands inside of `depth` brackets and braces, of which there may be
`limit` with its own. -/
def Readable (limit depth : Nat) : Tree → Prop
  | .null => True
  | .bool _ => True
  | .number text => text.inRange = true
  | .string raw => ∃ s, Text.decode? raw = some s
  | .array _ => depth < limit
  | .object members => depth < limit ∧ ∀ member ∈ members, ∃ s, Text.decode? member.1 = some s

variable {limit depth : Nat} {part : Tree}

theorem readable_succ_iff : Readable (limit + 1) (depth + 1) part ↔ Readable limit depth part := by
  cases part <;> simp [Readable]

theorem forall_holds_array_iff {items : List Tree} :
    (∀ depth part, Holds (.array items) depth part → Readable (limit + 1) depth part) ↔
      ∀ item ∈ items, ∀ depth part, Holds item depth part → Readable limit depth part := by
  constructor
  · intro h item hitem depth part hpart
    exact readable_succ_iff.mp (h _ _ (.item hitem hpart))
  · intro h depth part hpart
    cases hpart with
    | itself => exact Nat.succ_pos limit
    | item hitem hpart => exact readable_succ_iff.mpr (h _ hitem _ _ hpart)

theorem forall_holds_object_iff {members : List (Bytes × Tree)} :
    (∀ depth part, Holds (.object members) depth part → Readable (limit + 1) depth part) ↔
      ∀ member ∈ members, (∃ s, Text.decode? member.1 = some s) ∧
        ∀ depth part, Holds member.2 depth part → Readable limit depth part := by
  constructor
  · intro h member hmember
    refine ⟨(h _ _ (.itself _)).2 member hmember, fun depth part hpart => ?_⟩
    exact readable_succ_iff.mp (h _ _ (.member hmember hpart))
  · intro h depth part hpart
    cases hpart with
    | itself => exact ⟨Nat.succ_pos limit, fun member hmember => (h member hmember).1⟩
    | member hmember hpart => exact readable_succ_iff.mpr ((h _ hmember).2 _ _ hpart)

theorem forall_holds_iff_of_leaf {tree : Tree}
    (hleaf : ∀ depth part, Holds tree depth part → depth = 0 ∧ part = tree) :
    (∀ depth part, Holds tree depth part → Readable limit depth part) ↔
      Readable limit 0 tree := by
  constructor
  · intro h
    exact h 0 tree (.itself tree)
  · intro h depth part hpart
    obtain ⟨rfl, rfl⟩ := hleaf depth part hpart
    exact h

mutual

theorem isStrict_iff : ∀ (limit : Nat) (tree : Tree), isStrict limit tree = true ↔
    ∀ depth part, Holds tree depth part → Readable limit depth part
  | limit, .null => by
      rw [forall_holds_iff_of_leaf (by rintro _ _ ⟨⟩; exact ⟨rfl, rfl⟩)]
      simp [isStrict, Readable]
  | limit, .bool b => by
      rw [forall_holds_iff_of_leaf (by rintro _ _ ⟨⟩; exact ⟨rfl, rfl⟩)]
      simp [isStrict, Readable]
  | limit, .number text => by
      rw [forall_holds_iff_of_leaf (by rintro _ _ ⟨⟩; exact ⟨rfl, rfl⟩), isStrict, Readable]
  | limit, .string raw => by
      rw [forall_holds_iff_of_leaf (by rintro _ _ ⟨⟩; exact ⟨rfl, rfl⟩), isStrict, Readable,
        Option.isSome_iff_exists]
  | 0, .array items => by
      refine ⟨fun h => (by simp [isStrict] at h), fun h => ?_⟩
      exact absurd (h 0 _ (.itself _)) (Nat.lt_irrefl 0)
  | 0, .object members => by
      refine ⟨fun h => (by simp [isStrict] at h), fun h => ?_⟩
      exact absurd (h 0 _ (.itself _)).1 (Nat.lt_irrefl 0)
  | limit + 1, .array items => by
      rw [forall_holds_array_iff, isStrict]
      exact allStrict_iff limit items
  | limit + 1, .object members => by
      rw [forall_holds_object_iff, isStrict]
      exact membersStrict_iff limit members

theorem allStrict_iff : ∀ (limit : Nat) (items : List Tree), allStrict limit items = true ↔
    ∀ item ∈ items, ∀ depth part, Holds item depth part → Readable limit depth part
  | limit, [] => by simp [allStrict]
  | limit, item :: items => by
      rw [allStrict, Bool.and_eq_true, isStrict_iff limit item, allStrict_iff limit items,
        List.forall_mem_cons]

theorem membersStrict_iff : ∀ (limit : Nat) (members : List (Bytes × Tree)),
    membersStrict limit members = true ↔
      ∀ member ∈ members, (∃ s, Text.decode? member.1 = some s) ∧
        ∀ depth part, Holds member.2 depth part → Readable limit depth part
  | limit, [] => by simp [membersStrict]
  | limit, (name, item) :: members => by
      rw [membersStrict, Bool.and_eq_true, Bool.and_eq_true, isStrict_iff limit item,
        membersStrict_iff limit members, List.forall_mem_cons, Option.isSome_iff_exists]

end

end Tree

/-- A byte string is a document that is read as a whole: the grammar spells it, and all of its
parts are readable, with at most 127 levels of nesting. -/
structure Document (bs : Bytes) (tree : Tree) : Prop where
  spelled : Spelled (.element tree) bs
  readable : ∀ depth part, tree.Holds depth part → part.Readable 127 depth

namespace Tree

/-- **What is read as a whole are the documents.** -/
theorem ofStrictBytes?_eq_some_iff {bs : Bytes} {tree : Tree} :
    ofStrictBytes? bs = some tree ↔ Document bs tree := by
  rw [ofStrictBytes?, Option.filter_eq_some_iff, ofBytes?_eq_some_iff, isStrict_iff]
  exact ⟨fun h => ⟨h.1, h.2⟩, fun h => ⟨h.1, h.2⟩⟩

theorem ofStrictBytes?_eq_none_iff {bs : Bytes} :
    ofStrictBytes? bs = none ↔ ¬ ∃ tree, Document bs tree := by
  simp only [← ofStrictBytes?_eq_some_iff, ← Option.isSome_iff_exists,
    Option.not_isSome_iff_eq_none]

/-! ## Written values -/

theorem allStrict_itemTrees (limit : Nat) (items : List Value) :
    allStrict limit (Value.itemTrees items) = items.all fun item => item.toTree.isStrict limit := by
  induction items with
  | nil => rfl
  | cons item items ih => rw [Value.itemTrees, allStrict, ih, List.all_cons]

theorem membersStrict_memberTrees (limit : Nat) (members : List (String × Value)) :
    membersStrict limit (Value.memberTrees members) =
      members.all fun member => member.2.toTree.isStrict limit := by
  induction members with
  | nil => rfl
  | cons member members ih =>
      rw [Value.memberTrees, membersStrict, Text.decode?_rawText, ih, List.all_cons]
      rfl

theorem isStrict_string (limit : Nat) (s : String) :
    (Value.string s).toTree.isStrict limit = true := by
  rw [Value.toTree, isStrict, Text.decode?_rawText]
  rfl

theorem isStrict_optional (limit : Nat) {α : Type} (text : α → String) (o : Option α) :
    (Value.optional (fun a => .string (text a)) o).toTree.isStrict limit = true := by
  cases o with
  | none => rfl
  | some a => exact isStrict_string limit (text a)

theorem isStrict_ofNat (limit : Nat) {n : Nat} (h : n < UInt64.size) :
    (Value.ofNat n).toTree.isStrict limit = true := by
  rw [Value.ofNat, Value.toTree, isStrict]
  exact inRange_numberText h

theorem isStrict_array_iff {limit : Nat} {items : List Value} :
    (Value.array items).toTree.isStrict (limit + 1) = true ↔
      ∀ item ∈ items, item.toTree.isStrict limit = true := by
  rw [Value.toTree, isStrict, allStrict_itemTrees, List.all_eq_true]

theorem isStrict_object_iff {limit : Nat} {members : List (String × Value)} :
    (Value.object members).toTree.isStrict (limit + 1) = true ↔
      ∀ member ∈ members, member.2.toTree.isStrict limit = true := by
  rw [Value.toTree, isStrict, membersStrict_memberTrees, List.all_eq_true]

/-- A written value is read as a whole if its numbers are in range and it is not too deep. -/
theorem ofStrictBytes?_bytes {v : Value} (h : v.toTree.isStrict depthLimit = true) :
    ofStrictBytes? v.bytes = some v.toTree := by
  rw [ofStrictBytes?, ofBytes?_bytes, Option.filter_some, if_pos h]

end Tree

end Keyring.Json
