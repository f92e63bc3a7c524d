import Keyring.Proofs.Json.Number
import Keyring.Proofs.Json.Scanner
import Keyring.Proofs.Json.Text
import Keyring.Proofs.Outcome

/-!
# Reading written documents

A written value spells the document that holds its numbers and texts as they were written
(`Value.toTree`), so this document is read (`Tree.ofBytes?_bytes`).  A record that was written is
read field by field (`Tree.record?_toTree`).
-/

namespace Keyring.Json

open Keyring.Bytes Grammar

mutual

/-- The document that is read where a value was written. -/
def Value.toTree : Value → Tree
  | .null => .null
  | .bool b => .bool b
  | .number n => .number (numberText n)
  | .string s => .string (rawText s)
  | .array items => .array (Value.itemTrees items)
  | .object members => .object (Value.memberTrees members)

def Value.itemTrees : List Value → List Tree
  | [] => []
  | item :: rest => item.toTree :: Value.itemTrees rest

def Value.memberTrees : List (String × Value) → List (Bytes × Tree)
  | [] => []
  | (name, item) :: rest => (rawText name, item.toTree) :: Value.memberTrees rest

end

/-! ## Written values -/

theorem ofChars_quoted (s : String) :
    ofChars (Value.quoted s) = 0x22 :: (rawText s ++ [0x22]) := by
  rw [Value.quoted, ofChars_cons_of_ascii (by decide), ofChars_append,
    ofChars_cons_of_ascii (by decide), ofChars_nil]
  rfl

theorem ofChars_array (items : List Value) :
    ofChars (Value.array items).chars = 0x5b :: (ofChars (Value.itemChars items) ++ [0x5d]) := by
  rw [Value.chars, ofChars_cons_of_ascii (by decide), ofChars_append,
    ofChars_cons_of_ascii (by decide), ofChars_nil]
  rfl

theorem ofChars_object (members : List (String × Value)) :
    ofChars (Value.object members).chars =
      0x7b :: (ofChars (Value.memberChars members) ++ [0x7d]) := by
  rw [Value.chars, ofChars_cons_of_ascii (by decide), ofChars_append,
    ofChars_cons_of_ascii (by decide), ofChars_nil]
  rfl

theorem ofChars_itemChars (item item' : Value) (items : List Value) :
    ofChars (Value.itemChars (item :: item' :: items)) =
      ofChars item.chars ++ 0x2c :: ofChars (Value.itemChars (item' :: items)) := by
  rw [Value.itemChars, ofChars_append, ofChars_cons_of_ascii (by decide)]
  · rfl
  · simp

theorem ofChars_member (name : String) (cs : List Char) :
    ofChars (Value.quoted name ++ ':' :: cs) =
      0x22 :: (rawText name ++ 0x22 :: 0x3a :: ofChars cs) := by
  rw [ofChars_append, ofChars_cons_of_ascii (by decide), ofChars_quoted, List.cons_append,
    List.append_assoc]
  rfl

mutual

theorem Value.spelled : ∀ v : Value, Spelled (.value v.toTree) (ofChars v.chars)
  | .null => .null
  | .bool true => .yes
  | .bool false => .no
  | .number n => .number (number_numberText n)
  | .string s => by
      rw [chars, ofChars_quoted]
      exact .string (inside_rawText s)
  | .array [] => .emptyArray gap_nil
  | .array (item :: items) => by
      rw [ofChars_array]
      exact .array (itemChars_spelled (item :: items) (List.cons_ne_nil _ _))
  | .object [] => .emptyObject gap_nil
  | .object (member :: members) => by
      rw [ofChars_object]
      exact .object (memberChars_spelled (member :: members) (List.cons_ne_nil _ _))

theorem Value.itemChars_spelled : ∀ items : List Value, items ≠ [] →
    Spelled (.items (itemTrees items)) (ofChars (itemChars items))
  | [], hne => absurd rfl hne
  | [item], _ => .lastItem (spelled item).value_is_element
  | item :: item' :: items, _ => by
      rw [ofChars_itemChars]
      exact .moreItems (spelled item).value_is_element
        (itemChars_spelled (item' :: items) (List.cons_ne_nil _ _))

theorem Value.memberChars_spelled : ∀ members : List (String × Value), members ≠ [] →
    Spelled (.members (memberTrees members)) (ofChars (memberChars members))
  | [], hne => absurd rfl hne
  | [(name, item)], _ => by
      rw [memberChars, ofChars_member]
      exact .lastMember gap_nil (inside_rawText name) gap_nil (spelled item).value_is_element
  | (name, item) :: member :: members, _ => by
      rw [memberChars, ofChars_member, ofChars_append, ofChars_cons_of_ascii (by decide)]
      · exact .moreMembers gap_nil (inside_rawText name) gap_nil (spelled item).value_is_element
          (memberChars_spelled (member :: members) (List.cons_ne_nil _ _))
      · simp

end

/-- **A written value is read back as its document.** -/
theorem Tree.ofBytes?_bytes (v : Value) : ofBytes? v.bytes = some v.toTree := by
  rw [Value.bytes, Value.compact, ofString_ofList]
  exact ofBytes?_eq_some_iff.mpr v.spelled.value_is_element

/-! ## Written records -/

theorem itemTrees_eq_map (items : List Value) :
    Value.itemTrees items = items.map Value.toTree := by
  induction items with
  | nil => rfl
  | cons item items ih => rw [Value.itemTrees, ih, List.map_cons]

theorem memberTrees_eq_map (members : List (String × Value)) :
    Value.memberTrees members =
      (members.map fun (name, item) => (name, item.toTree)).map
        fun (name, tree) => (rawText name, tree) := by
  induction members with
  | nil => rfl
  | cons member members ih => rw [Value.memberTrees, ih, List.map_cons, List.map_cons]

namespace Tree

theorem decodeMembers?_memberTrees (members : List (String × Value)) :
    decodeMembers? (Value.memberTrees members) =
      some (members.map fun (name, item) => (name, item.toTree)) := by
  rw [memberTrees_eq_map]
  refine mapM_map_eq_some (fun (name, tree) => ?_) _
  simp only [Text.decode?_rawText, Option.bind_eq_bind, Option.bind_some]
  rfl

/-- The fields of a written record are found among the members as they were written. -/
theorem record?_toTree (repeats : Repeats) (names : List String)
    (members : List (String × Value)) :
    (Value.object members).toTree.record? repeats names =
      names.mapM (slot? repeats (members.map fun (name, item) => (name, item.toTree))) := by
  rw [Value.toTree, record?, decodeMembers?_memberTrees]
  rfl

/-- A written list is read back if each of its items is. -/
theorem list?_toTree {α : Type} {read : Tree → Option α} {write : α → Value}
    (h : ∀ a, read (write a).toTree = some a) (items : List α) :
    list? read (Value.array (items.map write)).toTree = some items := by
  rw [Value.toTree, list?, itemTrees_eq_map, List.map_map]
  exact mapM_map_eq_some h items

theorem string?_toTree (s : String) : string? (Value.string s).toTree = some s :=
  Text.decode?_rawText s

/-- A written optional text is read back; `null` is no text. -/
theorem open?_optional {α : Type} {read : Tree → Option α} {text : α → String}
    (h : ∀ a, read (Value.string (text a)).toTree = some a) (o : Option α) :
    open? read (some (Value.optional (fun a => .string (text a)) o).toTree) = some o := by
  cases o with
  | none => rfl
  | some a =>
      show (read (Value.string (text a)).toTree).map some = some (some a)
      rw [h, Option.map_some]

end Tree

end Keyring.Json
