import Mathlib.Data.Finset.Card
import Mathlib.Data.List.DropRight
import Keyring.Proofs.Wallet.AddressCache

/-!
# Histories of a cache

An entry is inserted under the text of its path, and an entry that is there already stays.  So a
cache that was empty at first holds, for every path, the entry that was inserted for it first
since the cache was last cleared (`Keeps`).  Only the list of these inserts matters, not the text
under which they are kept: every path has a text of its own, so there are as many texts as there
are paths in the list.
-/

namespace Keyring.AddressCache

variable {c : AddressCache} {p : AddressPath} {e : AddressEntry}

/-! ## Single operations -/

theorem snd_insertThenGet (c : AddressCache) (p : AddressPath) (e : AddressEntry) :
    (c.insertThenGet p e).2 = c.insert p e := by
  cases h : c.get? p with
  | some kept => rw [insert_of_get?_eq_some h, insertThenGet, h]
  | none => rw [insert_of_get?_eq_none h, insertThenGet, h]

theorem fst_insertThenGet (c : AddressCache) (p : AddressPath) (e : AddressEntry) :
    (c.insertThenGet p e).1 = (c.get? p).getD e := by
  cases h : c.get? p <;> rw [insertThenGet, h] <;> rfl

/-- The answer is the entry that the path has from then on. -/
theorem get?_insertThenGet_self (c : AddressCache) (p : AddressPath) (e : AddressEntry) :
    (c.insertThenGet p e).2.get? p = some (c.insertThenGet p e).1 := by
  rw [snd_insertThenGet, fst_insertThenGet, get?_insert, if_pos rfl]

theorem contains_eq_true_iff : c.contains p = true ↔ ∃ e, c.get? p = some e := by
  rw [contains, Option.isSome_iff_exists]

/-- Inserting adds the text of the path to the keys, unless it is among them already. -/
theorem mem_keys_insert_iff {key : String} :
    key ∈ (c.insert p e).keys ↔ key ∈ c.keys ∨ key = p.cacheKey := by
  cases hget : c.get? p with
  | some kept =>
      have hmem : p.cacheKey ∈ c.keys := cacheKey_mem_keys_iff.mpr (by simp [hget])
      rw [insert_of_get?_eq_some hget]
      refine ⟨Or.inl, ?_⟩
      rintro (hkey | rfl)
      · exact hkey
      · exact hmem
  | none =>
      rw [insert_of_get?_eq_none hget, Or.comm]
      exact List.mem_cons

theorem isEmpty_iff_size_eq_zero : c.isEmpty = true ↔ c.size = 0 := by
  rw [isEmpty, size, List.isEmpty_iff, List.length_eq_zero_iff]

/-! ## Histories -/

/-- What can happen to a cache. -/
inductive Event
  | insert (path : AddressPath) (entry : AddressEntry)
  | clear

namespace Event

/-- The path and the entry that are inserted. -/
def inserted? : Event → Option (AddressPath × AddressEntry)
  | insert path entry => some (path, entry)
  | clear => none

/-- What was inserted since the last time that everything was forgotten, in order. -/
def sinceClear (history : List Event) : List (AddressPath × AddressEntry) :=
  (history.rtakeWhile (·.inserted?.isSome)).filterMap inserted?

theorem sinceClear_insert (history : List Event) (p : AddressPath) (e : AddressEntry) :
    sinceClear (history ++ [insert p e]) = sinceClear history ++ [(p, e)] := by
  rw [sinceClear, List.rtakeWhile_concat_pos _ _ _ rfl, List.filterMap_append]
  rfl

theorem sinceClear_clear (history : List Event) : sinceClear (history ++ [clear]) = [] := by
  rw [sinceClear, List.rtakeWhile_concat_neg _ _ _ Bool.false_ne_true, List.filterMap_nil]

end Event

/-- The cache after one event. -/
def apply (c : AddressCache) : Event → AddressCache
  | .insert path entry => (c.insertThenGet path entry).2
  | .clear => c.clear

/-- The cache after a history, the oldest event first. -/
def after (c : AddressCache) (history : List Event) : AddressCache :=
  history.foldl apply c

theorem after_concat (c : AddressCache) (history : List Event) (event : Event) :
    c.after (history ++ [event]) = (c.after history).apply event := by
  rw [after, List.foldl_append]
  rfl

/-! ## First entries -/

/-- The cache holds the first entry of every path in a list, under the text of the path, and
nothing else. -/
structure Keeps (c : AddressCache) (inserted : List (AddressPath × AddressEntry)) : Prop where
  get?_eq : ∀ p, c.get? p = inserted.lookup p
  keys_nodup : c.keys.Nodup
  mem_keys_iff : ∀ key, key ∈ c.keys ↔ ∃ p ∈ inserted.map Prod.fst, p.cacheKey = key

namespace Keeps

variable {inserted : List (AddressPath × AddressEntry)}

theorem empty : Keeps .empty [] where
  get?_eq := get?_empty
  keys_nodup := List.nodup_nil
  mem_keys_iff := fun _ => by simp [keys, AddressCache.empty]

/-- An entry comes behind the ones that were inserted before it. -/
theorem insertThenGet (h : c.Keeps inserted) (p : AddressPath) (e : AddressEntry) :
    (c.insertThenGet p e).2.Keeps (inserted ++ [(p, e)]) := by
  rw [snd_insertThenGet]
  constructor
  case get?_eq =>
    intro q
    rw [get?_insert, List.lookup_append, ← h.get?_eq, List.lookup_cons, List.lookup_nil]
    by_cases hq : q = p
    · rw [if_pos hq, hq, beq_self_eq_true]
      cases c.get? p <;> rfl
    · rw [if_neg hq, beq_eq_false_iff_ne.mpr hq, Option.or_none]
  case keys_nodup => exact keys_nodup_insert p e h.keys_nodup
  case mem_keys_iff =>
    intro key
    rw [mem_keys_insert_iff, h.mem_keys_iff]
    simp [or_and_right, exists_or, eq_comm]

/-- A history adds what is inserted in it, and begins anew whenever all is forgotten. -/
theorem after (history : List Event) :
    (AddressCache.empty.after history).Keeps (Event.sinceClear history) := by
  induction history using List.reverseRecOn with
  | nil => exact Keeps.empty
  | append_singleton history event ih =>
      rw [after_concat]
      cases event with
      | insert p e =>
          rw [Event.sinceClear_insert]
          exact ih.insertThenGet p e
      | clear =>
          rw [Event.sinceClear_clear]
          exact Keeps.empty

/-- Paths are counted by their texts, of which every path has its own. -/
theorem size_eq (h : c.Keeps inserted) : c.size = (inserted.map Prod.fst).toFinset.card := by
  have hinjective : Function.Injective AddressPath.cacheKey :=
    fun _ _ => AddressPath.cacheKey_injective
  have hsame : c.keys.toFinset = (inserted.map Prod.fst).toFinset.image AddressPath.cacheKey := by
    ext key
    rw [List.mem_toFinset, h.mem_keys_iff, Finset.mem_image]
    simp only [List.mem_toFinset]
  calc c.size = c.keys.length := (List.length_map _).symm
    _ = c.keys.toFinset.card := (List.toFinset_card_of_nodup h.keys_nodup).symm
    _ = (inserted.map Prod.fst).toFinset.card := by
        rw [hsame, Finset.card_image_of_injective _ hinjective]

end Keeps

/-! ## Main statement -/

/-- **The first entry of a path stays until everything is forgotten.**  After any history of an
empty cache, in which entries were inserted and all entries were forgotten, a path has the entry
that was inserted for it first since they were forgotten last, and none if there was no such
entry.  A path is contained if it has an entry.  Inserting one more entry answers with the one
that the path has then, the one it had before if there was any.  There are as many entries as
different paths for which some were inserted since then.  And all of this speaks of paths, though
entries are kept under their texts, since no two paths have the same text. -/
theorem first_entries_stay (history : List Event) :
    let c := AddressCache.empty.after history
    let inserted := Event.sinceClear history
    (∀ p, c.get? p = inserted.lookup p) ∧
    (∀ p, c.contains p = true ↔ ∃ e, c.get? p = some e) ∧
    (∀ p e, (c.insertThenGet p e).2.get? p = some (c.insertThenGet p e).1 ∧
      (c.insertThenGet p e).1 = (c.get? p).getD e) ∧
    c.size = (inserted.map Prod.fst).toFinset.card ∧
    (c.isEmpty = true ↔ inserted = []) ∧
    ∀ p q : AddressPath, p.cacheKey = q.cacheKey → p = q := by
  intro c inserted
  have hkeeps : c.Keeps inserted := .after history
  refine ⟨hkeeps.get?_eq, fun p => contains_eq_true_iff, fun p e => ?_, hkeeps.size_eq, ?_,
    fun p q => AddressPath.cacheKey_injective⟩
  · exact ⟨c.get?_insertThenGet_self p e, c.fst_insertThenGet p e⟩
  · rw [isEmpty_iff_size_eq_zero, hkeeps.size_eq, Finset.card_eq_zero, List.toFinset_eq_empty_iff,
      List.map_eq_nil_iff]

end Keyring.AddressCache
