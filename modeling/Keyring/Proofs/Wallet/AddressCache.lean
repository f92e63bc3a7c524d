import Mathlib.Data.List.Basic
import Keyring.Proofs.Text.Decimal
import Keyring.Wallet.AddressCache

/-!
# The cache of addresses as a map

A cache finds its entries by the text of a path.  `AddressPath.cacheKey_injective` says
that the text belongs to one path only, so the cache is a map from paths: `get?_insert`
is its law, and the first entry of a path wins.  The list behind the map only ever grows
at its front, and its keys stay distinct.
-/

namespace Keyring

/-! ## The text of a path -/

theorem AddressPath.toList_cacheKey (p : AddressPath) :
    p.cacheKey.toList =
      Text.wordDigits p.account ++ '\'' :: '/' ::
        (Text.wordDigits p.change ++ '/' :: Text.wordDigits p.addressIndex) := by
  simp only [cacheKey, String.toList_append, Text.toList_toString_word]
  simp

/-- Different paths have different texts: the number of each level ends at the first
character that is no digit. -/
theorem AddressPath.cacheKey_injective {p q : AddressPath} (h : p.cacheKey = q.cacheKey) :
    p = q := by
  have hlists := congrArg String.toList h
  rw [toList_cacheKey, toList_cacheKey] at hlists
  -- The account ends at the apostrophe, the change number at the slash behind it.
  obtain ⟨haccount, hrest⟩ :=
    Text.wordDigits_append_inj (by simp) (by simp) hlists
  simp only [List.cons.injEq, true_and] at hrest
  obtain ⟨hchange, hrest⟩ := Text.wordDigits_append_inj (by simp) (by simp) hrest
  simp only [List.cons.injEq, true_and] at hrest
  have hindex := Text.wordDigits_injective hrest
  cases p
  cases q
  simp_all

namespace AddressCache

variable {c : AddressCache} {p q : AddressPath} {e kept : AddressEntry}

/-! ## Looking up -/

@[simp] theorem get?_empty (p : AddressPath) : empty.get? p = none := rfl

theorem contains_eq_false_iff : c.contains p = false ↔ c.get? p = none := by
  simp [contains]

/-- A path that has an entry keeps it. -/
theorem insert_of_get?_eq_some (h : c.get? p = some kept) : c.insert p e = c := by
  simp [insert, contains, h]

theorem insert_of_get?_eq_none (h : c.get? p = none) :
    c.insert p e = ⟨(p.cacheKey, e) :: c.entries⟩ := by
  simp [insert, contains, h]

/-- The law of the cache: the first entry of a path wins, and no other path notices. -/
theorem get?_insert (c : AddressCache) (p q : AddressPath) (e : AddressEntry) :
    (c.insert p e).get? q = if q = p then some ((c.get? p).getD e) else c.get? q := by
  cases h : c.get? p with
  | some kept =>
      rw [insert_of_get?_eq_some h]
      split
      · next hq => rw [hq, h, Option.getD_some]
      · rfl
  | none =>
      rw [insert_of_get?_eq_none h]
      simp only [get?, List.lookup_cons, Option.getD_none]
      by_cases hq : q = p
      · simp [hq]
      · -- The list compares texts, so another path must not have the text of `p`.
        have hkey : (q.cacheKey == p.cacheKey) = false :=
          beq_eq_false_iff_ne.mpr fun hkey => hq (AddressPath.cacheKey_injective hkey)
        rw [if_neg hq, hkey]

/-- No entry is changed by another one that comes later. -/
theorem get?_insert_of_get?_eq_some (e : AddressEntry) (h : c.get? q = some kept) :
    (c.insert p e).get? q = some kept := by
  rw [get?_insert]
  split
  · next hq => rw [← hq, h, Option.getD_some]
  · exact h

/-! ## The list of entries -/

/-- The texts of the paths that have an entry. -/
def keys (c : AddressCache) : List String :=
  c.entries.map Prod.fst

theorem cacheKey_mem_keys_iff : p.cacheKey ∈ c.keys ↔ c.get? p ≠ none := by
  simp only [keys, get?, ne_eq, List.lookup_eq_none_iff, List.mem_map]
  constructor
  · rintro ⟨entry, hentry, hkey⟩ hnone
    simpa [hkey] using hnone entry hentry
  · intro hsome
    by_contra hnone
    refine hsome fun entry hentry => ?_
    simp only [bne_iff_ne, ne_eq]
    exact fun hkey => hnone ⟨entry, hentry, hkey.symm⟩

theorem entries_suffix_insert (c : AddressCache) (p : AddressPath) (e : AddressEntry) :
    c.entries <:+ (c.insert p e).entries := by
  cases h : c.get? p with
  | some kept => simp [insert_of_get?_eq_some h]
  | none => simp [insert_of_get?_eq_none h]

theorem keys_nodup_insert (p : AddressPath) (e : AddressEntry) (hnodup : c.keys.Nodup) :
    (c.insert p e).keys.Nodup := by
  cases h : c.get? p with
  | some kept => rwa [insert_of_get?_eq_some h]
  | none =>
      have hnew : p.cacheKey ∉ c.keys := fun hmem => cacheKey_mem_keys_iff.mp hmem h
      rw [insert_of_get?_eq_none h]
      exact List.nodup_cons.mpr ⟨hnew, hnodup⟩

theorem mem_entries_insert {entry : String × AddressEntry}
    (hmem : entry ∈ (c.insert p e).entries) : entry = (p.cacheKey, e) ∨ entry ∈ c.entries := by
  cases h : c.get? p with
  | some kept =>
      rw [insert_of_get?_eq_some h] at hmem
      exact Or.inr hmem
  | none =>
      rw [insert_of_get?_eq_none h] at hmem
      exact List.mem_cons.mp hmem

/-- Two caches that hold the same entries.  In which order they were kept cannot be seen. -/
structure Agrees (c c' : AddressCache) : Prop where
  entries_perm : c.entries.Perm c'.entries
  get?_eq : ∀ p, c.get? p = c'.get? p

/-- What is found under the text of a path is one of the entries. -/
theorem mem_entries_of_get? (h : c.get? p = some e) : (p.cacheKey, e) ∈ c.entries := by
  obtain ⟨before, after, hentries, -⟩ := List.lookup_eq_some_iff.mp h
  rw [hentries]
  simp

end AddressCache

end Keyring
