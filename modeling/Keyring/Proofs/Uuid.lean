import Keyring.Proofs.Bytes
import Keyring.Proofs.Hex
import Keyring.Uuid

/-!
# Identifiers as texts

The text of an identifier is read back (`Uuid.ofText?_text`), so two identifiers with one text
are the same (`Uuid.text_inj`): where rows are kept and searched by text, they are kept and
searched by identifier.  Putting the hyphens in and taking them out follow the sizes of the
groups; the digits in between spell the number of the sixteen bytes.
-/

namespace Keyring

namespace Uuid

/-! ## Hyphens -/

theorem length_hyphenate (n : Nat) (ns : List Nat) {ds : List Char}
    (h : ds.length = (n :: ns).sum) :
    (hyphenate (n :: ns) ds).length = (n :: ns).sum + ns.length := by
  induction ns generalizing n ds with
  | nil =>
      rw [List.sum_singleton] at h
      rw [hyphenate, List.length_take, h, List.sum_singleton, Nat.min_self, List.length_nil]
      rfl
  | cons m ns ih =>
      rw [List.sum_cons] at h
      have hrest : (ds.drop n).length = (m :: ns).sum := by
        rw [List.length_drop]
        omega
      have hfirst : (ds.take n).length = n := by
        rw [List.length_take]
        omega
      rw [hyphenate, List.length_append, List.length_cons, ih m hrest, hfirst, List.length_cons]
      · simp only [List.sum_cons]
        omega
      · simp

/-- Hyphens that were put between groups of digits are taken out again. -/
theorem unhyphenate?_hyphenate (ns : List Nat) {ds : List Char} (h : ds.length = ns.sum) :
    unhyphenate? ns ((hyphenate ns ds).map fun c => UInt8.ofNat c.toNat) =
      some (ds.map fun c => UInt8.ofNat c.toNat) := by
  induction ns generalizing ds with
  | nil =>
      rw [List.sum_nil, List.length_eq_zero_iff] at h
      subst h
      rfl
  | cons n ns ih =>
      rw [List.sum_cons] at h
      cases ns with
      | nil =>
          have hn : ds.length = n := h
          rw [hyphenate, List.take_of_length_le hn.le, unhyphenate?, if_pos]
          rw [List.length_map, hn]
      | cons m ns =>
          have hrest : (ds.drop n).length = (m :: ns).sum := by
            rw [List.length_drop]
            omega
          have hfirst : ((ds.take n).map fun c => UInt8.ofNat c.toNat).length = n := by
            rw [List.length_map, List.length_take]
            omega
          have hhyphen : UInt8.ofNat '-'.toNat = 0x2d := rfl
          -- Behind the first group are a hyphen and the text of the other groups.
          rw [hyphenate, List.map_append, List.map_cons, unhyphenate?, List.drop_left' hfirst,
            List.take_left' hfirst, hhyphen]
          · simp only [ih hrest, Option.map_some]
            rw [← List.map_append, List.take_append_drop]
          · simp
          · simp

theorem mem_of_mem_hyphenate {ns : List Nat} {ds : List Char} {c : Char}
    (h : c ∈ hyphenate ns ds) : c = '-' ∨ c ∈ ds := by
  induction ns generalizing ds with
  | nil => cases h
  | cons n ns ih =>
      cases ns with
      | nil => exact .inr (List.mem_of_mem_take h)
      | cons m ns =>
          rw [hyphenate, List.mem_append, List.mem_cons] at h
          · rcases h with h | h | h
            · exact .inr (List.mem_of_mem_take h)
            · exact .inl h
            · exact (ih h).imp_right List.mem_of_mem_drop
          · simp

/-! ## Reading what was written -/

theorem ofDigits?_digits (u : Uuid) :
    ofDigits? ((Hex.digits (Bytes.ofNat 16 u.toNat)).map fun c => UInt8.ofNat c.toNat) =
      some u := by
  have hnumber : Bytes.toNat (Bytes.ofNat 16 u.toNat) = u.toNat :=
    Bytes.toNat_ofNat_of_lt u.isLt
  have hvalues := Hex.map_value?_encode (Bytes.ofNat 16 u.toNat)
  rw [Hex.encode, Bytes.ofString_ofList, Bytes.ofChars_of_ascii Hex.ascii_of_mem_digits] at hvalues
  rw [ofDigits?, if_pos, Hex.toNat?_eq_some hvalues, Hex.value_nibbles, hnumber, Option.map_some,
    BitVec.ofNat_toNat, BitVec.setWidth_eq]
  rw [List.length_map, Hex.length_digits, Bytes.length_ofNat]

@[simp] theorem ofText?_text (u : Uuid) : ofText? u.text = some u := by
  have hdigits : (Hex.digits (Bytes.ofNat 16 u.toNat)).length = groups.sum := by
    rw [Hex.length_digits, Bytes.length_ofNat]
    rfl
  have hascii : ∀ c ∈ hyphenate groups (Hex.digits (Bytes.ofNat 16 u.toNat)), c.toNat < 128 := by
    intro c hc
    rcases mem_of_mem_hyphenate hc with rfl | hc
    · decide
    · exact Hex.ascii_of_mem_digits c hc
  have hbytes : Bytes.ofString u.text = (hyphenate groups
      (Hex.digits (Bytes.ofNat 16 u.toNat))).map fun c => UInt8.ofNat c.toNat := by
    rw [text, Bytes.ofString_ofList, Bytes.ofChars_of_ascii hascii]
  have hlength : (Bytes.ofString u.text).length = 36 := by
    rw [hbytes, List.length_map, groups, length_hyphenate _ _ hdigits]
    rfl
  simp only [ofText?, hlength]
  rw [ofHyphenated?, hbytes, unhyphenate?_hyphenate _ hdigits, Option.bind_some, ofDigits?_digits]

theorem text_inj {u v : Uuid} : u.text = v.text ↔ u = v := by
  refine ⟨fun h => ?_, fun h => congrArg text h⟩
  have hread := congrArg ofText? h
  rwa [ofText?_text, ofText?_text, Option.some.injEq] at hread

end Uuid

end Keyring
