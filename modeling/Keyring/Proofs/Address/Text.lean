import Keyring.Proofs.Address.Evm

/-!
# The texts that are read as addresses

The text of an address is looked at byte by byte, and a byte that belongs to a character beyond
ASCII is no digit.  So a hexadecimal text is one whose characters, in lower case, are the digits of
its bytes (`decode_ofList_eq_ok_iff`), whatever other characters there are in the world.  With an
optional mark in front this describes the texts that are read as an address (`ofText_eq_ok_iff`):
a mark is never taken for digits, since `x` is none.
-/

namespace Keyring

namespace Hex

/-! ## Digits in either case -/

theorem charValue?_ofNat_eq_some_iff : ∀ k < 128, ∀ n < 16,
    charValue? (Char.ofNat k) = some n ↔ (Char.ofNat k).toLower = digit n := by
  decide +kernel

theorem toLower_of_not_ascii {c : Char} (h : 128 ≤ c.toNat) : c.toLower = c := by
  have hletter : ¬ (c.val ≥ 'A'.val ∧ c.val ≤ 'Z'.val) := by
    rintro ⟨-, hupper⟩
    have hz : c.toNat ≤ 'Z'.toNat := UInt32.le_iff_toNat_le.mp hupper
    exact absurd (Nat.le_trans h hz) (by decide)
  exact dif_neg hletter

/-- A character has the value of the digit that it is in lower case. -/
theorem charValue?_eq_some_iff {c : Char} {n : Nat} (hn : n < 16) :
    charValue? c = some n ↔ c.toLower = digit n := by
  rcases Nat.lt_or_ge c.toNat 128 with hascii | hbig
  · have h := charValue?_ofNat_eq_some_iff c.toNat hascii n hn
    rwa [Char.ofNat_toNat] at h
  · rw [charValue?, if_neg (Nat.not_lt.mpr hbig), toLower_of_not_ascii hbig]
    refine iff_of_false (Option.some_ne_none n).symm ?_
    rintro rfl
    exact absurd (ascii_digit n hn) (Nat.not_lt.mpr hbig)

theorem map_charValue?_eq_iff {cs : List Char} {values : List Nat} (h : ∀ n ∈ values, n < 16) :
    cs.map charValue? = values.map some ↔ cs.map Char.toLower = values.map digit := by
  induction values generalizing cs with
  | nil => simp
  | cons n values ih =>
      obtain ⟨hn, hrest⟩ := List.forall_mem_cons.mp h
      cases cs with
      | nil => simp
      | cons c cs =>
          simp only [List.map_cons, List.cons.injEq, charValue?_eq_some_iff hn, ih hrest]

/-! ## Bytes of characters -/

theorem value?_eq_none_of_not_ascii {x : UInt8} (h : 128 ≤ x.toNat) : value? x = none := by
  simp only [value?]
  rw [if_neg (by omega), if_neg (by omega), if_neg (by omega)]

/-- What is read has no character beyond ASCII, since none of its bytes is a digit. -/
theorem ascii_of_decodeBytes_eq_ok {cs : List Char} {b : Bytes}
    (h : decodeBytes (Bytes.ofChars cs) = .ok b) : ∀ c ∈ cs, c.toNat < 128 := by
  intro c hc
  by_contra hbig
  obtain ⟨x, hx⟩ := List.exists_mem_of_ne_nil _ (String.utf8EncodeChar_ne_nil (c := c))
  have hmem : x ∈ Bytes.ofChars cs := List.mem_flatMap.mpr ⟨c, hc, hx⟩
  exact value?_ne_none_of_decodeBytes_eq_ok h hmem (value?_eq_none_of_not_ascii
    (Bytes.toNat_of_mem_utf8EncodeChar (Nat.not_lt.mp hbig) hx))

/-- A text is read if its characters are digits of either case. -/
theorem decode_ofList_eq_ok_iff {cs : List Char} {b : Bytes} :
    decode (String.ofList cs) = .ok b ↔ cs.map Char.toLower = digits b := by
  rw [digits_eq, ← map_charValue?_eq_iff fun _ => lt_of_mem_nibbles]
  refine ⟨fun h => ?_, decode_ofList⟩
  rw [decode, Bytes.ofString_ofList] at h
  have hascii := ascii_of_decodeBytes_eq_ok h
  rw [decodeBytes_eq_ok_iff, Bytes.ofChars_of_ascii hascii, List.map_map] at h
  rw [← h]
  exact List.map_congr_left fun c hc => if_pos (hascii c hc)

theorem x_notMem_digits (b : Bytes) : 'x' ∉ digits b := by
  rw [digits_eq]
  intro hx
  obtain ⟨n, hn, hdigit⟩ := List.mem_map.mp hx
  have hmem := digit_mem n (lt_of_mem_nibbles hn)
  rw [hdigit] at hmem
  exact absurd hmem (by decide)

end Hex

namespace EvmAddress

variable {s : String} {a : EvmAddress}

/-! ## Marks -/

/-- What may stand in front of the digits of an address. -/
def marks : List String :=
  ["", "0x", "0X"]

theorem exists_mark (s : String) :
    ∃ mark ∈ marks, s = mark ++ String.ofList (stripPrefix s) := by
  unfold stripPrefix
  split
  · next rest hs =>
      refine ⟨"0x", by simp [marks], String.toList_inj.mp ?_⟩
      simp only [hs, String.toList_append, String.toList_ofList]
      rfl
  · next rest hs =>
      refine ⟨"0X", by simp [marks], String.toList_inj.mp ?_⟩
      simp only [hs, String.toList_append, String.toList_ofList]
      rfl
  · refine ⟨"", by simp [marks], ?_⟩
    rw [String.empty_append, String.ofList_toList]

/-- A mark is taken off, and digits are left alone. -/
theorem stripPrefix_mark_append {mark : String} {cs : List Char} (hmark : mark ∈ marks)
    (h : ∀ c ∈ cs, c.toLower ≠ 'x') : stripPrefix (mark ++ String.ofList cs) = cs := by
  simp only [marks, List.mem_cons, List.not_mem_nil, or_false] at hmark
  rcases hmark with rfl | rfl | rfl
  · rw [String.empty_append, stripPrefix, String.toList_ofList]
    split
    · exact absurd rfl (h 'x' (by simp))
    · exact absurd rfl (h 'X' (by simp))
    · rfl
  · simp only [stripPrefix, String.toList_append, String.toList_ofList]
    rfl
  · simp only [stripPrefix, String.toList_append, String.toList_ofList]
    rfl

/-- A text is read as an address if it is the 40 digits of it, of either case, perhaps behind a
mark. -/
theorem ofText_eq_ok_iff : ofText s = .ok a ↔ ∃ mark ∈ marks, ∃ cs : List Char,
    s = mark ++ String.ofList cs ∧ cs.map Char.toLower = Hex.digits a.toBytes := by
  constructor
  · intro h
    obtain ⟨b, hdecode, hlength, rfl⟩ := ofText_eq_ok_iff_bytes.mp h
    obtain ⟨mark, hmark, hs⟩ := exists_mark s
    exact ⟨mark, hmark, stripPrefix s, hs, by
      rw [toBytes_ofBytes hlength, ← Hex.decode_ofList_eq_ok_iff, hdecode]⟩
  · rintro ⟨mark, hmark, cs, rfl, hdigits⟩
    have hplain : ∀ c ∈ cs, c.toLower ≠ 'x' := by
      intro c hc hx
      have hmem : 'x' ∈ Hex.digits a.toBytes := by
        rw [← hdigits, ← hx]
        exact List.mem_map_of_mem hc
      exact Hex.x_notMem_digits _ hmem
    rw [ofText_eq_ok_iff_bytes, stripPrefix_mark_append hmark hplain]
    exact ⟨a.toBytes, Hex.decode_ofList_eq_ok_iff.mpr hdigits, length_toBytes a,
      (ofBytes_toBytes a).symm⟩

/-- Any other text is refused as an address. -/
theorem exists_fault_of_ofText_ne_ok (h : ∀ a, ofText s ≠ .ok a) :
    ∃ fault, ofText s = .error (.address fault) := by
  unfold ofText at h ⊢
  split at h
  · exact ⟨_, rfl⟩
  · next b hdecode =>
      split at h
      · exact absurd rfl (h _)
      · next hlength => exact ⟨_, if_neg hlength⟩

end EvmAddress

end Keyring
