import Mathlib.Data.List.GetD
import Keyring.Cipher.Aes

/-!
# The sizes of blocks

The operations of a round are defined for lists of any length, and none of them changes the length
of a block.  So all that encryption needs for a block of 16 bytes are round keys of 16 bytes, and
these are what a key of 32 bytes is extended to (`length_of_mem_roundKeys`): a schedule of 60 words
of four bytes each, cut into 15 pieces.
-/

namespace Keyring

theorem Bytes.length_xor (a b : Bytes) : (Bytes.xor a b).length = min a.length b.length :=
  List.length_zipWith

namespace Aes

/-! ## Rounds -/

theorem length_shiftRows (s : Bytes) : (shiftRows s).length = s.length := by
  unfold shiftRows
  split <;> rfl

theorem length_mixColumns : ∀ s : Bytes, (mixColumns s).length = s.length
  | _ :: _ :: _ :: _ :: rest => by
      simp only [mixColumns, List.length_cons, length_mixColumns rest]
  | [] | [_] | [_, _] | [_, _, _] => rfl

theorem length_rounds {keys : List Bytes} (hkeys : ∀ key ∈ keys, key.length = 16) {s : Bytes}
    (hs : s.length = 16) : (rounds keys s).length = 16 := by
  fun_induction rounds keys s with
  | case1 s => exact hs
  | case2 last s =>
      rw [Bytes.length_xor, length_shiftRows, List.length_map, hs, hkeys last List.mem_cons_self,
        Nat.min_self]
  | case3 key keys s hmore ih =>
      refine ih (fun key' hkey' => hkeys key' (List.mem_cons_of_mem _ hkey')) ?_
      rw [Bytes.length_xor, length_mixColumns, length_shiftRows, List.length_map, hs,
        hkeys key List.mem_cons_self, Nat.min_self]

/-- A block is encrypted to a block. -/
theorem length_encryptBlock {keys : List Bytes} (hkeys : ∀ key ∈ keys, key.length = 16)
    {block : Bytes} (hblock : block.length = 16) : (encryptBlock keys block).length = 16 := by
  cases keys with
  | nil => exact hblock
  | cons first rest =>
      refine length_rounds (fun key hkey => hkeys key (List.mem_cons_of_mem _ hkey)) ?_
      rw [Bytes.length_xor, hblock, hkeys first List.mem_cons_self, Nat.min_self]

/-! ## Key schedules -/

theorem length_of_mem_chunks {size count : Nat} {b chunk : Bytes}
    (hlength : count * size ≤ b.length) (hchunk : chunk ∈ chunks size count b) :
    chunk.length = size := by
  induction count generalizing b with
  | zero => cases hchunk
  | succ count ih =>
      rw [Nat.succ_mul] at hlength
      rcases List.mem_cons.mp hchunk with rfl | hrest
      · rw [List.length_take]
        omega
      · refine ih ?_ hrest
        rw [List.length_drop]
        omega

theorem length_chunks (size count : Nat) (b : Bytes) : (chunks size count b).length = count := by
  induction count generalizing b with
  | zero => rfl
  | succ count ih => rw [chunks, List.length_cons, ih]

theorem length_nextKeyWord (i : Nat) (rcon : UInt8) {previous back : Bytes}
    (hprevious : previous.length = 4) (hback : back.length = 4) :
    (nextKeyWord i rcon previous back).length = 4 := by
  unfold nextKeyWord
  rw [Bytes.length_xor, hback]
  split
  · cases previous with
    | nil => cases hprevious
    | cons a rest =>
        have hrest : rest.length = 3 := Nat.succ.inj hprevious
        simp [hrest]
  · split
    · rw [List.length_map, hprevious, Nat.min_self]
    · rw [hprevious, Nat.min_self]

/-- A schedule that has eight words of four bytes is extended by words of four bytes. -/
theorem extendKey_words (n i : Nat) (rcon : UInt8) {words : List Bytes}
    (hwords : ∀ word ∈ words, word.length = 4) (hcount : 8 ≤ words.length) :
    (∀ word ∈ extendKey n i rcon words, word.length = 4) ∧
      (extendKey n i rcon words).length = n + words.length := by
  induction n generalizing i rcon words with
  | zero => exact ⟨hwords, (Nat.zero_add _).symm⟩
  | succ n ih =>
      obtain ⟨latest, earlier, rfl⟩ : ∃ latest earlier, words = latest :: earlier :=
        List.exists_cons_of_length_pos (by omega)
      have hback : ((latest :: earlier).getD 7 []).length = 4 := by
        rw [List.getD_eq_getElem _ _ (by omega)]
        exact hwords _ (List.getElem_mem _)
      have hnext := length_nextKeyWord i rcon (hwords latest List.mem_cons_self) hback
      have hall := ih (i + 1) (if i % 8 = 0 then xtime rcon else rcon)
        (List.forall_mem_cons.mpr ⟨hnext, hwords⟩) (Nat.le_succ_of_le hcount)
      refine ⟨hall.1, hall.2.trans ?_⟩
      rw [List.length_cons]
      omega

/-- The round keys of a key are blocks. -/
theorem length_of_mem_roundKeys {key roundKey : Bytes} (hkey : key.length = 32)
    (hmem : roundKey ∈ roundKeys key) : roundKey.length = 16 := by
  refine length_of_mem_chunks ?_ hmem
  have hwords : ∀ word ∈ (chunks 4 8 key).reverse, word.length = 4 := fun word hword =>
    length_of_mem_chunks (Nat.le_of_eq hkey.symm) (List.mem_reverse.mp hword)
  have hcount : (chunks 4 8 key).reverse.length = 8 := by
    rw [List.length_reverse, length_chunks]
  obtain ⟨hall, htotal⟩ := extendKey_words 52 8 1 hwords (Nat.le_of_eq hcount.symm)
  have hlengths : (extendKey 52 8 1 (chunks 4 8 key).reverse).reverse.map List.length =
      List.replicate 60 4 := by
    refine List.eq_replicate_iff.mpr ⟨?_, ?_⟩
    · rw [List.length_map, List.length_reverse, htotal, hcount]
    · intro n hn
      obtain ⟨word, hword, rfl⟩ := List.mem_map.mp hn
      exact hall word (List.mem_reverse.mp hword)
  rw [List.length_flatten, hlengths]
  decide

end Aes

end Keyring
