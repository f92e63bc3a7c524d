import Keyring.Encoding.Bech32
import Keyring.Proofs.Bytes

/-!
# Bech32 texts tell what they encode

Five bytes and eight groups of five bits are the same 40 bits, so a program whose length is a
multiple of five is determined by its groups (`groups_inj`).  A data character stands for one
group (`character_inj`).  The check characters come last and are not needed to tell two texts
apart: the human-readable part and the groups stand in front of them, at places that depend on
their lengths alone (`encodeWitnessV0_inj`).
-/

namespace Keyring.Bech32

/-! ## Groups of five bits -/

/-- The eight groups of a number of 40 bits. -/
def groupsOf (n : Nat) : List Nat :=
  (List.range 8).map fun i => n >>> (5 * (7 - i)) % 32

@[simp] theorem length_groupsOf (n : Nat) : (groupsOf n).length = 8 := by
  rw [groupsOf, List.length_map, List.length_range]

theorem lt_of_mem_groupsOf {n v : Nat} (h : v ∈ groupsOf n) : v < 32 := by
  obtain ⟨i, -, rfl⟩ := List.mem_map.mp h
  exact Nat.mod_lt _ (by decide)

/-- Numbers with the same last digits in base 32, and the same in front of them, are equal. -/
theorem eq_of_digits_eq {m n k : Nat} (h : ∀ i < k, m / 32 ^ i % 32 = n / 32 ^ i % 32)
    (hfront : m / 32 ^ k = n / 32 ^ k) : m = n := by
  induction k with
  | zero => simpa using hfront
  | succ k ih =>
      refine ih (fun i hi => h i (Nat.lt_succ_of_lt hi)) ?_
      rw [Nat.pow_succ, ← Nat.div_div_eq_div_mul, ← Nat.div_div_eq_div_mul] at hfront
      rw [← Nat.div_add_mod (m / 32 ^ k) 32, hfront, h k (Nat.lt_succ_self k), Nat.div_add_mod]

theorem groupsOf_inj {m n : Nat} (hm : m < 32 ^ 8) (hn : n < 32 ^ 8)
    (h : groupsOf m = groupsOf n) : m = n := by
  refine eq_of_digits_eq (k := 8) (fun i hi => ?_) ?_
  · have hgroup := List.map_inj_left.mp h (7 - i) (List.mem_range.mpr (by omega))
    have hplace : 5 * (7 - (7 - i)) = 5 * i := by omega
    simpa only [hplace, Nat.shiftRight_eq_div_pow, Nat.pow_mul] using hgroup
  · rw [Nat.div_eq_of_lt hm, Nat.div_eq_of_lt hn]

theorem groups_cons (a b c d e : UInt8) (rest : Bytes) :
    groups (a :: b :: c :: d :: e :: rest) =
      groupsOf (Bytes.toNat [a, b, c, d, e]) ++ groups rest := rfl

theorem toNat_five_lt (a b c d e : UInt8) : Bytes.toNat [a, b, c, d, e] < 32 ^ 8 := by
  have hlt := Bytes.toNat_lt [a, b, c, d, e]
  have hpow : 256 ^ [a, b, c, d, e].length = 32 ^ 8 := by simp
  rwa [hpow] at hlt

theorem exists_five_of_length {p : Bytes} {k : Nat} (h : p.length = 5 * (k + 1)) :
    ∃ a b c d e rest, p = a :: b :: c :: d :: e :: rest ∧ rest.length = 5 * k := by
  match p, h with
  | a :: b :: c :: d :: e :: rest, h =>
      refine ⟨a, b, c, d, e, rest, rfl, ?_⟩
      simp only [List.length_cons] at h
      omega
  | [], h | [_], h | [_, _], h | [_, _, _], h | [_, _, _, _], h =>
      simp only [List.length_cons, List.length_nil] at h
      omega

theorem length_groups {p : Bytes} {k : Nat} (h : p.length = 5 * k) :
    (groups p).length = 8 * k := by
  induction k generalizing p with
  | zero =>
      obtain rfl := List.length_eq_zero_iff.mp h
      rfl
  | succ k ih =>
      obtain ⟨a, b, c, d, e, rest, rfl, hrest⟩ := exists_five_of_length h
      rw [groups_cons, List.length_append, length_groupsOf, ih hrest]
      omega

theorem lt_of_mem_groups {p : Bytes} {k v : Nat} (h : p.length = 5 * k) (hv : v ∈ groups p) :
    v < 32 := by
  induction k generalizing p with
  | zero =>
      obtain rfl := List.length_eq_zero_iff.mp h
      cases hv
  | succ k ih =>
      obtain ⟨a, b, c, d, e, rest, rfl, hrest⟩ := exists_five_of_length h
      rw [groups_cons, List.mem_append] at hv
      exact hv.elim lt_of_mem_groupsOf (ih hrest)

/-- Programs of one length are told apart by their groups. -/
theorem groups_inj {p q : Bytes} {k : Nat} (hp : p.length = 5 * k) (hq : q.length = 5 * k)
    (h : groups p = groups q) : p = q := by
  induction k generalizing p q with
  | zero =>
      rw [List.length_eq_zero_iff.mp hp, List.length_eq_zero_iff.mp hq]
  | succ k ih =>
      obtain ⟨a, b, c, d, e, rest, rfl, hrest⟩ := exists_five_of_length hp
      obtain ⟨a', b', c', d', e', rest', rfl, hrest'⟩ := exists_five_of_length hq
      rw [groups_cons, groups_cons] at h
      obtain ⟨hfront, hback⟩ := List.append_inj h (by simp)
      have hfive : [a, b, c, d, e] = [a', b', c', d', e'] :=
        Bytes.toNat_inj_of_length rfl (groupsOf_inj (toNat_five_lt ..) (toNat_five_lt ..) hfront)
      simp only [List.cons.injEq, and_true] at hfive
      obtain ⟨rfl, rfl, rfl, rfl, rfl⟩ := hfive
      rw [ih hrest hrest' hback]

/-! ## Data characters -/

theorem idxOf_character : ∀ v < 32, alphabet.idxOf (character v) = v := by
  decide

theorem map_character_inj {values values' : List Nat} (h : ∀ v ∈ values, v < 32)
    (h' : ∀ v ∈ values', v < 32) (htext : values.map character = values'.map character) :
    values = values' := by
  have hback : ∀ {values : List Nat}, (∀ v ∈ values, v < 32) →
      (values.map character).map alphabet.idxOf = values := by
    intro values h
    rw [List.map_map]
    exact (List.map_congr_left fun v hv => idxOf_character v (h v hv)).trans (List.map_id' _)
  rw [← hback h, htext, hback h']

/-! ## Witness addresses -/

theorem toList_encodeWitnessV0 (hrp : String) (program : Bytes) :
    (encodeWitnessV0 hrp program).toList = hrp.toList ++ '1' ::
      ((0 :: groups program).map character ++
        (checksum hrp (0 :: groups program)).map character) := by
  simp [encodeWitnessV0, encode]

/-- The text of a witness program tells its human-readable part and the program, if their lengths
are known. -/
theorem encodeWitnessV0_inj {hrp hrp' : String} {p p' : Bytes} {k : Nat}
    (hhrp : hrp.toList.length = hrp'.toList.length) (hp : p.length = 5 * k)
    (hp' : p'.length = 5 * k) (h : encodeWitnessV0 hrp p = encodeWitnessV0 hrp' p') :
    hrp = hrp' ∧ p = p' := by
  have htext := congrArg String.toList h
  rw [toList_encodeWitnessV0, toList_encodeWitnessV0] at htext
  obtain ⟨hfront, hrest⟩ := List.append_inj htext hhrp
  have hlength : ((0 :: groups p).map character).length =
      ((0 :: groups p').map character).length := by
    simp only [List.length_map, List.length_cons, length_groups hp, length_groups hp']
  obtain ⟨hvalues, -⟩ := List.append_inj (List.cons.inj hrest).2 hlength
  have hbound : ∀ {p : Bytes}, p.length = 5 * k → ∀ v ∈ 0 :: groups p, v < 32 := fun hp =>
    List.forall_mem_cons.mpr ⟨by decide, fun v => lt_of_mem_groups hp⟩
  have hgroups := map_character_inj (hbound hp) (hbound hp') hvalues
  exact ⟨String.toList_inj.mp hfront, groups_inj hp hp' (List.cons.inj hgroups).2⟩

theorem length_encodeWitnessV0 {hrp : String} {p : Bytes} {k : Nat} (h : p.length = 5 * k) :
    (encodeWitnessV0 hrp p).toList.length = hrp.toList.length + 8 * k + 8 := by
  rw [toList_encodeWitnessV0]
  simp only [List.length_append, List.length_cons, List.length_map, checksum, List.length_range,
    length_groups h]
  omega

end Keyring.Bech32
