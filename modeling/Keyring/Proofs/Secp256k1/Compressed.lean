import Keyring.Proofs.Bytes
import Keyring.Proofs.Secp256k1.Group

/-!
# Compressed points

A point other than infinity is determined by its first coordinate and by whether the second is
odd: the other square root has the other parity, since `prime` is odd and no point has zero for
its second coordinate (`ne_zero_of_equation`).  `prime` is `3` modulo `4`, so `lift?` finds a
root as a power, which it squares to see whether there was one.  Hence it finds a point if and
only if there is one, and that very point (`Point.lift?_eq_some_iff`).
-/

namespace Keyring.Secp256k1

variable {x y : ZMod prime} {a b c : Nat}

/-! ## Square roots -/

/-- The curve has no point of order two, as `-7` is not a cube. -/
theorem ne_zero_of_equation (h : y ^ 2 = x ^ 3 + 7) : y ≠ 0 := by
  rintro rfl
  have hcube : x ^ 3 = ((prime - 7 : Nat) : ZMod prime) := by
    rw [Nat.cast_sub (by decide), ZMod.natCast_self]
    linear_combination -h
  have hx : x ≠ 0 := by
    rintro rfl
    have hseven : ((7 : Nat) : ZMod prime) = 0 := by
      push_cast
      linear_combination -h
    exact absurd ((cast_eq_zero (by decide)).mp hseven) (by decide)
  have hone : (((prime - 7) ^ ((prime - 1) / 3) : Nat) : ZMod prime) = (1 : Nat) := by
    rw [Nat.cast_pow, ← hcube, ← pow_mul, show 3 * ((prime - 1) / 3) = prime - 1 by decide,
      Nat.cast_one]
    exact ZMod.pow_card_sub_one_eq_one hx
  have hpow := powMod_eq prime (prime - 7) (show (prime - 1) / 3 < 2 ^ 256 by decide)
  rw [ZMod.natCast_eq_natCast_iff', ← hpow] at hone
  exact absurd hone (by decide +kernel)

/-- A power that is a square root of every square. -/
theorem sq_pow_eq (y : ZMod prime) : ((y ^ 2) ^ ((prime + 1) / 4)) ^ 2 = y ^ 2 := by
  rw [← pow_mul, ← pow_mul, show 2 * ((prime + 1) / 4 * 2) = prime + 1 by decide, pow_succ,
    ZMod.pow_card, sq]

/-- Of the two roots of a square one is odd and one is even. -/
theorem eq_of_sq_eq (ha : a < prime) (hb : b < prime) (hpos : 0 < b)
    (hsq : (a : ZMod prime) ^ 2 = (b : ZMod prime) ^ 2) (hparity : a % 2 = b % 2) : a = b := by
  rcases sq_eq_sq_iff_eq_or_eq_neg.mp hsq with heq | heq
  · exact (cast_inj ha hb).mp heq
  · have hneg : (a : ZMod prime) = ((prime - b : Nat) : ZMod prime) := by
      rw [Nat.cast_sub hb.le, ZMod.natCast_self, heq, zero_sub]
    have heq := (cast_inj ha (by omega)).mp hneg
    have hodd : prime % 2 = 1 := by decide
    omega

/-! ## Lifting a coordinate -/

namespace Point

/-- The second coordinate of a point is not zero. -/
theorem IsOnCurve.pos (h : (affine a b).IsOnCurve) : 0 < b := by
  obtain ⟨-, hb, heq⟩ := affine_isOnCurve_iff.mp h
  refine Nat.pos_of_ne_zero fun hzero => ne_zero_of_equation heq ?_
  rw [hzero, Nat.cast_zero]

theorem IsOnCurve.eq_of_parity (h : (affine a b).IsOnCurve) (h' : (affine a c).IsOnCurve)
    (hparity : b % 2 = c % 2) : b = c := by
  obtain ⟨-, hb, heq⟩ := affine_isOnCurve_iff.mp h
  obtain ⟨-, hc, heq'⟩ := affine_isOnCurve_iff.mp h'
  exact eq_of_sq_eq hb hc h'.pos (heq.trans heq'.symm) hparity

/-- The other point with the same first coordinate. -/
theorem IsOnCurve.other (h : (affine a b).IsOnCurve) :
    (affine a ((prime - b) % prime)).IsOnCurve ∧ (prime - b) % prime % 2 ≠ b % 2 := by
  have hpos := h.pos
  obtain ⟨ha, hb, heq⟩ := affine_isOnCurve_iff.mp h
  have hodd : prime % 2 = 1 := by decide
  rw [Nat.mod_eq_of_lt (by omega : prime - b < prime)]
  refine ⟨affine_isOnCurve_iff.mpr ⟨ha, by omega, ?_⟩, by omega⟩
  rw [Nat.cast_sub hb.le, ZMod.natCast_self, zero_sub, neg_sq, heq]

/-- The power that is tried for a second coordinate. -/
def root (a : Nat) : Nat :=
  powMod prime 256 ((a * a % prime * a + 7) % prime) ((prime + 1) / 4)

theorem root_lt (a : Nat) : root a < prime := by
  rw [root, powMod_eq _ _ (by decide)]
  exact Nat.mod_lt _ prime_prime.pos

/-- The power is one if there is any. -/
theorem IsOnCurve.root (h : (affine a b).IsOnCurve) : (affine a (root a)).IsOnCurve := by
  obtain ⟨ha, hb, heq⟩ := affine_isOnCurve_iff.mp h
  have hcast : (Point.root a : ZMod prime) = ((b : ZMod prime) ^ 2) ^ ((prime + 1) / 4) := by
    rw [Point.root, cast_powMod _ _ (by decide), heq]
    push_cast [ZMod.natCast_mod]
    rw [← sq, ← pow_succ]
  exact affine_isOnCurve_iff.mpr ⟨ha, root_lt a, by rw [hcast, sq_pow_eq, heq]⟩

theorem exists_lift?_eq (h : (affine a (root a)).IsOnCurve) (odd : Bool) :
    ∃ b, lift? a odd = some (affine a b) ∧ (affine a b).IsOnCurve ∧ (b % 2 == 1) = odd := by
  obtain ⟨ha, -, heq⟩ := id h
  have htest : ¬(prime ≤ a ∨ mul (root a) (root a) ≠ (a * a % prime * a + 7) % prime) :=
    not_or.mpr ⟨ha.not_ge, not_not_intro heq⟩
  by_cases hparity : (root a % 2 == 1) = odd
  · refine ⟨root a, ?_, h, hparity⟩
    exact (if_neg htest).trans (if_pos (beq_iff_eq.mpr hparity))
  · obtain ⟨hother, hne⟩ := h.other
    refine ⟨(prime - root a) % prime, ?_, hother, ?_⟩
    · exact (if_neg htest).trans (if_neg (mt beq_iff_eq.mp hparity))
    · cases odd <;> simp at hparity ⊢ <;> omega

/-- The first coordinate of a point and the parity of the second determine the point. -/
theorem lift?_eq_some_iff {odd : Bool} {p : Point} :
    lift? a odd = some p ↔
      ∃ b, p = affine a b ∧ p.IsOnCurve ∧ (b % 2 == 1) = odd := by
  constructor
  · intro h
    by_cases htest : prime ≤ a ∨ mul (root a) (root a) ≠ (a * a % prime * a + 7) % prime
    · cases (if_pos htest).symm.trans h
    · obtain ⟨ha, heq⟩ := not_or.mp htest
      have hroot : (affine a (root a)).IsOnCurve :=
        ⟨Nat.lt_of_not_ge ha, root_lt a, not_not.mp heq⟩
      obtain ⟨b, hlift, hb, hparity⟩ := exists_lift?_eq hroot odd
      obtain rfl := Option.some.inj (hlift.symm.trans h)
      exact ⟨b, rfl, hb, hparity⟩
  · rintro ⟨b, rfl, hb, rfl⟩
    obtain ⟨c, hlift, hc, hparity⟩ := exists_lift?_eq hb.root (b % 2 == 1)
    have hmod : c % 2 = b % 2 := by
      rw [Bool.eq_iff_iff, beq_iff_eq, beq_iff_eq] at hparity
      omega
    rw [hlift, hc.eq_of_parity hb hmod]

/-! ## Reading what was written -/

theorem length_compressed {p : Point} (h : p ≠ infinity) : p.compressed.length = 33 := by
  cases p with
  | infinity => exact absurd rfl h
  | affine a b => rw [compressed, List.length_cons, Bytes.length_ofNat]

theorem ofCompressed?_compressed (h : (affine a b).IsOnCurve) :
    ofCompressed? (affine a b).compressed = some (affine a b) := by
  have ha : a < 256 ^ 32 := h.1.trans (by decide)
  have hlift : lift? a (b % 2 == 1) = some (affine a b) :=
    lift?_eq_some_iff.mpr ⟨b, rfl, h, rfl⟩
  rw [compressed, ofCompressed?, if_pos (Bytes.length_ofNat _ _), Bytes.toNat_ofNat_of_lt ha]
  split
  · next hodd => rwa [if_neg (by decide), if_pos rfl, ← beq_iff_eq.mpr hodd]
  · next heven => rwa [if_pos rfl, ← beq_eq_false_iff_ne.mpr heven]

theorem compressed_of_lift? {rest : Bytes} {odd : Bool} {p : Point} (hlength : rest.length = 32)
    (h : lift? (Bytes.toNat rest) odd = some p) :
    p.IsOnCurve ∧ p ≠ infinity ∧ p.compressed = (if odd then 3 else 2) :: rest := by
  obtain ⟨b, rfl, hp, rfl⟩ := lift?_eq_some_iff.mp h
  refine ⟨hp, Point.noConfusion, ?_⟩
  simp only [compressed, Bytes.ofNat_toNat hlength, beq_iff_eq]

/-- A byte string is read as a point if and only if it is the compressed form of that point. -/
theorem ofCompressed?_eq_some_iff {bytes : Bytes} {p : Point} :
    ofCompressed? bytes = some p ↔ p.IsOnCurve ∧ p ≠ infinity ∧ p.compressed = bytes := by
  constructor
  · intro h
    obtain _ | ⟨tag, rest⟩ := bytes
    · cases h
    · rw [ofCompressed?] at h
      split_ifs at h with hlength htwo hthree
      · rw [htwo]
        exact compressed_of_lift? hlength h
      · rw [hthree]
        exact compressed_of_lift? hlength h
  · rintro ⟨hp, hne, rfl⟩
    cases p with
    | infinity => exact absurd rfl hne
    | affine a b => exact ofCompressed?_compressed hp

end Point

end Keyring.Secp256k1
