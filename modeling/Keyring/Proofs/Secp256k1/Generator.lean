import Keyring.Proofs.Secp256k1.Jacobian

/-!
# Multiples of the generator

The generator has the prime `order` in the group of points (`addOrderOf_base`), so its
multiples are as the scalars modulo `order`: different private keys have different public keys
(`Secret.publicKey_injective`), no public key is the point at infinity, and the public key of a
sum is the sum of the public keys (`Point.smul_generator_add`).
-/

namespace Keyring.Secp256k1

theorem order_lt : order < 2 ^ 256 := by
  decide

theorem Point.generator_isOnCurve : generator.IsOnCurve :=
  ⟨by decide, by decide, by decide⟩

/-- The generator as an element of the group. -/
noncomputable def base : curve.Point :=
  (Point.isOnCurve_iff.mp Point.generator_isOnCurve).choose

theorem ofCurve_base : Point.ofCurve base = .generator :=
  (Point.isOnCurve_iff.mp Point.generator_isOnCurve).choose_spec

theorem smul_generator {k : Nat} (hk : k < 2 ^ 256) :
    Point.generator.smul k = .ofCurve (k • base) := by
  rw [← ofCurve_base, Point.smul_ofCurve hk]

theorem base_ne_zero : base ≠ 0 := by
  intro h
  have hinfinity : Point.ofCurve base = .infinity := by rw [h, Point.ofCurve_zero]
  rw [ofCurve_base] at hinfinity
  cases hinfinity

theorem order_nsmul_base : order • base = 0 := by
  have h : Point.generator.smul order = .infinity := by decide +kernel
  rw [smul_generator order_lt] at h
  exact Point.ofCurve_injective h

theorem addOrderOf_base : addOrderOf base = order :=
  addOrderOf_eq_prime order_nsmul_base base_ne_zero

/-- Scalars matter modulo the order of the group. -/
theorem nsmul_base_eq_iff {a b : Nat} :
    a • base = b • base ↔ (a : ZMod order) = b := by
  rw [nsmul_eq_nsmul_iff_modEq, addOrderOf_base, ZMod.natCast_eq_natCast_iff]

theorem nsmul_base_eq_zero_iff {a : Nat} : a • base = 0 ↔ (a : ZMod order) = 0 := by
  rw [← zero_nsmul base, nsmul_base_eq_iff, Nat.cast_zero]

theorem mod_order_nsmul_base (a : Nat) : (a % order) • base = a • base := by
  rw [nsmul_base_eq_iff, ZMod.natCast_mod]

theorem sub_nsmul_base {k : Nat} (hk : k ≤ order) : (order - k) • base = -(k • base) := by
  rw [eq_neg_iff_add_eq_zero, ← add_nsmul, Nat.sub_add_cancel hk, order_nsmul_base]

/-- The point of a sum of scalars is the sum of the points. -/
theorem Point.smul_generator_add {k t : Nat} (hk : k < 2 ^ 256) (ht : t < 2 ^ 256) :
    generator.smul ((k + t) % order) = (generator.smul k).add (generator.smul t) := by
  have hlt : (k + t) % order < 2 ^ 256 :=
    (Nat.mod_lt _ prime_order.pos).trans order_lt
  rw [smul_generator hlt, mod_order_nsmul_base, add_nsmul, Point.ofCurve_add,
    smul_generator hk, smul_generator ht]

theorem cast_invMod_order (a : Nat) : (invMod order a : ZMod order) = (a : ZMod order)⁻¹ :=
  cast_invMod (by decide) (by decide) a

theorem cast_scalar_ne_zero {a : Nat} (hpos : 0 < a) (hlt : a < order) : (a : ZMod order) ≠ 0 := by
  rw [ne_eq, ZMod.natCast_eq_zero_iff]
  exact Nat.not_dvd_of_pos_of_lt hpos hlt

namespace Secret

theorem publicKey_eq (k : Secret) : k.publicKey = .ofCurve (k.val • base) :=
  smul_generator (k.lt.trans order_lt)

theorem cast_ne_zero (k : Secret) : (k.val : ZMod order) ≠ 0 :=
  cast_scalar_ne_zero k.pos k.lt

theorem publicKey_ne_infinity (k : Secret) : k.publicKey ≠ .infinity := by
  rw [publicKey_eq, ← Point.ofCurve_zero]
  intro h
  exact k.cast_ne_zero (nsmul_base_eq_zero_iff.mp (Point.ofCurve_injective h))

theorem publicKey_isOnCurve (k : Secret) : k.publicKey.IsOnCurve :=
  Point.isOnCurve_iff.mpr ⟨_, k.publicKey_eq.symm⟩

/-- No two private keys have the same public key. -/
theorem publicKey_injective : Function.Injective publicKey := by
  intro k t h
  rw [publicKey_eq, publicKey_eq] at h
  have hmod := nsmul_base_eq_iff.mp (Point.ofCurve_injective h)
  rw [ZMod.natCast_eq_natCast_iff', Nat.mod_eq_of_lt k.lt, Nat.mod_eq_of_lt t.lt] at hmod
  cases k
  cases t
  cases hmod
  rfl

end Secret

end Keyring.Secp256k1
