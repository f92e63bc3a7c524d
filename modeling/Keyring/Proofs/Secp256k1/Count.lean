import Mathlib.GroupTheory.Perm.Cycle.Type
import Mathlib.SetTheory.Cardinal.Finite
import Keyring.Proofs.Secp256k1.Compressed
import Keyring.Proofs.Secp256k1.Generator

/-!
# The number of points

The order of the generator divides the number of points, and the coordinates leave room for no
more than twice that many: a first coordinate belongs to at most two points, told apart by the
parity of the second (`card_le`).  Twice as many would mean a point that is its own opposite,
and there is none (`ne_zero_of_equation`).  So `order` is the number of points, and `order`
times any point is the point at infinity.
-/

namespace Keyring.Secp256k1

/-- What identifies a point other than infinity: the first coordinate and the parity of the
second. -/
def coordinateAndParity : curve.Point → Option (ZMod prime × Bool)
  | .zero => none
  | .some x y _ => some (x, y.val % 2 == 1)

theorem coordinateAndParity_injective : Function.Injective coordinateAndParity := by
  have honCurve : ∀ {x y : ZMod prime}, curve.Nonsingular x y →
      (Point.affine x.val y.val).IsOnCurve :=
    fun h => Point.isOnCurve_iff.mpr ⟨.some _ _ h, rfl⟩
  intro P Q h
  cases P with
  | zero =>
      cases Q with
      | zero => rfl
      | some _ _ _ => cases h
  | some x₁ y₁ h₁ =>
      cases Q with
      | zero => cases h
      | some x₂ y₂ h₂ =>
          obtain ⟨rfl, hparity⟩ := Prod.mk.inj (Option.some.inj h)
          rw [Bool.eq_iff_iff, beq_iff_eq, beq_iff_eq] at hparity
          have hy := (honCurve h₁).eq_of_parity (honCurve h₂) (by omega)
          obtain rfl := ZMod.val_injective prime hy
          rfl

instance : Finite curve.Point :=
  Finite.of_injective _ coordinateAndParity_injective

theorem card_le : Nat.card curve.Point ≤ 2 * prime + 1 := by
  calc Nat.card curve.Point ≤ Nat.card (Option (ZMod prime × Bool)) :=
        Nat.card_le_card_of_injective _ coordinateAndParity_injective
    _ = 2 * prime + 1 := by
        rw [Finite.card_option, Nat.card_prod, Nat.card_zmod, Nat.card_eq_fintype_card,
          Fintype.card_bool, Nat.mul_comm]

/-- No point but infinity is its own opposite. -/
theorem eq_zero_of_two_nsmul {P : curve.Point} (h : 2 • P = 0) : P = 0 := by
  cases P with
  | zero => rfl
  | some x y hns =>
      have hopposite : (.some x y hns : curve.Point) = -.some x y hns :=
        eq_neg_of_add_eq_zero_left (by rwa [two_nsmul] at h)
      rw [WeierstrassCurve.Affine.Point.neg_some, WeierstrassCurve.Affine.Point.some.injEq,
        negY_eq] at hopposite
      have hy : 2 * y = 0 := by linear_combination hopposite.2
      exact absurd ((mul_eq_zero.mp hy).resolve_left two_ne_zero)
        (ne_zero_of_equation (nonsingular_iff.mp hns))

theorem card_point : Nat.card curve.Point = order := by
  obtain ⟨k, hk⟩ : order ∣ Nat.card curve.Point := addOrderOf_base ▸ addOrderOf_dvd_natCard base
  have hpos : 0 < Nat.card curve.Point := Nat.card_pos
  have hle := card_le
  have hroom : 2 * prime + 1 < 3 * order := by decide
  rw [hk] at hpos hle
  have hk0 : k ≠ 0 := by
    rintro rfl
    exact hpos.ne' (Nat.mul_zero _)
  have hk3 : k < 3 := by
    by_contra hlarge
    exact absurd (Nat.mul_le_mul_left order (not_lt.mp hlarge)) (by omega)
  have hk2 : k ≠ 2 := by
    rintro rfl
    obtain ⟨P, hP⟩ := exists_prime_addOrderOf_dvd_card' 2 ⟨order, by rw [hk, Nat.mul_comm]⟩
    have hzero : P = 0 := eq_zero_of_two_nsmul (hP ▸ addOrderOf_nsmul_eq_zero P)
    rw [hzero, addOrderOf_zero] at hP
    cases hP
  obtain rfl : k = 1 := by omega
  rw [hk, Nat.mul_one]

theorem order_nsmul (P : curve.Point) : order • P = 0 := by
  rw [← card_point, card_nsmul_eq_zero']

end Keyring.Secp256k1
