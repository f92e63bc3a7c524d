import Mathlib.AlgebraicGeometry.EllipticCurve.Affine.Point
import Mathlib.Tactic.FieldSimp
import Mathlib.Tactic.LinearCombination
import Keyring.Proofs.Secp256k1.Prime

/-!
# The group of points

Mathlib's points of the curve `y ^ 2 = x ^ 3 + 7` over the integers modulo `prime` form a
commutative group.  `Point.ofCurve` writes them as a `Point`, one to one (`ofCurve_injective`)
and onto the points that satisfy the equation (`Point.isOnCurve_iff`), and `Point.add` is the
addition of this group (`Point.ofCurve_add`).

The sums of two points are stated once for all ways to compute them, with the slope of the
chord or the tangent as what it solves and not as a quotient.
-/

namespace Keyring.Secp256k1

/-! ## Coordinates -/

theorem mul_lt (a b : Nat) : mul a b < prime :=
  Nat.mod_lt _ prime_prime.pos

theorem sub_lt (a b : Nat) : sub a b < prime :=
  Nat.mod_lt _ prime_prime.pos

@[simp] theorem cast_mul (a b : Nat) : (mul a b : ZMod prime) = a * b := by
  rw [mul, ZMod.natCast_mod, Nat.cast_mul]

@[simp] theorem cast_sub (a b : Nat) : (sub a b : ZMod prime) = a - b := by
  have hle : b % prime ≤ prime := (Nat.mod_lt b prime_prime.pos).le
  rw [sub, ZMod.natCast_mod, Nat.cast_add, Nat.cast_sub hle, ZMod.natCast_self,
    ZMod.natCast_mod, zero_sub, sub_eq_add_neg]

theorem cast_invMod_prime (a : Nat) : (invMod prime a : ZMod prime) = (a : ZMod prime)⁻¹ :=
  cast_invMod (by decide) (by decide) a

/-- Coordinates are equal if they are the same element of the field. -/
theorem cast_inj {a b : Nat} (ha : a < prime) (hb : b < prime) :
    (a : ZMod prime) = b ↔ a = b := by
  rw [ZMod.natCast_eq_natCast_iff', Nat.mod_eq_of_lt ha, Nat.mod_eq_of_lt hb]

theorem cast_eq_zero {a : Nat} (ha : a < prime) : (a : ZMod prime) = 0 ↔ a = 0 := by
  rw [← Nat.cast_zero, cast_inj ha prime_prime.pos]

/-! ## The curve -/

/-- The curve `y ^ 2 = x ^ 3 + 7`. -/
def curve : WeierstrassCurve.Affine (ZMod prime) :=
  { a₁ := 0, a₂ := 0, a₃ := 0, a₄ := 0, a₆ := 7 }

variable {x y x₁ y₁ x₂ y₂ slope : ZMod prime}

theorem two_ne_zero : (2 : ZMod prime) ≠ 0 := by
  have h : ((2 : Nat) : ZMod prime) ≠ 0 := by
    rw [ne_eq, cast_eq_zero (by decide)]
    decide
  exact_mod_cast h

theorem equation_iff : curve.Equation x y ↔ y ^ 2 = x ^ 3 + 7 := by
  rw [WeierstrassCurve.Affine.equation_iff]
  simp [curve]

/-- The curve has no singular points. -/
theorem nonsingular_iff : curve.Nonsingular x y ↔ y ^ 2 = x ^ 3 + 7 := by
  have hdiscriminant : curve.Δ ≠ 0 := by
    have h : ((21168 : Nat) : ZMod prime) ≠ 0 := by
      rw [ne_eq, cast_eq_zero (by decide)]
      decide
    have hvalue : curve.Δ = -((21168 : Nat) : ZMod prime) := by
      simp only [curve, WeierstrassCurve.Δ, WeierstrassCurve.b₂, WeierstrassCurve.b₄,
        WeierstrassCurve.b₆, WeierstrassCurve.b₈]
      norm_num
    rw [hvalue]
    exact neg_ne_zero.mpr h
  rw [← WeierstrassCurve.Affine.equation_iff_nonsingular_of_Δ_ne_zero hdiscriminant,
    equation_iff]

theorem negY_eq (x y : ZMod prime) : curve.negY x y = -y := by
  simp [curve, WeierstrassCurve.Affine.negY]

section Sums

variable (h : curve.Nonsingular x y) (h₁ : curve.Nonsingular x₁ y₁)
  (h₂ : curve.Nonsingular x₂ y₂)

/-- Two points with the same first coordinate are equal or opposite. -/
theorem some_add_some_of_opposite (hx : x₁ = x₂) (hy : y₁ ≠ y₂) :
    (.some x₁ y₁ h₁ + .some x₂ y₂ h₂ : curve.Point) = 0 :=
  WeierstrassCurve.Affine.Point.add_of_Y_eq hx
    ((WeierstrassCurve.Affine.Y_eq_of_X_eq h₁.1 h₂.1 hx).resolve_left hy)

/-- What Mathlib's formulas for a sum come to on this curve. -/
theorem exists_some_sum (h₃ : curve.Nonsingular (curve.addX x₁ x₂ slope)
      (curve.addY x₁ x₂ y₁ slope)) :
    ∃ h, (.some _ _ h₃ : curve.Point) =
      .some (slope ^ 2 - x₁ - x₂) (slope * (x₁ - (slope ^ 2 - x₁ - x₂)) - y₁) h := by
  have hx : curve.addX x₁ x₂ slope = slope ^ 2 - x₁ - x₂ := by
    simp [curve, WeierstrassCurve.Affine.addX]
  have hy : curve.addY x₁ x₂ y₁ slope = slope * (x₁ - (slope ^ 2 - x₁ - x₂)) - y₁ := by
    rw [WeierstrassCurve.Affine.addY, negY_eq, WeierstrassCurve.Affine.negAddY, hx]
    ring
  rw [hx, hy] at h₃
  refine ⟨h₃, ?_⟩
  congr

/-- The chord through two points. -/
theorem some_add_some_of_chord (hx : x₁ ≠ x₂) (hslope : slope * (x₁ - x₂) = y₁ - y₂) :
    ∃ h, (.some x₁ y₁ h₁ + .some x₂ y₂ h₂ : curve.Point) =
      .some (slope ^ 2 - x₁ - x₂) (slope * (x₁ - (slope ^ 2 - x₁ - x₂)) - y₁) h := by
  obtain rfl : curve.slope x₁ x₂ y₁ y₂ = slope := by
    rw [WeierstrassCurve.Affine.slope_of_X_ne hx, ← hslope,
      mul_div_cancel_right₀ _ (sub_ne_zero.mpr hx)]
  rw [WeierstrassCurve.Affine.Point.add_of_X_ne hx]
  exact exists_some_sum _

/-- The tangent at a point. -/
theorem some_add_self_of_tangent (hy : y ≠ 0) (hslope : slope * (2 * y) = 3 * x ^ 2) :
    ∃ h', (.some x y h + .some x y h : curve.Point) =
      .some (slope ^ 2 - x - x) (slope * (x - (slope ^ 2 - x - x)) - y) h' := by
  have htwo : 2 * y ≠ 0 := mul_ne_zero two_ne_zero hy
  have hne : y ≠ curve.negY x y := by
    rw [negY_eq]
    intro hopposite
    exact htwo (by linear_combination hopposite)
  obtain rfl : curve.slope x x y y = slope := by
    rw [WeierstrassCurve.Affine.slope_of_Y_ne rfl hne, negY_eq]
    have hdouble : y - -y = 2 * y := by ring
    rw [hdouble, div_eq_iff htwo]
    simp only [curve]
    linear_combination -hslope
  rw [WeierstrassCurve.Affine.Point.add_self_of_Y_ne hne]
  exact exists_some_sum _

/-- A point with second coordinate zero is its own opposite. -/
theorem some_add_self_of_flat (hy : y = 0) : (.some x y h + .some x y h : curve.Point) = 0 :=
  WeierstrassCurve.Affine.Point.add_self_of_Y_eq (by rw [negY_eq, hy, neg_zero])

end Sums

/-! ## Points -/

namespace Point

/-- A point of the curve, written with the least coordinates. -/
def ofCurve : curve.Point → Point
  | .zero => infinity
  | .some x y _ => affine x.val y.val

@[simp] theorem ofCurve_zero : ofCurve 0 = infinity := rfl

theorem ofCurve_injective : Function.Injective ofCurve := by
  intro P Q h
  cases P with
  | zero =>
      cases Q with
      | zero => rfl
      | some x y _ => cases h
  | some x₁ y₁ h₁ =>
      cases Q with
      | zero => cases h
      | some x₂ y₂ h₂ =>
          rw [ofCurve, ofCurve, affine.injEq] at h
          obtain rfl := ZMod.val_injective prime h.1
          obtain rfl := ZMod.val_injective prime h.2
          rfl

/-- Coordinates that stand for those of a point of the curve spell it, if they are reduced. -/
theorem ofCurve_some {x y : ZMod prime} {h : curve.Nonsingular x y} {a b : Nat}
    (ha : a < prime) (hb : b < prime) (hx : (a : ZMod prime) = x) (hy : (b : ZMod prime) = y) :
    ofCurve (.some x y h) = affine a b := by
  subst hx hy
  rw [ofCurve, ZMod.val_natCast_of_lt ha, ZMod.val_natCast_of_lt hb]

theorem affine_isOnCurve_iff {a b : Nat} : (affine a b).IsOnCurve ↔
    a < prime ∧ b < prime ∧ (b : ZMod prime) ^ 2 = (a : ZMod prime) ^ 3 + 7 := by
  have hequation : b * b % prime = (a * a % prime * a + 7) % prime ↔
      (b : ZMod prime) ^ 2 = (a : ZMod prime) ^ 3 + 7 := by
    rw [← ZMod.natCast_eq_natCast_iff']
    push_cast [ZMod.natCast_mod]
    rw [← sq, ← sq, ← pow_succ]
  rw [IsOnCurve, hequation]

/-- The points of the curve are those whose coordinates satisfy its equation. -/
theorem isOnCurve_iff {p : Point} : p.IsOnCurve ↔ ∃ P, ofCurve P = p := by
  cases p with
  | infinity => exact ⟨fun _ => ⟨0, rfl⟩, fun _ => trivial⟩
  | affine a b =>
      rw [affine_isOnCurve_iff]
      constructor
      · rintro ⟨ha, hb, heq⟩
        exact ⟨.some a b (nonsingular_iff.mpr heq), ofCurve_some ha hb rfl rfl⟩
      · rintro ⟨_ | ⟨x, y, h⟩, heq⟩
        · cases heq
        · obtain ⟨rfl, rfl⟩ : x.val = a ∧ y.val = b := by simpa [ofCurve] using heq
          rw [ZMod.natCast_zmod_val, ZMod.natCast_zmod_val]
          exact ⟨x.val_lt, y.val_lt, nonsingular_iff.mp h⟩

variable {P Q : curve.Point}

theorem ofCurve_neg {a b : Nat} (h : ofCurve P = affine a b) :
    ofCurve (-P) = affine a ((prime - b) % prime) := by
  cases P with
  | zero => cases h
  | some x y hns =>
      obtain ⟨rfl, rfl⟩ : x.val = a ∧ y.val = b := by simpa [ofCurve] using h
      rw [WeierstrassCurve.Affine.Point.neg_some]
      refine ofCurve_some x.val_lt (Nat.mod_lt _ prime_prime.pos) x.natCast_zmod_val ?_
      rw [ZMod.natCast_mod, Nat.cast_sub y.val_lt.le, ZMod.natCast_self, zero_sub,
        ZMod.natCast_zmod_val, negY_eq]

/-- The third point on a line, reflected. -/
theorem ofCurve_some_eq_reflect (slope : Nat)
    (h : curve.Nonsingular ((slope : ZMod prime) ^ 2 - x₁ - x₂)
      (slope * (x₁ - ((slope : ZMod prime) ^ 2 - x₁ - x₂)) - y₁)) :
    ofCurve (.some _ _ h) = reflect slope x₁.val y₁.val x₂.val := by
  refine ofCurve_some (sub_lt _ _) (sub_lt _ _) ?_ ?_ <;>
    simp only [cast_sub, cast_mul, ZMod.natCast_zmod_val, sq]

theorem add_infinity (p : Point) : p.add infinity = p := by
  cases p <;> rfl

theorem cast_tangent_slope (hy : y ≠ 0) :
    (mul (3 * x.val * x.val) (invMod prime (2 * y.val)) : ZMod prime) * (2 * y) = 3 * x ^ 2 := by
  rw [cast_mul, cast_invMod_prime]
  push_cast [ZMod.natCast_zmod_val]
  rw [inv_mul_cancel_right₀ (mul_ne_zero two_ne_zero hy), sq, mul_assoc]

theorem cast_chord_slope (hx : x₁ ≠ x₂) :
    (mul (sub y₂.val y₁.val) (invMod prime (sub x₂.val x₁.val)) : ZMod prime) * (x₁ - x₂) =
      y₁ - y₂ := by
  rw [cast_mul, cast_invMod_prime, cast_sub, cast_sub]
  simp only [ZMod.natCast_zmod_val]
  rw [← neg_sub x₂ x₁, mul_neg, inv_mul_cancel_right₀ (sub_ne_zero.mpr (Ne.symm hx)), neg_sub]

/-- The chord and tangent law is the addition of the group. -/
theorem ofCurve_add : ofCurve (P + Q) = (ofCurve P).add (ofCurve Q) := by
  cases P with
  | zero =>
      rw [← WeierstrassCurve.Affine.Point.zero_def, zero_add]
      rfl
  | some x₁ y₁ h₁ =>
      cases Q with
      | zero =>
          rw [← WeierstrassCurve.Affine.Point.zero_def, add_zero, ofCurve_zero, add_infinity]
      | some x₂ y₂ h₂ =>
          have hxval : x₁.val = x₂.val ↔ x₁ = x₂ := (ZMod.val_injective prime).eq_iff
          have hyval : y₁.val = y₂.val ↔ y₁ = y₂ := (ZMod.val_injective prime).eq_iff
          change _ = (affine x₁.val y₁.val).add (affine x₂.val y₂.val)
          simp only [add, hxval, hyval, ne_eq, ZMod.val_eq_zero]
          by_cases hx : x₁ = x₂
          · rw [if_pos hx]
            by_cases hy : y₁ = y₂
            · subst hx hy
              by_cases hflat : y₁ = 0
              · rw [if_neg (fun hand => hand.2 hflat), some_add_self_of_flat _ hflat]
                rfl
              · obtain ⟨h₃, hsum⟩ := some_add_self_of_tangent h₁ hflat (cast_tangent_slope hflat)
                rw [if_pos ⟨rfl, hflat⟩, hsum, ofCurve_some_eq_reflect]
            · rw [if_neg (fun hand => hy hand.1), some_add_some_of_opposite _ _ hx hy]
              rfl
          · obtain ⟨h₃, hsum⟩ := some_add_some_of_chord h₁ h₂ hx (cast_chord_slope hx)
            rw [if_neg hx, hsum, ofCurve_some_eq_reflect]

end Point

end Keyring.Secp256k1
