import Keyring.Proofs.Secp256k1.Group

/-!
# Jacobian coordinates

A `Jacobian` triple `Represents` the point of the curve whose coordinates it has over powers of
`z`.  Doubling and addition do to the triples what they do to the points
(`Represents.double`, `Represents.add`), with all their special cases, so the ladder computes
multiples (`Represents.smul`) and the division at the end gives the point itself
(`Represents.toPoint`).  Hence `Point.smul` and `Point.combine` are the multiples and the sums
of the group.
-/

namespace Keyring.Secp256k1

namespace Jacobian

/-- The point of the curve that coordinates stand for. -/
def Represents (p : Jacobian) : curve.Point → Prop
  | .zero => p.z = 0
  | .some x y _ => p.z < prime ∧ p.z ≠ 0 ∧
      (p.x : ZMod prime) = x * (p.z : ZMod prime) ^ 2 ∧
        (p.y : ZMod prime) = y * (p.z : ZMod prime) ^ 3

variable {p q : Jacobian} {P Q : curve.Point}

theorem represents_zero_iff : p.Represents 0 ↔ p.z = 0 := Iff.rfl

section Double

variable {x y : ZMod prime} {h : curve.Nonsingular x y}

theorem Represents.cast_z_ne_zero (hp : p.Represents (.some x y h)) : (p.z : ZMod prime) ≠ 0 := by
  rw [ne_eq, cast_eq_zero hp.1]
  exact hp.2.1

theorem cast_double_z (p : Jacobian) : (p.double.z : ZMod prime) = 2 * (p.y * p.z) := by
  simp only [Jacobian.double, ZMod.natCast_mod, Nat.cast_mul, Nat.cast_ofNat, cast_mul]

theorem double_z_lt (p : Jacobian) : p.double.z < prime :=
  Nat.mod_lt _ prime_prime.pos

/-- The tangent, with twice `y` and `z` as the new denominator. -/
theorem Represents.double_of_tangent (hp : p.Represents (.some x y h)) (hy : y ≠ 0) :
    p.double.Represents (.some x y h + .some x y h) := by
  have hz := hp.cast_z_ne_zero
  obtain ⟨-, -, hpx, hpy⟩ := hp
  obtain ⟨slope, hslope⟩ : ∃ slope, slope * (2 * y) = 3 * x ^ 2 :=
    ⟨3 * x ^ 2 / (2 * y), div_mul_cancel₀ _ (mul_ne_zero two_ne_zero hy)⟩
  obtain ⟨h₃, hsum⟩ := some_add_self_of_tangent h hy hslope
  have hslope' : 3 * (x * (p.z : ZMod prime) ^ 2 * (x * (p.z : ZMod prime) ^ 2)) =
      slope * (2 * y) * (p.z : ZMod prime) ^ 4 := by
    linear_combination -(p.z : ZMod prime) ^ 4 * hslope
  rw [hsum]
  refine ⟨double_z_lt p, ?_, ?_, ?_⟩
  · rw [ne_eq, ← cast_eq_zero (double_z_lt p), cast_double_z, hpy]
    exact mul_ne_zero two_ne_zero (mul_ne_zero (mul_ne_zero hy (pow_ne_zero 3 hz)) hz)
  · rw [cast_double_z]
    simp only [Jacobian.double, cast_sub, cast_mul, ZMod.natCast_mod, Nat.cast_mul,
      Nat.cast_ofNat, hpx, hpy, hslope']
    ring
  · rw [cast_double_z]
    simp only [Jacobian.double, cast_sub, cast_mul, ZMod.natCast_mod, Nat.cast_mul,
      Nat.cast_ofNat, hpx, hpy, hslope']
    ring

end Double

theorem Represents.double (h : p.Represents P) : p.double.Represents (P + P) := by
  cases P with
  | zero =>
      have hp : p.z = 0 := h
      rw [← WeierstrassCurve.Affine.Point.zero_def, add_zero, represents_zero_iff,
        ← cast_eq_zero (double_z_lt p), cast_double_z, hp]
      ring
  | some x y hns =>
      by_cases hflat : y = 0
      · rw [some_add_self_of_flat _ hflat, represents_zero_iff, ← cast_eq_zero (double_z_lt p),
          cast_double_z, h.2.2.2, hflat]
        ring
      · exact h.double_of_tangent hflat

section Sum

variable {x₁ y₁ x₂ y₂ : ZMod prime} {h₁ : curve.Nonsingular x₁ y₁} {h₂ : curve.Nonsingular x₂ y₂}
  (h : p.Represents (.some x₁ y₁ h₁)) (h' : q.Represents (.some x₂ y₂ h₂))
include h h'

/-- Points are compared by their coordinates over a common denominator. -/
theorem Represents.x_eq_iff :
    mul p.x (mul q.z q.z) = mul q.x (mul p.z p.z) ↔ x₁ = x₂ := by
  have hp0 := h.cast_z_ne_zero
  have hq0 := h'.cast_z_ne_zero
  rw [← cast_inj (mul_lt _ _) (mul_lt _ _)]
  simp only [cast_mul, h.2.2.1, h'.2.2.1]
  constructor
  · intro heq
    refine mul_right_cancel₀ (pow_ne_zero 2 (mul_ne_zero hp0 hq0)) ?_
    linear_combination heq
  · rintro rfl
    ring

theorem Represents.y_eq_iff :
    mul p.y (mul (mul q.z q.z) q.z) = mul q.y (mul (mul p.z p.z) p.z) ↔ y₁ = y₂ := by
  have hp0 := h.cast_z_ne_zero
  have hq0 := h'.cast_z_ne_zero
  rw [← cast_inj (mul_lt _ _) (mul_lt _ _)]
  simp only [cast_mul, h.2.2.2, h'.2.2.2]
  constructor
  · intro heq
    refine mul_right_cancel₀ (pow_ne_zero 3 (mul_ne_zero hp0 hq0)) ?_
    linear_combination heq
  · rintro rfl
    ring

/-- The chord, with `x₂ - x₁` and the `z` of both points as the new denominator. -/
theorem Represents.add_of_chord (hx : x₁ ≠ x₂) :
    (p.add q).Represents (.some x₁ y₁ h₁ + .some x₂ y₂ h₂) := by
  obtain ⟨slope, hslope⟩ : ∃ slope, slope * (x₁ - x₂) = y₁ - y₂ :=
    ⟨(y₁ - y₂) / (x₁ - x₂), div_mul_cancel₀ _ (sub_ne_zero.mpr hx)⟩
  obtain ⟨h₃, hsum⟩ := some_add_some_of_chord h₁ h₂ hx hslope
  rw [hsum]
  simp only [Jacobian.add, if_neg h.2.1, if_neg h'.2.1, h.x_eq_iff h', if_neg hx]
  obtain rfl : y₂ = y₁ - slope * (x₁ - x₂) := by linear_combination hslope
  refine ⟨mul_lt _ _, ?_, ?_, ?_⟩
  · have hdenominator : (x₂ - x₁) * (p.z * q.z : ZMod prime) ^ 3 ≠ 0 :=
      mul_ne_zero (sub_ne_zero.mpr (Ne.symm hx))
        (pow_ne_zero 3 (mul_ne_zero h.cast_z_ne_zero h'.cast_z_ne_zero))
    rw [ne_eq, ← cast_eq_zero (mul_lt _ _)]
    simp only [cast_mul, cast_sub, h.2.2.1, h'.2.2.1]
    intro hzero
    exact hdenominator (by linear_combination hzero)
  · simp only [cast_mul, cast_sub, h.2.2.1, h'.2.2.1, h.2.2.2, h'.2.2.2, Nat.cast_mul,
      Nat.cast_ofNat]
    ring
  · simp only [cast_mul, cast_sub, h.2.2.1, h'.2.2.1, h.2.2.2, h'.2.2.2, Nat.cast_mul,
      Nat.cast_ofNat]
    ring

end Sum

theorem Represents.add (h : p.Represents P) (h' : q.Represents Q) :
    (p.add q).Represents (P + Q) := by
  cases P with
  | zero =>
      have hp : p.z = 0 := h
      rw [← WeierstrassCurve.Affine.Point.zero_def, zero_add, Jacobian.add, if_pos hp]
      exact h'
  | some x₁ y₁ h₁ =>
      cases Q with
      | zero =>
          have hq : q.z = 0 := h'
          rw [← WeierstrassCurve.Affine.Point.zero_def, add_zero, Jacobian.add, if_neg h.2.1,
            if_pos hq]
          exact h
      | some x₂ y₂ h₂ =>
          by_cases hx : x₁ = x₂
          · simp only [Jacobian.add, if_neg h.2.1, if_neg h'.2.1, h.x_eq_iff h', h.y_eq_iff h',
              if_pos hx]
            by_cases hy : y₁ = y₂
            · rw [if_pos hy]
              subst hx hy
              exact h.double
            · rw [if_neg hy, some_add_some_of_opposite _ _ hx hy]
              rfl
          · exact h.add_of_chord h' hx

theorem represents_ofPoint : (ofPoint (.ofCurve P)).Represents P := by
  cases P with
  | zero => rfl
  | some x y h =>
      exact ⟨prime_prime.one_lt, Nat.one_ne_zero, by simp [ofPoint, Point.ofCurve]⟩

/-- The ladder goes over the bits of the scalar from the lowest to the highest. -/
theorem Represents.smul {bits k : Nat} (h : p.Represents P) (hk : k < 2 ^ bits) :
    (smul bits k p).Represents (k • P) := by
  induction bits generalizing k p P with
  | zero =>
      obtain rfl : k = 0 := by omega
      rw [zero_nsmul]
      rfl
  | succ bits ih =>
      have hhalf : k / 2 < 2 ^ bits := by
        rw [pow_succ] at hk
        omega
      have hrest : (Jacobian.smul bits (k / 2) p.double).Represents ((2 * (k / 2)) • P) := by
        rw [mul_nsmul, two_nsmul]
        exact ih h.double hhalf
      simp only [Jacobian.smul]
      split
      · next hodd =>
          have hsum := h.add hrest
          rwa [← succ_nsmul', show 2 * (k / 2) + 1 = k by omega] at hsum
      · next heven => rwa [show 2 * (k / 2) = k by omega] at hrest

/-- One division takes a triple back to its point. -/
theorem Represents.toPoint (h : p.Represents P) : p.toPoint = .ofCurve P := by
  cases P with
  | zero =>
      have hz : p.z = 0 := h
      rw [Jacobian.toPoint, hz, if_pos (Nat.zero_mod _)]
      rfl
  | some x y hns =>
      obtain ⟨hlt, hne, hx, hy⟩ := h
      have hz : (p.z : ZMod prime) ≠ 0 := by rwa [ne_eq, cast_eq_zero hlt]
      rw [Jacobian.toPoint, Nat.mod_eq_of_lt hlt, if_neg hne]
      refine (Point.ofCurve_some (mul_lt _ _) (mul_lt _ _) ?_ ?_).symm
      · simp only [cast_mul, cast_invMod_prime, hx]
        field_simp
      · simp only [cast_mul, cast_invMod_prime, hy]
        field_simp

end Jacobian

namespace Point

variable {P Q : curve.Point} {a b k : Nat}

theorem smul_ofCurve (hk : k < 2 ^ 256) : (ofCurve P).smul k = ofCurve (k • P) :=
  (Jacobian.represents_ofPoint.smul hk).toPoint

theorem combine_ofCurve (ha : a < 2 ^ 256) (hb : b < 2 ^ 256) :
    combine a (ofCurve P) b (ofCurve Q) = ofCurve (a • P + b • Q) :=
  ((Jacobian.represents_ofPoint.smul ha).add (Jacobian.represents_ofPoint.smul hb)).toPoint

end Point

end Keyring.Secp256k1
