import Keyring.Signature
import Keyring.Proofs.Secp256k1.Compressed
import Keyring.Proofs.Secp256k1.Generator

/-!
# Signatures recover to the key that made them

A signature whose recovery id is zero or one names the point of its nonce: `r` is the first
coordinate and the id the parity of the second.  With that point the equation of ECDSA
(`RecoverableSignature.Solves`) has one solution for the public key, and recovery computes it.
The lower of the two values for `s` is the one of the opposite nonce, whose point has the other
parity, so the equation holds for both ways to go through `signWithNonce?`.
-/

namespace Keyring

open Secp256k1

variable {secret k : Secret} {digest : Word256} {sig : RecoverableSignature}

namespace RecoverableSignature

/-- A signature of `digest` in its lower form, with the nonce whose point it names. -/
structure Solves (sig : RecoverableSignature) (secret : Secret) (digest : Word256) : Prop where
  r_pos : 0 < sig.r.toNat
  r_lt : sig.r.toNat < order
  s_pos : 0 < sig.s.toNat
  s_le : sig.s.toNat ≤ order / 2
  equation : ∃ nonce y : Nat,
    Point.ofCurve (nonce • base) = .affine sig.r.toNat y ∧ y % 2 = sig.recoveryId.toNat ∧
      (sig.s.toNat : ZMod order) * nonce = digest.toNat + sig.r.toNat * secret.val

/-- The equation is solved for the private key. -/
theorem Solves.recoverPoint? (h : sig.Solves secret digest) {odd : Bool}
    (hodd : odd = (sig.recoveryId.toNat == 1)) :
    recoverPoint? digest.toNat sig.r.toNat sig.s.toNat odd = some secret.publicKey := by
  obtain ⟨nonce, y, hpoint, hparity, heq⟩ := h.equation
  have hr : (sig.r.toNat : ZMod order) ≠ 0 := cast_scalar_ne_zero h.r_pos h.r_lt
  have hlift : Point.lift? sig.r.toNat odd = some (Point.ofCurve (nonce • base)) :=
    Point.lift?_eq_some_iff.mpr
      ⟨y, hpoint, Point.isOnCurve_iff.mpr ⟨_, rfl⟩, by rw [hodd, hparity]⟩
  have hlt : ∀ a : Nat, a % order < 2 ^ 256 := fun a =>
    (Nat.mod_lt a prime_order.pos).trans order_lt
  have hcombine : Point.combine
      ((order - digest.toNat % order) * invMod order sig.r.toNat % order) .generator
      (sig.s.toNat * invMod order sig.r.toNat % order) (.ofCurve (nonce • base)) =
        secret.publicKey := by
    have hle : digest.toNat % order ≤ order := (Nat.mod_lt _ prime_order.pos).le
    rw [← ofCurve_base, Point.combine_ofCurve (hlt _) (hlt _), secret.publicKey_eq, smul_smul,
      ← add_nsmul, nsmul_base_eq_iff.mpr]
    push_cast [ZMod.natCast_mod, cast_invMod_order, Nat.cast_sub hle, ZMod.natCast_self]
    field_simp
    linear_combination heq
  have hne : ¬(sig.r.toNat = 0 ∨ sig.s.toNat = 0) :=
    not_or.mpr ⟨h.r_pos.ne', h.s_pos.ne'⟩
  simp only [Keyring.recoverPoint?, if_neg hne, hlift, Option.bind_eq_bind, Option.bind_some,
    hcombine]
  cases hpoint : secret.publicKey with
  | infinity => exact absurd hpoint secret.publicKey_ne_infinity
  | affine x y => rfl

/-- A signature in its lower form recovers to the key that made it. -/
theorem Solves.recoverPublicKey (h : sig.Solves secret digest) :
    recoverPublicKey digest sig.r sig.s (27 + sig.recoveryId.toNat) = .ok secret.publicKey := by
  have hid : sig.recoveryId.toNat = 0 ∨ sig.recoveryId.toNat = 1 := by
    obtain ⟨-, y, -, hparity, -⟩ := h.equation
    omega
  have hlow : ensureLowS sig.r sig.s = (sig.r, sig.s) :=
    if_neg fun hhigh => hhigh.2.2.not_ge h.s_le
  have hs : sig.s.toNat < order := h.s_le.trans_lt (by decide)
  rw [Keyring.recoverPublicKey, if_neg (by omega), if_neg (not_not_intro hlow),
    if_neg (not_or.mpr ⟨h.r_lt.not_ge, hs.not_ge⟩), h.recoverPoint?]
  rcases hid with hid | hid <;> rw [hid] <;> rfl

end RecoverableSignature

/-- The `s` that a nonce gives. -/
theorem cast_half_mul (k secret : Secret) (z r : Nat) :
    ((invMod order k.val * (z + r * secret.val) % order : Nat) : ZMod order) * k.val =
      z + r * secret.val := by
  have hk := k.cast_ne_zero
  rw [ZMod.natCast_mod]
  push_cast [cast_invMod_order]
  field_simp

/-- The opposite nonce has the opposite point, whose second coordinate has the other parity. -/
theorem ofCurve_opposite {nonce x y : Nat} (hnonce : nonce ≤ order)
    (hpoint : Point.ofCurve (nonce • base) = .affine x y) :
    0 < y ∧ y < prime ∧ Point.ofCurve ((order - nonce) • base) = .affine x (prime - y) := by
  have hcurve : (Point.affine x y).IsOnCurve := Point.isOnCurve_iff.mpr ⟨_, hpoint⟩
  have hlt : prime - y < prime := Nat.sub_lt prime_prime.pos hcurve.pos
  refine ⟨hcurve.pos, hcurve.2.1, ?_⟩
  rw [sub_nsmul_base hnonce, Point.ofCurve_neg hpoint, Nat.mod_eq_of_lt hlt]

/-- A recovery id up to one tells the parity of a point whose first coordinate is a scalar; it
is the opposite parity if `s` was replaced. -/
theorem parity_of_recoveryId_le_one {x y replaced : Nat} (hreplaced : replaced < 2)
    (h : UInt8.ofNat (((if order ≤ x then 2 else 0) + y % 2) ^^^ replaced) ≤ 1) :
    x < order ∧ (y + replaced) % 2 =
      (UInt8.ofNat (((if order ≤ x then 2 else 0) + y % 2) ^^^ replaced)).toNat := by
  have hparity := Nat.mod_two_eq_zero_or_one y
  obtain rfl | rfl : replaced = 0 ∨ replaced = 1 := by omega
  all_goals
    rw [Nat.add_mod]
    split_ifs at h ⊢ with hx <;> rcases hparity with hy | hy <;> rw [hy] at h ⊢ <;>
      first
      | exact absurd h (by decide)
      | exact ⟨not_le.mp hx, by decide⟩

theorem solves_of_equation {r s nonce y : Nat} {id : UInt8} (hr : r ≠ 0) (hrlt : r < order)
    (hs : s ≠ 0) (hsle : s ≤ order / 2) (hpoint : Point.ofCurve (nonce • base) = .affine r y)
    (hparity : y % 2 = id.toNat)
    (hequation : (s : ZMod order) * nonce = digest.toNat + r * secret.val) :
    RecoverableSignature.Solves ⟨BitVec.ofNat 256 r, BitVec.ofNat 256 s, id⟩ secret digest := by
  have hword : ∀ {a : Nat}, a < order → (BitVec.ofNat 256 a).toNat = a := fun ha =>
    (BitVec.toNat_ofNat _ 256).trans (Nat.mod_eq_of_lt (ha.trans order_lt))
  have hslt : s < order := hsle.trans_lt (by decide)
  constructor
  case r_pos => exact (hword hrlt).symm ▸ Nat.pos_of_ne_zero hr
  case r_lt => exact (hword hrlt).symm ▸ hrlt
  case s_pos => exact (hword hslt).symm ▸ Nat.pos_of_ne_zero hs
  case s_le => exact (hword hslt).symm ▸ hsle
  case equation =>
    refine ⟨nonce, y, ?_, hparity, ?_⟩
    · rw [hword hrlt, hpoint]
    · rw [hword hrlt, hword hslt, hequation]

/-- What a nonce gives is a signature, if it names the point of the nonce. -/
theorem solves_of_signWithNonce? (h : signWithNonce? secret digest k = some sig)
    (hid : sig.recoveryId ≤ 1) : sig.Solves secret digest := by
  rw [signWithNonce?] at h
  split at h
  · cases h
  · next x y hpoint =>
      rw [k.publicKey_eq] at hpoint
      have hequation := cast_half_mul k secret digest.toNat (x % order)
      have hslt := Nat.mod_lt (invMod order k.val * (digest.toNat + x % order * secret.val))
        prime_order.pos
      dsimp only at h
      generalize invMod order k.val * (digest.toNat + x % order * secret.val) % order = s
        at h hequation hslt
      split at h
      · cases h
      · next hzero =>
          obtain ⟨hr, hs⟩ := not_or.mp hzero
          split at h
          · next hlow =>
              cases h
              have hkept := parity_of_recoveryId_le_one (x := x) (y := y) Nat.two_pos
              rw [Nat.xor_zero, Nat.add_zero] at hkept
              obtain ⟨hx, hparity⟩ := hkept hid
              rw [Nat.mod_eq_of_lt hx] at hr hequation ⊢
              exact solves_of_equation hr hx hs hlow hpoint hparity hequation
          · next hhigh =>
              cases h
              obtain ⟨hx, hparity⟩ := parity_of_recoveryId_le_one Nat.one_lt_two hid
              rw [Nat.mod_eq_of_lt hx] at hr hequation ⊢
              obtain ⟨hypos, hylt, hopposite⟩ := ofCurve_opposite k.lt.le hpoint
              have hodd : prime % 2 = 1 ∧ order % 2 = 1 := by decide
              refine solves_of_equation hr hx (by omega) (by omega) hopposite (by omega) ?_
              rw [Nat.cast_sub hslt.le, Nat.cast_sub k.lt.le, ZMod.natCast_self]
              linear_combination hequation

/-- Nonces are tried one after another. -/
theorem exists_nonce_of_signFrom {tries : Nat} {g : Nonce.Generator}
    (h : signFrom secret digest tries g = some sig) :
    ∃ k, signWithNonce? secret digest k = some sig := by
  induction tries generalizing g with
  | zero => cases h
  | succ tries ih =>
      rw [signFrom] at h
      split at h
      · next hfirst =>
          cases h
          obtain ⟨k, -, hk⟩ := Option.bind_eq_some_iff.mp hfirst
          exact ⟨k, hk⟩
      · exact ih h

/-- Stated for all keys and digests at once, as the nonces of one are not to be unfolded. -/
theorem signSecret_eq : signSecret = fun secret digest =>
    match signFrom secret digest 128 (.start secret digest) with
    | some sig => .ok sig
    | none => .error (.signing .nonceExhausted) := rfl

/-- A signature that names the point of its nonce is in its lower form. -/
theorem solves_of_signSecret (h : signSecret secret digest = .ok sig) (hid : sig.recoveryId ≤ 1) :
    sig.Solves secret digest := by
  rw [signSecret_eq] at h
  beta_reduce at h
  split at h
  · next hfrom =>
      cases h
      obtain ⟨k, hk⟩ := exists_nonce_of_signFrom hfrom
      exact solves_of_signWithNonce? hk hid
  · cases h

/-- **A signature recovers to the public key of the key that made it**, if its recovery id is
one of the two that recovery knows. -/
theorem recoverPublicKey_of_signSecret (h : signSecret secret digest = .ok sig)
    (hid : sig.recoveryId ≤ 1) :
    recoverPublicKey digest sig.r sig.s (27 + sig.recoveryId.toNat) = .ok secret.publicKey :=
  (solves_of_signSecret h hid).recoverPublicKey

end Keyring
