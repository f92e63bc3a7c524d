import Keyring.Evm.Signer
import Keyring.Proofs.Container
import Keyring.Proofs.Secp256k1.Count
import Keyring.Proofs.Signature

/-!
# Twin signatures

The opposite of a nonce has the opposite point, which has the same first coordinate, so every
signature has a twin with the other of two values for `s` (`otherHalf`).  The twin can be made
without the private key, and it stands for the same public key (`recoverPoint?_twin`).  What
tells the two apart is only which `s` is in the lower half: `order` is odd, so that is one of
them and not both (`le_half_iff`).  Recovery takes the lower one, hence nobody can hand in
another's signature a second time in a different form.
-/

namespace Keyring

open Secp256k1

variable {digest r s : Word256} {v : Nat} {odd : Bool} {key : Point}

/-! ## The other half -/

/-- The other value for `s` that makes a signature with the same `r`. -/
def otherHalf (s : Word256) : Word256 :=
  BitVec.ofNat 256 (order - s.toNat)

theorem toNat_otherHalf (s : Word256) : (otherHalf s).toNat = order - s.toNat := by
  have hlt : order - s.toNat < 2 ^ 256 := (Nat.sub_le _ _).trans_lt order_lt
  rw [otherHalf, BitVec.toNat_ofNat, Nat.mod_eq_of_lt hlt]

/-- One of the two values is in the lower half. -/
theorem le_half_iff (hs : s.toNat ≤ order) :
    s.toNat ≤ order / 2 ↔ order / 2 < (otherHalf s).toNat := by
  have hodd : order % 2 = 1 := by decide
  rw [toNat_otherHalf]
  omega

theorem ensureLowS_eq_iff : ensureLowS r s = (r, s) ↔
    order ≤ r.toNat ∨ order ≤ s.toNat ∨ s.toNat ≤ order / 2 := by
  unfold ensureLowS
  split
  · next hhigh =>
      have hne : otherHalf s ≠ s := by
        intro heq
        have hvalue := toNat_otherHalf s
        have hodd : order % 2 = 1 := by decide
        rw [heq] at hvalue
        omega
      simp only [Prod.mk.injEq, true_and]
      exact ⟨fun heq => absurd heq hne, fun hlow => by omega⟩
  · next hlow => simp only [true_iff]; omega

theorem ensureLowS_of_high (hr : r.toNat < order) (hs : s.toNat < order)
    (hhigh : order / 2 < s.toNat) : ensureLowS r s = (r, otherHalf s) :=
  if_pos ⟨hr, hs, hhigh⟩

/-- The lower form is what it says, and has itself for its lower form. -/
theorem ensureLowS_spec (r s : Word256) :
    ensureLowS (ensureLowS r s).1 (ensureLowS r s).2 = ensureLowS r s ∧
      (ensureLowS r s).1 = r ∧
      (r.toNat < order → s.toNat < order →
        (ensureLowS r s).2.toNat = min s.toNat (order - s.toNat)) := by
  by_cases hkept : ensureLowS r s = (r, s)
  · have hlow := ensureLowS_eq_iff.mp hkept
    rw [hkept]
    refine ⟨hkept, rfl, fun hr hs => (Nat.min_eq_left ?_).symm⟩
    dsimp only
    omega
  · obtain ⟨hr, hs, hhigh⟩ : r.toNat < order ∧ s.toNat < order ∧ order / 2 < s.toNat := by
      rw [ensureLowS_eq_iff] at hkept
      omega
    have hother := toNat_otherHalf s
    rw [ensureLowS_of_high hr hs hhigh]
    refine ⟨ensureLowS_eq_iff.mpr (Or.inr (Or.inr ?_)), rfl, fun _ _ => ?_⟩
    · rw [hother]
      omega
    · rw [hother]
      exact (Nat.min_eq_right (by omega)).symm

/-! ## The twin stands for the same key -/

namespace Secp256k1

/-- Multiples of a point matter modulo the number of points. -/
theorem mod_order_nsmul (a : Nat) (P : curve.Point) : (a % order) • P = a • P := by
  conv_rhs => rw [← Nat.mod_add_div a order]
  rw [add_nsmul, mul_nsmul, order_nsmul, nsmul_zero, add_zero]

/-- Both signs change together. -/
theorem opposite_nsmul_neg {a : Nat} (ha : a ≤ order) (b : Nat) (P : curve.Point) :
    ((order - a) * b % order) • (-P) = (a * b % order) • P := by
  rw [mod_order_nsmul, mod_order_nsmul, neg_nsmul, neg_eq_iff_add_eq_zero, ← add_nsmul,
    ← Nat.add_mul, Nat.sub_add_cancel ha, mul_nsmul, order_nsmul, nsmul_zero]

namespace Point

/-- The two points with the same first coordinate are opposite. -/
theorem lift?_not {x : Nat} {P : curve.Point} (h : lift? x odd = some (ofCurve P)) :
    lift? x (!odd) = some (ofCurve (-P)) := by
  obtain ⟨y, hy, hcurve, hparity⟩ := lift?_eq_some_iff.mp h
  rw [hy] at hcurve
  obtain ⟨hother, hne⟩ := hcurve.other
  have hneg := ofCurve_neg hy
  refine lift?_eq_some_iff.mpr ⟨_, hneg, hneg ▸ hother, ?_⟩
  cases odd <;> simp at hparity ⊢ <;> omega

theorem lift?_not_eq_none {x : Nat} (h : lift? x odd = none) : lift? x (!odd) = none := by
  by_contra hsome
  obtain ⟨p, hp⟩ := Option.ne_none_iff_exists'.mp hsome
  obtain ⟨y, rfl, hcurve, -⟩ := lift?_eq_some_iff.mp hp
  obtain ⟨P, hP⟩ := isOnCurve_iff.mp hcurve
  rw [← hP] at hp
  have hback := lift?_not hp
  rw [Bool.not_not, h] at hback
  cases hback

end Point

end Secp256k1

theorem recoverPoint?_zero (digest s : Nat) (odd : Bool) : recoverPoint? digest 0 s odd = none := by
  simp only [recoverPoint?, true_or, if_true]
  rfl

/-- The twin of a signature has the nonce point of the other parity, and gives the same key. -/
theorem recoverPoint?_twin {digest r s : Nat} (hpos : 0 < s) (hlt : s < order) (odd : Bool) :
    recoverPoint? digest r (order - s) (!odd) = recoverPoint? digest r s odd := by
  rcases Nat.eq_zero_or_pos r with rfl | hr
  · rw [recoverPoint?_zero, recoverPoint?_zero]
  · have hne : ¬(r = 0 ∨ s = 0) := by omega
    have hne' : ¬(r = 0 ∨ order - s = 0) := by omega
    simp only [recoverPoint?, if_neg hne, if_neg hne', Option.bind_eq_bind]
    cases hlift : Point.lift? r odd with
    | none => rw [Point.lift?_not_eq_none hlift, Option.bind_none, Option.bind_none]
    | some p =>
        obtain ⟨y, rfl, hcurve, -⟩ := Point.lift?_eq_some_iff.mp hlift
        obtain ⟨P, hP⟩ := Point.isOnCurve_iff.mp hcurve
        rw [← hP] at hlift ⊢
        have hmod : ∀ a : Nat, a % order < 2 ^ 256 := fun a =>
          (Nat.mod_lt a prime_order.pos).trans order_lt
        rw [Point.lift?_not hlift]
        simp only [Option.bind_some, ← ofCurve_base, Point.combine_ofCurve (hmod _) (hmod _),
          opposite_nsmul_neg hlt.le]

/-! ## What recovery accepts -/

theorem ne_zero_of_recoverPoint? {digest r s : Nat} (h : recoverPoint? digest r s odd = some key) :
    r ≠ 0 ∧ s ≠ 0 := by
  by_contra hzero
  have hnone : recoverPoint? digest r s odd = none := by
    rw [recoverPoint?, if_pos (by omega)]
    rfl
  rw [hnone] at h
  cases h

theorem recoverPublicKey_eq_ok_iff : recoverPublicKey digest r s v = .ok key ↔
    (v = 27 ∨ v = 28) ∧ r.toNat < order ∧ s.toNat ≤ order / 2 ∧
      recoverPoint? digest.toNat r.toNat s.toNat (v == 28) = some key := by
  have hhalf : order / 2 < order := by decide
  rw [recoverPublicKey]
  split_ifs with hv hhigh hrange
  · exact iff_of_false (by rintro ⟨⟩) (by omega)
  · rw [ne_eq, ensureLowS_eq_iff] at hhigh
    exact iff_of_false (by rintro ⟨⟩) (by omega)
  · exact iff_of_false (by rintro ⟨⟩) (by omega)
  · rw [ne_eq, not_not, ensureLowS_eq_iff] at hhigh
    cases recoverPoint? digest.toNat r.toNat s.toNat (v == 28) with
    | none => simp
    | some point =>
        rw [Except.ok.injEq, Option.some.injEq]
        exact ⟨fun h => ⟨by omega, by omega, by omega, h⟩, fun h => h.2.2.2⟩

/-- A signature in the upper half is refused, whatever it was made for. -/
theorem recoverPublicKey_of_high (hr : r.toNat < order) (hs : s.toNat < order)
    (hhigh : order / 2 < s.toNat) (digest : Word256) (v : Nat) :
    recoverPublicKey digest r s v =
      .error (.recovery (if v = 27 ∨ v = 28 then .highS else .invalidV v)) := by
  have hlow : ensureLowS r s ≠ (r, s) := by
    rw [ne_eq, ensureLowS_eq_iff]
    omega
  rw [recoverPublicKey]
  by_cases hv : v = 27 ∨ v = 28
  · rw [if_neg (by omega), if_pos hlow, if_pos hv]
  · rw [if_pos (by omega), if_neg hv]

/-- What is accepted is in the lower half, and its twin is not. -/
theorem recoverPublicKey_eq_ok (h : recoverPublicKey digest r s v = .ok key) :
    (v = 27 ∨ v = 28) ∧ 1 ≤ r.toNat ∧ r.toNat < order ∧ 1 ≤ s.toNat ∧
      s.toNat ≤ (order - 1) / 2 ∧
      ∀ digest' v', recoverPublicKey digest' r (otherHalf s) v' =
        .error (.recovery (if v' = 27 ∨ v' = 28 then .highS else .invalidV v')) := by
  obtain ⟨hv, hr, hs, hpoint⟩ := recoverPublicKey_eq_ok_iff.mp h
  obtain ⟨hr0, hs0⟩ := ne_zero_of_recoverPoint? hpoint
  have hodd : order / 2 = (order - 1) / 2 := by decide
  have hother := toNat_otherHalf s
  have hhigh := (le_half_iff (hs.trans (by decide))).mp hs
  exact ⟨hv, by omega, hr, by omega, hodd ▸ hs,
    recoverPublicKey_of_high hr (by omega) hhigh⟩

theorem not_twins {digest digest' r s r' s' : Word256} {v v' : Nat} {key key' : Point}
    (h : recoverPublicKey digest r s v = .ok key)
    (h' : recoverPublicKey digest' r' s' v' = .ok key') : ¬(r' = r ∧ s' = otherHalf s) := by
  rintro ⟨rfl, rfl⟩
  obtain ⟨-, -, -, -, -, hrefused⟩ := recoverPublicKey_eq_ok h
  rw [hrefused] at h'
  cases h'

/-- Of a signature and its twin one is accepted, for the key of both. -/
theorem one_accepted (hr : r.toNat < order) (hpos : 0 < s.toNat) (hs : s.toNat < order)
    (h : recoverPoint? digest.toNat r.toNat s.toNat odd = some key) :
    recoverPublicKey digest r s (27 + odd.toNat) = .ok key ∧ s.toNat ≤ order / 2 ∨
    recoverPublicKey digest r (otherHalf s) (27 + (!odd).toNat) = .ok key ∧
      order / 2 < s.toNat := by
  have hparity : ∀ odd : Bool, (27 + odd.toNat = 27 ∨ 27 + odd.toNat = 28) ∧
      (27 + odd.toNat == 28) = odd := by decide
  have hother := toNat_otherHalf s
  rcases le_or_gt s.toNat (order / 2) with hlow | hhigh
  · refine Or.inl ⟨recoverPublicKey_eq_ok_iff.mpr ⟨(hparity odd).1, hr, hlow, ?_⟩, hlow⟩
    rw [(hparity odd).2, h]
  · have hlow : (otherHalf s).toNat ≤ order / 2 := by omega
    refine Or.inr ⟨recoverPublicKey_eq_ok_iff.mpr ⟨(hparity !odd).1, hr, hlow, ?_⟩, hhigh⟩
    rw [(hparity !odd).2, hother, recoverPoint?_twin hpos hs, h]

/-! ## Who signed -/

theorem Evm.exists_of_recoverSigner {kind : Evm.Kind} {chainId : UInt64} {sig : Evm.Signature}
    {address : EvmAddress} (h : Evm.recoverSigner kind chainId digest sig = .ok address) :
    ∃ v key, recoverPublicKey digest sig.r sig.s v = .ok key := by
  obtain ⟨v, -, h⟩ := bind_eq_ok_iff.mp h
  obtain ⟨key, hkey, -⟩ := bind_eq_ok_iff.mp h
  exact ⟨v, key, hkey⟩

theorem Container.Signer.exists_of_recoverText {signer : Container.Signer} {text address : String}
    (h : signer.recoverText digest text = .ok address) :
    ∃ sig : RecoverableSignature, Hex.decode text = .ok sig.toBytes ∧
      ∃ v key, recoverPublicKey digest sig.r sig.s v = .ok key := by
  unfold recoverText at h
  split at h
  · cases h
  · next b hb =>
      obtain ⟨sig, hsig, haddress⟩ := bind_eq_ok_iff.mp h
      obtain rfl := RecoverableSignature.toBytes_of_ofBytes_eq_ok hsig
      rw [recoverAddress] at haddress
      split at haddress
      · cases haddress
      · obtain ⟨key, hkey, -⟩ := bind_eq_ok_iff.mp haddress
        exact ⟨sig, hb, _, key, hkey⟩

/-- **Of a signature and its twin one is accepted and the other refused.**

* The lower form of two halves is its own lower form and keeps `r`; of halves that are scalars it
  has the lesser of the two values for `s`, and others it leaves alone.
* Recovery succeeds only with a `v` of 27 or 28, with scalars that are not zero, and with the `s`
  of the lower half; the twin of what it accepts is refused for every digest and every `v`.
* That is all that is refused of them: of a signature that names a key and its twin, whose `v`
  is the other one, one is accepted, and it gives the key.
* So no signature of an account chain recovers to an address if its twin does, on any chain and
  for any digest; and no container has signers if it, or another that has signers, holds the
  twin of one of its signatures. -/
theorem one_of_twins_is_accepted :
    (∀ r s : Word256,
      ensureLowS (ensureLowS r s).1 (ensureLowS r s).2 = ensureLowS r s ∧
      (ensureLowS r s).1 = r ∧
      (r.toNat < order → s.toNat < order →
        (ensureLowS r s).2.toNat = min s.toNat (order - s.toNat)) ∧
      (order ≤ r.toNat ∨ order ≤ s.toNat → ensureLowS r s = (r, s))) ∧
    (∀ digest r s v key, recoverPublicKey digest r s v = .ok key →
      (v = 27 ∨ v = 28) ∧ 1 ≤ r.toNat ∧ r.toNat < order ∧ 1 ≤ s.toNat ∧
      s.toNat ≤ (order - 1) / 2 ∧
      ∀ digest' v', recoverPublicKey digest' r (otherHalf s) v' =
        .error (.recovery (if v' = 27 ∨ v' = 28 then .highS else .invalidV v'))) ∧
    (∀ (digest r s : Word256) (odd : Bool) (key : Point),
      r.toNat < order → 0 < s.toNat → s.toNat < order →
      recoverPoint? digest.toNat r.toNat s.toNat odd = some key →
      recoverPublicKey digest r s (27 + odd.toNat) = .ok key ∧ s.toNat ≤ order / 2 ∨
      recoverPublicKey digest r (otherHalf s) (27 + (!odd).toNat) = .ok key ∧
        order / 2 < s.toNat) ∧
    (∀ kind chainId digest sig address, Evm.recoverSigner kind chainId digest sig = .ok address →
      ∀ kind' chainId' digest' twin, twin.r = sig.r → twin.s = otherHalf sig.s →
        ∀ address', Evm.recoverSigner kind' chainId' digest' twin ≠ .ok address') ∧
    (∀ (signer : Container.Signer) (c : Container) (addresses : List String),
      signer.recoverSigners c = .ok addresses →
      ∀ text ∈ c.signatures, ∃ sig : RecoverableSignature, Hex.decode text = .ok sig.toBytes ∧
        ∀ (signer' : Container.Signer) (c' : Container) (twin : RecoverableSignature),
          twin.r = sig.r → twin.s = otherHalf sig.s →
          ∀ text' ∈ c'.signatures, Hex.decode text' = .ok twin.toBytes →
            ∀ addresses', signer'.recoverSigners c' ≠ .ok addresses') := by
  refine ⟨fun r s => ?_, fun digest r s v key => recoverPublicKey_eq_ok,
    fun digest r s odd key => one_accepted, ?_, ?_⟩
  · obtain ⟨hidempotent, hr, hmin⟩ := ensureLowS_spec r s
    exact ⟨hidempotent, hr, hmin, fun hlarge => ensureLowS_eq_iff.mpr (by omega)⟩
  · rintro kind chainId digest sig address h kind' chainId' digest' twin hr hs address' h'
    obtain ⟨v, key, hkey⟩ := Evm.exists_of_recoverSigner h
    obtain ⟨v', key', hkey'⟩ := Evm.exists_of_recoverSigner h'
    exact not_twins hkey hkey' ⟨hr, hs⟩
  · intro signer c addresses h text htext
    obtain ⟨address, haddress⟩ := exists_eq_ok_of_mapM_eq_ok h htext
    obtain ⟨sig, hsig, v, key, hkey⟩ := Container.Signer.exists_of_recoverText haddress
    refine ⟨sig, hsig, fun signer' c' twin hr hs text' htext' htwin addresses' h' => ?_⟩
    obtain ⟨address', haddress'⟩ := exists_eq_ok_of_mapM_eq_ok h' htext'
    obtain ⟨sig', hsig', v', key', hkey'⟩ := Container.Signer.exists_of_recoverText haddress'
    rw [htwin, Except.ok.injEq] at hsig'
    obtain rfl := RecoverableSignature.toBytes_injective hsig'
    exact not_twins hkey hkey' ⟨hr, hs⟩

end Keyring
