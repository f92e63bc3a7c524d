import Mathlib.Data.List.Prime
import Mathlib.FieldTheory.Finite.Basic
import Mathlib.NumberTheory.LucasPrimality
import Mathlib.Tactic.NormNum.Prime
import Keyring.Secp256k1

/-!
# The primes of the curve

The coordinates of points are numbers modulo `prime`, scalars are numbers modulo `order`, and
both moduli are primes.  That is Lucas's test: a number `p` is prime if some `root` has the
order `p - 1` modulo `p`, which only takes the prime factors of `p - 1` to check.  These are
certified in the same way, down to primes of three digits (`certificates`).

The test raises numbers to powers with `powMod`, which is also what inverses (`cast_invMod`)
and square roots are computed with.
-/

namespace Keyring.Secp256k1

/-! ## Powers -/

/-- Exponents of so many bits are dealt with bit by bit. -/
theorem powMod_eq {bits exponent : Nat} (m base : Nat) (h : exponent < 2 ^ bits) :
    powMod m bits base exponent = base ^ exponent % m := by
  induction bits generalizing base exponent with
  | zero =>
      obtain rfl : exponent = 0 := by omega
      rfl
  | succ bits ih =>
      have hhalf : exponent / 2 < 2 ^ bits := by
        rw [pow_succ] at h
        omega
      have hsquare : (base * base % m) ^ (exponent / 2) % m =
          base ^ (2 * (exponent / 2)) % m := by
        rw [← Nat.pow_mod, pow_mul, sq]
      simp only [powMod]
      rw [ih _ hhalf, hsquare]
      split
      · next hodd =>
          rw [Nat.mul_mod_mod, ← pow_succ', show 2 * (exponent / 2) + 1 = exponent by omega]
      · next heven =>
          rw [show 2 * (exponent / 2) = exponent by omega]

theorem cast_powMod {bits exponent : Nat} (m base : Nat) (h : exponent < 2 ^ bits) :
    (powMod m bits base exponent : ZMod m) = (base : ZMod m) ^ exponent := by
  rw [powMod_eq m base h, ZMod.natCast_mod, Nat.cast_pow]

/-! ## Certificates -/

/-- A number with an element of the order that only a prime admits. -/
structure Certificate where
  p : Nat
  root : Nat
  /-- The prime factors of `p - 1`. -/
  factors : List Nat

namespace Certificate

/-- What is to be checked once all the factors are known to be prime. -/
def Passes (c : Certificate) (known : List Nat) : Prop :=
  c.p < 2 ^ 256 ∧ (∀ q ∈ c.factors, q ∈ known) ∧ c.factors.prod = c.p - 1 ∧
    powMod c.p 256 c.root (c.p - 1) = 1 % c.p ∧
    ∀ q ∈ c.factors, powMod c.p 256 c.root ((c.p - 1) / q) ≠ 1 % c.p

instance (c : Certificate) (known : List Nat) : Decidable (c.Passes known) :=
  inferInstanceAs (Decidable (_ ∧ _ ∧ _ ∧ _ ∧ _))

/-- Certificates that pass one after the other, each with what was certified before it. -/
def AllPass (known : List Nat) : List Certificate → Prop
  | [] => True
  | c :: rest => c.Passes known ∧ AllPass (c.p :: known) rest

instance decidableAllPass (known : List Nat) :
    (certificates : List Certificate) → Decidable (AllPass known certificates)
  | [] => inferInstanceAs (Decidable True)
  | c :: rest =>
    have : Decidable (AllPass (c.p :: known) rest) := decidableAllPass (c.p :: known) rest
    inferInstanceAs (Decidable (_ ∧ _))

variable {c : Certificate} {known : List Nat}

theorem Passes.prime (h : c.Passes known) (hknown : ∀ q ∈ known, q.Prime) : c.p.Prime := by
  obtain ⟨hlt, hfactors, hprod, hroot, hother⟩ := h
  have hcast : ∀ e ≤ c.p - 1, powMod c.p 256 c.root e = 1 % c.p ↔
      (c.root : ZMod c.p) ^ e = 1 := by
    intro e he
    rw [powMod_eq _ _ (by omega), ← Nat.cast_pow, ← Nat.cast_one (R := ZMod c.p),
      ZMod.natCast_eq_natCast_iff']
  refine lucas_primality c.p c.root ((hcast _ le_rfl).mp hroot) fun q hq hdvd hone => ?_
  rw [← hprod] at hdvd
  obtain ⟨q', hq', hdvd'⟩ := (Prime.dvd_prod_iff hq.prime).mp hdvd
  obtain rfl : q = q' := (Nat.prime_dvd_prime_iff_eq hq (hknown q' (hfactors q' hq'))).mp hdvd'
  exact hother q hq' ((hcast _ (Nat.div_le_self _ _)).mpr hone)

theorem AllPass.prime {certificates : List Certificate} (h : AllPass known certificates)
    (hknown : ∀ q ∈ known, q.Prime) : ∀ p ∈ certificates.map Certificate.p, p.Prime := by
  induction certificates generalizing known with
  | nil => simp
  | cons c rest ih =>
      obtain ⟨hc, hrest⟩ := h
      have hprime := hc.prime hknown
      exact List.forall_mem_cons.mpr
        ⟨hprime, ih hrest (List.forall_mem_cons.mpr ⟨hprime, hknown⟩)⟩

end Certificate

/-! ## The two moduli -/

/-- The primes that the certificates start from. -/
def smallPrimes : List Nat :=
  [2, 3, 5, 7, 11, 13, 17, 19, 23, 29, 31, 41, 53, 59, 67, 83, 97, 101, 103, 109, 113, 131, 149,
   239, 271, 293, 419, 443, 461, 631, 797, 887, 971]

theorem prime_of_mem_smallPrimes : ∀ q ∈ smallPrimes, q.Prime := by
  simp only [smallPrimes, List.forall_mem_cons]
  norm_num

/-- The certificates of the two moduli, each after those of the factors it names. -/
def certificates : List Certificate :=
  [⟨1373, 2, [2, 2, 7, 7, 7]⟩,
   ⟨1409, 3, [2, 2, 2, 2, 2, 2, 2, 11]⟩,
   ⟨1627, 3, [2, 3, 271]⟩,
   ⟨1871, 14, [2, 5, 11, 17]⟩,
   ⟨2011, 3, [2, 3, 5, 67]⟩,
   ⟨2621, 2, [2, 2, 5, 131]⟩,
   ⟨2657, 3, [2, 2, 2, 2, 2, 83]⟩,
   ⟨2731, 3, [2, 3, 5, 7, 13]⟩,
   ⟨2861, 2, [2, 2, 5, 11, 13]⟩,
   ⟨4051, 10, [2, 3, 3, 3, 3, 5, 5]⟩,
   ⟨4423, 3, [2, 3, 11, 67]⟩,
   ⟨5323, 5, [2, 3, 887]⟩,
   ⟨7723, 3, [2, 3, 3, 3, 11, 13]⟩,
   ⟨9349, 2, [2, 2, 3, 19, 41]⟩,
   ⟨13441, 11, [2, 2, 2, 2, 2, 2, 2, 3, 5, 7]⟩,
   ⟨16699, 3, [2, 3, 11, 11, 23]⟩,
   ⟨20113, 10, [2, 2, 2, 2, 3, 419]⟩,
   ⟨24809, 6, [2, 2, 2, 7, 443]⟩,
   ⟨28181, 2, [2, 2, 5, 1409]⟩,
   ⟨41201, 3, [2, 2, 2, 2, 5, 5, 103]⟩,
   ⟨85831, 3, [2, 3, 5, 2861]⟩,
   ⟨96557, 2, [2, 2, 101, 239]⟩,
   ⟨120233, 3, [2, 2, 2, 7, 19, 113]⟩,
   ⟨305873, 3, [2, 2, 2, 2, 7, 2731]⟩,
   ⟨1206781, 10, [2, 2, 3, 5, 20113]⟩,
   ⟨1627771, 3, [2, 3, 5, 29, 1871]⟩,
   ⟨4681609, 23, [2, 2, 2, 3, 97, 2011]⟩,
   ⟨7240687, 3, [2, 3, 1206781]⟩,
   ⟨13331831, 13, [2, 5, 971, 1373]⟩,
   ⟨44706919, 6, [2, 3, 797, 9349]⟩,
   ⟨107590001, 3, [2, 2, 2, 2, 5, 5, 5, 5, 7, 29, 53]⟩,
   ⟨545358713, 5, [2, 2, 2, 41, 59, 28181]⟩,
   ⟨297159362677, 2, [2, 2, 3, 3, 11, 461, 1627771]⟩,
   ⟨107361793816595537, 3, [2, 2, 2, 2, 16699, 85831, 4681609]⟩,
   ⟨173378833005251801, 6, [2, 2, 2, 5, 5, 2621, 24809, 13331831]⟩,
   ⟨174723607534414371449, 3, [2, 2, 2, 17, 59, 4051, 120233, 44706919]⟩,
   ⟨22149492674086928081353, 5, [2, 2, 2, 3, 5323, 173378833005251801]⟩,
   ⟨132896956044521568488119, 6, [2, 3, 22149492674086928081353]⟩,
   ⟨29047611873442575647497758179, 2, [2, 293, 305873, 545358713, 297159362677]⟩,
   ⟨341948486974166000522343609283189, 2, [2, 2, 3, 3, 3, 109, 29047611873442575647497758179]⟩,
   ⟨255515944373312847190720520512484175977, 3, [2, 2, 2, 7, 7, 11, 1627, 2657, 4423, 41201,
     96557, 7240687, 107590001]⟩,
   ⟨205115282021455665897114700593932402728804164701536103180137503955397371, 10, [2, 3, 5, 29,
     29, 31, 7723, 132896956044521568488119, 255515944373312847190720520512484175977]⟩,
   ⟨115792089237316195423570985008687907852837564279074904382605163141518161494337, 7, [2, 2, 2,
     2, 2, 2, 3, 149, 631, 107361793816595537, 174723607534414371449,
     341948486974166000522343609283189]⟩,
   ⟨115792089237316195423570985008687907853269984665640564039457584007908834671663, 3, [2, 3, 7,
     13441, 205115282021455665897114700593932402728804164701536103180137503955397371]⟩]

theorem prime_of_mem_certificates : ∀ p ∈ certificates.map Certificate.p, p.Prime :=
  Certificate.AllPass.prime (by decide +kernel) prime_of_mem_smallPrimes

theorem prime_prime : prime.Prime :=
  prime_of_mem_certificates prime (by decide)

theorem prime_order : order.Prime :=
  prime_of_mem_certificates order (by decide)

instance : Fact prime.Prime :=
  ⟨prime_prime⟩

instance : Fact order.Prime :=
  ⟨prime_order⟩

/-! ## Inverses -/

/-- The inverse modulo a prime is computed by Fermat's little theorem. -/
theorem cast_invMod {m : Nat} [Fact m.Prime] (hodd : 2 < m) (hlt : m < 2 ^ 256) (a : Nat) :
    (invMod m a : ZMod m) = (a : ZMod m)⁻¹ := by
  rw [invMod, cast_powMod m a (by omega)]
  by_cases ha : (a : ZMod m) = 0
  · rw [ha, inv_zero, zero_pow (by omega)]
  · refine eq_inv_of_mul_eq_one_right ?_
    rw [← pow_succ', show m - 2 + 1 = m - 1 by omega, ZMod.pow_card_sub_one_eq_one ha]

end Keyring.Secp256k1
