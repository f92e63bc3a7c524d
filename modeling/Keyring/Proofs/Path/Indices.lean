import Mathlib.Algebra.Order.Ring.Nat
import Mathlib.Data.List.Basic
import Keyring.Path

/-!
# Child numbers of a path

A path has child numbers if none of its levels is `hardenedOffset` or more
(`Bip44Path.indices_eq_ok_iff`), and else an error that names the first level that is
(`indices_of_first_large`).  Hardening a level adds `hardenedOffset` to its number, so the child
numbers of the first three levels are at or above it, those of the last two below, and all five
of them give the path back (`indices_injective`).
-/

namespace Keyring

/-- Hardening adds `2 ^ 31` to a number below. -/
theorem toNat_hardened {account : UInt32} (h : account < hardenedOffset) :
    (hardenedOffset ||| account).toNat = 2 ^ 31 + account.toNat := by
  have hlt : account.toNat < 2 ^ 31 := UInt32.lt_iff_toNat_lt.mp h
  rw [UInt32.toNat_or]
  exact (Nat.two_pow_add_eq_or_of_lt hlt 1).symm

theorem hardenedOffset_le_hardened {level : UInt32} (h : level < hardenedOffset) :
    hardenedOffset ≤ hardenedOffset ||| level := by
  rw [UInt32.le_iff_toNat_le, toNat_hardened h]
  exact Nat.le_add_right _ _

theorem hardened_injective {v w : UInt32} (hv : v < hardenedOffset) (hw : w < hardenedOffset)
    (h : hardenedOffset ||| v = hardenedOffset ||| w) : v = w := by
  have hvalue := congrArg UInt32.toNat h
  rw [toNat_hardened hv, toNat_hardened hw] at hvalue
  exact UInt32.toNat_inj.mp (Nat.add_left_cancel hvalue)

namespace Bip44Path

variable {p q : Bip44Path}

/-- A path none of whose levels is too large for a child number. -/
def InRange (p : Bip44Path) : Prop :=
  ∀ level ∈ p.levels, level.2 < hardenedOffset

theorem inRange_iff : p.InRange ↔
    p.purpose < hardenedOffset ∧ p.coinType < hardenedOffset ∧ p.account < hardenedOffset ∧
      p.change < hardenedOffset ∧ p.addressIndex < hardenedOffset := by
  simp only [InRange, levels, List.forall_mem_cons, List.not_mem_nil, false_imp_iff,
    implies_true, and_true]

theorem accountIndices_ne_nil (p : Bip44Path) : p.accountIndices ≠ [] :=
  List.cons_ne_nil _ _

theorem leafIndices_ne_nil (p : Bip44Path) : p.leafIndices ≠ [] :=
  List.cons_ne_nil _ _

theorem indices_eq_ok_iff {indices : List UInt32} :
    p.indices = .ok indices ↔ p.InRange ∧ indices = p.accountIndices ++ p.leafIndices := by
  rw [Bip44Path.indices]
  split
  · next level value hfound =>
      have hlarge := List.find?_some hfound
      constructor
      · intro h
        cases h
      · rintro ⟨hrange, -⟩
        have hsmall := hrange _ (List.mem_of_find?_eq_some hfound)
        exact absurd (of_decide_eq_true hlarge) (UInt32.not_le.mpr hsmall)
  · next hnone =>
      have hrange : p.InRange := by
        intro level hlevel
        have hsmall := List.find?_eq_none.mp hnone level hlevel
        exact UInt32.not_le.mp (mt decide_eq_true hsmall)
      rw [Except.ok.injEq, eq_comm]
      exact ⟨fun h => ⟨hrange, h⟩, And.right⟩

theorem indices_of_inRange (h : p.InRange) : p.indices = .ok (p.accountIndices ++ p.leafIndices) :=
  indices_eq_ok_iff.mpr ⟨h, rfl⟩

/-- The first level that is too large is the one that is named. -/
theorem indices_of_first_large {before after : List (PathLevel × UInt32)} {level : PathLevel}
    {value : UInt32} (hlevels : p.levels = before ++ (level, value) :: after)
    (hbefore : ∀ earlier ∈ before, earlier.2 < hardenedOffset) (hvalue : hardenedOffset ≤ value) :
    p.indices = .error (.derivation (.levelOutOfRange level value)) := by
  have hfound : p.outOfRange? = some (level, value) := by
    refine List.find?_eq_some_iff_append.mpr ⟨decide_eq_true hvalue, before, after, hlevels, ?_⟩
    intro earlier hearlier
    have hsmall := UInt32.not_le.mpr (hbefore earlier hearlier)
    rw [decide_eq_false hsmall]
    rfl
  rw [indices, hfound]

/-- No two paths have the same child numbers. -/
theorem indices_injective (hp : p.InRange) (hq : q.InRange) (h : p.indices = q.indices) :
    p = q := by
  rw [indices_of_inRange hp, indices_of_inRange hq] at h
  obtain ⟨hpurpose, hcoin, haccount, -⟩ := inRange_iff.mp hp
  obtain ⟨hpurpose', hcoin', haccount', -⟩ := inRange_iff.mp hq
  simp only [accountIndices, leafIndices, List.cons_append, List.nil_append, Except.ok.injEq,
    List.cons.injEq, and_true] at h
  obtain ⟨h₁, h₂, h₃, h₄, h₅⟩ := h
  cases p
  cases q
  rw [mk.injEq]
  exact ⟨hardened_injective hpurpose hpurpose' h₁, hardened_injective hcoin hcoin' h₂,
    hardened_injective haccount haccount' h₃, h₄, h₅⟩

end Bip44Path

end Keyring
