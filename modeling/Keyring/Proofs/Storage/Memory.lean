import Keyring.Proofs.Outcome
import Keyring.Storage.Memory

/-!
# Finding wallets in memory

What storing a record and changing its flag do to the record that is found for each wallet.
-/

namespace Keyring

/-- The record with its flag changed at some time. -/
def WalletRecord.withEnabled (record : WalletRecord) (enabled : Bool) (time : Timestamp) :
    WalletRecord :=
  { record with isEnabled := enabled, updatedAt := time }

namespace MemoryRepository

variable {r later : MemoryRepository} {wallet : Uuid} {record : WalletRecord}

theorem wallet_of_find? (h : r.find? wallet = some record) : record.wallet = wallet := by
  have hmatch := List.find?_some h
  exact beq_iff_eq.mp hmatch

/-- The record that was stored last is found for its wallet; the others are found as before. -/
theorem find?_insert (r : MemoryRepository) (record : WalletRecord) (wallet : Uuid) :
    (r.insert record).2.find? wallet =
      if record.wallet = wallet then some { record with id := r.size + 1 }
      else r.find? wallet := by
  simp only [insert, find?, List.find?_append, List.find?_filter, List.find?_singleton]
  by_cases hwallet : record.wallet = wallet
  · -- The record that the wallet had is gone.
    rw [if_pos hwallet, if_pos (beq_iff_eq.mpr hwallet), List.find?_eq_none.mpr, Option.none_or]
    intro a _
    simp [hwallet]
  · rw [if_neg hwallet, if_neg (by simpa using hwallet), Option.or_none]
    congr 1
    funext a
    by_cases ha : a.wallet = wallet
    · simp [ha, Ne.symm hwallet]
    · simp [ha]

/-- The flag can be changed if the wallet has a record. -/
theorem setEnabled_of_some (h : r.find? wallet = some record) (enabled : Bool)
    (time : Timestamp) :
    r.setEnabled wallet enabled time =
      .ok ⟨r.records.map fun a => if a.wallet = wallet then a.withEnabled enabled time else a⟩ := by
  simp only [setEnabled, get, h]
  rfl

theorem setEnabled_of_none (h : r.find? wallet = none) (enabled : Bool) (time : Timestamp) :
    r.setEnabled wallet enabled time = .error (.walletNotFound wallet.text) := by
  simp only [setEnabled, get, h]
  rfl

/-- Changing the flag of a wallet changes the record that is found for this wallet only. -/
theorem find?_of_setEnabled {enabled : Bool} {time : Timestamp}
    (hok : r.setEnabled wallet enabled time = .ok later) (other : Uuid) :
    later.find? other =
      if other = wallet then (r.find? other).map (·.withEnabled enabled time)
      else r.find? other := by
  cases hfind : r.find? wallet with
  | none =>
      rw [setEnabled_of_none hfind] at hok
      cases hok
  | some record =>
      rw [setEnabled_of_some hfind, Except.ok.injEq] at hok
      subst hok
      simp only [find?, List.find?_map]
      have hsame : ((fun a : WalletRecord => a.wallet == other) ∘ fun a =>
          if a.wallet = wallet then a.withEnabled enabled time else a) = (·.wallet == other) := by
        funext a
        simp only [Function.comp_apply]
        split <;> rfl
      rw [hsame]
      cases hother : r.records.find? (·.wallet == other) with
      | none => simp
      | some a =>
          have ha : a.wallet = other := wallet_of_find? (r := r) hother
          simp only [Option.map_some, ha]
          split <;> rfl

end MemoryRepository

end Keyring
