import Keyring.Proofs.KeyNode.Export

/-!
# The nodes that can be made

A node that any sequence of operations can make is cleared or intact (`Intact.lean`).  Here is
the converse, so these two are all that a caller can hold: an intact node is read from its own
export, and a cleared one is left when a node with the same numbers is cleared.  What the
operations answer on either kind follows from the kind alone.
-/

namespace Keyring.KeyNode

open Secp256k1

variable {node : KeyNode} {m : KeyMaterial} {network : Network}

theorem Intact.reachable (h : node.Intact m network) : Reachable node := by
  obtain ⟨text, -, hread, -⟩ := h.read_back
  exact Reachable.ofExtendedPrivate hread

theorem Cleared.reachable (h : node.Cleared) (hdepth : node.depth ≤ 255) : Reachable node := by
  -- Any key will do: clearing leaves nothing of it.
  let secret : Secret := ⟨1, by decide, by decide⟩
  let filled := ofSecret secret (List.replicate 32 0) node.depth node.parentFingerprint
    node.childNumber .mainnet
  have hfilled : Reachable filled :=
    (ofSecret_intact secret node.parentFingerprint node.childNumber .mainnet
      List.length_replicate hdepth).reachable
  have hclear : filled.clear = node := by
    calc filled.clear
        = ⟨none, node.depth, node.parentFingerprint, node.childNumber, none⟩ := rfl
      _ = node := by rw [← h.material_eq, ← h.network_eq]
  rw [← hclear]
  exact hfilled.clear

theorem reachable_iff :
    Reachable node ↔
      node.depth ≤ 255 ∧ (node.Cleared ∨ ∃ m network, node.Intact m network) := by
  constructor
  · exact Reachable.cleared_or_intact
  · rintro ⟨hdepth, hcleared | ⟨m, network, hintact⟩⟩
    · exact hcleared.reachable hdepth
    · exact hintact.reachable

/-! ## What fails on a cleared node -/

namespace Cleared

variable (h : node.Cleared)
include h

theorem privateKey : node.privateKey = .error .keyCleared := by
  rw [KeyNode.privateKey, h.liveMaterial]
  rfl

theorem fingerprint : node.fingerprint = .error .keyCleared := by
  rw [KeyNode.fingerprint, h.publicKey]
  rfl

theorem address (encoding : AddressEncoding) (network : Network) :
    node.address encoding network = .error .keyCleared := by
  rw [KeyNode.address, h.publicKey]
  rfl

theorem extendedPrivate : node.extendedPrivate = .error .keyCleared := by
  rw [KeyNode.extendedPrivate, h.liveMaterial]
  rfl

theorem extendedPublic : node.extendedPublic = .error .keyCleared := by
  rw [KeyNode.extendedPublic, h.liveMaterial]
  rfl

end Cleared

/-! ## What can fail on an intact node -/

namespace Intact

variable (h : node.Intact m network)
include h

theorem privateKey : node.privateKey = .ok m.secret := by
  rw [KeyNode.privateKey, h.liveMaterial]
  rfl

theorem derive_eq_error_iff (index : UInt32) (e : WalletError) :
    node.derive index = .error e ↔
      e = .derivation .depthExhausted ∧ node.depth = 255 ∨
        e = .invalidChildKey index ∧ node.depth < 255 ∧ Unusable m index := by
  have hdepth := h.depth_le
  rcases UInt16.lt_or_eq_of_le hdepth with hlt | heq
  · have hne : node.depth ≠ 255 := UInt16.ne_of_lt hlt
    have hshallow : ¬ 255 ≤ node.depth := UInt16.not_le.mpr hlt
    by_cases hunusable : Unusable m index
    · rw [h.derive_of_unusable hshallow hunusable]
      simp [hne, hlt, hunusable, eq_comm]
    · obtain ⟨secret, -, hok⟩ := h.derive_of_usable hshallow hunusable
      rw [hok]
      simp [hne, hunusable]
  · rw [h.derive_of_deepest heq]
    simp [heq, eq_comm]

end Intact

/-- **A node that can be made is cleared or intact, and answers accordingly.**  On a cleared
node every operation that needs its key fails alike.  On an intact node all of them succeed,
except that a child fails at the greatest depth and where its digest gives no key. -/
theorem reachable_is_cleared_or_intact :
    (∀ node, Reachable node ↔
      node.depth ≤ 255 ∧ (node.Cleared ∨ ∃ m network, node.Intact m network)) ∧
    (∀ node : KeyNode, node.Cleared →
      node.isCleared = true ∧
      (∀ index, node.derive index = .error .keyCleared) ∧
      (∀ index indices, node.deriveIndices (index :: indices) = .error .keyCleared) ∧
      node.privateKey = .error .keyCleared ∧
      node.publicKey = .error .keyCleared ∧
      node.fingerprint = .error .keyCleared ∧
      node.extendedPrivate = .error .keyCleared ∧
      node.extendedPublic = .error .keyCleared ∧
      ∀ encoding network, node.address encoding network = .error .keyCleared) ∧
    (∀ (node : KeyNode) (m : KeyMaterial) (network : Network), node.Intact m network →
      node.isCleared = false ∧
      node.privateKey = .ok m.secret ∧
      node.publicKey = .ok m.publicKey ∧
      (∃ mark, node.fingerprint = .ok mark) ∧
      (∃ text, node.extendedPrivate = .ok text) ∧
      (∃ text, node.extendedPublic = .ok text) ∧
      ∀ index e, node.derive index = .error e ↔
        e = .derivation .depthExhausted ∧ node.depth = 255 ∨
          e = .invalidChildKey index ∧ node.depth < 255 ∧ Unusable m index) := by
  refine ⟨fun node => reachable_iff, fun node h => ?_, fun node m network h => ?_⟩
  · have hcleared : node.isCleared = true := by rw [isCleared, h.material_eq]; rfl
    exact ⟨hcleared, h.derive, h.deriveIndices, h.privateKey, h.publicKey, h.fingerprint,
      h.extendedPrivate, h.extendedPublic, h.address⟩
  · have hlive : node.isCleared = false := by rw [isCleared, h.material_eq]; rfl
    exact ⟨hlive, h.privateKey, h.publicKey, ⟨_, h.fingerprint⟩, ⟨_, h.extendedPrivate⟩,
      ⟨_, h.extendedPublic⟩, h.derive_eq_error_iff⟩

end Keyring.KeyNode
