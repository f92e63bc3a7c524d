import Keyring.Proofs.KeyNode.Descent
import Keyring.Proofs.KeyNode.Export

/-!
# Nodes of depth zero

A master node has no parent, so its parent fingerprint and its child number are zero
(`MasterHeader`).  Every child is at least one level deep, whatever it is derived from.  An
extended private key gives a node with the header that its text spells; the fields of the header
are read one by one and are not compared with each other.  So a node of depth zero has the header
of a master node unless it was read from a text with another one
(`Reachable.of_depth_eq_zero`), and every such text is read (`ofExtendedPrivate_rootText`).
-/

namespace Keyring.KeyNode

open Secp256k1

variable {node leaf : KeyNode} {network : Network} {indices : List UInt32}

/-! ## Where depth zero comes from -/

/-- The header of a node that has no parent. -/
structure MasterHeader (node : KeyNode) : Prop where
  depth_eq : node.depth = 0
  parentFingerprint_eq : node.parentFingerprint = 0
  childNumber_eq : node.childNumber = 0

theorem MasterHeader.clear (h : node.MasterHeader) : node.clear.MasterHeader :=
  ⟨h.depth_eq, h.parentFingerprint_eq, h.childNumber_eq⟩

theorem masterHeader_of_ofSeed {seed : Bytes} (h : ofSeed seed network = .ok node) :
    node.MasterHeader := by
  obtain ⟨secret, chainCode, hparts⟩ := exists_parts_of_ofSeed_eq_ok h
  obtain ⟨-, rfl⟩ := ofParts_eq_ok_iff.mp hparts
  exact ⟨rfl, rfl, rfl⟩

theorem Descends.depth_ne_zero (h : Descends node indices leaf) (hne : indices ≠ []) :
    leaf.depth ≠ 0 := by
  intro hzero
  have hlength := List.length_pos_iff.mpr hne
  have hdepth := h.toNat_depth
  rw [hzero, UInt16.toNat_zero] at hdepth
  omega

theorem depth_ne_zero_of_derive {index : UInt32} (h : node.derive index = .ok leaf) :
    leaf.depth ≠ 0 :=
  (Descends.down h (.stay leaf)).depth_ne_zero (List.cons_ne_nil _ _)

theorem depth_ne_zero_of_deriveIndices (h : node.deriveIndices indices = .ok leaf) :
    leaf.depth ≠ 0 := by
  cases indices with
  | nil => cases h
  | cons index indices =>
      have hne : index :: indices ≠ [] := List.cons_ne_nil _ _
      exact ((deriveIndices_eq_ok_iff hne).mp h).depth_ne_zero hne

/-- Of the nodes of depth zero only those that were read can have another header than a master
node. -/
theorem Reachable.of_depth_eq_zero (h : Reachable node) (hdepth : node.depth = 0) :
    node.MasterHeader ∨ ∃ text network imported,
      KeyNode.ofExtendedPrivate text network = .ok imported ∧
        (node = imported ∨ node = imported.clear) := by
  induction h with
  | ofSeed h => exact Or.inl (masterHeader_of_ofSeed h)
  | ofExtendedPrivate h => exact Or.inr ⟨_, _, _, h, Or.inl rfl⟩
  | derive _ h _ => exact absurd hdepth (depth_ne_zero_of_derive h)
  | deriveIndices _ h _ => exact absurd hdepth (depth_ne_zero_of_deriveIndices h)
  | clear _ ih =>
      rcases ih hdepth with hmaster | ⟨text, network, imported, hread, rfl | rfl⟩
      · exact Or.inl hmaster.clear
      · exact Or.inr ⟨text, network, _, hread, Or.inr rfl⟩
      -- Clearing once more changes nothing.
      · exact Or.inr ⟨text, network, imported, hread, Or.inr rfl⟩

/-! ## Headers that are read -/

/-- The text of a private key with depth zero and any header. -/
def rootText (network : Network) (secret : Secret) (chainCode : Bytes)
    (parentFingerprint childNumber : UInt32) : String :=
  Base58.encodeCheck (layout network.privateVersion 0 parentFingerprint childNumber chainCode
    (0 :: secret.toBytes))

variable {secret : Secret} {chainCode : Bytes} {parentFingerprint childNumber : UInt32}

/-- Whatever the header of a text of depth zero, the node has it. -/
theorem ofExtendedPrivate_rootText (hchain : chainCode.length = 32) :
    ofExtendedPrivate (rootText network secret chainCode parentFingerprint childNumber) network =
      .ok (ofSecret secret chainCode 0 parentFingerprint childNumber network) :=
  ofExtendedPrivate_eq_ok_iff.mpr
    ⟨secret, 0, parentFingerprint, childNumber, chainCode, hchain, rfl, rfl⟩

/-- A node of depth zero that was read, was read from such a text. -/
theorem exists_rootText {text : String} (h : ofExtendedPrivate text network = .ok node)
    (hdepth : node.depth = 0) :
    ∃ secret chainCode, chainCode.length = 32 ∧
      text = rootText network secret chainCode node.parentFingerprint node.childNumber := by
  obtain ⟨secret, depth, parentFingerprint, childNumber, chainCode, hchain, rfl, rfl⟩ :=
    ofExtendedPrivate_eq_ok_iff.mp h
  have hzero : depth = 0 := by
    have hvalue := congrArg UInt16.toNat hdepth
    rw [← UInt8.toNat_inj, ← UInt8.toNat_toUInt16]
    exact hvalue
  rw [hzero]
  exact ⟨secret, chainCode, hchain, rfl⟩

/-- **A node of depth zero has the header of a master node, unless it was read with another one.**
Of all nodes that can be made, the ones of depth zero with a parent fingerprint or a child number
are those, cleared or not, that were read from a text which spells this header.  Every such text
is read. -/
theorem header_of_depth_zero (node : KeyNode) :
    ((Reachable node ∧ node.depth = 0 ∧ ¬ node.MasterHeader) ↔
      ∃ network secret chainCode parentFingerprint childNumber imported,
        chainCode.length = 32 ∧ ¬ (parentFingerprint = 0 ∧ childNumber = 0) ∧
        ofExtendedPrivate (rootText network secret chainCode parentFingerprint childNumber)
          network = .ok imported ∧
        (node = imported ∨ node = imported.clear)) ∧
    ∀ network secret chainCode parentFingerprint childNumber, chainCode.length = 32 →
      ∃ imported, ofExtendedPrivate
          (rootText network secret chainCode parentFingerprint childNumber) network =
            .ok imported ∧
        imported.depth = 0 ∧ imported.parentFingerprint = parentFingerprint ∧
        imported.childNumber = childNumber := by
  refine ⟨⟨?_, ?_⟩, ?_⟩
  · rintro ⟨hreachable, hdepth, hother⟩
    obtain ⟨text, network, imported, hread, hnode⟩ :=
      (hreachable.of_depth_eq_zero hdepth).resolve_left hother
    have hfields : imported.depth = node.depth ∧
        imported.parentFingerprint = node.parentFingerprint ∧
        imported.childNumber = node.childNumber := by
      rcases hnode with rfl | rfl <;> exact ⟨rfl, rfl, rfl⟩
    obtain ⟨hsame, hparent, hnumber⟩ := hfields
    obtain ⟨secret, chainCode, hchain, rfl⟩ := exists_rootText hread (hsame.trans hdepth)
    refine ⟨network, secret, chainCode, imported.parentFingerprint, imported.childNumber,
      imported, hchain, ?_, hread, hnode⟩
    rw [hparent, hnumber]
    exact fun hzero => hother ⟨hdepth, hzero.1, hzero.2⟩
  · rintro ⟨network, secret, chainCode, parentFingerprint, childNumber, imported, hchain, hother,
      hread, hnode⟩
    have himported : imported = ofSecret secret chainCode 0 parentFingerprint childNumber network :=
      Except.ok.inj (hread.symm.trans (ofExtendedPrivate_rootText hchain))
    have hreachable : Reachable imported := .ofExtendedPrivate hread
    rw [himported] at hnode hreachable
    rcases hnode with rfl | rfl
    · exact ⟨hreachable, rfl, fun h => hother ⟨h.parentFingerprint_eq, h.childNumber_eq⟩⟩
    · exact ⟨hreachable.clear, rfl, fun h => hother ⟨h.parentFingerprint_eq, h.childNumber_eq⟩⟩
  · intro network secret chainCode parentFingerprint childNumber hchain
    exact ⟨_, ofExtendedPrivate_rootText hchain, rfl, rfl, rfl⟩

/-- The private key 12. -/
def twelve : Secret :=
  ⟨12, by decide, by decide⟩

set_option maxRecDepth 100000 in
theorem rootText_twelve :
    rootText .mainnet twelve (List.replicate 32 0) 0x01010101 0 =
      "xprv9s2SPatNQ9Vc6GTbVMFPFo7jsaZySyzk7L8n2uqKXJen3KUmvQNTuLh3fhZMBoG3G4ZW1N2kZuHEPY53qmbZzCHshoQnNf4GvELZfqTUrcv" := by
  decide +kernel

/-- A text of depth zero that names a parent is read. -/
theorem parented_root_is_read :
    ∃ node, ofExtendedPrivate
        "xprv9s2SPatNQ9Vc6GTbVMFPFo7jsaZySyzk7L8n2uqKXJen3KUmvQNTuLh3fhZMBoG3G4ZW1N2kZuHEPY53qmbZzCHshoQnNf4GvELZfqTUrcv"
          .mainnet = .ok node ∧
      Reachable node ∧ node.depth = 0 ∧ node.parentFingerprint = 0x01010101 := by
  have hread : ofExtendedPrivate (rootText .mainnet twelve (List.replicate 32 0) 0x01010101 0)
      .mainnet = .ok (ofSecret twelve (List.replicate 32 0) 0 0x01010101 0 .mainnet) :=
    ofExtendedPrivate_rootText List.length_replicate
  rw [rootText_twelve] at hread
  exact ⟨_, hread, .ofExtendedPrivate hread, rfl, rfl⟩

end Keyring.KeyNode
