import Keyring.Address.Encoding
import Keyring.KeyNode
import Keyring.Proofs.Bytes
import Keyring.Proofs.Outcome

/-!
# Nodes that are intact

Every operation on a node checks what it takes from it: whether there is any material, whether
there is a network, whether the kept bytes are a private key, whether the chain code has its 32
bytes and whether the depth fits.  A node that was made by any of the operations passes all of
these checks (`Intact`), so what is left to go wrong is little: the depth may be used up, and
the digest of a child may give no key (`Unusable`).
-/

namespace Keyring

open Secp256k1

namespace Secp256k1.Secret

theorem toNat_toWord (k : Secret) : k.toWord.toNat = k.val := by
  have horder : order < 2 ^ 256 := by decide
  rw [toWord, BitVec.toNat_ofNat, Nat.mod_eq_of_lt (k.lt.trans horder)]

theorem ofNat?_of_bounds {n : Nat} (hpos : 0 < n) (hlt : n < order) :
    ofNat? n = some ⟨n, hpos, hlt⟩ :=
  dif_pos ⟨hpos, hlt⟩

theorem toWord_of_toNat {w : Word256} (hpos : 0 < w.toNat) (hlt : w.toNat < order) :
    toWord ⟨w.toNat, hpos, hlt⟩ = w := by
  rw [toWord, BitVec.ofNat_toNat, BitVec.setWidth_eq]

end Secp256k1.Secret

namespace KeyNode

/-- A node with all of its parts, none of them out of range. -/
structure Intact (node : KeyNode) (m : KeyMaterial) (network : Network) : Prop where
  material_eq : node.material = some m
  network_eq : node.network? = some network
  depth_le : node.depth ≤ 255
  secret_pos : 0 < m.secret.toNat
  secret_lt : m.secret.toNat < order
  publicKey_eq : m.publicKey = Point.generator.smul m.secret.toNat
  length_chainCode : m.chainCode.length = 32

/-- A node that has forgotten its key and its network. -/
structure Cleared (node : KeyNode) : Prop where
  material_eq : node.material = none
  network_eq : node.network? = none

/-- The nodes that any sequence of operations can make. -/
inductive Reachable : KeyNode → Prop
  | ofSeed {seed : Bytes} {network : Network} {node : KeyNode}
      (h : KeyNode.ofSeed seed network = .ok node) : Reachable node
  | ofExtendedPrivate {text : String} {network : Network} {node : KeyNode}
      (h : KeyNode.ofExtendedPrivate text network = .ok node) : Reachable node
  | derive {parent node : KeyNode} {index : UInt32} (hparent : Reachable parent)
      (h : parent.derive index = .ok node) : Reachable node
  | deriveIndices {parent node : KeyNode} {indices : List UInt32} (hparent : Reachable parent)
      (h : parent.deriveIndices indices = .ok node) : Reachable node
  | clear {node : KeyNode} (h : Reachable node) : Reachable node.clear

variable {node : KeyNode} {m : KeyMaterial} {network : Network} {secret : Secret}
  {chainCode : Bytes} {depth : UInt16} {parentFingerprint childNumber : UInt32}

/-! ## How nodes are made -/

theorem ofSecret_intact (secret : Secret) (parentFingerprint childNumber : UInt32)
    (network : Network) (hchain : chainCode.length = 32) (hdepth : depth ≤ 255) :
    (ofSecret secret chainCode depth parentFingerprint childNumber network).Intact
      ⟨secret.toWord, secret.publicKey, chainCode⟩ network where
  material_eq := rfl
  network_eq := rfl
  depth_le := hdepth
  secret_pos := by
    rw [Secret.toNat_toWord]
    exact secret.pos
  secret_lt := by
    rw [Secret.toNat_toWord]
    exact secret.lt
  publicKey_eq := by
    rw [Secret.toNat_toWord]
    rfl
  length_chainCode := hchain

/-- An intact node is the node of its private key. -/
theorem Intact.exists_secret (h : node.Intact m network) :
    ∃ secret : Secret, secret.val = m.secret.toNat ∧ secret.toWord = m.secret ∧
      node = ofSecret secret m.chainCode node.depth node.parentFingerprint node.childNumber
        network := by
  have hword := Secret.toWord_of_toNat h.secret_pos h.secret_lt
  have hpublic : Secret.publicKey ⟨m.secret.toNat, h.secret_pos, h.secret_lt⟩ = m.publicKey :=
    h.publicKey_eq.symm
  refine ⟨⟨m.secret.toNat, h.secret_pos, h.secret_lt⟩, rfl, hword, ?_⟩
  calc node = ⟨some m, node.depth, node.parentFingerprint, node.childNumber, some network⟩ := by
        rw [← h.material_eq, ← h.network_eq]
    _ = _ := by rw [ofSecret, hword, hpublic]

theorem ofParts_eq_ok_iff :
    ofParts secret chainCode depth parentFingerprint childNumber network = .ok node ↔
      chainCode.length = 32 ∧
        node = ofSecret secret chainCode depth parentFingerprint childNumber network := by
  unfold ofParts
  split
  · next hlength => simp [hlength, eq_comm]
  · next hlength => simp [hlength]

theorem intact_of_ofParts_eq_ok (hdepth : depth ≤ 255)
    (h : ofParts secret chainCode depth parentFingerprint childNumber network = .ok node) :
    ∃ m network, node.Intact m network := by
  obtain ⟨hchain, rfl⟩ := ofParts_eq_ok_iff.mp h
  exact ⟨_, network, ofSecret_intact secret _ _ network hchain hdepth⟩

/-- A master node is made of parts, with zeros for what it would have from a parent. -/
theorem exists_parts_of_ofSeed_eq_ok {seed : Bytes} (h : ofSeed seed network = .ok node) :
    ∃ secret chainCode, ofParts secret chainCode 0 0 0 network = .ok node := by
  unfold ofSeed at h
  split at h
  · cases h
  · dsimp only at h
    split at h
    · cases h
    · exact ⟨_, _, h⟩

/-- A master node is intact on its network and has no level above it. -/
theorem intact_of_ofSeed_eq_ok {seed : Bytes} (h : ofSeed seed network = .ok node) :
    (∃ m, node.Intact m network) ∧ node.depth = 0 := by
  obtain ⟨secret, chainCode, hparts⟩ := exists_parts_of_ofSeed_eq_ok h
  obtain ⟨hchain, rfl⟩ := ofParts_eq_ok_iff.mp hparts
  exact ⟨⟨_, ofSecret_intact secret 0 0 network hchain (by decide)⟩, rfl⟩

theorem intact_of_ofExtendedPrivate_eq_ok {text : String}
    (h : ofExtendedPrivate text network = .ok node) : ∃ m network, node.Intact m network := by
  unfold ofExtendedPrivate at h
  split at h
  · cases h
  · split_ifs at h with hlength hversion hprivate
    split at h
    · cases h
    · refine intact_of_ofParts_eq_ok ?_ h
      rw [UInt16.le_iff_toNat_le, UInt8.toNat_toUInt16]
      exact Nat.le_of_lt_succ (UInt8.toNat_lt _)

/-- A child is made of parts like any other node, after the depth of its parent was looked at. -/
theorem exists_parts_of_derive_eq_ok {parent : KeyNode} {index : UInt32}
    (h : parent.derive index = .ok node) :
    ∃ network secret chainCode fingerprint, parent.network? = some network ∧
      parent.depth < 255 ∧ parent.fingerprint = .ok fingerprint ∧
      ofParts secret chainCode (parent.depth + 1) fingerprint index network = .ok node := by
  obtain ⟨m, -, h⟩ := bind_eq_ok_iff.mp h
  obtain ⟨network, hlive, h⟩ := bind_eq_ok_iff.mp h
  have hnetwork : parent.network? = some network := by
    unfold liveNetwork at hlive
    split at hlive
    · next hsome =>
        cases hlive
        exact hsome
    · cases hlive
  split at h
  · cases h
  · next hshallow =>
      dsimp only at h
      split at h
      · cases h
      · split at h
        · cases h
        · split at h
          · cases h
          · obtain ⟨fingerprint, hfingerprint, h⟩ := bind_eq_ok_iff.mp h
            exact ⟨network, _, _, fingerprint, hnetwork, UInt16.not_le.mp hshallow,
              hfingerprint, h⟩

/-- Counting up from a depth that a child can be derived at does not wrap around. -/
theorem toNat_depth_add_one (h : depth < 255) : (depth + 1).toNat = depth.toNat + 1 := by
  have hlt : depth.toNat < 255 := UInt16.lt_iff_toNat_lt.mp h
  rw [UInt16.toNat_add]
  exact Nat.mod_eq_of_lt (show depth.toNat + 1 < 2 ^ 16 by omega)

/-- Whatever a child is derived from, it is intact. -/
theorem intact_of_derive_eq_ok {parent : KeyNode} {index : UInt32}
    (h : parent.derive index = .ok node) : ∃ m network, node.Intact m network := by
  obtain ⟨network, secret, chainCode, fingerprint, -, hdepth, -, hparts⟩ :=
    exists_parts_of_derive_eq_ok h
  refine intact_of_ofParts_eq_ok ?_ hparts
  rw [UInt16.le_iff_toNat_le, toNat_depth_add_one hdepth]
  exact UInt16.lt_iff_toNat_lt.mp hdepth

theorem intact_of_foldlM_eq_ok {indices : List UInt32} {start : KeyNode}
    (hstart : ∃ m network, start.Intact m network)
    (h : indices.foldlM derive start = .ok node) : ∃ m network, node.Intact m network := by
  induction indices generalizing start with
  | nil =>
      rw [List.foldlM_nil] at h
      rw [← pure_eq_ok_iff.mp h]
      exact hstart
  | cons index indices ih =>
      rw [List.foldlM_cons] at h
      obtain ⟨next, hnext, h⟩ := bind_eq_ok_iff.mp h
      exact ih (intact_of_derive_eq_ok hnext) h

theorem intact_of_deriveIndices_eq_ok {parent : KeyNode} {indices : List UInt32}
    (h : parent.deriveIndices indices = .ok node) : ∃ m network, node.Intact m network := by
  cases indices with
  | nil => cases h
  | cons index indices =>
      obtain ⟨first, hfirst, h⟩ := bind_eq_ok_iff.mp h
      exact intact_of_foldlM_eq_ok (intact_of_derive_eq_ok hfirst) h

theorem clear_cleared (node : KeyNode) : node.clear.Cleared :=
  ⟨rfl, rfl⟩

/-- Every node that can be made is cleared or intact, and its depth fits in a byte. -/
theorem Reachable.cleared_or_intact (h : Reachable node) :
    node.depth ≤ 255 ∧ (node.Cleared ∨ ∃ m network, node.Intact m network) := by
  have hintact : ∀ {node : KeyNode}, (∃ m network, node.Intact m network) →
      node.depth ≤ 255 ∧ (node.Cleared ∨ ∃ m network, node.Intact m network) := by
    rintro node ⟨m, network, h⟩
    exact ⟨h.depth_le, Or.inr ⟨m, network, h⟩⟩
  induction h with
  | ofSeed h =>
      obtain ⟨m, hm⟩ := (intact_of_ofSeed_eq_ok h).1
      exact hintact ⟨m, _, hm⟩
  | ofExtendedPrivate h => exact hintact (intact_of_ofExtendedPrivate_eq_ok h)
  | derive _ h _ => exact hintact (intact_of_derive_eq_ok h)
  | deriveIndices _ h _ => exact hintact (intact_of_deriveIndices_eq_ok h)
  | clear _ ih => exact ⟨ih.1, Or.inl (clear_cleared _)⟩

/-! ## Cleared nodes -/

namespace Cleared

variable (h : node.Cleared)
include h

theorem liveMaterial : node.liveMaterial = .error .keyCleared := by
  rw [KeyNode.liveMaterial, h.material_eq]

theorem publicKey : node.publicKey = .error .keyCleared := by
  rw [KeyNode.publicKey, h.liveMaterial]
  rfl

theorem derive (index : UInt32) : node.derive index = .error .keyCleared := by
  rw [KeyNode.derive, h.liveMaterial]
  rfl

theorem deriveIndices (index : UInt32) (indices : List UInt32) :
    node.deriveIndices (index :: indices) = .error .keyCleared := by
  rw [KeyNode.deriveIndices, h.derive index]
  rfl

end Cleared

/-! ## Intact nodes -/

/-- The digest that the child of a number is made of. -/
def childDigest (m : KeyMaterial) (index : UInt32) : Bytes :=
  hmacSha512 m.chainCode (childData m index)

/-- What is added to the private key for the child of a number. -/
def childTweak (m : KeyMaterial) (index : UInt32) : Nat :=
  Bytes.toNat ((childDigest m index).take 32)

/-- A number whose digest gives no private key. -/
def Unusable (m : KeyMaterial) (index : UInt32) : Prop :=
  order ≤ childTweak m index ∨ (childTweak m index + m.secret.toNat) % order = 0

namespace Intact

variable (h : node.Intact m network)
include h

theorem liveMaterial : node.liveMaterial = .ok m := by
  rw [KeyNode.liveMaterial, h.material_eq]

theorem liveNetwork : node.liveNetwork = .ok network := by
  rw [KeyNode.liveNetwork, h.network_eq]

theorem publicKey : node.publicKey = .ok m.publicKey := by
  rw [KeyNode.publicKey, h.liveMaterial]
  rfl

theorem fingerprint : node.fingerprint = .ok (fingerprintOf m.publicKey) := by
  rw [KeyNode.fingerprint, h.publicKey]
  rfl

theorem ofWord? : Secret.ofWord? m.secret = some ⟨m.secret.toNat, h.secret_pos, h.secret_lt⟩ :=
  Secret.ofNat?_of_bounds h.secret_pos h.secret_lt

/-- Of all checks on the way to a child, only those of the depth and of the digest can fail. -/
theorem derive_eq (index : UInt32) :
    node.derive index =
      if 255 ≤ node.depth then .error (.derivation .depthExhausted)
      else if order ≤ childTweak m index then .error (.invalidChildKey index)
      else
        match Secret.ofNat? ((m.secret.toNat + childTweak m index) % order) with
        | none => .error (.invalidChildKey index)
        | some secret =>
          .ok (ofSecret secret ((childDigest m index).drop 32) (node.depth + 1)
            (fingerprintOf m.publicKey) index network) := by
  have hchain : ((childDigest m index).drop 32).length = 32 := by
    rw [List.length_drop, childDigest, length_hmacSha512]
  -- The last check is that of the chain code, which is the rest of the digest.
  have hparts : ∀ secret, ofParts secret ((childDigest m index).drop 32) (node.depth + 1)
      (fingerprintOf m.publicKey) index network = .ok (ofSecret secret
        ((childDigest m index).drop 32) (node.depth + 1) (fingerprintOf m.publicKey) index
          network) :=
    fun secret => ofParts_eq_ok_iff.mpr ⟨hchain, rfl⟩
  simp only [← hparts]
  rw [derive, h.liveMaterial, h.liveNetwork, h.fingerprint]
  simp only [h.ofWord?, bind, Except.bind]
  rfl

theorem derive_of_deepest (hdepth : node.depth = 255) (index : UInt32) :
    node.derive index = .error (.derivation .depthExhausted) := by
  rw [h.derive_eq, hdepth]
  rfl

theorem derive_of_unusable (hdepth : ¬ 255 ≤ node.depth) {index : UInt32}
    (hunusable : Unusable m index) : node.derive index = .error (.invalidChildKey index) := by
  rw [h.derive_eq, if_neg hdepth]
  by_cases hbig : order ≤ childTweak m index
  · exact if_pos hbig
  · have hzero : (m.secret.toNat + childTweak m index) % order = 0 := by
      rw [Nat.add_comm]
      exact hunusable.resolve_left hbig
    have hnone : Secret.ofNat? ((m.secret.toNat + childTweak m index) % order) = none :=
      dif_neg fun hbounds => absurd hzero (Nat.ne_of_gt hbounds.1)
    rw [if_neg hbig, hnone]

/-- In all other cases there is a child, whose private key is the sum. -/
theorem derive_of_usable (hdepth : ¬ 255 ≤ node.depth) {index : UInt32}
    (husable : ¬ Unusable m index) :
    ∃ secret : Secret, secret.val = (m.secret.toNat + childTweak m index) % order ∧
      node.derive index = .ok (ofSecret secret ((childDigest m index).drop 32) (node.depth + 1)
        (fingerprintOf m.publicKey) index network) := by
  obtain ⟨hsmall, hne⟩ := not_or.mp husable
  have hpos : 0 < (m.secret.toNat + childTweak m index) % order := by
    rw [Nat.add_comm]
    exact Nat.pos_of_ne_zero hne
  have hlt : (m.secret.toNat + childTweak m index) % order < order := Nat.mod_lt _ (by decide)
  refine ⟨⟨_, hpos, hlt⟩, rfl, ?_⟩
  rw [h.derive_eq, if_neg hdepth, if_neg hsmall, Secret.ofNat?_of_bounds hpos hlt]

/-- Above the last level, a child is only missing if its digest gives no key. -/
theorem derive_eq_error (hdepth : node.depth.toNat < 255) {index : UInt32} {e : WalletError}
    (herror : node.derive index = .error e) : e = .invalidChildKey index := by
  have hshallow : ¬ 255 ≤ node.depth := UInt16.not_le.mpr (UInt16.lt_iff_toNat_lt.mpr hdepth)
  by_cases hunusable : Unusable m index
  · rw [h.derive_of_unusable hshallow hunusable] at herror
    cases herror
    rfl
  · obtain ⟨secret, -, hchild⟩ := h.derive_of_usable hshallow hunusable
    rw [hchild] at herror
    cases herror

end Intact

end KeyNode

end Keyring
