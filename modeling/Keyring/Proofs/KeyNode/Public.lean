import Keyring.Proofs.KeyNode.Descent
import Keyring.Proofs.KeyNode.Export
import Keyring.Proofs.Secp256k1.Compressed
import Keyring.Proofs.Secp256k1.Generator

/-!
# Public nodes

An exported public key is a node without its private key.  The children that are not hardened
can be derived from it all the same (`PublicNode.derive`): their digest takes in the public key
of the parent, and instead of adding the digest to the private key its point is added to the
public key.  The public node of a child is the child of the public node
(`Intact.derive_public?`), since the public key of a sum is the sum of the public keys.
-/

namespace Keyring

open Secp256k1

/-- A node of the key tree without its private key. -/
structure PublicNode where
  version : UInt32
  depth : UInt8
  parentFingerprint : UInt32
  childNumber : UInt32
  chainCode : Bytes
  key : Point
  deriving DecidableEq

namespace PublicNode

/-- Reads the bytes of an exported public key. -/
def ofBytes? (raw : Bytes) : Option PublicNode :=
  if raw.length = KeyNode.exportLength then
    (Point.ofCompressed? (raw.drop 45)).map fun key =>
      ⟨KeyNode.wordAt raw 0, raw.getD 4 0, KeyNode.wordAt raw 5, KeyNode.wordAt raw 9,
        (raw.drop 13).take 32, key⟩
  else none

/-- Derives child `index` from public keys only. -/
def derive (node : PublicNode) (index : UInt32) : Option PublicNode :=
  if hardenedOffset ≤ index ∨ node.depth = 255 then none
  else
    let digest := hmacSha512 node.chainCode (node.key.compressed ++ Bytes.ofWord32 index)
    let tweak := Bytes.toNat (digest.take 32)
    if order ≤ tweak then none
    else
      match (Point.generator.smul tweak).add node.key with
      | .infinity => none
      | key =>
        some ⟨node.version, node.depth + 1, KeyNode.fingerprintOf node.key, index,
          digest.drop 32, key⟩

end PublicNode

namespace KeyNode

/-- What a node is without its private key. -/
def public? (node : KeyNode) : Option PublicNode := do
  let m ← node.material
  let network ← node.network?
  return ⟨network.publicVersion, node.depth.toUInt8, node.parentFingerprint, node.childNumber,
    m.chainCode, m.publicKey⟩

variable {node child : KeyNode} {m : KeyMaterial} {network : Network} {index : UInt32}

theorem public?_ofSecret (secret : Secret) (chainCode : Bytes) (depth : UInt16)
    (parentFingerprint childNumber : UInt32) (network : Network) :
    (ofSecret secret chainCode depth parentFingerprint childNumber network).public? =
      some ⟨network.publicVersion, depth.toUInt8, parentFingerprint, childNumber, chainCode,
        secret.publicKey⟩ := rfl

namespace Intact

variable (h : node.Intact m network)
include h

theorem public?_eq : node.public? =
    some ⟨network.publicVersion, node.depth.toUInt8, node.parentFingerprint, node.childNumber,
      m.chainCode, m.publicKey⟩ := by
  rw [public?, h.material_eq, h.network_eq]
  rfl

/-! ## Children -/

/-- The point of the sum of a private key and a digest. -/
theorem add_publicKey (hsmall : childTweak m index < order) :
    (Point.generator.smul (childTweak m index)).add m.publicKey =
      Point.generator.smul ((m.secret.toNat + childTweak m index) % order) := by
  rw [h.publicKey_eq, Nat.add_comm, Point.smul_generator_add (hsmall.trans order_lt)
    (h.secret_lt.trans order_lt)]

omit h in
theorem childDigest_eq (hindex : index < hardenedOffset) :
    childDigest m index =
      hmacSha512 m.chainCode (m.publicKey.compressed ++ Bytes.ofWord32 index) := by
  rw [childDigest, childData, if_neg (UInt32.not_le.mpr hindex)]

theorem toUInt8_depth_eq_iff : node.depth.toUInt8 = 255 ↔ 255 ≤ node.depth := by
  have hle := h.depth_le
  rw [← UInt8.toNat_inj, UInt16.toNat_toUInt8]
  rw [UInt16.le_iff_toNat_le] at hle ⊢
  simp only [UInt16.reduceToNat, UInt8.reduceToNat] at hle ⊢
  omega

/-- What is derived from the public node of a node. -/
theorem bind_derive_public? (hindex : index < hardenedOffset) :
    node.public?.bind (·.derive index) =
      if 255 ≤ node.depth ∨ order ≤ childTweak m index then none
      else
        match Point.generator.smul ((m.secret.toNat + childTweak m index) % order) with
        | .infinity => none
        | key => some ⟨network.publicVersion, (node.depth + 1).toUInt8, fingerprintOf m.publicKey,
            index, (childDigest m index).drop 32, key⟩ := by
  rw [h.public?_eq, Option.bind_some, PublicNode.derive]
  dsimp only
  rw [← childDigest_eq (m := m) hindex, ← childTweak]
  by_cases hdepth : 255 ≤ node.depth
  · rw [if_pos (Or.inr (h.toUInt8_depth_eq_iff.mpr hdepth)), if_pos (Or.inl hdepth)]
  · rw [if_neg (not_or.mpr ⟨UInt32.not_le.mpr hindex, mt h.toUInt8_depth_eq_iff.mp hdepth⟩)]
    by_cases hbig : order ≤ childTweak m index
    · rw [if_pos hbig, if_pos (Or.inr hbig)]
    · rw [if_neg hbig, if_neg (not_or.mpr ⟨hdepth, hbig⟩), h.add_publicKey (not_le.mp hbig),
        UInt16.toUInt8_add]
      rfl

/-- The public node of a child is the child of the public node, and one is there exactly if the
other is. -/
theorem derive_public? (hindex : index < hardenedOffset) :
    (node.derive index).toOption.bind public? = node.public?.bind (·.derive index) := by
  rw [h.derive_eq, h.bind_derive_public? hindex]
  by_cases hdepth : 255 ≤ node.depth
  · rw [if_pos hdepth, if_pos (Or.inl hdepth)]
    rfl
  · rw [if_neg hdepth]
    by_cases hbig : order ≤ childTweak m index
    · rw [if_pos hbig, if_pos (Or.inr hbig)]
      rfl
    · rw [if_neg hbig, if_neg (not_or.mpr ⟨hdepth, hbig⟩)]
      have hlt := Nat.mod_lt (m.secret.toNat + childTweak m index) prime_order.pos
      generalize (m.secret.toNat + childTweak m index) % order = sum at hlt
      rcases Nat.eq_zero_or_pos sum with rfl | hpos
      · rw [smul_generator (by decide), zero_nsmul]
        rfl
      · let secret : Secret := ⟨sum, hpos, hlt⟩
        rw [Secret.ofNat?_of_bounds hpos hlt]
        change public? (ofSecret secret _ _ _ _ _) = match secret.publicKey with
          | .infinity => none
          | key => _
        rw [public?_ofSecret]
        cases hkey : secret.publicKey with
        | infinity => exact absurd hkey secret.publicKey_ne_infinity
        | affine x y => rfl

omit h in
/-- The same for nodes further below, level by level. -/
theorem foldlM_derive_public? {indices : List UInt32} (h : node.Intact m network)
    (hindices : ∀ index ∈ indices, index < hardenedOffset) :
    (indices.foldlM derive node).toOption.bind public? =
      node.public?.bind (indices.foldlM PublicNode.derive ·) := by
  induction indices generalizing node m with
  | nil => exact (Option.bind_fun_some _).symm
  | cons index indices ih =>
      obtain ⟨hindex, hindices⟩ := List.forall_mem_cons.mp hindices
      have hpublic : node.public?.bind ((index :: indices).foldlM PublicNode.derive ·) =
          ((node.derive index).toOption.bind public?).bind
            (indices.foldlM PublicNode.derive ·) := by
        rw [h.derive_public? hindex, Option.bind_assoc]
        rfl
      rw [hpublic, List.foldlM_cons]
      cases hchild : node.derive index with
      | error e => rfl
      | ok child =>
          obtain ⟨m', hintact⟩ := h.of_derive hchild
          exact ih hintact hindices

/-! ## Exported public keys -/

/-- The compressed public key of a node is read back. -/
theorem ofCompressed?_publicKey :
    m.publicKey.compressed.length = 33 ∧
      Point.ofCompressed? m.publicKey.compressed = some m.publicKey := by
  have hkey : m.publicKey = Secret.publicKey ⟨m.secret.toNat, h.secret_pos, h.secret_lt⟩ :=
    h.publicKey_eq
  rw [hkey]
  exact ⟨Point.length_compressed (Secret.publicKey_ne_infinity _),
    Point.ofCompressed?_eq_some_iff.mpr
      ⟨Secret.publicKey_isOnCurve _, Secret.publicKey_ne_infinity _, rfl⟩⟩

/-- An exported public key spells the public node it was exported from. -/
theorem extendedPublic_read_back :
    ∃ text raw, node.extendedPublic = .ok text ∧ Base58.decodeCheck? text = some raw ∧
      raw.length = exportLength ∧ raw.drop 45 = m.publicKey.compressed ∧
      PublicNode.ofBytes? raw = node.public? := by
  obtain ⟨hlength, hkey⟩ := h.ofCompressed?_publicKey
  obtain ⟨hversion, hdepth, hfingerprint, hnumber⟩ := numbers_layout network.publicVersion
    node.depth.toUInt8 node.parentFingerprint node.childNumber m.publicKey.compressed m.chainCode
  have hraw : (layout network.publicVersion node.depth.toUInt8 node.parentFingerprint
      node.childNumber m.chainCode m.publicKey.compressed).length = exportLength := by
    rw [length_layout _ _ _ _ _ h.length_chainCode, hlength]
    rfl
  have hdata := drop_layout network.publicVersion node.depth.toUInt8 node.parentFingerprint
    node.childNumber m.publicKey.compressed h.length_chainCode
  refine ⟨_, _, h.extendedPublic, Base58.decodeCheck?_eq_some_iff.mpr rfl, hraw, hdata, ?_⟩
  rw [PublicNode.ofBytes?, if_pos hraw, hdata, hkey, Option.map_some, hversion, hdepth,
    hfingerprint, hnumber, take_drop_layout _ _ _ _ _ h.length_chainCode, h.public?_eq]

end Intact

end KeyNode

end Keyring
