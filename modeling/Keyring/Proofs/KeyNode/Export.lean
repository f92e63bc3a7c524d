import Keyring.Proofs.Encoding.Base58
import Keyring.Proofs.KeyNode.Intact

/-!
# Exported private keys, read back

An exported key has a fixed layout of 78 bytes (`layout`), and every 78 bytes have that layout
(`exists_layout`), so reading takes apart what writing put together and nothing else.  With the
text in between, which spells one byte string and is spelled by it alone, an exported private
key is the same as the node that it was exported from.
-/

namespace Keyring.KeyNode

open Secp256k1

/-- The bytes of an exported key. -/
def layout (version : UInt32) (depth : UInt8) (parentFingerprint childNumber : UInt32)
    (chainCode keyData : Bytes) : Bytes :=
  Bytes.ofWord32 version ++ depth :: (Bytes.ofWord32 parentFingerprint
    ++ Bytes.ofWord32 childNumber ++ chainCode ++ keyData)

variable {node : KeyNode} {m : KeyMaterial} {network : Network} {text : String}

/-- The four bytes behind a prefix are read as the word that they spell. -/
theorem wordAt_of_drop_eq {raw rest : Bytes} {i : Nat} {word : UInt32}
    (h : raw.drop i = Bytes.ofWord32 word ++ rest) : wordAt raw i = word := by
  rw [wordAt, h, Bytes.words32_ofWord32_append]
  rfl

section Layout

variable (version : UInt32) (depth : UInt8) (parentFingerprint childNumber : UInt32)
  {chainCode : Bytes} (keyData : Bytes)

theorem length_layout (hchain : chainCode.length = 32) :
    (layout version depth parentFingerprint childNumber chainCode keyData).length =
      45 + keyData.length := by
  simp only [layout, List.length_append, List.length_cons, Bytes.length_ofWord32, hchain]
  omega

/-- The numbers in front of the chain code. -/
theorem numbers_layout (chainCode : Bytes) :
    let raw := layout version depth parentFingerprint childNumber chainCode keyData
    wordAt raw 0 = version ∧ raw.getD 4 0 = depth ∧ wordAt raw 5 = parentFingerprint ∧
      wordAt raw 9 = childNumber := by
  intro raw
  have hfingerprint : raw.drop 5 = Bytes.ofWord32 parentFingerprint
      ++ (Bytes.ofWord32 childNumber ++ (chainCode ++ keyData)) := rfl
  have hnumber : raw.drop 9 = Bytes.ofWord32 childNumber ++ (chainCode ++ keyData) := rfl
  exact ⟨wordAt_of_drop_eq List.drop_zero, rfl, wordAt_of_drop_eq hfingerprint,
    wordAt_of_drop_eq hnumber⟩

/-- What is behind them. -/
theorem drop_numbers_layout (chainCode : Bytes) :
    (layout version depth parentFingerprint childNumber chainCode keyData).drop 13 =
      chainCode ++ keyData := rfl

theorem take_drop_layout (hchain : chainCode.length = 32) :
    ((layout version depth parentFingerprint childNumber chainCode keyData).drop 13).take 32 =
      chainCode := by
  rw [drop_numbers_layout, List.take_left' hchain]

theorem drop_layout (hchain : chainCode.length = 32) :
    (layout version depth parentFingerprint childNumber chainCode keyData).drop 45 =
      keyData := by
  rw [show 45 = 13 + 32 from rfl, ← List.drop_drop, drop_numbers_layout, List.drop_left' hchain]

end Layout

/-- Every 78 bytes are laid out like an exported key. -/
theorem exists_layout {raw : Bytes} (h : raw.length = exportLength) :
    ∃ version depth parentFingerprint childNumber chainCode tag key,
      raw = layout version depth parentFingerprint childNumber chainCode (tag :: key) ∧
        chainCode.length = 32 ∧ key.length = 32 := by
  have hlength : raw.length = 78 := h
  obtain ⟨version, hversion⟩ := Bytes.exists_word_of_length
    (show (raw.take 4).length = 4 by rw [List.length_take]; omega)
  obtain ⟨depth, hdepth⟩ := List.length_eq_one_iff.mp
    (show ((raw.drop 4).take 1).length = 1 by rw [List.length_take, List.length_drop]; omega)
  obtain ⟨fingerprint, hfingerprint⟩ := Bytes.exists_word_of_length
    (show ((raw.drop 5).take 4).length = 4 by rw [List.length_take, List.length_drop]; omega)
  obtain ⟨number, hnumber⟩ := Bytes.exists_word_of_length
    (show ((raw.drop 9).take 4).length = 4 by rw [List.length_take, List.length_drop]; omega)
  obtain ⟨tag, htag⟩ := List.length_eq_one_iff.mp
    (show ((raw.drop 45).take 1).length = 1 by rw [List.length_take, List.length_drop]; omega)
  refine ⟨version, depth, fingerprint, number, (raw.drop 13).take 32, tag, raw.drop 46, ?_,
    by rw [List.length_take, List.length_drop]; omega, by rw [List.length_drop]; omega⟩
  -- A known part in front of what is left can be cut off it.
  have hcut : ∀ {part : Bytes} {k n : Nat}, (raw.drop k).take n = part →
      raw.drop k = part ++ raw.drop (k + n) := by
    rintro part k n rfl
    rw [← List.drop_drop, List.take_append_drop]
  calc raw = raw.take 4 ++ raw.drop 4 := (List.take_append_drop 4 raw).symm
    _ = Bytes.ofWord32 version ++ ([depth] ++ (Bytes.ofWord32 fingerprint
          ++ (Bytes.ofWord32 number ++ ((raw.drop 13).take 32 ++ ([tag] ++ raw.drop 46))))) := by
        rw [hversion, hcut hdepth, hcut hfingerprint, hcut hnumber, ← hcut htag,
          ← hcut (rfl : (raw.drop 13).take 32 = _)]
    _ = layout version depth fingerprint number ((raw.drop 13).take 32) (tag :: raw.drop 46) := by
        simp only [layout, List.append_assoc, List.singleton_append]

/-! ## Reading -/

theorem ofBytes?_eq_some_iff {key : Bytes} {secret : Secret} :
    Secret.ofBytes? key = some secret ↔ key = secret.toBytes := by
  have horder : order < 256 ^ 32 := by decide
  constructor
  · intro h
    rw [Secret.ofBytes?, Secret.ofNat?] at h
    split_ifs at h with hlength hbounds
    cases h
    exact (Bytes.ofNat_toNat hlength).symm
  · rintro rfl
    rw [Secret.ofBytes?, Secret.toBytes, if_pos (Bytes.length_ofNat _ _),
      Bytes.toNat_ofNat_of_lt (secret.lt.trans horder)]
    exact Secret.ofNat?_of_bounds secret.pos secret.lt

/-- What is made of a text that spells an exported key. -/
theorem ofExtendedPrivate_layout (version : UInt32) (depth : UInt8)
    (parentFingerprint childNumber : UInt32) {chainCode key : Bytes} (tag : UInt8)
    (hchain : chainCode.length = 32) (hkey : key.length = 32) (network : Network) :
    ofExtendedPrivate (Base58.encodeCheck
        (layout version depth parentFingerprint childNumber chainCode (tag :: key))) network =
      if version ≠ network.privateVersion then .error (.derivation .wrongVersion)
      else if tag ≠ 0 then .error (.derivation .notPrivate)
      else
        match Secret.ofBytes? key with
        | none => .error (.derivation .badSecret)
        | some secret =>
          .ok (ofSecret secret chainCode depth.toUInt16 parentFingerprint childNumber network) := by
  have hlength := length_layout version depth parentFingerprint childNumber (tag :: key) hchain
  have hdata := drop_layout version depth parentFingerprint childNumber (tag :: key) hchain
  have hcode := take_drop_layout version depth parentFingerprint childNumber (tag :: key) hchain
  obtain ⟨hversion, hdepth, hfingerprint, hnumber⟩ :=
    numbers_layout version depth parentFingerprint childNumber (tag :: key) chainCode
  rw [ofExtendedPrivate, Base58.decodeCheck?_eq_some_iff.mpr rfl]
  dsimp only
  rw [hversion, hdepth, hfingerprint, hnumber, hcode]
  -- Of the tag and the key only the place behind the chain code is still needed.
  generalize layout version depth parentFingerprint childNumber chainCode (tag :: key) = raw
    at hlength hdata
  have htag : raw.getD 45 0 = tag := by
    rw [List.getD_eq_getElem?_getD, ← List.head?_drop, hdata]
    rfl
  have hsecret : raw.drop 46 = key := by
    rw [show 46 = 45 + 1 from rfl, ← List.drop_drop, hdata, List.drop_one, List.tail_cons]
  rw [if_neg (by rw [hlength, List.length_cons, hkey]; decide), htag, hsecret]
  cases Secret.ofBytes? key with
  | none => rfl
  | some secret => simp only [ofParts, if_pos hchain]

/-- A text is read exactly if it spells the layout of a private key of the network. -/
theorem ofExtendedPrivate_eq_ok_iff :
    ofExtendedPrivate text network = .ok node ↔
      ∃ secret depth parentFingerprint childNumber chainCode, chainCode.length = 32 ∧
        node = ofSecret secret chainCode (UInt8.toUInt16 depth) parentFingerprint childNumber
          network ∧
        text = Base58.encodeCheck (layout network.privateVersion depth parentFingerprint
          childNumber chainCode (0 :: secret.toBytes)) := by
  constructor
  · intro h
    obtain ⟨raw, hraw, hlength⟩ : ∃ raw, Base58.decodeCheck? text = some raw ∧
        raw.length = exportLength := by
      unfold ofExtendedPrivate at h
      split at h
      · cases h
      · next raw hraw =>
          split_ifs at h with hlength
          exact ⟨raw, hraw, not_not.mp hlength⟩
    obtain ⟨version, depth, parentFingerprint, childNumber, chainCode, tag, key, rfl, hchain,
      hkey⟩ := exists_layout hlength
    obtain rfl := Base58.decodeCheck?_eq_some_iff.mp hraw
    rw [ofExtendedPrivate_layout _ _ _ _ _ hchain hkey] at h
    split_ifs at h with hversion htag
    split at h
    · cases h
    · next secret hsecret =>
        cases h
        obtain rfl := ofBytes?_eq_some_iff.mp hsecret
        exact ⟨secret, depth, parentFingerprint, childNumber, chainCode, hchain, rfl,
          by rw [not_not.mp hversion, not_not.mp htag]⟩
  · rintro ⟨secret, depth, parentFingerprint, childNumber, chainCode, hchain, rfl, rfl⟩
    have hkey : secret.toBytes.length = 32 := Bytes.length_ofNat _ _
    rw [ofExtendedPrivate_layout _ _ _ _ _ hchain hkey, if_neg (not_not.mpr rfl),
      if_neg (not_not.mpr rfl), ofBytes?_eq_some_iff.mpr rfl]

/-! ## Writing -/

namespace Intact

variable (h : node.Intact m network)
include h

theorem exported (version : UInt32) (keyData : Bytes) :
    node.exported version keyData = .ok (Base58.encodeCheck (layout version node.depth.toUInt8
      node.parentFingerprint node.childNumber m.chainCode keyData)) := by
  have hdepth : ¬ 255 < node.depth := UInt16.not_lt.mpr h.depth_le
  rw [KeyNode.exported, h.liveMaterial]
  simp only [bind, Except.bind, if_neg hdepth]
  rfl

theorem extendedPrivate :
    node.extendedPrivate = .ok (Base58.encodeCheck (layout network.privateVersion
      node.depth.toUInt8 node.parentFingerprint node.childNumber m.chainCode
      (0 :: m.secret.toBytes))) := by
  rw [KeyNode.extendedPrivate, h.liveMaterial, h.liveNetwork]
  exact h.exported _ _

theorem extendedPublic :
    node.extendedPublic = .ok (Base58.encodeCheck (layout network.publicVersion
      node.depth.toUInt8 node.parentFingerprint node.childNumber m.chainCode
      m.publicKey.compressed)) := by
  rw [KeyNode.extendedPublic, h.liveMaterial, h.liveNetwork]
  exact h.exported _ _

end Intact

theorem toUInt16_toUInt8_of_le {depth : UInt16} (h : depth ≤ 255) :
    depth.toUInt8.toUInt16 = depth := by
  rw [← UInt16.toNat_inj, UInt8.toNat_toUInt16, UInt16.toNat_toUInt8]
  rw [UInt16.le_iff_toNat_le] at h
  exact Nat.mod_eq_of_lt (Nat.lt_succ_of_le h)

/-- What was exported is read back on its own network and on no other. -/
theorem Intact.read_back (h : node.Intact m network) :
    ∃ text, node.extendedPrivate = .ok text ∧ ofExtendedPrivate text network = .ok node ∧
      ∀ other, other ≠ network →
        ofExtendedPrivate text other = .error (.derivation .wrongVersion) := by
  obtain ⟨secret, hval, hword, hnode⟩ := h.exists_secret
  have hkey : m.secret.toBytes = secret.toBytes := by
    rw [Word256.toBytes, ← hval, Secret.toBytes]
  refine ⟨_, h.extendedPrivate, ?_, fun other hother => ?_⟩
  · refine ofExtendedPrivate_eq_ok_iff.mpr ⟨secret, node.depth.toUInt8, node.parentFingerprint,
      node.childNumber, m.chainCode, h.length_chainCode, ?_, by rw [hkey]⟩
    rw [toUInt16_toUInt8_of_le h.depth_le]
    exact hnode
  · have hversion : network.privateVersion ≠ other.privateVersion := by
      revert hother
      cases network <;> cases other <;> decide
    rw [ofExtendedPrivate_layout _ _ _ _ _ h.length_chainCode (Word256.length_toBytes _),
      if_pos hversion]

/-- **An exported private key and its node are the same.**  Every node that can be made, unless
it was cleared, is exported to a text that gives the node back, with the network of the node
and with no other; and every text that gives a node is what this node is exported to. -/
theorem extended_private_key_read_back :
    (∀ node, Reachable node → node.isCleared = false →
      ∃ network text, node.network? = some network ∧ node.extendedPrivate = .ok text ∧
        ofExtendedPrivate text network = .ok node ∧
        ∀ other, other ≠ network →
          ofExtendedPrivate text other = .error (.derivation .wrongVersion)) ∧
    (∀ text network node, ofExtendedPrivate text network = .ok node →
      node.network? = some network ∧ node.extendedPrivate = .ok text) := by
  constructor
  · intro node hreachable hlive
    obtain hcleared | ⟨m, network, hintact⟩ := hreachable.cleared_or_intact.2
    · rw [isCleared, hcleared.material_eq] at hlive
      cases hlive
    · obtain ⟨text, htext, hread, hother⟩ := hintact.read_back
      exact ⟨network, text, hintact.network_eq, htext, hread, hother⟩
  · intro text network node h
    obtain ⟨secret, depth, parentFingerprint, childNumber, chainCode, hchain, rfl, rfl⟩ :=
      ofExtendedPrivate_eq_ok_iff.mp h
    have hdepth : depth.toUInt16 ≤ 255 := by
      rw [UInt16.le_iff_toNat_le, UInt8.toNat_toUInt16]
      exact Nat.le_of_lt_succ depth.toNat_lt
    have hintact := ofSecret_intact secret parentFingerprint childNumber network hchain hdepth
    refine ⟨hintact.network_eq, ?_⟩
    rw [hintact.extendedPrivate, Word256.toBytes, Secret.toNat_toWord, Secret.toBytes]
    simp only [ofSecret, UInt8.toUInt8_toUInt16]

end Keyring.KeyNode
