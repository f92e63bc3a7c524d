import Keyring.Proofs.Address.Encoding
import Keyring.Proofs.Address.Text
import Keyring.Proofs.Container
import Keyring.Proofs.Encoding.Base58
import Keyring.Proofs.Encoding.Bech32

/-!
# What the text of an address tells

Of a public key an address encodes a digest of 20 bytes (`Point.addressDigest`).  The texts of the
three encodings in Base58 are read back to these bytes with a byte in front, and no two encodings
or networks share this byte (`versionByte?_inj`).  The text in Bech32 is longer than any of these,
and only the text of an account chain begins with a zero.  So a text tells its encoding, the digest
and, where there is one, the network (`address_eq_iff`).

A signer of containers compares the address of the key that it recovers with the one that it was
given as texts.  By the above this compares what they encode (`recoverAddress_eq_ok_iff`).
-/

namespace Keyring

namespace AddressEncoding

/-- Whether addresses are written differently for each network. -/
def dependsOnNetwork : AddressEncoding → Bool
  | evm | tron => false
  | p2pkh | p2wpkh | p2shP2wpkh => true

/-- The byte in front of the digest, for addresses in Base58. -/
def versionByte? : AddressEncoding → Network → Option UInt8
  | tron, _ => some 0x41
  | p2pkh, network => some network.publicKeyByte
  | p2shP2wpkh, network => some network.scriptByte
  | evm, _ | p2wpkh, _ => none

/-- The byte tells the encoding, and the network if there is one. -/
theorem versionByte?_inj {encoding encoding' : AddressEncoding} {network network' : Network}
    {version : UInt8} (h : encoding.versionByte? network = some version)
    (h' : encoding'.versionByte? network' = some version) :
    encoding = encoding' ∧ (encoding.dependsOnNetwork → network = network') := by
  have hsome : encoding.versionByte? network ≠ none := h ▸ Option.some_ne_none version
  have hsame := h'.trans h.symm
  clear h h'
  revert hsome hsame
  cases encoding <;> cases encoding' <;> cases network <;> cases network' <;> decide

end AddressEncoding

theorem Base58.encodeCheck_inj {payload payload' : Bytes}
    (h : encodeCheck payload = encodeCheck payload') : payload = payload' := by
  have hread : decodeCheck? (encodeCheck payload) = some payload :=
    decodeCheck?_eq_some_iff.mpr rfl
  have hread' : decodeCheck? (encodeCheck payload) = some payload' :=
    decodeCheck?_eq_some_iff.mpr h
  exact Option.some.inj (hread.symm.trans hread')

namespace Secp256k1.Point

variable {key key' : Point} {encoding encoding' : AddressEncoding} {network network' : Network}

/-- The digest that an address encodes: of the coordinates of the key on account chains, of the
compressed key on output chains, and of its witness program where this is wrapped in a script. -/
def addressDigest (key : Point) : AddressEncoding → Bytes
  | .evm | .tron => (keccak256 key.coordinates).drop 12
  | .p2pkh | .p2wpkh => hash160 key.compressed
  | .p2shP2wpkh => hash160 key.witnessScript

theorem length_addressDigest (key : Point) (encoding : AddressEncoding) :
    (key.addressDigest encoding).length = 20 := by
  cases encoding with
  | evm | tron => rw [addressDigest, List.length_drop, length_keccak256]
  | p2pkh | p2wpkh | p2shP2wpkh => exact length_hash160 _

theorem toBytes_ofPublicKey (key : Point) :
    (EvmAddress.ofPublicKey key).toBytes = (keccak256 key.coordinates).drop 12 :=
  EvmAddress.toBytes_ofBytes (length_addressDigest key .evm)

theorem address_of_versionByte {version : UInt8}
    (h : encoding.versionByte? network = some version) :
    key.address encoding network = Base58.encodeCheck (version :: key.addressDigest encoding) := by
  cases encoding <;> cases h
  · rw [address, toBytes_ofPublicKey]
    rfl
  · rfl
  · rfl

/-! ## Texts -/

theorem length_of_versionByte (key : Point) {version : UInt8}
    (h : encoding.versionByte? network = some version) :
    (key.address encoding network).toList.length ≤ 38 := by
  rw [address_of_versionByte h]
  refine Base58.length_encodeCheck_le ?_
  rw [List.length_cons, length_addressDigest]

theorem length_address_p2wpkh (key : Point) (network : Network) :
    (key.address .p2wpkh network).toList.length = 42 := by
  have hprogram : (hash160 key.compressed).length = 5 * 4 := length_hash160 _
  rw [address, Bech32.length_encodeWitnessV0 hprogram]
  cases network <;> rfl

/-- An encoding has a byte in front of the digest, or it is one of the two that do not write in
Base58. -/
theorem exists_versionByte (encoding : AddressEncoding) (network : Network) :
    encoding = .evm ∨ encoding = .p2wpkh ∨
      ∃ version, encoding.versionByte? network = some version := by
  cases encoding with
  | evm => exact Or.inl rfl
  | p2wpkh => exact Or.inr (Or.inl rfl)
  | tron | p2pkh | p2shP2wpkh => exact Or.inr (Or.inr ⟨_, rfl⟩)

/-- What a text of Base58 tells. -/
theorem eq_of_versionByte {version version' : UInt8}
    (h : encoding.versionByte? network = some version)
    (h' : encoding'.versionByte? network' = some version')
    (htext : key.address encoding network = key'.address encoding' network') :
    encoding = encoding' ∧ (encoding.dependsOnNetwork → network = network') ∧
      key.addressDigest encoding = key'.addressDigest encoding := by
  rw [address_of_versionByte h, address_of_versionByte h'] at htext
  obtain ⟨rfl, hdigest⟩ := List.cons.inj (Base58.encodeCheck_inj htext)
  obtain ⟨rfl, hnetwork⟩ := AddressEncoding.versionByte?_inj h h'
  exact ⟨rfl, hnetwork, hdigest⟩

/-- What a text of Bech32 tells. -/
theorem eq_of_address_p2wpkh
    (htext : key.address .p2wpkh network = key'.address .p2wpkh network') :
    network = network' ∧ key.addressDigest .p2wpkh = key'.addressDigest .p2wpkh := by
  have hlength : network.witnessPrefix.toList.length = network'.witnessPrefix.toList.length := by
    cases network <;> cases network' <;> rfl
  have hprogram : ∀ key : Point, (hash160 key.compressed).length = 5 * 4 :=
    fun key => length_hash160 _
  obtain ⟨hfront, hdigest⟩ :=
    Bech32.encodeWitnessV0_inj hlength (hprogram key) (hprogram key') htext
  refine ⟨?_, hdigest⟩
  revert hfront
  cases network <;> cases network' <;> decide

/-- What the text of an account chain tells.  It is the only one that is read as such. -/
theorem eq_of_address_evm
    (htext : key.address .evm network = key'.address encoding' network') :
    encoding' = .evm ∧ key.addressDigest .evm = key'.addressDigest .evm := by
  have hread : EvmAddress.ofText (key'.address encoding' network') =
      .ok (EvmAddress.ofPublicKey key) := by
    rw [← htext]
    exact EvmAddress.ofText_checksumText _
  obtain ⟨hencoding, hsame⟩ := ofText_address_eq_ok hread
  have hbytes := congrArg EvmAddress.toBytes hsame
  rw [toBytes_ofPublicKey, toBytes_ofPublicKey] at hbytes
  exact ⟨hencoding, hbytes⟩

/-- A text tells the encoding, the digest and, where there is one, the network. -/
theorem eq_of_address_eq (htext : key.address encoding network = key'.address encoding' network') :
    encoding = encoding' ∧ (encoding.dependsOnNetwork → network = network') ∧
      key.addressDigest encoding = key'.addressDigest encoding := by
  rcases exists_versionByte encoding network with rfl | rfl | ⟨version, h⟩
  · obtain ⟨rfl, hdigest⟩ := eq_of_address_evm htext
    exact ⟨rfl, nofun, hdigest⟩
  · rcases exists_versionByte encoding' network' with rfl | rfl | ⟨version', h'⟩
    · cases (eq_of_address_evm htext.symm).1
    · obtain ⟨hnetwork, hdigest⟩ := eq_of_address_p2wpkh htext
      exact ⟨rfl, fun _ => hnetwork, hdigest⟩
    · have hlong := length_address_p2wpkh key network
      have hshort := length_of_versionByte key' h'
      rw [← htext] at hshort
      omega
  · rcases exists_versionByte encoding' network' with rfl | rfl | ⟨version', h'⟩
    · obtain ⟨rfl, -⟩ := eq_of_address_evm htext.symm
      cases h
    · have hlong := length_address_p2wpkh key' network'
      have hshort := length_of_versionByte key h
      rw [htext] at hshort
      omega
    · exact eq_of_versionByte h h' htext

theorem address_congr (hnetwork : encoding.dependsOnNetwork → network = network')
    (hdigest : key.addressDigest encoding = key'.addressDigest encoding) :
    key.address encoding network = key'.address encoding network' := by
  cases encoding with
  | evm | tron =>
      have hsame : EvmAddress.ofPublicKey key = EvmAddress.ofPublicKey key' :=
        congrArg EvmAddress.ofBytes hdigest
      rw [address, address, hsame]
  | p2pkh | p2wpkh =>
      obtain rfl := hnetwork rfl
      have hsame : hash160 key.compressed = hash160 key'.compressed := hdigest
      rw [address, address, hsame]
  | p2shP2wpkh =>
      obtain rfl := hnetwork rfl
      have hsame : hash160 key.witnessScript = hash160 key'.witnessScript := hdigest
      rw [address, address, hsame]

theorem address_eq_iff : key.address encoding network = key'.address encoding' network' ↔
    encoding = encoding' ∧ (encoding.dependsOnNetwork → network = network') ∧
      key.addressDigest encoding = key'.addressDigest encoding := by
  refine ⟨eq_of_address_eq, ?_⟩
  rintro ⟨rfl, hnetwork, hdigest⟩
  exact address_congr hnetwork hdigest

end Secp256k1.Point

/-! ## Signers -/

namespace Container.Signer

open Secp256k1

variable {signer : Signer} {digest : Word256} {sig : RecoverableSignature} {owner : Point}
  {encoding : AddressEncoding} {network : Network}

/-- A signature recovers to an address if this encodes, as the signer does, the digest of the key
that the signature recovers to. -/
theorem recoverAddress_eq_ok_iff :
    signer.recoverAddress digest sig = .ok (owner.address encoding network) ↔
      sig.recoveryId ≤ 1 ∧ encoding = signer.encoding ∧
        (encoding.dependsOnNetwork → network = signer.network) ∧
        ∃ recovered : Point,
          recoverPublicKey digest sig.r sig.s (27 + sig.recoveryId.toNat) = .ok recovered ∧
            recovered.addressDigest encoding = owner.addressDigest encoding := by
  unfold recoverAddress
  split
  · next hlarge =>
      refine iff_of_false nofun ?_
      rintro ⟨hsmall, -⟩
      exact absurd hlarge (UInt8.not_lt.mpr hsmall)
  · next hsmall =>
      rw [bind_eq_ok_iff]
      constructor
      · rintro ⟨recovered, hrecovered, htext⟩
        obtain ⟨hencoding, hnetwork, hdigest⟩ :=
          Point.address_eq_iff.mp (pure_eq_ok_iff.mp htext).symm
        exact ⟨UInt8.not_lt.mp hsmall, hencoding, hnetwork, recovered, hrecovered, hdigest.symm⟩
      · rintro ⟨-, hencoding, hnetwork, recovered, hrecovered, hdigest⟩
        refine ⟨recovered, hrecovered, pure_eq_ok_iff.mpr (Eq.symm ?_)⟩
        exact Point.address_eq_iff.mpr ⟨hencoding, hnetwork, hdigest.symm⟩

/-- A container is signed for an address only if the key that its signature recovers to has it. -/
theorem exists_recovered_of_sign {key : Word256} {c signed : Container}
    (h : signer.sign key (owner.address encoding network) c = .ok signed) :
    encoding = signer.encoding ∧ (encoding.dependsOnNetwork → network = signer.network) ∧
      ∃ sig recovered, signDigest key (signer.digest c) = .ok sig ∧
        recoverPublicKey (signer.digest c) sig.r sig.s (27 + sig.recoveryId.toNat) =
          .ok recovered ∧
        recovered.addressDigest encoding = owner.addressDigest encoding := by
  obtain ⟨_, -, h⟩ := bind_eq_ok_iff.mp h
  obtain ⟨sig, hsig, h⟩ := bind_eq_ok_iff.mp h
  obtain ⟨text, htext, h⟩ := bind_eq_ok_iff.mp h
  split at h
  · next hsame =>
      rw [hsame] at htext
      obtain ⟨-, hencoding, hnetwork, recovered, hrecovered, hdigest⟩ :=
        recoverAddress_eq_ok_iff.mp htext
      exact ⟨hencoding, hnetwork, sig, recovered, hsig, hrecovered, hdigest⟩
  · cases h

end Container.Signer

/-! ## Main statement -/

/-- **The text of an address tells what it encodes.**  The addresses of two public keys, each in
some encoding and for some network, have the same text exactly if the encodings are the same, the
networks are the same where addresses depend on them, and the digests that are encoded are the
same.

So the comparison of texts by which a signer checks the key that a signature recovers to is one of
encodings, networks and digests.  A signature recovers to the text of an address exactly if the
address is in the encoding and, where it matters, for the network of the signer, and the recovered
key has the digest that it encodes; and no container is signed for an address otherwise. -/
theorem address_texts_tell_what_they_encode :
    (∀ (key key' : Secp256k1.Point) (encoding encoding' : AddressEncoding)
        (network network' : Network),
      key.address encoding network = key'.address encoding' network' ↔
        encoding = encoding' ∧ (encoding.dependsOnNetwork → network = network') ∧
          key.addressDigest encoding = key'.addressDigest encoding) ∧
    (∀ (signer : Container.Signer) (digest : Word256) (sig : RecoverableSignature)
        (owner : Secp256k1.Point) (encoding : AddressEncoding) (network : Network),
      signer.recoverAddress digest sig = .ok (owner.address encoding network) ↔
        sig.recoveryId ≤ 1 ∧ encoding = signer.encoding ∧
          (encoding.dependsOnNetwork → network = signer.network) ∧
          ∃ recovered : Secp256k1.Point,
            recoverPublicKey digest sig.r sig.s (27 + sig.recoveryId.toNat) = .ok recovered ∧
              recovered.addressDigest encoding = owner.addressDigest encoding) ∧
    ∀ (signer : Container.Signer) (key : Word256) (owner : Secp256k1.Point)
        (encoding : AddressEncoding) (network : Network) (c signed : Container),
      signer.sign key (owner.address encoding network) c = .ok signed →
        encoding = signer.encoding ∧ (encoding.dependsOnNetwork → network = signer.network) ∧
          ∃ sig recovered, signDigest key (signer.digest c) = .ok sig ∧
            recoverPublicKey (signer.digest c) sig.r sig.s (27 + sig.recoveryId.toNat) =
              .ok recovered ∧
            recovered.addressDigest encoding = owner.addressDigest encoding :=
  ⟨fun _ _ _ _ _ _ => Secp256k1.Point.address_eq_iff,
    fun _ _ _ _ _ _ => Container.Signer.recoverAddress_eq_ok_iff,
    fun _ _ _ _ _ _ _ => Container.Signer.exists_recovered_of_sign⟩

end Keyring
