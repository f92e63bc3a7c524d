import Keyring.Chain.Signer
import Keyring.Proofs.Address.Encoding
import Keyring.Proofs.Container
import Keyring.Proofs.Evm.Signing

/-!
# Signed bytes speak for the address

Each family of chains hands out bytes of its own form, and in each of them whoever reads the
bytes finds the address that signed.  The bytes of an account chain are read back to a
transaction whose digest, computed anew from the fields, recovers to the address; those of the
other families to a container with a signature of the address for every input.

A signer is asked to sign for the text of an address.  For an account chain this has to be the
checksum text, since no other text of a public key reads as an address (`ofText_address_eq_ok`).
-/

namespace Keyring

namespace Evm.Signer

/-- Bytes that hold the transaction of a payload, signed on the signer's chain for an
address.  Transaction, signature and digest are all read from the bytes. -/
def Signed (signer : Signer) (address : String) (payload bytes : Bytes) : Prop :=
  ∃ (signed : SignedTransaction) (sender : EvmAddress),
    SignedTransaction.ofBytes? bytes = some signed ∧
      Request.decode payload = .ok signed.transaction.request ∧
      signed.chainId = signer.chainId ∧
      recoverSigner signed.transaction.kind signer.chainId signed.digest signed.signature =
        .ok sender ∧
      sender.checksumText = address

/-- The bytes of a signature are a signed transaction, if they fit a 64-bit address space. -/
theorem signPayload_eq_ok {signer : Signer} {key : Word256} {owner : Secp256k1.Point}
    {encoding : AddressEncoding} {network : Network} {payload bytes : Bytes}
    (h : signer.signPayload key (owner.address encoding network) payload = .ok bytes)
    (hfits : bytes.length < UInt64.size) :
    signer.Signed (owner.address encoding network) payload bytes := by
  obtain ⟨request, hdecode, h⟩ := bind_eq_ok_iff.mp h
  obtain ⟨sender, hsender, h⟩ := bind_eq_ok_iff.mp h
  obtain ⟨signed, hsigned, h⟩ := bind_eq_ok_iff.mp h
  cases h
  obtain ⟨rfl, rfl⟩ := ofText_address_eq_ok hsender
  obtain ⟨htx, hparts, ⟨parity, hparity, hv⟩, hrecover⟩ := signRequest_eq_ok hsigned
  have hkind := kind_of_transaction_eq_ok htx
  refine ⟨signed, _, ?_, ?_, congrArg SignedTransaction.chainId hparts, hkind ▸ hrecover, rfl⟩
  · rw [hkind] at hv
    rw [hparts] at hfits ⊢
    exact SignedTransaction.ofBytes?_bytes hparity hv hfits
  · rw [hdecode, request_of_transaction_eq_ok htx]

end Evm.Signer

namespace ChainSigner

/-- What the bytes that a signer of some family hands out have to be. -/
def Signed (signer : ChainSigner) (address : String) (payload bytes : Bytes) : Prop :=
  match signer with
  | .evm signer => bytes.length < UInt64.size → signer.Signed address payload bytes
  | .container signer =>
    ∃ c signed, Container.decode payload = .ok c ∧ Container.decode bytes = .ok signed ∧
      signer.Signed address c signed

theorem sign_eq_ok {signer : ChainSigner} {key : Word256} {owner : Secp256k1.Point}
    {encoding : AddressEncoding} {network : Network} {payload bytes : Bytes}
    (h : signer.sign key (owner.address encoding network) payload = .ok bytes) :
    signer.Signed (owner.address encoding network) payload bytes := by
  cases signer with
  | evm signer => exact Evm.Signer.signPayload_eq_ok h
  | container signer => exact Container.Signer.signPayload_eq_ok h

end ChainSigner

end Keyring
