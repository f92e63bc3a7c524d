import Keyring.Chain.Params
import Keyring.Container
import Keyring.Evm.Signer

/-!
# Signers

Every family of chains has its own signer.  A signer turns a payload into signed bytes
and checks that the signature belongs to the address it was asked for.
-/

namespace Keyring

/-- A signer of some family. -/
inductive ChainSigner
  | evm (signer : Evm.Signer)
  | container (signer : Container.Signer)
  deriving DecidableEq, Repr

namespace ChainSigner

/-- The signer for the parameters of a chain. -/
def ofParams (p : ChainParams) (maxInputs : UInt32) : ChainSigner :=
  match p.family with
  | .evm => .evm ⟨p.chainId⟩
  | .tron => .container ⟨.sha256, p.addressEncoding, p.network, maxInputs⟩
  | .utxo => .container ⟨.doubleSha256, p.addressEncoding, p.network, maxInputs⟩

/-- Signs a payload with the key behind an address. -/
def sign (signer : ChainSigner) (key : Word256) (address : String) (payload : Bytes) :
    Except WalletError Bytes :=
  match signer with
  | .evm signer => signer.signPayload key address payload
  | .container signer => signer.signPayload key address payload

end ChainSigner

end Keyring
