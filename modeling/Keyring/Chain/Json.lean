import Keyring.Chain.Params
import Keyring.Json.Reader
import Keyring.Json.Value

/-!
# Chain parameters as documents
-/

namespace Keyring.ChainParams

open Json

def toValue (p : ChainParams) : Value :=
  .object
    [("name", .string p.name), ("family", .string p.family.name),
     ("chain_id", .ofNat p.chainId.toNat), ("coin_type", .ofNat p.coinType.toNat),
     ("purpose", .ofNat p.purpose.toNat), ("network", .string p.network.name),
     ("address_encoding", .string p.addressEncoding.name)]

def ofTree? (t : Tree) : Option ChainParams := do
  match ← t.record? .refused
      ["name", "family", "chain_id", "coin_type", "purpose", "network", "address_encoding"] with
  | [name, family, chainId, coinType, purpose, network, encoding] =>
    return {
      name := ← Tree.required? Tree.string? name
      family := ← Tree.required? (Tree.choice? ChainFamily.ofName?) family
      chainId := ← Tree.required? Tree.uint64? chainId
      coinType := ← Tree.required? Tree.uint32? coinType
      purpose := ← Tree.required? Tree.uint32? purpose
      network := ← Tree.required? (Tree.choice? Network.ofName?) network
      addressEncoding := ← Tree.required? (Tree.choice? AddressEncoding.ofName?) encoding
    }
  | _ => none

end Keyring.ChainParams
