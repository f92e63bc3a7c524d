/-!
# Networks

Every chain has a main network and a test network.  They differ in the version bytes
of exported keys and in the leading bytes of addresses.
-/

namespace Keyring

/-- The network of a chain. -/
inductive Network
  | mainnet
  | testnet
  deriving DecidableEq, Repr

namespace Network

/-- The name of a network in configurations and answers. -/
def name : Network → String
  | mainnet => "mainnet"
  | testnet => "testnet"

/-- The network of a name. -/
def ofName? : String → Option Network
  | "mainnet" => some mainnet
  | "testnet" => some testnet
  | _ => none

/-- The version of exported private keys. -/
def privateVersion : Network → UInt32
  | mainnet => 0x0488ade4
  | testnet => 0x04358394

/-- The version of exported public keys. -/
def publicVersion : Network → UInt32
  | mainnet => 0x0488b21e
  | testnet => 0x043587cf

end Network

end Keyring
