import Keyring.Address.Evm
import Keyring.Encoding.Bech32
import Keyring.KeyNode

/-!
# Address encodings

The five ways the chains of the library write the address of a public key.  The
encodings of output chains depend on the network; the others do not.
-/

namespace Keyring

/-- How the address of a public key is written. -/
inductive AddressEncoding
  /-- Hexadecimal with a checksum in the case of its letters. -/
  | evm
  /-- Base58Check of the byte `0x41` and the address of an account chain. -/
  | tron
  /-- Base58Check of a network byte and the digest of the public key. -/
  | p2pkh
  /-- Bech32 of a witness program, the digest of the public key. -/
  | p2wpkh
  /-- Base58Check of a network byte and the digest of a witness program. -/
  | p2shP2wpkh
  deriving DecidableEq, Repr

namespace AddressEncoding

/-- The name of an encoding in configurations and answers. -/
def name : AddressEncoding → String
  | evm => "evm"
  | tron => "tron"
  | p2pkh => "p2pkh"
  | p2wpkh => "p2wpkh"
  | p2shP2wpkh => "p2sh_p2wpkh"

/-- The encoding of a name. -/
def ofName? : String → Option AddressEncoding
  | "evm" => some evm
  | "tron" => some tron
  | "p2pkh" => some p2pkh
  | "p2wpkh" => some p2wpkh
  | "p2sh_p2wpkh" => some p2shP2wpkh
  | _ => none

end AddressEncoding

namespace Network

/-- The leading byte of addresses that pay to a public key. -/
def publicKeyByte : Network → UInt8
  | mainnet => 0x00
  | testnet => 0x6f

/-- The leading byte of addresses that pay to a script. -/
def scriptByte : Network → UInt8
  | mainnet => 0x05
  | testnet => 0xc4

/-- The human-readable part of witness addresses. -/
def witnessPrefix : Network → String
  | mainnet => "bc"
  | testnet => "tb"

end Network

namespace Secp256k1.Point

/-- The witness program that pays to a public key, as a script of 22 bytes. -/
def witnessScript (key : Point) : Bytes :=
  0x00 :: 0x14 :: hash160 key.compressed

/-- The address of a public key. -/
def address (key : Point) (encoding : AddressEncoding) (network : Network) : String :=
  match encoding with
  | .evm => (EvmAddress.ofPublicKey key).checksumText
  | .tron => Base58.encodeCheck (0x41 :: (EvmAddress.ofPublicKey key).toBytes)
  | .p2pkh => Base58.encodeCheck (network.publicKeyByte :: hash160 key.compressed)
  | .p2wpkh => Bech32.encodeWitnessV0 network.witnessPrefix (hash160 key.compressed)
  | .p2shP2wpkh => Base58.encodeCheck (network.scriptByte :: hash160 key.witnessScript)

end Secp256k1.Point

/-- The address of a node that is not cleared. -/
def KeyNode.address (node : KeyNode) (encoding : AddressEncoding) (network : Network) :
    Except WalletError String :=
  return (← node.publicKey).address encoding network

end Keyring
