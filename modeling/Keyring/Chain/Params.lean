import Keyring.Config.Basic

/-!
# Chain parameters

The parameters of a chain never change once they are built.  A builder starts from the
defaults of a family or from the preset of a known chain; its chain id and its coin type
can be set once each.
-/

namespace Keyring

/-- The families of chains, which differ in what they sign. -/
inductive ChainFamily
  /-- Account chains. -/
  | evm
  /-- Containers digested once. -/
  | tron
  /-- Containers digested twice. -/
  | utxo
  deriving DecidableEq, Repr

namespace ChainFamily

/-- The name of a family. -/
def name : ChainFamily → String
  | evm => "evm"
  | tron => "tron"
  | utxo => "utxo"

/-- The family of a name. -/
def ofName? : String → Option ChainFamily
  | "evm" => some evm
  | "tron" => some tron
  | "utxo" => some utxo
  | _ => none

/-- How a family writes addresses unless it is told otherwise. -/
def addressEncoding : ChainFamily → AddressEncoding
  | evm => .evm
  | tron => .tron
  | utxo => .p2shP2wpkh

end ChainFamily

/-- The parameters of a chain. -/
structure ChainParams where
  name : String
  family : ChainFamily
  chainId : UInt64
  coinType : UInt32
  purpose : UInt32
  network : Network
  addressEncoding : AddressEncoding
  deriving DecidableEq, Repr

/-- The purpose and coin type under which a chain keeps its keys. -/
def ChainParams.scheme (p : ChainParams) : PathScheme :=
  ⟨p.purpose, p.coinType⟩

/-- Chain parameters in the making. -/
structure ChainBuilder where
  name : String
  family : ChainFamily
  chainId? : Option UInt64 := none
  coinType? : Option UInt32 := none
  defaultChainId : UInt64 := 1
  defaultCoinType : UInt32 := 60
  purpose : UInt32 := Bip44Path.standardPurpose
  network : Network := .mainnet
  addressEncoding : AddressEncoding := family.addressEncoding
  deriving DecidableEq, Repr

namespace ChainBuilder

/-- The builder of a chain with the defaults of its family. -/
def ofFamily (name : String) (family : ChainFamily) : ChainBuilder :=
  { name, family }

/-- The builder of a chain that is known by name.  Its defaults do not count as set. -/
def preset? (name : String) : Option ChainBuilder :=
  match name with
  | "ethereum" => some { name, family := .evm, defaultChainId := 1, defaultCoinType := 60 }
  | "tron" => some { name, family := .tron, defaultChainId := 728126428, defaultCoinType := 195 }
  | "bitcoin" => some { name, family := .utxo, defaultChainId := 0, defaultCoinType := 0 }
  | _ => none

/-- The chain id that was set, or else the default. -/
def chainId (b : ChainBuilder) : UInt64 :=
  b.chainId?.getD b.defaultChainId

/-- The coin type that was set, or else the default. -/
def coinType (b : ChainBuilder) : UInt32 :=
  b.coinType?.getD b.defaultCoinType

/-- Sets the chain id, unless it was set before. -/
def setChainId (b : ChainBuilder) (chainId : UInt64) : Except WalletError ChainBuilder :=
  if b.chainId?.isSome then .error (.alreadySet "chain_id")
  else .ok { b with chainId? := some chainId }

/-- Sets the coin type, unless it was set before. -/
def setCoinType (b : ChainBuilder) (coinType : UInt32) : Except WalletError ChainBuilder :=
  if b.coinType?.isSome then .error (.alreadySet "coin_type")
  else .ok { b with coinType? := some coinType }

/-- The parameters built so far. -/
def build (b : ChainBuilder) : ChainParams where
  name := b.name
  family := b.family
  chainId := b.chainId
  coinType := b.coinType
  purpose := b.purpose
  network := b.network
  addressEncoding := b.addressEncoding

/-- What a builder is told. -/
inductive Call
  | setChainId (chainId : UInt64)
  | setCoinType (coinType : UInt32)
  | purpose (purpose : UInt32)
  | network (network : Network)
  | addressEncoding (encoding : AddressEncoding)
  | build
  deriving DecidableEq, Repr

/-- What it answers. -/
inductive Answer
  | done
  | params (params : ChainParams)
  deriving DecidableEq, Repr

/-- Does what a builder is told, and answers.  The builder is changed in place, so it is there
also after a call that is refused. -/
def call (b : ChainBuilder) : Call → Except WalletError Answer × ChainBuilder
  | .setChainId chainId =>
    match b.setChainId chainId with
    | .ok b => (.ok .done, b)
    | .error e => (.error e, b)
  | .setCoinType coinType =>
    match b.setCoinType coinType with
    | .ok b => (.ok .done, b)
    | .error e => (.error e, b)
  | .purpose purpose => (.ok .done, { b with purpose })
  | .network network => (.ok .done, { b with network })
  | .addressEncoding addressEncoding => (.ok .done, { b with addressEncoding })
  | .build => (.ok (.params b.build), b)

/-- Applies what a configuration changes in the parameters of a chain. -/
def configure (b : ChainBuilder) (c : ChainConfig) : Except WalletError ChainBuilder := do
  let b ← match c.chainId with
    | some id => b.setChainId id
    | none => .ok b
  let b ← match c.coinType with
    | some coin => b.setCoinType coin
    | none => .ok b
  return { b with
    addressEncoding := c.addressEncoding.getD b.addressEncoding
    purpose := c.purpose
    network := c.network }

end ChainBuilder

/-- The parameters of the chain that a configuration names. -/
def ChainParams.ofConfig (c : ChainConfig) : Except WalletError ChainParams :=
  match ChainBuilder.preset? c.name with
  | some b => return (← b.configure c).build
  | none => .error (.unsupportedChain c.name)

end Keyring
