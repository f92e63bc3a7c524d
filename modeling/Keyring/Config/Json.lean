import Keyring.Config.Basic
import Keyring.Json.Reader
import Keyring.Json.Value

/-!
# Configurations as documents

Every field of a configuration has a default, so any of them may be missing.
-/

namespace Keyring

open Json

namespace ChainConfig

def ofTree? (t : Tree) : Option ChainConfig := do
  let d : ChainConfig := {}
  match ← t.record? .refused
      ["name", "chain_id", "coin_type", "purpose", "network", "address_encoding"] with
  | [name, chainId, coinType, purpose, network, encoding] =>
    return {
      name := ← Tree.defaulted? d.name Tree.string? name
      chainId := ← Tree.open? Tree.uint64? chainId
      coinType := ← Tree.open? Tree.uint32? coinType
      purpose := ← Tree.defaulted? d.purpose Tree.uint32? purpose
      network := ← Tree.defaulted? d.network (Tree.choice? Network.ofName?) network
      addressEncoding := ← Tree.open? (Tree.choice? AddressEncoding.ofName?) encoding
    }
  | _ => none

def toValue (c : ChainConfig) : Value :=
  .object
    [("name", .string c.name), ("chain_id", .optional (.ofNat ·.toNat) c.chainId),
     ("coin_type", .optional (.ofNat ·.toNat) c.coinType), ("purpose", .ofNat c.purpose.toNat),
     ("network", .string c.network.name),
     ("address_encoding", .optional (.string ·.name) c.addressEncoding)]

end ChainConfig

namespace PoolConfig

def ofTree? (t : Tree) : Option PoolConfig := do
  let d : PoolConfig := {}
  match ← t.record? .refused
      ["unload_interval_secs", "range_concurrency", "max_range_size", "max_container_inputs"] with
  | [interval, concurrency, range, inputs] =>
    return {
      unloadIntervalSecs := ← Tree.defaulted? d.unloadIntervalSecs Tree.uint64? interval
      rangeConcurrency := ← Tree.defaulted? d.rangeConcurrency Tree.uint64? concurrency
      maxRangeSize := ← Tree.defaulted? d.maxRangeSize Tree.uint32? range
      maxContainerInputs := ← Tree.defaulted? d.maxContainerInputs Tree.uint32? inputs
    }
  | _ => none

def toValue (c : PoolConfig) : Value :=
  .object
    [("unload_interval_secs", .ofNat c.unloadIntervalSecs.toNat),
     ("range_concurrency", .ofNat c.rangeConcurrency.toNat),
     ("max_range_size", .ofNat c.maxRangeSize.toNat),
     ("max_container_inputs", .ofNat c.maxContainerInputs.toNat)]

end PoolConfig

namespace MnemonicConfig

def ofTree? (t : Tree) : Option MnemonicConfig := do
  let d : MnemonicConfig := {}
  match ← t.record? .refused ["words_count"] with
  | [count] => return ⟨← Tree.defaulted? d.wordsCount Tree.uint64? count⟩
  | _ => none

def toValue (c : MnemonicConfig) : Value :=
  .object [("words_count", .ofNat c.wordsCount.toNat)]

end MnemonicConfig

namespace StorageConfig

def ofTree? (t : Tree) : Option StorageConfig := do
  let d : StorageConfig := {}
  match ← t.record? .refused ["database_url", "max_connections"] with
  | [url, connections] =>
    return ⟨← Tree.defaulted? d.databaseUrl Tree.string? url,
      ← Tree.open? Tree.uint32? connections⟩
  | _ => none

def toValue (c : StorageConfig) : Value :=
  .object
    [("database_url", .string c.databaseUrl),
     ("max_connections", .optional (.ofNat ·.toNat) c.maxConnections)]

end StorageConfig

namespace Config

def ofTree? (t : Tree) : Option Config := do
  let d : Config := {}
  match ← t.record? .refused ["chain", "pool", "mnemonic", "storage"] with
  | [chain, pool, mnemonic, storage] =>
    return {
      chain := ← Tree.defaulted? d.chain ChainConfig.ofTree? chain
      pool := ← Tree.defaulted? d.pool PoolConfig.ofTree? pool
      mnemonic := ← Tree.defaulted? d.mnemonic MnemonicConfig.ofTree? mnemonic
      storage := ← Tree.defaulted? d.storage StorageConfig.ofTree? storage
    }
  | _ => none

def toValue (c : Config) : Value :=
  .object
    [("chain", c.chain.toValue), ("pool", c.pool.toValue), ("mnemonic", c.mnemonic.toValue),
     ("storage", c.storage.toValue)]

/-- Reads a configuration from JSON text and validates it. -/
def ofJson (text : Bytes) : Except WalletError Config :=
  match (Tree.ofBytes? text).bind ofTree? with
  | some c => c.validated
  | none => .error (.serialization "text is no configuration")

end Config

end Keyring
