import Keyring.Config.Basic
import Keyring.Toml.Document

/-!
# Configuration files

A configuration file is a TOML document with a table for each part of the configuration.
A table may also be written as an array of its fields in order; entries that belong to no
field are skipped.
-/

namespace Keyring

namespace Toml.Value

def string? : Value → Option String
  | .string s => some s
  | _ => none

/-- An integer that is not negative and below `bound`. -/
def unsigned? (bound : Nat) : Value → Option Nat
  | .integer (.ofNat n) => if n < bound then some n else none
  | _ => none

def uint32? (v : Value) : Option UInt32 :=
  (v.unsigned? UInt32.size).map UInt32.ofNat

def uint64? (v : Value) : Option UInt64 :=
  (v.unsigned? UInt64.size).map UInt64.ofNat

/-- One of a set of names, as a string or as a table whose only key has the name and an
empty value. -/
def choice? {α : Type} (ofName : String → Option α) : Value → Option α
  | .string s => ofName s
  | .table [(name, .table [])] => ofName name
  | .table [(name, .array [])] => ofName name
  | _ => none

/-- The values of fields in the order of `names`.  A time has no fields. -/
def record? (names : List String) : Value → Option (List (Option Value))
  | .table entries => some (names.map fun name => entries.lookup name)
  | .array items =>
    some (names.zipIdx.map fun name => items[name.2]?)
  | .time => some (names.map fun _ => none)
  | _ => none

/-- A field with a default. -/
def defaulted? {α : Type} (default : α) (read : Value → Option α) : Option Value → Option α
  | none => some default
  | some v => read v

/-- A field that may be missing. -/
def open? {α : Type} (read : Value → Option α) : Option Value → Option (Option α)
  | none => some none
  | some v => (read v).map some

end Toml.Value

open Toml

namespace ChainConfig

def ofToml? (v : Value) : Option ChainConfig := do
  let d : ChainConfig := {}
  match ← v.record? ["name", "chain_id", "coin_type", "purpose", "network", "address_encoding"] with
  | [name, chainId, coinType, purpose, network, encoding] =>
    return {
      name := ← Value.defaulted? d.name Value.string? name
      chainId := ← Value.open? Value.uint64? chainId
      coinType := ← Value.open? Value.uint32? coinType
      purpose := ← Value.defaulted? d.purpose Value.uint32? purpose
      network := ← Value.defaulted? d.network (Value.choice? Network.ofName?) network
      addressEncoding := ← Value.open? (Value.choice? AddressEncoding.ofName?) encoding
    }
  | _ => none

end ChainConfig

namespace PoolConfig

def ofToml? (v : Value) : Option PoolConfig := do
  let d : PoolConfig := {}
  match ← v.record?
      ["unload_interval_secs", "range_concurrency", "max_range_size", "max_container_inputs"] with
  | [interval, concurrency, range, inputs] =>
    return {
      unloadIntervalSecs := ← Value.defaulted? d.unloadIntervalSecs Value.uint64? interval
      rangeConcurrency := ← Value.defaulted? d.rangeConcurrency Value.uint64? concurrency
      maxRangeSize := ← Value.defaulted? d.maxRangeSize Value.uint32? range
      maxContainerInputs := ← Value.defaulted? d.maxContainerInputs Value.uint32? inputs
    }
  | _ => none

end PoolConfig

namespace MnemonicConfig

def ofToml? (v : Value) : Option MnemonicConfig := do
  let d : MnemonicConfig := {}
  match ← v.record? ["words_count"] with
  | [count] => return ⟨← Value.defaulted? d.wordsCount Value.uint64? count⟩
  | _ => none

end MnemonicConfig

namespace StorageConfig

def ofToml? (v : Value) : Option StorageConfig := do
  let d : StorageConfig := {}
  match ← v.record? ["database_url", "max_connections"] with
  | [url, connections] =>
    return ⟨← Value.defaulted? d.databaseUrl Value.string? url,
      ← Value.open? Value.uint32? connections⟩
  | _ => none

end StorageConfig

namespace Config

def ofToml? (v : Value) : Option Config := do
  let d : Config := {}
  match ← v.record? ["chain", "pool", "mnemonic", "storage"] with
  | [chain, pool, mnemonic, storage] =>
    return {
      chain := ← Value.defaulted? d.chain ChainConfig.ofToml? chain
      pool := ← Value.defaulted? d.pool PoolConfig.ofToml? pool
      mnemonic := ← Value.defaulted? d.mnemonic MnemonicConfig.ofToml? mnemonic
      storage := ← Value.defaulted? d.storage StorageConfig.ofToml? storage
    }
  | _ => none

/-- Reads a configuration from the text of a file. -/
def parse (text : String) : Except WalletError Config :=
  match (document? text).bind ofToml? with
  | some c => .ok c
  | none => .error (.config .malformedToml)

/-- Reads a configuration and validates it. -/
def ofTomlText (text : String) : Except WalletError Config := do
  (← parse text).validated

/-- The configuration of a file under an environment. -/
def load (text : String) (env : Environment) : Except WalletError Config := do
  let c ← parse text
  let (c, result) := c.applyEnvironment env
  result
  c.validated

/-- The default configuration under an environment. -/
def ofEnvironment (env : Environment) : Except WalletError Config := do
  let (c, result) := ({} : Config).applyEnvironment env
  result
  return c

end Config

end Keyring
