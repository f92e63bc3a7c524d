import Keyring.Address.Encoding
import Keyring.Mnemonic.Basic
import Keyring.Path
import Keyring.Text.Blank

/-!
# Configuration

A configuration chooses a chain and its parameters, bounds the work of pool units, and
says how mnemonics are generated and where wallets are stored.  Variables of the
environment win over what a file says.
-/

namespace Keyring

/-- Which chain to run and what to change in its parameters. -/
structure ChainConfig where
  name : String := "ethereum"
  chainId : Option UInt64 := none
  coinType : Option UInt32 := none
  purpose : UInt32 := Bip44Path.standardPurpose
  network : Network := .mainnet
  addressEncoding : Option AddressEncoding := none
  deriving DecidableEq, Repr

/-- How pool units behave. -/
structure PoolConfig where
  /-- The seconds after which an idle wallet is unloaded. -/
  unloadIntervalSecs : UInt64 := 8
  /-- The number of workers that derive ranges. -/
  rangeConcurrency : UInt64 := 4
  /-- The most addresses that one request may ask for. -/
  maxRangeSize : UInt32 := 10000
  /-- The most inputs of a container that is signed. -/
  maxContainerInputs : UInt32 := 256
  deriving DecidableEq, Repr

/-- How mnemonics are generated. -/
structure MnemonicConfig where
  wordsCount : UInt64 := 24
  deriving DecidableEq, Repr

/-- Where wallets are stored. -/
structure StorageConfig where
  databaseUrl : String := "sqlite::memory:"
  maxConnections : Option UInt32 := none
  deriving DecidableEq, Repr

/-- A configuration. -/
structure Config where
  chain : ChainConfig := {}
  pool : PoolConfig := {}
  mnemonic : MnemonicConfig := {}
  storage : StorageConfig := {}
  deriving DecidableEq, Repr

namespace Config

/-- What is wrong with a configuration first. -/
def fault? (c : Config) : Option ConfigFault :=
  if (Text.trim c.chain.name).isEmpty then some .emptyChainName
  else if c.pool.unloadIntervalSecs = 0 then some (.notPositive "pool.unload_interval_secs")
  else if c.pool.rangeConcurrency = 0 then some (.notPositive "pool.range_concurrency")
  else if c.pool.maxRangeSize = 0 then some (.notPositive "pool.max_range_size")
  else if c.pool.maxContainerInputs = 0 then some (.notPositive "pool.max_container_inputs")
  else if c.mnemonic.wordsCount.toNat ∉ Mnemonic.wordCounts then
    some (.wordCount c.mnemonic.wordsCount.toNat)
  else if c.storage.databaseUrl.isEmpty then some .emptyDatabaseUrl
  else none

/-- Refuses a configuration that cannot be used. -/
def validate (c : Config) : Except WalletError Unit :=
  match c.fault? with
  | some fault => .error (.config fault)
  | none => .ok ()

/-- A configuration that has been validated. -/
def validated (c : Config) : Except WalletError Config := do
  c.validate
  return c

/-! ## The environment -/

/-- The variables of the environment. -/
abbrev Environment := String → Option String

/-- One change to a configuration that the environment may ask for. -/
abbrev Override := Config → Except WalletError Config

/-- Takes a text as it is. -/
def overrideText (env : Environment) (name : String) (set : Config → String → Config) :
    Override := fun c =>
  match env name with
  | some value => .ok (set c value)
  | none => .ok c

/-- Takes a number; white space around it does not matter. -/
def overrideNumber {α : Type} (env : Environment) (name : String)
    (read : List Char → Option α) (set : Config → α → Config) : Override := fun c =>
  match env name with
  | none => .ok c
  | some value =>
    match read (Text.trim value).toList with
    | some n => .ok (set c n)
    | none => .error (.config (.invalidValue name value))

/-- The changes that the environment may ask for, in the order in which they are made. -/
def overrides (env : Environment) : List Override :=
  [overrideText env "HDWALLET_CHAIN" fun c name =>
     { c with chain := { c.chain with name } },
   overrideNumber env "HDWALLET_CHAIN_ID" Text.uint64? fun c id =>
     { c with chain := { c.chain with chainId := some id } },
   overrideNumber env "HDWALLET_COIN_TYPE" Text.uint32? fun c coin =>
     { c with chain := { c.chain with coinType := some coin } },
   overrideNumber env "HDWALLET_UNLOAD_INTERVAL_SECS" Text.uint64? fun c secs =>
     { c with pool := { c.pool with unloadIntervalSecs := secs } },
   overrideNumber env "HDWALLET_RANGE_CONCURRENCY" Text.uint64? fun c n =>
     { c with pool := { c.pool with rangeConcurrency := n } },
   overrideText env "DATABASE_URL" fun c url =>
     { c with storage := { c.storage with databaseUrl := url } }]

/-- Makes changes one after another up to the first that fails; those before it stay. -/
def applyAll : List Override → Config → Config × Except WalletError Unit
  | [], c => (c, .ok ())
  | change :: rest, c =>
    match change c with
    | .ok c => applyAll rest c
    | .error e => (c, .error e)

/-- Applies the environment to a configuration. -/
def applyEnvironment (env : Environment) (c : Config) : Config × Except WalletError Unit :=
  applyAll (overrides env) c

end Config

end Keyring
