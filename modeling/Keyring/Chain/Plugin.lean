import Keyring.Wallet.Keychain

/-!
# Chain plugins

A plugin is what the library knows about one chain: its parameters, its signer, and the
limits that a configuration sets.  It makes keychains out of mnemonics.
-/

namespace Keyring

/-- A chain that wallets can be used on. -/
structure Plugin where
  params : ChainParams
  signer : ChainSigner
  maxRangeSize : UInt32
  /-- The number of words of new mnemonics. -/
  wordsCount : Nat
  deriving DecidableEq, Repr

namespace Plugin

/-- The plugin of a chain with the signer of its family. -/
def ofParams (params : ChainParams) (pool : PoolConfig) (wordsCount : Nat) : Plugin :=
  ⟨params, .ofParams params pool.maxContainerInputs, pool.maxRangeSize, wordsCount⟩

/-- The name under which a plugin is registered. -/
def name (p : Plugin) : String :=
  p.params.name

/-- The name of a plugin as a piece of software. -/
def packageName (p : Plugin) : String :=
  p.name ++ "-hdwallet-plugin"

/-- The version of all plugins. -/
def version : String :=
  "0.1.0"

/-- A new mnemonic from drawn bytes. -/
def generate (p : Plugin) (draw : Nat → Bytes) : Except WalletError Mnemonic :=
  Mnemonic.generate p.wordsCount draw

/-- The keychain of a phrase. -/
def keychain (p : Plugin) (phrase : String) : Except WalletError Keychain :=
  Keychain.ofPhrase p.params p.signer p.maxRangeSize phrase

end Plugin

/-- The plugins that are available, in ascending order of their names. -/
structure Registry where
  plugins : List Plugin
  deriving DecidableEq, Repr

namespace Registry

/-- The chains that need no registration. -/
def builtinChains : List String :=
  ["ethereum", "tron", "bitcoin"]

def empty : Registry :=
  ⟨[]⟩

/-- The plugin of a name. -/
def find? (r : Registry) (name : String) : Option Plugin :=
  r.plugins.find? (·.name == name)

/-- The plugin of a name, or an error. -/
def get (r : Registry) (name : String) : Except WalletError Plugin :=
  match r.find? name with
  | some p => .ok p
  | none => .error (.unsupportedChain name)

/-- The names of all plugins. -/
def names (r : Registry) : List String :=
  r.plugins.map (·.name)

/-- Puts a plugin before the first one with a greater name. -/
def insertSorted (p : Plugin) : List Plugin → List Plugin
  | [] => [p]
  | q :: rest => if p.name < q.name then p :: q :: rest else q :: insertSorted p rest

/-- Adds a plugin, unless its name is taken. -/
def register (r : Registry) (p : Plugin) : Except WalletError Registry :=
  if (r.find? p.name).isSome then .error (.config (.duplicatePlugin p.name))
  else .ok ⟨insertSorted p r.plugins⟩

/-- The parameters of a built-in chain: as configured if the configuration names it, else
its preset. -/
def builtinParams (c : Config) (name : String) : Except WalletError ChainParams :=
  if name = c.chain.name then ChainParams.ofConfig c.chain
  else
    match ChainBuilder.preset? name with
    | some b => .ok b.build
    | none => .error (.unsupportedChain name)

/-- Registers the plugin of a built-in chain. -/
def addBuiltin (c : Config) (r : Registry) (name : String) : Except WalletError Registry := do
  let params ← builtinParams c name
  r.register (.ofParams params c.pool c.mnemonic.wordsCount.toNat)

/-- The built-in chains under a configuration, which has to name one of them. -/
def ofConfig (c : Config) : Except WalletError Registry := do
  let r ← builtinChains.foldlM (addBuiltin c) empty
  let _ ← r.get c.chain.name
  return r

end Registry

end Keyring
