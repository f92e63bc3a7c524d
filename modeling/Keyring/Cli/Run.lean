import Keyring.Chain.Json
import Keyring.Chain.Plugin
import Keyring.Cli.Arguments
import Keyring.Config.Toml
import Keyring.Json.Sorted

/-!
# The command line tool

The tool works on a configuration and the plugins it makes available: it generates and
checks mnemonics, derives addresses and lists the chains.  What it reads from outside
comes in as a record, so a run is a function of it.
-/

namespace Keyring.Cli

open Json

/-- What a run reads from outside. -/
structure Surroundings where
  environment : Config.Environment
  /-- The text of a file, or why it cannot be read. -/
  fileText : String → Except String String
  /-- The first line of the standard input. -/
  input : String
  /-- Random bytes. -/
  draw : Nat → Bytes

/-- What a run leaves behind. -/
structure Report where
  exitCode : Nat
  output : Option String := none
  failure : Option String := none
  deriving DecidableEq, Repr

/-- The configuration before the options of the command line. -/
def baseConfig (s : Surroundings) (path : Option String) : Except WalletError Config :=
  match path with
  | none => Config.ofEnvironment s.environment
  | some path =>
    match s.fileText path with
    | .ok text => Config.load text s.environment
    | .error reason => .error (.config (.unreadable path reason))

/-- The configuration of a run. -/
def configOf (s : Surroundings) (i : Invocation) : Except WalletError Config := do
  let c ← baseConfig s i.config
  let c := { c with chain := { c.chain with name := i.chain.getD c.chain.name } }
  let c :=
    match i.command with
    | .generateMnemonic (some words) => { c with mnemonic := ⟨words⟩ }
    | _ => c
  c.validated

/-- The text of a list of plugins. -/
def chainsText (r : Registry) : String :=
  Value.pretty (.sorted (.array (r.plugins.map fun p =>
    .object
      [("name", .string p.name),
       ("build_info",
        .object
          [("plugin_name", .string p.packageName), ("version", .string Plugin.version)]),
       ("params", p.params.toValue)])))

/-- The text of derived accounts. -/
def accountsText (chain : String) (accounts : List Account) (extended : Option String) : String :=
  Value.pretty (.sorted (.object
    [("chain", .string chain), ("count", .ofNat accounts.length),
     ("accounts", .array (accounts.map Account.toValue)),
     ("account_xpub", .optional .string extended)]))

/-- Derives a range of addresses of a phrase. -/
def deriveText (p : Plugin) (phrase : String) (r : AddressRange) (extendedPublic : Bool) :
    Except WalletError String := do
  let k ← p.keychain phrase
  let (accounts, k) ← k.collect [r] 0
  let extended ← if extendedPublic then some <$> k.extendedPublicOf r.account else .ok none
  return accountsText p.name accounts extended

/-- The report of a failure. -/
def failed (text : String) : Report :=
  { exitCode := 1, failure := some text }

/-- The report of an output or a failure. -/
def reportOf : Except WalletError String → Report
  | .ok text => { exitCode := 0, output := some text }
  | .error e => failed e.message

/-- Carries out a command with the plugins that are available. -/
def execute (s : Surroundings) (r : Registry) (p : Plugin) : Command → Report
  | .generateMnemonic _ => reportOf (Mnemonic.phrase <$> p.generate s.draw)
  | .validateMnemonic =>
    let valid := Mnemonic.isValid (Text.trim s.input)
    { exitCode := if valid then 0 else 1
      output := some (Value.compact (.object [("valid", .bool valid)])) }
  | .derive account change first last extendedPublic =>
    let phrase := Text.trim s.input
    if Mnemonic.isValid phrase then
      reportOf (deriveText p phrase ⟨account, change, first, last⟩ extendedPublic)
    else failed "invalid mnemonic"
  | .chains => reportOf (.ok (chainsText r))

/-- Carries out an invocation. -/
def runInvocation (s : Surroundings) (i : Invocation) : Report :=
  let prepared : Except WalletError (Registry × Plugin) := do
    let c ← configOf s i
    let r ← Registry.ofConfig c
    return (r, ← r.get c.chain.name)
  match prepared with
  | .ok (r, p) => execute s r p i.command
  | .error e => failed e.message

/-- Runs the tool. -/
def run (s : Surroundings) (args : List String) : Report :=
  match parse args with
  | .ok i => runInvocation s i
  | .error .shown => { exitCode := 0 }
  | .error .misuse => { exitCode := 2 }

end Keyring.Cli
