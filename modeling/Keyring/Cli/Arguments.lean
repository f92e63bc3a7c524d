import Keyring.Text.Decimal

/-!
# Command line arguments

A command line is a row of options, one command, and the options of that command.  An
option takes its value from the next argument or after an equals sign and comes at most
once at its level.  The options that choose a configuration and a chain may stand at
either level; the ones after the command win.
-/

namespace Keyring.Cli

/-- What the tool is asked to do. -/
inductive Command
  | generateMnemonic (words : Option UInt64)
  | validateMnemonic
  | derive (account change first last : UInt32) (extendedPublic : Bool)
  | chains
  deriving DecidableEq, Repr

/-- A command and the options that hold for all commands. -/
structure Invocation where
  config : Option String
  chain : Option String
  command : Command
  deriving DecidableEq, Repr

/-- Why a command line names no invocation. -/
inductive Refusal
  /-- Help or the version is asked for. -/
  | shown
  | misuse
  deriving DecidableEq, Repr

/-- An option: its name and, unless it is a flag, which values it takes. -/
structure OptionSpec where
  name : String
  accepts : Option (String → Bool)

/-- Where options are read: before the command or after it. -/
structure Level where
  options : List OptionSpec
  hasCommands : Bool

/-- The options read so far, with their values; flags have none. -/
abbrev Settings :=
  List (String × Option String)

/-- A number of 32 bits.  A minus sign is taken before zero only. -/
def uint32? (s : String) : Option UInt32 :=
  match s.toList with
  | '-' :: ds => if Text.natural? ds = some 0 then some 0 else none
  | ds => Text.uint32? ds

def uint64? (s : String) : Option UInt64 :=
  Text.uint64? s.toList

/-- The options for all commands. -/
def globalOptions : List OptionSpec :=
  [⟨"config", some (!·.isEmpty)⟩, ⟨"chain", some fun _ => true⟩]

/-- An option whose value is a number of 32 bits. -/
def numberOption (name : String) : OptionSpec :=
  ⟨name, some fun s => (uint32? s).isSome⟩

/-- The names of the commands. -/
def commandNames : List String :=
  ["generate-mnemonic", "validate-mnemonic", "derive", "chains"]

/-- The options of a command. -/
def optionsOf : String → List OptionSpec
  | "generate-mnemonic" => [⟨"words", some fun s => (uint64? s).isSome⟩]
  | "derive" =>
    [numberOption "account", numberOption "change", numberOption "from", numberOption "to",
     ⟨"xpub", none⟩]
  | _ => []

/-- Whether an argument starts an option; a single hyphen does not. -/
def startsOption (arg : String) : Bool :=
  match arg.toList with
  | '-' :: _ :: _ => true
  | _ => false

/-- The name of a long option and the value after its equals sign. -/
def splitLong (cs : List Char) : String × Option String :=
  let name := cs.takeWhile (· != '=')
  match cs.drop name.length with
  | [] => (String.ofList name, none)
  | _ :: value => (String.ofList name, some (String.ofList value))

/-- Adds an option that must not have come before. -/
def addSetting (settings : Settings) (name : String) (value : Option String) :
    Except Refusal Settings :=
  if (settings.lookup name).isSome then .error .misuse else .ok (settings ++ [(name, value)])

/-- Adds an option with a value that it takes. -/
def addValue (settings : Settings) (spec : OptionSpec) (accepts : String → Bool)
    (value : String) : Except Refusal Settings :=
  if accepts value then addSetting settings spec.name (some value) else .error .misuse

/-- Whether a long option asks for help or the version. -/
def Level.shows (level : Level) (name : String) : Bool :=
  name == "help" || (level.hasCommands && name == "version")

/-- What a short option leads to. -/
def Level.short (level : Level) (c : Char) : Refusal :=
  if c = 'h' ∨ (level.hasCommands ∧ c = 'V') then .shown else .misuse

/-- Reads a long option, given without its hyphens; answers the options with it and the
arguments after it. -/
def Level.long (level : Level) (settings : Settings) (cs : List Char) (rest : List String) :
    Except Refusal (Settings × List String) := do
  let (name, value) := splitLong cs
  if level.shows name then .error (if value.isNone then .shown else .misuse)
  let some spec := level.options.find? (·.name == name) | .error .misuse
  match spec.accepts, value, rest with
  | none, none, _ => return (← addSetting settings name none, rest)
  | some accepts, some value, _ => return (← addValue settings spec accepts value, rest)
  | some accepts, none, value :: rest =>
    if startsOption value then .error .misuse
    else return (← addValue settings spec accepts value, rest)
  | _, _, _ => .error .misuse

/-- Reads the options of a level; answers them and the command with what follows it.  Every
call takes an argument, which bounds the number of calls. -/
def Level.scan (level : Level) :
    (fuel : Nat) → Settings → List String →
      Except Refusal (Settings × Option (String × List String))
  | 0, settings, _ => .ok (settings, none)
  | _, settings, [] => .ok (settings, none)
  | fuel + 1, settings, arg :: rest =>
    match arg.toList with
    | ['-', '-'] => if rest.isEmpty then .ok (settings, none) else .error .misuse
    | '-' :: '-' :: cs =>
      match level.long settings cs rest with
      | .ok (settings, rest) => level.scan fuel settings rest
      | .error e => .error e
    | '-' :: c :: _ => .error (level.short c)
    | _ => if level.hasCommands then .ok (settings, some (arg, rest)) else .error .misuse

/-- The value of an option. -/
def valueOf (settings : Settings) (name : String) : Option String :=
  (settings.lookup name).join

/-- The value of a numeric option, zero unless it is given. -/
def numberOf (settings : Settings) (name : String) : UInt32 :=
  ((valueOf settings name).bind uint32?).getD 0

/-- The command of a name with its options. -/
def commandOf? (name : String) (settings : Settings) : Option Command :=
  match name with
  | "generate-mnemonic" => some (.generateMnemonic ((valueOf settings "words").bind uint64?))
  | "validate-mnemonic" => some .validateMnemonic
  | "derive" =>
    some (.derive (numberOf settings "account") (numberOf settings "change")
      (numberOf settings "from") (numberOf settings "to") (settings.lookup "xpub").isSome)
  | "chains" => some .chains
  | _ => none

/-- What asking for help on commands leads to. -/
def helpOn : List String → Refusal
  | [] => .shown
  | [name] => if name ∈ "help" :: commandNames then .shown else .misuse
  | _ => .misuse

/-- Reads a command line. -/
def parse (args : List String) : Except Refusal Invocation := do
  let (before, some (name, rest)) ← Level.scan ⟨globalOptions, true⟩ args.length [] args
    | .error .misuse
  if name = "help" then .error (helpOn rest)
  if name ∉ commandNames then .error .misuse
  let (after, _) ← Level.scan ⟨globalOptions ++ optionsOf name, false⟩ rest.length [] rest
  match commandOf? name after with
  | some command =>
    return ⟨(valueOf after "config").or (valueOf before "config"),
      (valueOf after "chain").or (valueOf before "chain"), command⟩
  | none => .error .misuse

end Keyring.Cli
