import Keyring.Cli.Run

/-!
# The program

Reads what a run of the command line tool needs from outside, and writes its report.
-/

namespace Keyring.Cli

/-- The variables that a configuration looks at. -/
def variableNames : List String :=
  ["HDWALLET_CHAIN", "HDWALLET_CHAIN_ID", "HDWALLET_COIN_TYPE", "HDWALLET_UNLOAD_INTERVAL_SECS",
   "HDWALLET_RANGE_CONCURRENCY", "DATABASE_URL"]

/-- Why a file cannot be read. -/
def reasonOf : IO.Error → String
  | .noFileOrDirectory _ code details | .permissionDenied _ code details
  | .inappropriateType _ code details => details ++ " (os error " ++ toString code ++ ")"
  | e => toString e

/-- The text of a file, or why it cannot be read. -/
def readText (path : String) : IO (Except String String) := do
  try return .ok (← IO.FS.readFile path)
  catch e => return .error (reasonOf e)

/-- Whether a command reads a phrase. -/
def Command.readsPhrase : Command → Bool
  | .validateMnemonic | .derive .. => true
  | _ => false

/-- What a run reads from outside. -/
def surroundings (args : List String) : IO Surroundings := do
  let values ← variableNames.mapM fun name => do return (name, ← IO.getEnv name)
  let entropy ← IO.getRandomBytes 32
  let invocation := (parse args).toOption
  let file ←
    match invocation.bind (·.config) with
    | some path => readText path
    | none => pure (.error "not asked for")
  let input ←
    if invocation.any (·.command.readsPhrase) then (← IO.getStdin).getLine else pure ""
  return {
    environment := fun name => (values.lookup name).join
    fileText := fun _ => file
    input
    draw := fun n => entropy.data.toList.take n
  }

end Keyring.Cli

def main (args : List String) : IO UInt32 := do
  let report := Keyring.Cli.run (← Keyring.Cli.surroundings args) args
  if let some text := report.output then IO.println text
  if let some text := report.failure then IO.eprintln ("Error: " ++ text)
  return UInt32.ofNat report.exitCode
