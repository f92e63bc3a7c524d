import Keyring.Storage.Cell

/-!
# Statements

The statements that maintenance may run on the table of wallets: setting columns,
deleting rows, with or without conditions, and dropping the table.  Words are read in
either case.
-/

namespace Keyring

/-- A column and a cell that it is set to or compared with. -/
abbrev Assignment :=
  Column × Cell

/-- A statement on the table of wallets. -/
inductive Statement
  | update (changes conditions : List Assignment)
  | delete (conditions : List Assignment)
  /-- Drops the table; `ifExists` allows that there is none. -/
  | drop (ifExists : Bool)

namespace Statement

/-- The words and signs of a statement. -/
inductive Token
  | word (s : String)
  | cell (c : Cell)
  | sign (c : Char)
  deriving DecidableEq

/-- The name of the table of wallets. -/
def tableName : String :=
  "mnemonic_wallets"

/-- Whether a character may stand in a word. -/
def isWordChar (c : Char) : Bool :=
  c.isAlphanum || c == '_'

/-- The inside of a text between apostrophes, where two apostrophes stand for one, and
what follows it. -/
def quoted? : List Char → Option (List Char × List Char)
  | [] => none
  | '\'' :: '\'' :: rest => (quoted? rest).map fun r => ('\'' :: r.1, r.2)
  | '\'' :: rest => some ([], rest)
  | c :: rest => (quoted? rest).map fun r => (c :: r.1, r.2)

/-- The cell that a word stands for. -/
def ofWord (s : String) : Token :=
  match s.toLower with
  | "null" => .cell .null
  | "true" => .cell (.integer 1)
  | "false" => .cell (.integer 0)
  | lower => .word lower

/-- A word or a number, and what follows it. -/
def wordToken? (cs : List Char) : Option (Token × List Char) :=
  let front := cs.takeWhile isWordChar
  let rest := cs.drop front.length
  match front with
  | [] => none
  | c :: _ =>
    if c.isDigit then
      (Cell.integerText? (String.ofList front)).map fun n => (.cell (.integer n), rest)
    else some (ofWord (String.ofList front), rest)

/-- The tokens of a statement. -/
def tokens? : (fuel : Nat) → List Char → Option (List Token)
  | 0, _ => none
  | _, [] => some []
  | fuel + 1, c :: rest =>
    if c.isWhitespace then tokens? fuel rest
    else if c = '\'' then do
      let (s, rest) ← quoted? rest
      return .cell (.text (String.ofList s)) :: (← tokens? fuel rest)
    else if (c = 'x' ∨ c = 'X') ∧ rest.head? = some '\'' then do
      let (s, rest) ← quoted? (rest.drop 1)
      let b ← (Hex.decode (String.ofList s)).toOption
      return .cell (.blob b) :: (← tokens? fuel rest)
    else if c = '=' ∨ c = ',' ∨ c = ';' ∨ c = '-' ∨ c = '+' then
      (tokens? fuel rest).map (.sign c :: ·)
    else do
      let (t, rest) ← wordToken? (c :: rest)
      return t :: (← tokens? fuel rest)

/-- A literal cell, with a sign before a number. -/
def literal? : List Token → Option (Cell × List Token)
  | .sign '-' :: .cell (.integer n) :: rest => some (.integer (-n), rest)
  | .sign '+' :: .cell (.integer n) :: rest => some (.integer n, rest)
  | .cell c :: rest => some (c, rest)
  | _ => none

/-- The column of a name. -/
def column? (name : String) : Option Column :=
  Column.all.find? (·.name == name)

/-- A column, an equals sign and a literal. -/
def assignment? : List Token → Option (Assignment × List Token)
  | .word name :: .sign '=' :: rest => do
    let column ← column? name
    let (c, rest) ← literal? rest
    return ((column, c), rest)
  | _ => none

/-- Assignments with `separator`s between them. -/
def assignments? (separator : Token) :
    (fuel : Nat) → List Token → Option (List Assignment × List Token)
  | 0, _ => none
  | fuel + 1, ts => do
    let (a, rest) ← assignment? ts
    match rest with
    | t :: more =>
      if t = separator then do
        let (as, rest) ← assignments? separator fuel more
        return (a :: as, rest)
      else some ([a], rest)
    | [] => some ([a], [])

/-- Conditions, if there are any, up to the end of a statement. -/
def conditions? (ts : List Token) : Option (List Assignment) :=
  match ts with
  | [] | [.sign ';'] => some []
  | .word "where" :: rest => do
    let (as, rest) ← assignments? (.word "and") rest.length rest
    if rest.isEmpty || rest == [.sign ';'] then some as else none
  | _ => none

/-- Reads a statement on the table of wallets. -/
def ofTokens? : List Token → Option Statement
  | .word "update" :: .word table :: .word "set" :: rest =>
    if table = tableName then do
      let (changes, rest) ← assignments? (.sign ',') rest.length rest
      return .update changes (← conditions? rest)
    else none
  | .word "delete" :: .word "from" :: .word table :: rest =>
    if table = tableName then do return .delete (← conditions? rest) else none
  | .word "drop" :: .word "table" :: .word "if" :: .word "exists" :: .word table :: rest =>
    if table = tableName ∧ rest ∈ [[], [.sign ';']] then some (.drop true) else none
  | .word "drop" :: .word "table" :: .word table :: rest =>
    if table = tableName ∧ rest ∈ [[], [.sign ';']] then some (.drop false) else none
  | _ => none

/-- Reads a statement. -/
def ofText? (s : String) : Option Statement :=
  (tokens? (s.toList.length + 1) s.toList).bind ofTokens?

end Statement

end Keyring
