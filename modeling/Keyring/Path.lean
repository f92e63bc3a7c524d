import Keyring.KeyNode
import Keyring.Text.Decimal

/-!
# Derivation paths

A BIP44 path names an address by five levels below the master node: purpose, coin type
and account, which are hardened, then change and address index, which are not.  The
first two are fixed per chain, so requests carry an `AddressPath` of the other three.
-/

namespace Keyring

/-- The part of a path that a request chooses. -/
structure AddressPath where
  account : UInt32
  change : UInt32
  addressIndex : UInt32
  deriving DecidableEq, Repr

namespace AddressPath

/-- The canonical text of a path, under which caches keep its address. -/
def cacheKey (p : AddressPath) : String :=
  toString p.account ++ "'/" ++ toString p.change ++ "/" ++ toString p.addressIndex

/-- Paths are ordered by account, then change, then address index. -/
def precedes (p q : AddressPath) : Bool :=
  p.account < q.account ||
    (p.account == q.account &&
      (p.change < q.change || (p.change == q.change && p.addressIndex ≤ q.addressIndex)))

end AddressPath

/-- A path of all five levels. -/
structure Bip44Path where
  purpose : UInt32
  coinType : UInt32
  account : UInt32
  change : UInt32
  addressIndex : UInt32
  deriving DecidableEq, Repr

namespace Bip44Path

/-- The purpose that the BIP44 standard reserves. -/
def standardPurpose : UInt32 :=
  44

/-- The full path of an address under a purpose and coin type. -/
def ofAddressPath (purpose coinType : UInt32) (p : AddressPath) : Bip44Path :=
  ⟨purpose, coinType, p.account, p.change, p.addressIndex⟩

/-- The part of a path that a request chooses. -/
def relative (p : Bip44Path) : AddressPath :=
  ⟨p.account, p.change, p.addressIndex⟩

/-- The levels of a path from the master node down. -/
def levels (p : Bip44Path) : List (PathLevel × UInt32) :=
  [(.purpose, p.purpose), (.coinType, p.coinType), (.account, p.account),
   (.change, p.change), (.addressIndex, p.addressIndex)]

/-- The first level that is no child number of its own. -/
def outOfRange? (p : Bip44Path) : Option (PathLevel × UInt32) :=
  p.levels.find? fun level => hardenedOffset ≤ level.2

/-- The child numbers down to the account, all hardened. -/
def accountIndices (p : Bip44Path) : List UInt32 :=
  [hardenedOffset ||| p.purpose, hardenedOffset ||| p.coinType, hardenedOffset ||| p.account]

/-- The child numbers below the account. -/
def leafIndices (p : Bip44Path) : List UInt32 :=
  [p.change, p.addressIndex]

/-- The child numbers of all levels.  Levels from `hardenedOffset` on are refused, the
first of them is reported. -/
def indices (p : Bip44Path) : Except WalletError (List UInt32) :=
  match p.outOfRange? with
  | some (level, value) => .error (.derivation (.levelOutOfRange level value))
  | none => .ok (p.accountIndices ++ p.leafIndices)

/-- The text of a path; hardened levels are marked with an apostrophe. -/
def text (p : Bip44Path) : String :=
  "m/" ++ toString p.purpose ++ "'/" ++ toString p.coinType ++ "'/" ++ toString p.account
    ++ "'/" ++ toString p.change ++ "/" ++ toString p.addressIndex

/-- Whether a character marks a hardened level. -/
def isMarker (c : Char) : Bool :=
  c == '\'' || c == 'h'

/-- Reads one level, whose last character is a marker exactly if the level is hardened.
All markers at the end are dropped before the number is read. -/
def level? (hardened : Bool) (part : List Char) : Option UInt32 :=
  let reversed := part.reverse
  if (reversed.head?.any isMarker) == hardened then
    Text.uint32? (reversed.dropWhile isMarker).reverse
  else none

/-- Reads the parts of a path. -/
def ofParts? : List (List Char) → Option Bip44Path
  | [['m'], a, b, c, d, e] => do
    return ⟨← level? true a, ← level? true b, ← level? true c, ← level? false d, ← level? false e⟩
  | _ => none

/-- Reads the text of a path. -/
def ofText (s : String) : Except WalletError Bip44Path :=
  match ofParts? (Text.split '/' s.toList) with
  | some p => .ok p
  | none => .error (.derivation (.malformedPath s))

end Bip44Path

/-- The purpose and coin type of a chain. -/
structure PathScheme where
  purpose : UInt32
  coinType : UInt32
  deriving DecidableEq, Repr

namespace PathScheme

/-- The full path of an address. -/
def fullPath (scheme : PathScheme) (p : AddressPath) : Bip44Path :=
  .ofAddressPath scheme.purpose scheme.coinType p

/-- Derives the account node of a path and the node of the address below it. -/
def derivePath (scheme : PathScheme) (root : KeyNode) (p : AddressPath) :
    Except WalletError (KeyNode × KeyNode) := do
  let indices ← (scheme.fullPath p).indices
  let account ← root.deriveIndices (indices.take 3)
  let leaf ← account.deriveIndices (indices.drop 3)
  return (account, leaf)

/-- Derives the node of an account. -/
def deriveAccount (scheme : PathScheme) (root : KeyNode) (account : UInt32) :
    Except WalletError KeyNode := do
  let indices ← (scheme.fullPath ⟨account, 0, 0⟩).indices
  root.deriveIndices (indices.take 3)

end PathScheme

end Keyring
