import Keyring.Json.Reader
import Keyring.Json.Value
import Keyring.Path

/-!
# Requested addresses

A request names an address by its path, or a range of addresses under one account and
change.  The answer is an account: the path and the address that belongs to it.
-/

namespace Keyring

open Json

namespace AddressPath

/-- Reads three 32-bit numbers under given names. -/
def ofNamed? (names : List String) (t : Tree) : Option AddressPath := do
  match ← t.record? .refused names with
  | [a, c, i] =>
    return ⟨← Tree.required? Tree.uint32? a, ← Tree.required? Tree.uint32? c,
      ← Tree.required? Tree.uint32? i⟩
  | _ => none

/-- A path as it is named by itself. -/
def toValue (p : AddressPath) : Value :=
  .object
    [("account", .ofNat p.account.toNat), ("change", .ofNat p.change.toNat),
     ("address_index", .ofNat p.addressIndex.toNat)]

def ofTree? : Tree → Option AddressPath :=
  ofNamed? ["account", "change", "address_index"]

/-- A path as the parameters of a request. -/
def toParameters (p : AddressPath) : Value :=
  .object
    [("account_index", .ofNat p.account.toNat), ("internal_index", .ofNat p.change.toNat),
     ("address_index", .ofNat p.addressIndex.toNat)]

def ofParameters? : Tree → Option AddressPath :=
  ofNamed? ["account_index", "internal_index", "address_index"]

end AddressPath

/-- The addresses from one index to another, both included. -/
structure AddressRange where
  account : UInt32
  change : UInt32
  first : UInt32
  last : UInt32
  deriving DecidableEq, Repr

namespace AddressRange

/-- The number of addresses in a range that is not reversed. -/
def size (r : AddressRange) : Nat :=
  r.last.toNat - r.first.toNat + 1

/-- The number of addresses as a 32-bit number; the one range that has more is counted as
the largest such number. -/
def count (r : AddressRange) : Except WalletError UInt32 :=
  if r.last < r.first then .error (.invalidRange r.first r.last)
  else .ok (UInt32.ofNat (min r.size (UInt32.size - 1)))

/-- The path of the address `offset` places after the first. -/
def pathAt (r : AddressRange) (offset : Nat) : AddressPath :=
  ⟨r.account, r.change, UInt32.ofNat (r.first.toNat + offset)⟩

/-- The paths of a range in ascending order. -/
def paths (r : AddressRange) : Except WalletError (List AddressPath) := do
  let _ ← r.count
  return (List.range r.size).map r.pathAt

def toValue (r : AddressRange) : Value :=
  .object
    [("account_index", .ofNat r.account.toNat), ("internal_index", .ofNat r.change.toNat),
     ("address_index_from", .ofNat r.first.toNat), ("address_index_to", .ofNat r.last.toNat)]

def ofTree? (t : Tree) : Option AddressRange := do
  match ← t.record? .refused
      ["account_index", "internal_index", "address_index_from", "address_index_to"] with
  | [a, c, f, l] =>
    return ⟨← Tree.required? Tree.uint32? a, ← Tree.required? Tree.uint32? c,
      ← Tree.required? Tree.uint32? f, ← Tree.required? Tree.uint32? l⟩
  | _ => none

end AddressRange

/-- An address and the path it was derived from. -/
structure Account where
  path : AddressPath
  address : String
  deriving DecidableEq, Repr

namespace Account

def toValue (a : Account) : Value :=
  .object [("parameters", a.path.toParameters), ("address", .string a.address)]

def ofTree? (t : Tree) : Option Account := do
  match ← t.record? .refused ["parameters", "address"] with
  | [parameters, address] =>
    return ⟨← Tree.required? AddressPath.ofParameters? parameters,
      ← Tree.required? Tree.string? address⟩
  | _ => none

end Account

end Keyring
