import Keyring.Path
import Keyring.Text.Quoted
import Keyring.Word

/-!
# Derived addresses

A unit keeps every address it has derived, with the private key behind it, under the
canonical text of its path.  Derivation always gives the same result, so the first entry
of a path stays.
-/

namespace Keyring

/-- An address and its private key. -/
structure AddressEntry where
  address : String
  privateKey : Word256
  deriving DecidableEq

/-- The text of an entry in diagnostics, which hides the key. -/
def AddressEntry.describe (e : AddressEntry) : String :=
  "AddressCacheEntry \x7b address: " ++ Text.quote e.address
    ++ ", private_key: SecretBuffer<32>([REDACTED]) \x7d"

/-- The addresses that a unit has derived. -/
structure AddressCache where
  entries : List (String × AddressEntry)
  deriving DecidableEq

namespace AddressCache

def empty : AddressCache :=
  ⟨[]⟩

/-- The entry of a path. -/
def get? (c : AddressCache) (p : AddressPath) : Option AddressEntry :=
  c.entries.lookup p.cacheKey

/-- Whether a path has an entry. -/
def contains (c : AddressCache) (p : AddressPath) : Bool :=
  (c.get? p).isSome

/-- Keeps an entry for a path that has none. -/
def insert (c : AddressCache) (p : AddressPath) (e : AddressEntry) : AddressCache :=
  if c.contains p then c else ⟨(p.cacheKey, e) :: c.entries⟩

/-- Keeps an entry for a path that has none, and answers with the one that the path has then. -/
def insertThenGet (c : AddressCache) (p : AddressPath) (e : AddressEntry) :
    AddressEntry × AddressCache :=
  match c.get? p with
  | some kept => (kept, c)
  | none => (e, ⟨(p.cacheKey, e) :: c.entries⟩)

/-- Forgets all entries and the keys in them. -/
def clear (_ : AddressCache) : AddressCache :=
  .empty

@[simp] theorem clear_eq (c : AddressCache) : c.clear = .empty := rfl

/-- The number of entries. -/
def size (c : AddressCache) : Nat :=
  c.entries.length

def isEmpty (c : AddressCache) : Bool :=
  c.entries.isEmpty

end AddressCache

end Keyring
