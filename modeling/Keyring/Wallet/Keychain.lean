import Keyring.Chain.Signer
import Keyring.Wallet.Account
import Keyring.Wallet.AddressCache

/-!
# Keychains

A keychain holds the master node of one mnemonic and the addresses derived from it so
far.  All operations go through the cache of addresses: an address is derived once, and
a request for ranges derives only what is missing, every path once.  Unloading forgets
the master node and the addresses; whatever needs them fails from then on.

The missing paths of a request for ranges are derived by workers, all at the same time.  If
several of them fail, the first worker to fail is heard, and which one that is depends on what
else the workers have to do.  `race` says from which path on the first failure is looked for.
-/

namespace Keyring

/-- The keys of one mnemonic under the parameters of a chain. -/
structure Keychain where
  params : ChainParams
  signer : ChainSigner
  /-- The most addresses that one request may ask for. -/
  maxRangeSize : UInt32
  root : Option KeyNode
  cache : AddressCache
  deriving DecidableEq

namespace Keychain

/-- What a loaded keychain is asked to do. -/
inductive Operation
  | touch
  | loadAccount (path : AddressPath)
  | address (path : AddressPath)
  | accounts (ranges : List AddressRange) (race : Nat)
  | sign (path : AddressPath) (payload : Bytes)
  | extendedPublic (account : UInt32)

/-- What it answers. -/
inductive Answer
  | done
  | account (account : Account)
  | address (text : String)
  | accounts (count : Nat) (accounts : List Account)
  | signed (address : String) (bytes : Bytes)
  | extendedPublic (text : String)
  deriving DecidableEq

/-- An answer or an error, and the keychain that is left. -/
abbrev Outcome :=
  Except WalletError Answer × Keychain

/-- The keychain of a phrase. -/
def ofPhrase (params : ChainParams) (signer : ChainSigner) (maxRangeSize : UInt32)
    (phrase : String) : Except WalletError Keychain := do
  let seed ← Mnemonic.seedOfPhrase phrase
  let root ← KeyNode.ofSeed seed params.network
  return ⟨params, signer, maxRangeSize, some root, .empty⟩

/-- Whether the keys are gone. -/
def isUnloaded (k : Keychain) : Bool :=
  k.root.isNone

/-- The master node of a keychain that is not unloaded. -/
def liveRoot (k : Keychain) : Except WalletError KeyNode :=
  match k.root with
  | some root => .ok root
  | none => .error .keyCleared

/-- Derives the address and the private key of a path. -/
def deriveEntry (params : ChainParams) (root : KeyNode) (p : AddressPath) :
    Except WalletError AddressEntry := do
  let (_, leaf) ← params.scheme.derivePath root p
  let address ← leaf.address params.addressEncoding params.network
  let secret ← leaf.privateKey
  return ⟨address, secret⟩

/-- The entry of a path, derived and kept if it is new. -/
def resolve (k : Keychain) (p : AddressPath) : Except WalletError (AddressEntry × Keychain) := do
  let root ← k.liveRoot
  match k.cache.get? p with
  | some entry => return (entry, k)
  | none =>
    let entry ← deriveEntry k.params root p
    return (entry, { k with cache := k.cache.insert p entry })

/-- Finds the entry of a path and answers with what `use` makes of it. -/
def withEntry (k : Keychain) (p : AddressPath)
    (use : AddressEntry → Except WalletError Answer) : Outcome :=
  match k.resolve p with
  | .ok (entry, k) => (use entry, k)
  | .error e => (.error e, k)

/-! ## Ranges -/

/-- Refuses a request for more than `limit` addresses and names the range that goes beyond
it; `total` addresses have been counted so far. -/
def checkRanges (limit : UInt32) (total : Nat) : List AddressRange → Except WalletError Unit
  | [] => .ok ()
  | r :: rest => do
    let count ← r.count
    let total := min (total + count.toNat) (UInt32.size - 1)
    if limit.toNat < total then .error (.invalidRange r.first r.last)
    else checkRanges limit total rest

/-- The paths of ranges, in the order in which they are asked for. -/
def pathsOf (ranges : List AddressRange) : Except WalletError (List AddressPath) := do
  return (← ranges.mapM AddressRange.paths).flatten

/-- A sorted list of paths without repetitions. -/
def distinct : List AddressPath → List AddressPath
  | p :: q :: rest => if p = q then distinct (q :: rest) else p :: distinct (q :: rest)
  | ps => ps

/-- The paths without an entry, in order and every path once. -/
def missing (cache : AddressCache) (paths : List AddressPath) : List AddressPath :=
  distinct ((paths.filter (!cache.contains ·)).mergeSort AddressPath.precedes)

/-- The account of a path that has an entry. -/
def accountOf (cache : AddressCache) (p : AddressPath) : Except WalletError Account :=
  match cache.get? p with
  | some entry => .ok ⟨p, entry.address⟩
  | none => .error (.internal ("missing cache entry " ++ p.cacheKey))

/-- Keeps the derived entries of paths. -/
def keep (cache : AddressCache) (derived : List (AddressPath × AddressEntry)) : AddressCache :=
  derived.foldl (fun cache d => cache.insert d.1 d.2) cache

/-- The entry of a path beside the path. -/
def deriveOne (params : ChainParams) (root : KeyNode) (p : AddressPath) :
    Except WalletError (AddressPath × AddressEntry) := do
  return (p, ← deriveEntry params root p)

/-- Derives the entries of paths.  The failure that is reported is the first one from the place
`race` on, or the first one if there is none from there. -/
def deriveAll (params : ChainParams) (root : KeyNode) (paths : List AddressPath) (race : Nat) :
    Except WalletError (List (AddressPath × AddressEntry)) := do
  let later ← (paths.drop race).mapM (deriveOne params root)
  let earlier ← (paths.take race).mapM (deriveOne params root)
  return earlier ++ later

/-- The accounts of ranges in the order in which they are asked for.  Nothing is kept
unless every missing address can be derived. -/
def collect (k : Keychain) (ranges : List AddressRange) (race : Nat) :
    Except WalletError (List Account × Keychain) := do
  checkRanges k.maxRangeSize 0 ranges
  let paths ← pathsOf ranges
  let root ← k.liveRoot
  let derived ← deriveAll k.params root (missing k.cache paths) race
  let cache := keep k.cache derived
  let accounts ← paths.mapM (accountOf cache)
  return (accounts, { k with cache })

/-! ## Operations -/

/-- The extended public key of an account. -/
def extendedPublicOf (k : Keychain) (account : UInt32) : Except WalletError String := do
  let root ← k.liveRoot
  let node ← k.params.scheme.deriveAccount root account
  node.extendedPublic

/-- Does what a keychain is asked to do.  Signing keeps the address it signs for even if
the payload cannot be signed. -/
def perform (k : Keychain) : Operation → Outcome
  | .touch => (.ok .done, k)
  | .loadAccount p => k.withEntry p fun entry => .ok (.account ⟨p, entry.address⟩)
  | .address p => k.withEntry p fun entry => .ok (.address entry.address)
  | .accounts ranges race =>
    match k.collect ranges race with
    | .ok (accounts, k) => (.ok (.accounts accounts.length accounts), k)
    | .error e => (.error e, k)
  | .sign p payload =>
    k.withEntry p fun entry => do
      return .signed entry.address (← k.signer.sign entry.privateKey entry.address payload)
  | .extendedPublic account => (Answer.extendedPublic <$> k.extendedPublicOf account, k)

/-- Forgets the keys and the addresses. -/
def unload (k : Keychain) : Keychain :=
  { k with root := none, cache := k.cache.clear }

end Keychain

end Keyring
