import Keyring.Evm.Request
import Keyring.Rlp

/-!
# Transactions of account chains

A transaction has every field its kind demands.  It is signed over the digest of its
unsigned form, which binds it to one chain, and sent in its signed form.
-/

namespace Keyring.Evm

/-- What a transaction does, without its fees. -/
structure Transfer where
  nonce : UInt64
  gas : UInt64
  receiver : EvmAddress
  value : Word256
  data : Bytes
  deriving DecidableEq, Repr

/-- A transaction ready for signing. -/
inductive Transaction
  | legacy (transfer : Transfer) (gasPrice : Word256)
  | accessList (transfer : Transfer) (gasPrice : Word256) (accessList : List AccessListItem)
  | dynamicFee (transfer : Transfer) (maxPriorityFee maxFee : Word256)
      (accessList : List AccessListItem)
  deriving DecidableEq, Repr

/-- A signature with the parity of its nonce point in the form its transaction demands. -/
structure Signature where
  r : Word256
  s : Word256
  v : UInt64
  deriving DecidableEq, Repr

/-! ## From request to transaction -/

/-- A field that a transaction demands. -/
def demand {α : Type} (name : String) : Option α → Except WalletError α
  | some a => .ok a
  | none => .error (.missingField name)

/-- The transfer of a call to a receiver. -/
def Call.transfer (c : Call) (receiver : EvmAddress) (value : Word256) : Transfer :=
  ⟨c.nonce, c.gas, receiver, value, c.data⟩

/-- The transfer and gas price of a call. -/
def Call.priced (c : Call) (gasPrice : Option Word256) :
    Except WalletError (Transfer × Word256) := do
  let receiver ← demand "to" c.receiver
  let value ← demand "value" c.value
  let gasPrice ← demand "gas_price" gasPrice
  return (c.transfer receiver value, gasPrice)

/-- The transaction that a request asks for.  The first missing field is reported; a
transaction that names the storage it touches has to name some. -/
def Request.transaction : Request → Except WalletError Transaction
  | .legacy call gasPrice => do
    let (transfer, gasPrice) ← call.priced gasPrice
    return .legacy transfer gasPrice
  | .accessList call gasPrice items =>
    if items.isEmpty then .error (.missingField "access_list")
    else do
      let (transfer, gasPrice) ← call.priced gasPrice
      return .accessList transfer gasPrice items
  | .dynamicFee call maxPriorityFee maxFee items => do
    let receiver ← demand "to" call.receiver
    let value ← demand "value" call.value
    let maxFee ← demand "max_fee_per_gas" maxFee
    let maxPriorityFee ← demand "max_priority_fee_per_gas" maxPriorityFee
    return .dynamicFee (call.transfer receiver value) maxPriorityFee maxFee items

/-! ## Encodings -/

namespace AccessListItem

def toRlp (item : AccessListItem) : Rlp :=
  .list
    [.string item.address.toBytes,
     .list (item.storageKeys.map fun key => .string key.toBytes)]

end AccessListItem

namespace Transaction

/-- The kind of a transaction. -/
def kind : Transaction → Kind
  | legacy .. => .legacy
  | accessList .. => .accessList
  | dynamicFee .. => .dynamicFee

def accessListRlp (items : List AccessListItem) : Rlp :=
  .list (items.map AccessListItem.toRlp)

/-- The receiver, value and data of a transfer. -/
def transferItems (t : Transfer) : List Rlp :=
  [.string t.receiver.toBytes, .natural t.value.toNat, .string t.data]

/-- The fields of a transaction in their order.  Transactions with a type byte name their
chain first. -/
def fields (chainId : UInt64) : Transaction → List Rlp
  | legacy t gasPrice =>
    [.natural t.nonce.toNat, .natural gasPrice.toNat, .natural t.gas.toNat] ++ transferItems t
  | accessList t gasPrice items =>
    [.natural chainId.toNat, .natural t.nonce.toNat, .natural gasPrice.toNat,
      .natural t.gas.toNat] ++ transferItems t ++ [accessListRlp items]
  | dynamicFee t maxPriorityFee maxFee items =>
    [.natural chainId.toNat, .natural t.nonce.toNat, .natural maxPriorityFee.toNat,
      .natural maxFee.toNat, .natural t.gas.toNat] ++ transferItems t ++ [accessListRlp items]

/-- What follows the fields of a legacy transaction before it is signed: its chain and two
zeros in place of a signature. -/
def unsignedTail (chainId : UInt64) : Transaction → List Rlp
  | legacy .. => [.natural chainId.toNat, .natural 0, .natural 0]
  | _ => []

/-- A list of fields behind the type byte of a transaction. -/
def envelope (tx : Transaction) (items : List Rlp) : Bytes :=
  tx.kind.typeByte?.toList ++ (Rlp.list items).encode

/-- The bytes whose digest is signed. -/
def unsignedBytes (tx : Transaction) (chainId : UInt64) : Bytes :=
  tx.envelope (tx.fields chainId ++ tx.unsignedTail chainId)

/-- The digest that is signed. -/
def signingDigest (tx : Transaction) (chainId : UInt64) : Word256 :=
  Word256.ofBytes (keccak256 (tx.unsignedBytes chainId))

/-- The signed form of a transaction. -/
def signedBytes (tx : Transaction) (chainId : UInt64) (sig : Signature) : Bytes :=
  tx.envelope
    (tx.fields chainId
      ++ [.natural sig.v.toNat, .natural sig.r.toNat, .natural sig.s.toNat])

end Transaction

end Keyring.Evm
