import Keyring.Address.Evm
import Keyring.Json.Reader
import Keyring.Json.Value

/-!
# Transaction requests of account chains

A request is a JSON object.  Its `type` says which of the three kinds of transactions
is wanted; the other members are the fields of that kind.  Receiver, value and fees may
be left open here: whether they are there is checked when the transaction is made.
-/

namespace Keyring.Evm

/-- The kinds of transactions. -/
inductive Kind
  | legacy
  /-- A transaction that names the storage it will touch. -/
  | accessList
  /-- A transaction that caps its fee instead of fixing a price. -/
  | dynamicFee
  deriving DecidableEq, Repr

namespace Kind

/-- The tag of a kind in requests. -/
def tag : Kind → String
  | legacy => "legacy"
  | accessList => "access_list"
  | dynamicFee => "dynamic_fee"

/-- The kind of a tag. -/
def ofTag : String → Except WalletError Kind
  | "legacy" => .ok legacy
  | "access_list" => .ok accessList
  | "dynamic_fee" => .ok dynamicFee
  | tag => .error (.unsupportedTransaction tag)

/-- The name of a kind in messages. -/
def title : Kind → String
  | legacy => "Legacy"
  | accessList => "AccessList"
  | dynamicFee => "DynamicFee"

/-- The byte before the fields of a transaction; legacy transactions have none. -/
def typeByte? : Kind → Option UInt8
  | legacy => none
  | accessList => some 0x01
  | dynamicFee => some 0x02

end Kind

/-- Storage that a transaction will touch. -/
structure AccessListItem where
  address : EvmAddress
  storageKeys : List Word256
  deriving DecidableEq, Repr

/-- The fields that requests of all kinds have. -/
structure Call where
  nonce : UInt64
  gas : UInt64
  receiver : Option EvmAddress
  value : Option Word256
  data : Bytes
  deriving DecidableEq, Repr

/-- A request for a transaction. -/
inductive Request
  | legacy (call : Call) (gasPrice : Option Word256)
  | accessList (call : Call) (gasPrice : Option Word256) (accessList : List AccessListItem)
  | dynamicFee (call : Call) (maxPriorityFee maxFee : Option Word256)
      (accessList : List AccessListItem)
  deriving DecidableEq, Repr

/-- The kind of the wanted transaction. -/
def Request.kind : Request → Kind
  | legacy .. => .legacy
  | accessList .. => .accessList
  | dynamicFee .. => .dynamicFee

/-! ## Writing requests -/

namespace Write

open Json

/-- A byte string with `0x` in front. -/
def data (b : Bytes) : Value :=
  .string ("0x" ++ Hex.encode b)

/-- A number with `0x` in front, without leading zeros. -/
def amount (w : Word256) : Value :=
  .string ("0x" ++ Hex.ofNat w.toNat)

def accessListItem (item : AccessListItem) : Value :=
  .object
    [("address", .string item.address.lowerText),
     ("storageKeys", .array (item.storageKeys.map fun key => data key.toBytes))]

def accessList (items : List AccessListItem) : Json.Value :=
  .array (items.map accessListItem)

/-- The members of a call around the fees of its kind. -/
def call (kind : Kind) (c : Call) (fees : List (String × Value)) : List (String × Value) :=
  [("type", .string kind.tag), ("nonce", .ofNat c.nonce.toNat), ("gas", .ofNat c.gas.toNat)]
    ++ fees
    ++ [("to", .optional (fun a => .string a.lowerText) c.receiver),
        ("value", .optional amount c.value), ("data", data c.data)]

end Write

/-- A request as a JSON value. -/
def Request.toValue : Request → Json.Value
  | .legacy call gasPrice =>
    .object (Write.call .legacy call [("gas_price", .optional Write.amount gasPrice)])
  | .accessList call gasPrice items =>
    .object
      (Write.call .accessList call [("gas_price", .optional Write.amount gasPrice)]
        ++ [("access_list", Write.accessList items)])
  | .dynamicFee call maxPriorityFee maxFee items =>
    .object
      (Write.call .dynamicFee call
          [("max_priority_fee_per_gas", .optional Write.amount maxPriorityFee),
           ("max_fee_per_gas", .optional Write.amount maxFee)]
        ++ [("access_list", Write.accessList items)])

/-- The payload of a request. -/
def Request.encode (r : Request) : Bytes :=
  r.toValue.bytes

/-! ## Reading requests -/

namespace Read

open Json

/-- The bytes of a text without a leading `0x`. -/
def digits (s : String) : Bytes :=
  match Bytes.ofString s with
  | 0x30 :: 0x78 :: rest => rest
  | b => b

/-- The digits of a string value. -/
def digits? (t : Tree) : Option Bytes :=
  t.string?.map digits

/-- The bytes that pairs of digits spell.  White space is skipped, and a digit without a
partner is dropped; `pending` is a digit that waits for its partner. -/
def paired? (pending : Option Nat) : Bytes → Option Bytes
  | [] => some []
  | b :: rest =>
    if Json.isBlank b then paired? pending rest
    else do
      let d ← Hex.value? b
      match pending with
      | none => paired? (some d) rest
      | some h => return UInt8.ofNat (16 * h + d) :: (← paired? none rest)

/-- A number of at least one and at most 64 digits; the first of an odd number of digits
stands alone. -/
def amount? (t : Tree) : Option Word256 := do
  let ds ← digits? t
  if ds.isEmpty || 64 < ds.length then none
  return Word256.ofBytes (← paired? (if ds.length % 2 = 1 then some 0 else none) ds)

/-- A byte string of exactly `length` bytes.  Bytes that white space takes the place of
are zero and come last. -/
def fixed? (length : Nat) (t : Tree) : Option Bytes := do
  let ds ← digits? t
  if ds.length ≠ 2 * length then none
  let b ← paired? none ds
  return b ++ List.replicate (length - b.length) 0

/-- A byte string of any length; the mark before its digits may be in either case. -/
def data? (t : Tree) : Option Bytes := do
  let ds :=
    match Bytes.ofString (← t.string?) with
    | 0x30 :: 0x58 :: rest => rest
    | 0x30 :: 0x78 :: rest => rest
    | b => b
  (Hex.decodeBytes ds).toOption

def address? (t : Tree) : Option EvmAddress :=
  (fixed? 20 t).map EvmAddress.ofBytes

def storageKey? (t : Tree) : Option Word256 :=
  (fixed? 32 t).map Word256.ofBytes

def accessListItem? (t : Tree) : Option AccessListItem := do
  match ← t.record? .lastWins ["address", "storageKeys"] with
  | [address, keys] =>
    return ⟨← Tree.required? address? address, ← Tree.required? (Tree.list? storageKey?) keys⟩
  | _ => none

/-- The value of the last member with a name. -/
def member? (name : String) (members : List (String × Tree)) : Option Tree :=
  (Tree.valuesOf name members).getLast?

/-- The fields that requests of all kinds have. -/
def call? (members : List (String × Tree)) : Option Call := do
  return {
    nonce := ← Tree.required? Tree.uint64? (member? "nonce" members)
    gas := ← Tree.required? Tree.uint64? (member? "gas" members)
    receiver := ← Tree.open? address? (member? "to" members)
    value := ← Tree.open? amount? (member? "value" members)
    data := ← Tree.defaulted? [] data? (member? "data" members)
  }

/-- The fees and amounts that a request may leave open. -/
def fee? (name : String) (members : List (String × Tree)) : Option (Option Word256) :=
  Tree.open? amount? (member? name members)

def accessList? (members : List (String × Tree)) : Option (List AccessListItem) :=
  Tree.defaulted? [] (Tree.list? accessListItem?) (member? "access_list" members)

/-- The kind whose tag a string value is. -/
def kind? (t : Tree) : Option Kind := do
  let name ← t.string?
  [Kind.legacy, .accessList, .dynamicFee].find? (·.tag == name)

/-- The request that an object holds, of the kind that its last `type` names. -/
def request? (members : List (String × Tree)) : Option Request := do
  match ← Tree.required? kind? (member? "type" members) with
  | .legacy => return .legacy (← call? members) (← fee? "gas_price" members)
  | .accessList =>
    return .accessList (← call? members) (← fee? "gas_price" members) (← accessList? members)
  | .dynamicFee =>
    return .dynamicFee (← call? members) (← fee? "max_priority_fee_per_gas" members)
      (← fee? "max_fee_per_gas" members) (← accessList? members)

/-- The members of an object; none for any other value. -/
def members (t : Tree) : List (String × Tree) :=
  match t with
  | .object ms => (Tree.decodeMembers? ms).getD []
  | _ => []

end Read

/-- Reads the payload of a request.  The payload has to be a JSON document; its tag is looked
at before anything else in it, and once more as part of the request. -/
def Request.decode (payload : Bytes) : Except WalletError Request := do
  let some tree := Json.Tree.ofStrictBytes? payload
    | .error (.serialization "payload is no JSON document")
  let members := Read.members tree
  let some tag := (Read.member? "type" members).bind Json.Tree.string?
    | .error (.missingField "type")
  let kind ← Kind.ofTag tag
  match Read.request? members with
  | some request => .ok request
  | none => .error (.serialization ("payload is no " ++ kind.tag ++ " request"))

end Keyring.Evm
