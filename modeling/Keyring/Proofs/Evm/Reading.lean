import Keyring.Evm.Signer
import Keyring.Proofs.Address.Evm
import Keyring.Proofs.Outcome
import Keyring.Proofs.Rlp

/-!
# Reading transactions

A transaction is read back from its bytes in three steps.  The byte in front says of which
kind it is (`openEnvelope?`), the encoding behind it is a list of items, and each item stands
for one field.  Numbers are read only if they have no leading zeros and fit their field,
addresses and storage keys only if they have all their bytes.

Nothing but the bytes is looked at: the chain of a legacy transaction is the one that its `v`
names, and the digest is computed anew from the fields that were read.
-/

namespace Keyring

namespace Rlp

/-- The number that an item spells without leading zeros, if it is below `bound`. -/
def natural? (bound : Nat) : Rlp → Option Nat
  | .string b =>
    let n := Bytes.toNat b
    if Bytes.minimal n = b ∧ n < bound then some n else none
  | .list _ => none

/-- The items of a list. -/
def list? : Rlp → Option (List Rlp)
  | .string _ => none
  | .list items => some items

theorem natural?_natural {bound n : Nat} (h : n < bound) :
    natural? bound (natural n) = some n := by
  rw [natural, natural?, Bytes.toNat_minimal]
  exact if_pos ⟨rfl, h⟩

end Rlp

namespace Evm

/-! ## Fields -/

def word64? (item : Rlp) : Option UInt64 :=
  (item.natural? UInt64.size).map UInt64.ofNat

def word256? (item : Rlp) : Option Word256 :=
  (item.natural? (2 ^ 256)).map (BitVec.ofNat 256)

def data? : Rlp → Option Bytes
  | .string b => some b
  | .list _ => none

def address? : Rlp → Option EvmAddress
  | .string b => if b.length = 20 then some (EvmAddress.ofBytes b) else none
  | .list _ => none

def storageKey? : Rlp → Option Word256
  | .string b => Word256.ofBytes? b
  | .list _ => none

def accessListItem? : Rlp → Option AccessListItem
  | .list [address, keys] => do
    return ⟨← address? address, ← (← keys.list?).mapM storageKey?⟩
  | _ => none

def accessList? (item : Rlp) : Option (List AccessListItem) := do
  (← item.list?).mapM accessListItem?

@[simp] theorem word64?_natural (n : UInt64) : word64? (.natural n.toNat) = some n := by
  rw [word64?, Rlp.natural?_natural n.toNat_lt, Option.map_some, UInt64.ofNat_toNat]

@[simp] theorem word256?_natural (w : Word256) : word256? (.natural w.toNat) = some w := by
  rw [word256?, Rlp.natural?_natural w.isLt, Option.map_some, BitVec.ofNat_toNat,
    BitVec.setWidth_eq]

@[simp] theorem data?_string (b : Bytes) : data? (.string b) = some b := rfl

@[simp] theorem address?_toBytes (a : EvmAddress) : address? (.string a.toBytes) = some a := by
  rw [address?, if_pos a.length_toBytes, EvmAddress.ofBytes_toBytes]

theorem storageKey?_toBytes (w : Word256) : storageKey? (.string w.toBytes) = some w := by
  rw [storageKey?, Word256.ofBytes?, if_pos w.length_toBytes, Word256.ofBytes_toBytes]

@[simp] theorem accessListItem?_toRlp (item : AccessListItem) :
    accessListItem? item.toRlp = some item := by
  have hkeys := mapM_map_eq_some storageKey?_toBytes item.storageKeys
  simp only [AccessListItem.toRlp, accessListItem?, address?_toBytes, Rlp.list?, hkeys,
    Option.bind_eq_bind, Option.bind_some]
  rfl

@[simp] theorem accessList?_accessListRlp (items : List AccessListItem) :
    accessList? (Transaction.accessListRlp items) = some items :=
  mapM_map_eq_some accessListItem?_toRlp items

/-! ## Signed transactions -/

/-- The transfer that the items of its fields stand for. -/
def transfer? (nonce gas receiver value data : Rlp) : Option Transfer := do
  return ⟨← word64? nonce, ← word64? gas, ← address? receiver, ← word256? value, ← data? data⟩

def signature? (v r s : Rlp) : Option Signature := do
  return ⟨← word256? r, ← word256? s, ← word64? v⟩

/-- The chain that the `v` of a legacy signature is bound to: `v` is `2 * chain + 35`, or one
more. -/
def boundChain (v : UInt64) : UInt64 :=
  UInt64.ofNat ((v.toNat - 35) / 2)

namespace SignedTransaction

/-- A transaction with a signature over its digest on a chain. -/
def ofParts (tx : Transaction) (chainId : UInt64) (sig : Signature) : SignedTransaction :=
  ⟨tx, chainId, tx.signingDigest chainId, sig⟩

/-- The signed transaction of a kind that a list of items stands for. -/
def ofItems? : Kind → List Rlp → Option SignedTransaction
  | .legacy, [nonce, gasPrice, gas, receiver, value, data, v, r, s] => do
    let transfer ← transfer? nonce gas receiver value data
    let sig ← signature? v r s
    return ofParts (.legacy transfer (← word256? gasPrice)) (boundChain sig.v) sig
  | .accessList, [chainId, nonce, gasPrice, gas, receiver, value, data, items, v, r, s] => do
    let transfer ← transfer? nonce gas receiver value data
    let sig ← signature? v r s
    return ofParts (.accessList transfer (← word256? gasPrice) (← accessList? items))
      (← word64? chainId) sig
  | .dynamicFee, [chainId, nonce, maxPriorityFee, maxFee, gas, receiver, value, data, items,
      v, r, s] => do
    let transfer ← transfer? nonce gas receiver value data
    let sig ← signature? v r s
    return ofParts
      (.dynamicFee transfer (← word256? maxPriorityFee) (← word256? maxFee)
        (← accessList? items))
      (← word64? chainId) sig
  | _, _ => none

end SignedTransaction

/-- The kind that the byte in front of a transaction names, and the bytes behind that byte. -/
def splitKind : Bytes → Kind × Bytes
  | 0x01 :: b => (.accessList, b)
  | 0x02 :: b => (.dynamicFee, b)
  | b => (.legacy, b)

/-- The kind of a transaction and the items of its fields. -/
def openEnvelope? (b : Bytes) : Option (Kind × List Rlp) :=
  let (kind, encoded) := splitKind b
  ((Rlp.decode? encoded).bind Rlp.list?).map fun items => (kind, items)

/-- The signed transaction that a byte string is. -/
def SignedTransaction.ofBytes? (b : Bytes) : Option SignedTransaction :=
  (openEnvelope? b).bind fun (kind, items) => ofItems? kind items

/-! ## Reading what was written -/

/-- No encoding of a list begins with a type byte. -/
theorem splitKind_encode {items : List Rlp}
    (hfits : (Rlp.list items).encode.length < UInt64.size) :
    splitKind (Rlp.list items).encode = (.legacy, (Rlp.list items).encode) := by
  cases hencode : (Rlp.list items).encode with
  | nil => rfl
  | cons first rest =>
      have hfirst : 0xc0 ≤ first.toNat := Rlp.encode_list_head hfits hencode
      unfold splitKind
      split
      · next heq =>
          cases heq
          exact absurd hfirst (by decide)
      · next heq =>
          cases heq
          exact absurd hfirst (by decide)
      · rfl

theorem splitKind_envelope {tx : Transaction} {items : List Rlp}
    (hfits : (Rlp.list items).encode.length < UInt64.size) :
    splitKind (tx.envelope items) = (tx.kind, (Rlp.list items).encode) := by
  cases tx with
  | legacy => exact splitKind_encode hfits
  | accessList => rfl
  | dynamicFee => rfl

theorem length_encode_le_length_envelope (tx : Transaction) (items : List Rlp) :
    (Rlp.list items).encode.length ≤ (tx.envelope items).length := by
  rw [Transaction.envelope, List.length_append]
  exact Nat.le_add_left _ _

theorem openEnvelope?_envelope {tx : Transaction} {items : List Rlp}
    (hfits : (tx.envelope items).length < UInt64.size) :
    openEnvelope? (tx.envelope items) = some (tx.kind, items) := by
  have hencode : (Rlp.list items).encode.length < UInt64.size :=
    Nat.lt_of_le_of_lt (length_encode_le_length_envelope tx items) hfits
  simp only [openEnvelope?, splitKind_envelope hencode, Rlp.decode?_encode hencode,
    Option.bind_some, Rlp.list?, Option.map_some]

theorem transfer?_transferItems (t : Transfer) :
    transfer? (.natural t.nonce.toNat) (.natural t.gas.toNat) (.string t.receiver.toBytes)
      (.natural t.value.toNat) (.string t.data) = some t := by
  simp [transfer?]

theorem signature?_natural (sig : Signature) :
    signature? (.natural sig.v.toNat) (.natural sig.r.toNat) (.natural sig.s.toNat) =
      some sig := by
  simp [signature?]

/-- The items of a signed transaction give it back, if a legacy signature is bound to its
chain. -/
theorem SignedTransaction.ofItems?_fields {tx : Transaction} {chainId : UInt64}
    {sig : Signature} (hchain : tx.kind = .legacy → boundChain sig.v = chainId) :
    ofItems? tx.kind
        (tx.fields chainId ++
          [.natural sig.v.toNat, .natural sig.r.toNat, .natural sig.s.toNat]) =
      some (ofParts tx chainId sig) := by
  cases tx with
  | legacy t gasPrice =>
      simp [ofItems?, Transaction.kind, Transaction.fields, Transaction.transferItems,
        transfer?_transferItems, signature?_natural, hchain rfl]
  | accessList t gasPrice items =>
      simp [ofItems?, Transaction.kind, Transaction.fields, Transaction.transferItems,
        transfer?_transferItems, signature?_natural]
  | dynamicFee t maxPriorityFee maxFee items =>
      simp [ofItems?, Transaction.kind, Transaction.fields, Transaction.transferItems,
        transfer?_transferItems, signature?_natural]

end Evm

end Keyring
