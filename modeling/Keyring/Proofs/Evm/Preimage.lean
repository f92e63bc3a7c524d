import Keyring.Proofs.Evm.Reading

/-!
# What a signature authorises

A signature is made over the digest of the unsigned form of a transaction, so what it
authorises is what these bytes say.  They say everything: the bytes name the kind, the items
behind it are read back one by one, and each item is the field of one transaction only.  Two
requests with equal unsigned bytes are the same request for the same chain
(`unsignedBytes_eq_iff`).
-/

namespace Keyring.Evm

/-! ## Requests and their transactions -/

/-- The call that a transfer answers. -/
def Transfer.call (t : Transfer) : Call :=
  ⟨t.nonce, t.gas, some t.receiver, some t.value, t.data⟩

/-- The request that leaves nothing of a transaction open. -/
def Transaction.request : Transaction → Request
  | legacy t gasPrice => .legacy t.call (some gasPrice)
  | accessList t gasPrice items => .accessList t.call (some gasPrice) items
  | dynamicFee t maxPriorityFee maxFee items =>
    .dynamicFee t.call (some maxPriorityFee) (some maxFee) items

theorem demand_eq_ok_iff {α : Type} {name : String} {x : Option α} {a : α} :
    demand name x = .ok a ↔ x = some a := by
  cases x <;> simp [demand]

theorem priced_eq_ok {c : Call} {gasPrice : Option Word256} {t : Transfer} {price : Word256}
    (h : c.priced gasPrice = .ok (t, price)) : c = t.call ∧ gasPrice = some price := by
  unfold Call.priced at h
  obtain ⟨receiver, hreceiver, h⟩ := bind_eq_ok_iff.mp h
  obtain ⟨value, hvalue, h⟩ := bind_eq_ok_iff.mp h
  obtain ⟨gasPrice', hprice, h⟩ := bind_eq_ok_iff.mp h
  rw [demand_eq_ok_iff] at hreceiver hvalue hprice
  cases c
  cases h
  exact ⟨by rw [Transfer.call, Call.transfer, ← hreceiver, ← hvalue], hprice⟩

/-- A transaction holds all of its request. -/
theorem request_of_transaction_eq_ok {request : Request} {tx : Transaction}
    (h : request.transaction = .ok tx) : tx.request = request := by
  cases request with
  | legacy call gasPrice =>
      obtain ⟨⟨t, price⟩, hpriced, htx⟩ := bind_eq_ok_iff.mp h
      obtain ⟨rfl, rfl⟩ := priced_eq_ok hpriced
      cases htx
      rfl
  | accessList call gasPrice items =>
      rw [Request.transaction] at h
      split at h
      · cases h
      · obtain ⟨⟨t, price⟩, hpriced, htx⟩ := bind_eq_ok_iff.mp h
        obtain ⟨rfl, rfl⟩ := priced_eq_ok hpriced
        cases htx
        rfl
  | dynamicFee call maxPriorityFee maxFee items =>
      obtain ⟨receiver, hreceiver, h⟩ := bind_eq_ok_iff.mp h
      obtain ⟨value, hvalue, h⟩ := bind_eq_ok_iff.mp h
      obtain ⟨fee, hfee, h⟩ := bind_eq_ok_iff.mp h
      obtain ⟨priorityFee, hpriorityFee, h⟩ := bind_eq_ok_iff.mp h
      rw [demand_eq_ok_iff] at hreceiver hvalue hfee hpriorityFee
      cases call
      cases h
      rw [Transaction.request, Transfer.call, Call.transfer, ← hreceiver, ← hvalue, ← hfee,
        ← hpriorityFee]

theorem kind_request (tx : Transaction) : tx.request.kind = tx.kind := by
  cases tx <;> rfl

/-! ## Unsigned bytes -/

@[simp] theorem accessListRlp_inj {items items' : List AccessListItem} :
    Transaction.accessListRlp items = Transaction.accessListRlp items' ↔ items = items' := by
  refine ⟨fun h => ?_, congrArg Transaction.accessListRlp⟩
  have hread := accessList?_accessListRlp items
  rw [h, accessList?_accessListRlp] at hread
  exact (Option.some.inj hread).symm

/-- The items of an unsigned transaction are the items of no other one of its kind.  Each
field has an item of its own, and no two values of a field have the same item. -/
theorem unsignedItems_inj {tx tx' : Transaction} {chainId chainId' : UInt64}
    (hkind : tx.kind = tx'.kind)
    (h : tx.fields chainId ++ tx.unsignedTail chainId =
      tx'.fields chainId' ++ tx'.unsignedTail chainId') : tx = tx' ∧ chainId = chainId' := by
  cases tx with
  | legacy t gasPrice =>
      cases tx' with
      | legacy t' gasPrice' =>
          obtain ⟨nonce, gas, receiver, value, data⟩ := t
          obtain ⟨nonce', gas', receiver', value', data'⟩ := t'
          simp only [Transaction.fields, Transaction.transferItems, Transaction.unsignedTail,
            List.cons_append, List.nil_append, List.cons.injEq, Rlp.natural_inj, Rlp.string.injEq,
            EvmAddress.toBytes_inj, UInt64.toNat_inj, BitVec.toNat_inj, and_true] at h
          obtain ⟨rfl, rfl, rfl, rfl, rfl, rfl, rfl⟩ := h
          exact ⟨rfl, rfl⟩
      | accessList | dynamicFee => cases hkind
  | accessList t gasPrice items =>
      cases tx' with
      | accessList t' gasPrice' items' =>
          obtain ⟨nonce, gas, receiver, value, data⟩ := t
          obtain ⟨nonce', gas', receiver', value', data'⟩ := t'
          simp only [Transaction.fields, Transaction.transferItems, Transaction.unsignedTail,
            List.cons_append, List.nil_append, List.cons.injEq, Rlp.natural_inj, Rlp.string.injEq,
            EvmAddress.toBytes_inj, accessListRlp_inj, UInt64.toNat_inj, BitVec.toNat_inj,
            and_true] at h
          obtain ⟨rfl, rfl, rfl, rfl, rfl, rfl, rfl, rfl⟩ := h
          exact ⟨rfl, rfl⟩
      | legacy | dynamicFee => cases hkind
  | dynamicFee t maxPriorityFee maxFee items =>
      cases tx' with
      | dynamicFee t' maxPriorityFee' maxFee' items' =>
          obtain ⟨nonce, gas, receiver, value, data⟩ := t
          obtain ⟨nonce', gas', receiver', value', data'⟩ := t'
          simp only [Transaction.fields, Transaction.transferItems, Transaction.unsignedTail,
            List.cons_append, List.nil_append, List.cons.injEq, Rlp.natural_inj, Rlp.string.injEq,
            EvmAddress.toBytes_inj, accessListRlp_inj, UInt64.toNat_inj, BitVec.toNat_inj,
            and_true] at h
          obtain ⟨rfl, rfl, rfl, rfl, rfl, rfl, rfl, rfl, rfl⟩ := h
          exact ⟨rfl, rfl⟩
      | legacy | accessList => cases hkind

/-- **Equal unsigned bytes are the same request for the same chain.** So a signature
authorises one transaction of one kind on one chain.  The unsigned bytes have to fit a 64-bit
address space, since lengths of more than eight bytes cannot be written in front of an item.

The bytes give the kind and the items of the fields (`openEnvelope?_envelope`), these give the
transaction and its chain (`unsignedItems_inj`), and the transaction holds all of its request
(`request_of_transaction_eq_ok`). -/
theorem unsignedBytes_eq_iff {request request' : Request} {tx tx' : Transaction}
    {chainId chainId' : UInt64} (htx : request.transaction = .ok tx)
    (htx' : request'.transaction = .ok tx')
    (hfits : (tx.unsignedBytes chainId).length < UInt64.size) :
    tx.unsignedBytes chainId = tx'.unsignedBytes chainId' ↔
      request = request' ∧ chainId = chainId' := by
  constructor
  · intro hbytes
    have hopen := openEnvelope?_envelope hfits
    have hopen' := openEnvelope?_envelope (hbytes ▸ hfits)
    rw [Transaction.unsignedBytes, Transaction.unsignedBytes] at hbytes
    rw [hbytes, hopen', Option.some.injEq, Prod.mk.injEq] at hopen
    obtain ⟨rfl, hchain⟩ := unsignedItems_inj hopen.1.symm hopen.2.symm
    refine ⟨?_, hchain⟩
    rw [← request_of_transaction_eq_ok htx, request_of_transaction_eq_ok htx']
  · rintro ⟨rfl, rfl⟩
    rw [htx] at htx'
    cases htx'
    rfl

/-- A transfer with 60 bytes of data and a value of zero. -/
def longTransfer : Transfer :=
  ⟨9, 90000, 0x3535353535353535353535353535353535353535, 0, List.replicate 60 0xab⟩

/-- Storage of one contract, with a key that begins with zeros. -/
def touchedStorage : List AccessListItem :=
  [⟨0x00000000000000000000000000000000deadbeef,
    [7, 0x8000000000000000000000000000000000000000000000000000000000000000]⟩]

/-- One request, on two chains. -/
theorem unsignedBytes_of_two_chains :
    let tx := Transaction.accessList longTransfer 20000000000 touchedStorage
    let request := Request.accessList longTransfer.call (some 20000000000) touchedStorage
    request.transaction = .ok tx ∧ (tx.unsignedBytes 1).length < UInt64.size ∧
      (tx.unsignedBytes 1 = tx.unsignedBytes 5 ↔ request = request ∧ (1 : UInt64) = 5) := by
  have hfits : ((Transaction.accessList longTransfer 20000000000 touchedStorage).unsignedBytes
      1).length < UInt64.size := by
    decide +kernel
  exact ⟨rfl, hfits, unsignedBytes_eq_iff rfl rfl hfits⟩

end Keyring.Evm
