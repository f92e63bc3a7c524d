import Keyring.Proofs.Evm.Preimage

/-!
# Signed transactions and their bytes

A signer hands out a signed transaction only after its signature has recovered to the sender
(`signRequest_eq_ok`).  That check also rules out the recovery ids above one, so the `v` of a
signature tells a parity and nothing else, and for a legacy transaction the chain can be read
off it.  With that nothing is lost when the transaction is written: the bytes are read back
to the whole signed transaction (`signed_bytes_read_back`).
-/

namespace Keyring.Evm

/-- The `v` of a signature on a chain whose nonce point has the given parity. -/
def vOfParity (kind : Kind) (chainId : UInt64) (parity : Nat) : Nat :=
  match kind with
  | .legacy => 2 * chainId.toNat + 35 + parity
  | .accessList | .dynamicFee => parity

/-- A `v` that recovery accepts after signing names one of two public keys. -/
theorem v_eq_vOfParity {kind : Kind} {chainId v : UInt64} {recoveryId : UInt8} {n : Nat}
    (hsigned : signatureV kind chainId recoveryId = .ok v)
    (hrecovery : recoveryV kind chainId v = .ok n) :
    ∃ parity < 2, v.toNat = vOfParity kind chainId parity := by
  cases kind with
  | legacy =>
      simp only [signatureV] at hsigned
      split at hsigned
      · next hfits =>
          cases hsigned
          have hv : (UInt64.ofNat (2 * chainId.toNat + 35 + recoveryId.toNat)).toNat =
              2 * chainId.toNat + 35 + recoveryId.toNat := UInt64.toNat_ofNat_of_lt' hfits
          refine ⟨recoveryId.toNat, ?_, hv⟩
          have hbase : legacyBase? chainId = some (2 * chainId.toNat + 35) :=
            if_pos (by omega)
          simp only [recoveryV, hv, hbase] at hrecovery
          rw [if_neg (by omega)] at hrecovery
          split at hrecovery
          · omega
          · cases hrecovery
      · cases hsigned
  | accessList | dynamicFee =>
      simp only [recoveryV] at hrecovery
      split at hrecovery
      · next hparity => exact ⟨v.toNat, by omega, rfl⟩
      · cases hrecovery

theorem boundChain_of_vOfParity {chainId v : UInt64} {parity : Nat} (hparity : parity < 2)
    (hv : v.toNat = vOfParity .legacy chainId parity) : boundChain v = chainId := by
  have hchain : (v.toNat - 35) / 2 = chainId.toNat := by
    rw [hv, vOfParity]
    omega
  rw [boundChain, hchain, UInt64.ofNat_toNat]

theorem kind_of_transaction_eq_ok {request : Request} {tx : Transaction}
    (h : request.transaction = .ok tx) : request.kind = tx.kind := by
  rw [← request_of_transaction_eq_ok h, kind_request]

/-- What is signed is the transaction of the request, over its digest on the chain of the
signer, with a signature that recovers to the sender. -/
theorem signRequest_eq_ok {signer : Signer} {key : Word256} {sender : EvmAddress}
    {request : Request} {signed : SignedTransaction}
    (h : signer.signRequest key sender request = .ok signed) :
    request.transaction = .ok signed.transaction ∧
      signed = .ofParts signed.transaction signer.chainId signed.signature ∧
      (∃ parity < 2,
        signed.signature.v.toNat = vOfParity request.kind signer.chainId parity) ∧
      recoverSigner request.kind signer.chainId signed.digest signed.signature = .ok sender := by
  obtain ⟨tx, htx, h⟩ := bind_eq_ok_iff.mp h
  obtain ⟨raw, -, h⟩ := bind_eq_ok_iff.mp h
  obtain ⟨v, hv, h⟩ := bind_eq_ok_iff.mp h
  obtain ⟨recovered, hrecovered, h⟩ := bind_eq_ok_iff.mp h
  split at h
  · next hsender =>
      cases h
      subst hsender
      obtain ⟨n, hn, -⟩ := bind_eq_ok_iff.mp hrecovered
      exact ⟨htx, rfl, v_eq_vOfParity hv hn, hrecovered⟩
  · cases h

/-- A signed transaction is read back from its bytes, if a legacy signature is bound to its
chain. -/
theorem openEnvelope?_bytes {tx : Transaction} {chainId : UInt64} {sig : Signature} {parity : Nat}
    (hparity : parity < 2) (hv : sig.v.toNat = vOfParity tx.kind chainId parity)
    (hfits : (SignedTransaction.ofParts tx chainId sig).bytes.length < UInt64.size) :
    ∃ items, openEnvelope? (SignedTransaction.ofParts tx chainId sig).bytes =
        some (tx.kind, items) ∧
      SignedTransaction.ofItems? tx.kind items =
        some (SignedTransaction.ofParts tx chainId sig) := by
  refine ⟨_, openEnvelope?_envelope hfits, SignedTransaction.ofItems?_fields ?_⟩
  intro hlegacy
  rw [hlegacy] at hv
  exact boundChain_of_vOfParity hparity hv

theorem SignedTransaction.ofBytes?_bytes {tx : Transaction} {chainId : UInt64} {sig : Signature}
    {parity : Nat} (hparity : parity < 2) (hv : sig.v.toNat = vOfParity tx.kind chainId parity)
    (hfits : (ofParts tx chainId sig).bytes.length < UInt64.size) :
    ofBytes? (ofParts tx chainId sig).bytes = some (ofParts tx chainId sig) := by
  obtain ⟨items, hopen, hitems⟩ := openEnvelope?_bytes hparity hv hfits
  simp only [ofBytes?, hopen, Option.bind_some, hitems]

/-- **The bytes of a signed transaction are read back to all of it.** They are a complete
encoding of the kind that was asked for, with nothing left over; its items are the values of
the request, the chain of the signer, and the `v`, `r` and `s` of the signature that was
handed out.  The chain of a legacy transaction has no item of its own and is read from its
`v`.  The bytes have to fit a 64-bit address space, as in `unsignedBytes_eq_iff`. -/
theorem signed_bytes_read_back {signer : Signer} {key : Word256} {sender : EvmAddress}
    {request : Request} {signed : SignedTransaction}
    (hsigned : signer.signRequest key sender request = .ok signed)
    (hfits : signed.bytes.length < UInt64.size) :
    (∃ items, openEnvelope? signed.bytes = some (request.kind, items) ∧
      SignedTransaction.ofItems? request.kind items = some signed) ∧
      signed.transaction.request = request ∧ signed.chainId = signer.chainId ∧
      ∃ parity < 2,
        signed.signature.v.toNat = vOfParity request.kind signer.chainId parity := by
  obtain ⟨htx, hparts, ⟨parity, hparity, hv⟩, -⟩ := signRequest_eq_ok hsigned
  have hkind : request.kind = signed.transaction.kind := kind_of_transaction_eq_ok htx
  refine ⟨?_, request_of_transaction_eq_ok htx, congrArg SignedTransaction.chainId hparts,
    parity, hparity, hv⟩
  rw [hkind] at hv ⊢
  rw [hparts] at hfits ⊢
  exact openEnvelope?_bytes hparity hv hfits

/-- A transaction with a fee of zero, long data and nested lists, signed on chain 1. -/
def signedLongTransfer : SignedTransaction :=
  .ofParts (.dynamicFee longTransfer 0 20000000000 touchedStorage) 1
    ⟨85778678343980824302455216733683225937769569856347210506813938393500373617281,
      3100334478359505243028358805685793224658927586786071657146359275187522059749, 0⟩

set_option maxRecDepth 100000 in
theorem signed_bytes_of_longTransfer :
    let request := Request.dynamicFee longTransfer.call (some 0) (some 20000000000) touchedStorage
    Signer.signRequest ⟨1⟩ 12345 0xeb4665750b1382df4aebf49e04b429aaac4d9929 request =
        .ok signedLongTransfer ∧
      signedLongTransfer.bytes.length < UInt64.size ∧
      (∃ items, openEnvelope? signedLongTransfer.bytes = some (request.kind, items) ∧
        SignedTransaction.ofItems? request.kind items = some signedLongTransfer) ∧
      signedLongTransfer.transaction.request = request ∧ signedLongTransfer.chainId = 1 ∧
      ∃ parity < 2,
        signedLongTransfer.signature.v.toNat = vOfParity request.kind 1 parity := by
  -- The digest, the signature and its signer are evaluated one by one.
  have hdigest : signedLongTransfer.digest =
      0x46e38c335f8fe46a04440caef69f13970a6660f87c42a907d75a3349ba0a60f3 := by
    decide +kernel
  have hraw : signDigest 12345
      0x46e38c335f8fe46a04440caef69f13970a6660f87c42a907d75a3349ba0a60f3 =
        .ok ⟨signedLongTransfer.signature.r, signedLongTransfer.signature.s, 0⟩ := by
    decide +kernel
  have hrecovered : recoverSigner .dynamicFee 1
      0x46e38c335f8fe46a04440caef69f13970a6660f87c42a907d75a3349ba0a60f3
      signedLongTransfer.signature = .ok 0xeb4665750b1382df4aebf49e04b429aaac4d9929 := by
    decide +kernel
  rw [← hdigest] at hraw hrecovered
  have hsigned : Signer.signRequest ⟨1⟩ 12345 0xeb4665750b1382df4aebf49e04b429aaac4d9929
      (.dynamicFee longTransfer.call (some 0) (some 20000000000) touchedStorage) =
        .ok signedLongTransfer := by
    refine bind_eq_ok_iff.mpr ⟨signedLongTransfer.transaction, rfl, ?_⟩
    refine bind_eq_ok_iff.mpr ⟨_, hraw, ?_⟩
    refine bind_eq_ok_iff.mpr ⟨0, rfl, ?_⟩
    exact bind_eq_ok_iff.mpr ⟨_, hrecovered, if_pos rfl⟩
  have hfits : signedLongTransfer.bytes.length < UInt64.size := by
    decide +kernel
  exact ⟨hsigned, hfits, signed_bytes_read_back hsigned hfits⟩

end Keyring.Evm
