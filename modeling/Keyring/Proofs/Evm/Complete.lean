import Keyring.Proofs.Evm.Signing
import Keyring.Proofs.KeyNode.Intact
import Keyring.Proofs.Signature

/-!
# Complete requests are signed

A signer refuses a request for one of two reasons: the request lacks a field that its kind
demands (`Request.IsComplete`), or it is for a legacy transaction on a chain whose `v` does not
fit 64 bits.  The check at the end, that the signature recovers to the sender, never fails
for the owner of the key: the `v` that was made is one that recovery takes (`recoveryV_eq_ok_iff`)
and takes for the parity it was made from, and signatures recover to the key that made them.
-/

namespace Keyring.Evm

/-! ## Complete requests -/

/-- Nothing that the kind of a request demands is left open. -/
def Request.IsComplete : Request → Prop
  | .legacy call gasPrice =>
    call.receiver.isSome ∧ call.value.isSome ∧ gasPrice.isSome
  | .accessList call gasPrice items =>
    items ≠ [] ∧ call.receiver.isSome ∧ call.value.isSome ∧ gasPrice.isSome
  | .dynamicFee call maxPriorityFee maxFee _ =>
    call.receiver.isSome ∧ call.value.isSome ∧ maxPriorityFee.isSome ∧ maxFee.isSome

theorem exists_priced_iff {c : Call} {gasPrice : Option Word256} :
    (∃ result, c.priced gasPrice = .ok result) ↔
      c.receiver.isSome ∧ c.value.isSome ∧ gasPrice.isSome := by
  simp only [Call.priced, bind_eq_ok_iff, demand_eq_ok_iff, pure_eq_ok_iff,
    Option.isSome_iff_exists]
  constructor
  · rintro ⟨result, receiver, hreceiver, value, hvalue, price, hprice, -⟩
    exact ⟨⟨receiver, hreceiver⟩, ⟨value, hvalue⟩, ⟨price, hprice⟩⟩
  · rintro ⟨⟨receiver, hreceiver⟩, ⟨value, hvalue⟩, ⟨price, hprice⟩⟩
    exact ⟨_, receiver, hreceiver, value, hvalue, price, hprice, rfl⟩

/-- The requests that transactions are made of are the complete ones. -/
theorem exists_transaction_iff {request : Request} :
    (∃ tx, request.transaction = .ok tx) ↔ request.IsComplete := by
  cases request with
  | legacy call gasPrice =>
      rw [Request.IsComplete, ← exists_priced_iff]
      constructor
      · rintro ⟨tx, htx⟩
        obtain ⟨result, hresult, -⟩ := bind_eq_ok_iff.mp htx
        exact ⟨result, hresult⟩
      · rintro ⟨result, hresult⟩
        exact ⟨_, bind_eq_ok_iff.mpr ⟨result, hresult, rfl⟩⟩
  | accessList call gasPrice items =>
      rw [Request.IsComplete, ← exists_priced_iff]
      cases items with
      | nil =>
          constructor
          · rintro ⟨tx, htx⟩
            cases htx
          · rintro ⟨hne, -⟩
            exact absurd rfl hne
      | cons item items =>
          constructor
          · rintro ⟨tx, htx⟩
            obtain ⟨result, hresult, -⟩ := bind_eq_ok_iff.mp htx
            exact ⟨List.cons_ne_nil _ _, result, hresult⟩
          · rintro ⟨-, result, hresult⟩
            exact ⟨_, bind_eq_ok_iff.mpr ⟨result, hresult, rfl⟩⟩
  | dynamicFee call maxPriorityFee maxFee items =>
      simp only [Request.transaction, Request.IsComplete, bind_eq_ok_iff, demand_eq_ok_iff,
        pure_eq_ok_iff, Option.isSome_iff_exists]
      constructor
      · rintro ⟨tx, receiver, hreceiver, value, hvalue, fee, hfee, priorityFee, hpriorityFee, -⟩
        exact ⟨⟨receiver, hreceiver⟩, ⟨value, hvalue⟩, ⟨priorityFee, hpriorityFee⟩, ⟨fee, hfee⟩⟩
      · rintro ⟨⟨receiver, hreceiver⟩, ⟨value, hvalue⟩, ⟨priorityFee, hpriorityFee⟩, ⟨fee, hfee⟩⟩
        exact ⟨_, receiver, hreceiver, value, hvalue, fee, hfee, priorityFee, hpriorityFee, rfl⟩

/-! ## The `v` of a signature -/

variable {kind : Kind} {chainId v : UInt64} {id : UInt8} {n : Nat}

theorem vOfParity_eq (kind : Kind) (chainId : UInt64) (parity : Nat) :
    vOfParity kind chainId parity =
      if kind = .legacy then 2 * chainId.toNat + 35 + parity else parity := by
  cases kind <;> rfl

/-- A signature gets its `v` if the number fits 64 bits. -/
theorem signatureV_eq_ok_iff :
    signatureV kind chainId id = .ok v ↔ v.toNat = vOfParity kind chainId id.toNat := by
  cases kind with
  | legacy =>
      simp only [signatureV, vOfParity]
      split
      · next hfits =>
          rw [Except.ok.injEq, ← UInt64.toNat_inj, UInt64.toNat_ofNat_of_lt' hfits]
          exact eq_comm
      · next hbig =>
          constructor
          · intro h
            cases h
          · intro h
            exact absurd (h ▸ v.toNat_lt) hbig
  | accessList | dynamicFee =>
      rw [signatureV, Except.ok.injEq, ← UInt64.toNat_inj, UInt8.toNat_toUInt64, vOfParity]
      exact eq_comm

theorem exists_signatureV_iff :
    (∃ v, signatureV kind chainId id = .ok v) ↔ vOfParity kind chainId id.toNat < 2 ^ 64 := by
  simp only [signatureV_eq_ok_iff]
  constructor
  · rintro ⟨v, hv⟩
    exact hv ▸ v.toNat_lt
  · intro hfits
    exact ⟨UInt64.ofNat _, UInt64.toNat_ofNat_of_lt' hfits⟩

/-- A base that does not fit 64 bits is no number that a `v` could be compared to. -/
theorem recoveryV_legacy (chainId v : UInt64) :
    recoveryV .legacy chainId v =
      if v.toNat = 27 ∨ v.toNat = 28 then .ok v.toNat
      else if v.toNat = 2 * chainId.toNat + 35 ∨ v.toNat = 2 * chainId.toNat + 35 + 1 then
        .ok (27 + (v.toNat - (2 * chainId.toNat + 35)))
      else .error (.recovery (.wrongV v Kind.legacy.title)) := by
  simp only [recoveryV, legacyBase?]
  by_cases hfits : 2 * chainId.toNat + 35 < UInt64.size
  · rw [if_pos hfits]
  · have hbelow : ¬(v.toNat = 2 * chainId.toNat + 35 ∨ v.toNat = 2 * chainId.toNat + 35 + 1) := by
      have hv : v.toNat < UInt64.size := v.toNat_lt
      omega
    rw [if_neg hfits, if_neg hbelow]

/-- Recovery takes the `v` of either parity, and for a legacy signature also the two values
that are bound to no chain. -/
theorem recoveryV_eq_ok_iff :
    recoveryV kind chainId v = .ok n ↔
      (kind = .legacy ∧ v.toNat = n ∧ (n = 27 ∨ n = 28)) ∨
        ∃ parity < 2, v.toNat = vOfParity kind chainId parity ∧ n = 27 + parity := by
  cases kind with
  | legacy =>
      rw [recoveryV_legacy]
      simp only [vOfParity, true_and]
      constructor
      · intro h
        split_ifs at h with hunbound hbound
        · obtain rfl := Except.ok.inj h
          exact Or.inl ⟨rfl, hunbound⟩
        · obtain rfl := Except.ok.inj h
          exact Or.inr ⟨v.toNat - (2 * chainId.toNat + 35), by omega, by omega, rfl⟩
      · rintro (⟨rfl, hunbound⟩ | ⟨parity, hparity, hv, rfl⟩)
        · exact if_pos hunbound
        · rw [if_neg (by omega), if_pos (by omega), hv, Nat.add_sub_cancel_left]
  | accessList | dynamicFee =>
      simp only [recoveryV, vOfParity, reduceCtorEq, false_and, false_or]
      constructor
      · intro h
        split_ifs at h with hparity
        obtain rfl := Except.ok.inj h
        exact ⟨v.toNat, by omega, rfl, rfl⟩
      · rintro ⟨parity, hparity, hv, rfl⟩
        rw [if_pos (by omega), hv]

theorem exists_recoveryV_legacy_iff :
    (∃ n, recoveryV .legacy chainId v = .ok n) ↔
      v.toNat ∈ [27, 28, 2 * chainId.toNat + 35, 2 * chainId.toNat + 36] := by
  simp only [recoveryV_legacy, List.mem_cons, List.not_mem_nil, or_false]
  split_ifs with hunbound hbound
  · simp only [Except.ok.injEq, exists_eq', true_iff]
    omega
  · simp only [Except.ok.injEq, exists_eq', true_iff]
    omega
  · simp only [exists_false, false_iff]
    omega

theorem exists_recoveryV_iff (h : kind ≠ .legacy) :
    (∃ n, recoveryV kind chainId v = .ok n) ↔ v.toNat ∈ [0, 1] := by
  cases kind with
  | legacy => exact absurd rfl h
  | accessList | dynamicFee =>
      simp only [recoveryV, List.mem_cons, List.not_mem_nil, or_false]
      split_ifs with hparity
      · simp only [Except.ok.injEq, exists_eq', hparity]
      · simp only [exists_false, hparity]

/-! ## Signing -/

open Secp256k1

variable {key : Secret} {request : Request}

theorem signDigest_toWord (key : Secret) (digest : Word256) :
    signDigest key.toWord digest = signSecret key digest := by
  rw [signDigest, Secret.ofWord?, key.toNat_toWord, Secret.ofNat?_of_bounds key.pos key.lt]

/-- Recovery takes every `v` that is made, for the parity that it is made from. -/
theorem recoveryV_of_signatureV (hid : id ≤ 1) (hv : signatureV kind chainId id = .ok v) :
    recoveryV kind chainId v = .ok (27 + id.toNat) := by
  have hlt : id.toNat < 2 := Nat.lt_succ_of_le (UInt8.le_iff_toNat_le.mp hid)
  exact recoveryV_eq_ok_iff.mpr (Or.inr ⟨id.toNat, hlt, signatureV_eq_ok_iff.mp hv, rfl⟩)

/-- A signature of the key recovers to the address of the key. -/
theorem recoverSigner_of_signSecret {digest : Word256} {raw : RecoverableSignature}
    (hraw : signSecret key digest = .ok raw) (hid : raw.recoveryId ≤ 1)
    (hv : signatureV kind chainId raw.recoveryId = .ok v) :
    recoverSigner kind chainId digest ⟨raw.r, raw.s, v⟩ =
      .ok (EvmAddress.ofPublicKey key.publicKey) := by
  refine bind_eq_ok_iff.mpr ⟨_, recoveryV_of_signatureV hid hv, ?_⟩
  exact bind_eq_ok_iff.mpr ⟨_, recoverPublicKey_of_signSecret hraw hid, rfl⟩

/-- What the owner of the key gets for a transaction depends on the `v` only. -/
theorem signRequest_of_transaction {tx : Transaction} {raw : RecoverableSignature}
    (htx : request.transaction = .ok tx)
    (hraw : signSecret key (tx.signingDigest chainId) = .ok raw) (hid : raw.recoveryId ≤ 1) :
    Signer.signRequest ⟨chainId⟩ key.toWord (EvmAddress.ofPublicKey key.publicKey) request =
      (signatureV request.kind chainId raw.recoveryId).map fun v =>
        .ofParts tx chainId ⟨raw.r, raw.s, v⟩ := by
  cases hv : signatureV request.kind chainId raw.recoveryId with
  | error e => simp only [Signer.signRequest, htx, signDigest_toWord, hraw, hv, bind, Except.bind,
      Except.map]
  | ok v =>
      have hrecovered := recoverSigner_of_signSecret hraw hid hv
      refine bind_eq_ok_iff.mpr ⟨tx, htx, ?_⟩
      refine bind_eq_ok_iff.mpr ⟨raw, (signDigest_toWord _ _).trans hraw, ?_⟩
      refine bind_eq_ok_iff.mpr ⟨v, hv, ?_⟩
      exact bind_eq_ok_iff.mpr ⟨_, hrecovered, if_pos rfl⟩

/-- **A complete request is signed for the owner of the key, if its `v` fits 64 bits.**  Let the
digest of the transaction have a signature with the recovery id `id`, which is zero or one.
Then the `v` of what is signed tells `id`, and recovery maps it back to it; and recovery takes
no `v` but those that can be made on the chain and those that are bound to no chain.

That the signature is in its lower form and recovers to the key is not assumed here but known
of all signatures with such an id (`solves_of_signSecret`). -/
theorem complete_requests_are_signed (key : Secret) (chainId : UInt64) (request : Request)
    {id : UInt8} (hid : id ≤ 1)
    (hsigns : ∀ tx, request.transaction = .ok tx →
      ∃ raw, signSecret key (tx.signingDigest chainId) = .ok raw ∧ raw.recoveryId = id) :
    let answer := Signer.signRequest ⟨chainId⟩ key.toWord (EvmAddress.ofPublicKey key.publicKey)
      request
    ((∃ signed, answer = .ok signed) ↔
      request.IsComplete ∧
        (request.kind = .legacy → 2 * chainId.toNat + 35 + id.toNat ≤ 2 ^ 64 - 1)) ∧
    (∀ signed, answer = .ok signed →
      signed.signature.v.toNat =
          (if request.kind = .legacy then 2 * chainId.toNat + 35 + id.toNat else id.toNat) ∧
        recoveryV request.kind chainId signed.signature.v = .ok (27 + id.toNat)) ∧
    (∀ kind chain v, ∀ id ≤ 1, signatureV kind chain id = .ok v →
      recoveryV kind chain v = .ok (27 + id.toNat)) ∧
    ∀ chain v : UInt64,
      ((∃ n, recoveryV .legacy chain v = .ok n) ↔
        v.toNat ∈ [27, 28, 2 * chain.toNat + 35, 2 * chain.toNat + 36]) ∧
      ∀ kind ≠ .legacy, (∃ n, recoveryV kind chain v = .ok n) ↔ v.toNat ∈ [0, 1] := by
  intro answer
  have hanswer : ∀ tx, request.transaction = .ok tx → ∃ raw : RecoverableSignature,
      answer = (signatureV request.kind chainId id).map fun v =>
        .ofParts tx chainId ⟨raw.r, raw.s, v⟩ := by
    intro tx htx
    obtain ⟨raw, hraw, rfl⟩ := hsigns tx htx
    exact ⟨raw, signRequest_of_transaction htx hraw hid⟩
  have hmade : ∀ signed, answer = .ok signed → ∃ tx, request.transaction = .ok tx ∧
      signatureV request.kind chainId id = .ok signed.signature.v := by
    intro signed hsigned
    obtain ⟨tx, htx, -⟩ := bind_eq_ok_iff.mp hsigned
    obtain ⟨raw, hraw⟩ := hanswer tx htx
    rw [hraw] at hsigned
    obtain ⟨v, hv, rfl⟩ := map_eq_ok_iff.mp hsigned
    exact ⟨tx, htx, hv⟩
  have hfits : vOfParity request.kind chainId id.toNat < 2 ^ 64 ↔
      (request.kind = .legacy → 2 * chainId.toNat + 35 + id.toNat ≤ 2 ^ 64 - 1) := by
    have hsmall : id.toNat < 2 ^ 64 := id.toNat_lt.trans (by decide)
    rw [vOfParity_eq]
    split
    · next hlegacy => simp only [hlegacy, forall_const]; omega
    · next hother => simp only [hother, false_implies, hsmall]
  refine ⟨?_, ?_, fun kind chain v id hid hv => recoveryV_of_signatureV hid hv, ?_⟩
  · rw [← hfits, ← exists_signatureV_iff, ← exists_transaction_iff]
    constructor
    · rintro ⟨signed, hsigned⟩
      obtain ⟨tx, htx, hv⟩ := hmade signed hsigned
      exact ⟨⟨tx, htx⟩, _, hv⟩
    · rintro ⟨⟨tx, htx⟩, v, hv⟩
      obtain ⟨raw, hraw⟩ := hanswer tx htx
      exact ⟨_, hraw.trans (map_eq_ok_iff.mpr ⟨v, hv, rfl⟩)⟩
  · intro signed hsigned
    obtain ⟨-, -, hv⟩ := hmade signed hsigned
    exact ⟨by rw [← vOfParity_eq, signatureV_eq_ok_iff.mp hv], recoveryV_of_signatureV hid hv⟩
  · intro chain v
    exact ⟨exists_recoveryV_legacy_iff, fun kind hkind => exists_recoveryV_iff hkind⟩

/-- The chain with the greatest number on which a legacy transaction can be signed, and only with
the recovery id zero. -/
def greatestLegacyChain : UInt64 :=
  0x7fffffffffffffee

set_option maxRecDepth 100000 in
theorem complete_request_on_greatestLegacyChain :
    let key : Secret := ⟨2, by decide, by decide⟩
    let request := Request.legacy longTransfer.call (some 20000000000)
    (∀ tx, request.transaction = .ok tx →
      ∃ raw, signSecret key (tx.signingDigest greatestLegacyChain) = .ok raw ∧
        raw.recoveryId = 0) ∧
    ∃ signed, Signer.signRequest ⟨greatestLegacyChain⟩ key.toWord
        (EvmAddress.ofPublicKey key.publicKey) request = .ok signed ∧
      signed.signature.v.toNat = 2 ^ 64 - 1 := by
  intro key request
  have hdigest : (Transaction.legacy longTransfer 20000000000).signingDigest greatestLegacyChain =
      1852276993820662132123318354660293151859731093927489500425130036420360544894 := by
    decide +kernel
  have hid : (signSecret ⟨2, by decide, by decide⟩
      1852276993820662132123318354660293151859731093927489500425130036420360544894).map
        RecoverableSignature.recoveryId = .ok 0 := by
    decide +kernel
  have hsigns : ∀ tx, request.transaction = .ok tx →
      ∃ raw, signSecret key (tx.signingDigest greatestLegacyChain) = .ok raw ∧
        raw.recoveryId = 0 := by
    intro tx htx
    cases htx
    rw [← hdigest] at hid
    exact map_eq_ok_iff.mp hid
  obtain ⟨hsucceeds, hv, -⟩ :=
    complete_requests_are_signed key greatestLegacyChain request (by decide) hsigns
  obtain ⟨signed, hsigned⟩ := hsucceeds.mpr ⟨⟨rfl, rfl, rfl⟩, by decide⟩
  exact ⟨hsigns, signed, hsigned, (hv signed hsigned).1⟩

end Keyring.Evm
