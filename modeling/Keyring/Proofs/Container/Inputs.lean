import Keyring.Proofs.Container

/-!
# Signing one input after the other

All inputs of a container are signed over the same digest, so a signer makes the signature once
and writes it down for every input.  Signing them one after the other, each with a signature and
a check of its own, is the same (`sign_eq_signInputs`): the first input decides whether there
are any signatures, and the ones after it only repeat its text.

The text that is written down is read by the recovery of signers, which decodes it and takes the
signature apart again.  So a container that was signed has the signers it had before, and then
the address that it was signed for, once for every input.
-/

namespace Keyring.Container.Signer

variable {signer : Signer} {key : Word256} {address text : String} {digest : Word256}
  {c : Container} {fault : WalletError}

/-! ## One input -/

/-- The text of a signature over a digest, which has to recover to the address. -/
def inputSignature (signer : Signer) (key : Word256) (address : String) (digest : Word256) :
    Except WalletError String := do
  let sig ← signDigest key digest
  let recovered ← signer.recoverAddress digest sig
  if recovered = address then return Hex.encode sig.toBytes
  else .error (.recovery (.unexpectedSigner recovered address))

/-- Signs a number of inputs one after the other and appends what comes of each. -/
def signInputs (signer : Signer) (key : Word256) (address : String) (digest : Word256) :
    (inputs : Nat) → (signatures : List String) → Except WalletError (List String)
  | 0, signatures => .ok signatures
  | inputs + 1, signatures => do
    let text ← signer.inputSignature key address digest
    signer.signInputs key address digest inputs (signatures ++ [text])

/-- The signature of an input is a hexadecimal text of 65 bytes that the address is recovered
from. -/
theorem inputSignature_eq_ok (h : signer.inputSignature key address digest = .ok text) :
    text.length = 130 ∧ (∀ ch ∈ text.toList, ch ∈ "0123456789abcdef".toList) ∧
      signer.recoverText digest text = .ok address := by
  obtain ⟨sig, -, h⟩ := bind_eq_ok_iff.mp h
  obtain ⟨recovered, hrecovered, h⟩ := bind_eq_ok_iff.mp h
  split at h
  · next haddress =>
      obtain rfl := pure_eq_ok_iff.mp h
      refine ⟨?_, fun ch => Hex.mem_of_mem_encode, ?_⟩
      · rw [Hex.length_encode, RecoverableSignature.length_toBytes]
      · rw [recoverText_encode, hrecovered, haddress]
  · cases h

/-! ## All inputs -/

theorem signInputs_of_ok (h : signer.inputSignature key address digest = .ok text)
    (inputs : Nat) (signatures : List String) :
    signer.signInputs key address digest inputs signatures =
      .ok (signatures ++ List.replicate inputs text) := by
  induction inputs generalizing signatures with
  | zero => rw [signInputs, List.replicate_zero, List.append_nil]
  | succ inputs ih =>
      have hstep : signer.signInputs key address digest (inputs + 1) signatures =
          signer.signInputs key address digest inputs (signatures ++ [text]) := by
        rw [signInputs, h]
        rfl
      rw [hstep, ih, List.append_assoc, List.singleton_append, List.replicate_succ]

/-- No input is signed if the first one is not. -/
theorem signInputs_of_error (h : signer.inputSignature key address digest = .error fault)
    {inputs : Nat} (hpos : 0 < inputs) (signatures : List String) :
    signer.signInputs key address digest inputs signatures = .error fault := by
  cases inputs with
  | zero => cases hpos
  | succ inputs =>
      rw [signInputs, h]
      rfl

theorem check_eq_ok_iff : signer.check c = .ok () ↔
    c.rawData ≠ [] ∧ c.inputCount ≠ 0 ∧ c.inputCount ≤ signer.maxInputs := by
  unfold check
  split_ifs with hdata hcount hmany
  · simp [List.isEmpty_iff.mp hdata]
  · simp [hcount]
  · simp [UInt32.not_le.mpr hmany]
  · simp [List.isEmpty_iff.not.mp hdata, hcount, UInt32.not_lt.mp hmany]

/-- A container that a check refuses is refused with its error, whatever the key. -/
theorem sign_of_refused (h : signer.check c = .error fault) :
    signer.sign key address c = .error fault := by
  rw [sign, h]
  rfl

/-- A container that passes the checks gets the one signature for every input. -/
theorem sign_of_check (hcheck : signer.check c = .ok ()) :
    signer.sign key address c =
      (fun text => { c with
        signatures := c.signatures ++ List.replicate c.inputCount.toNat text }) <$>
          signer.inputSignature key address (signer.digest c) := by
  simp only [sign, hcheck, inputSignature, bind, Except.bind]
  cases signDigest key (signer.digest c) with
  | error e => rfl
  | ok sig =>
      dsimp only
      cases signer.recoverAddress (signer.digest c) sig with
      | error e => rfl
      | ok recovered =>
          dsimp only
          by_cases haddress : recovered = address
          · simp only [if_pos haddress]
            rfl
          · simp only [if_neg haddress]
            rfl

theorem sign_eq_signInputs (hcheck : signer.check c = .ok ()) :
    signer.sign key address c =
      (fun signatures => { c with signatures }) <$>
        signer.signInputs key address (signer.digest c) c.inputCount.toNat c.signatures := by
  have hpos : 0 < c.inputCount.toNat :=
    UInt32.lt_iff_toNat_lt.mp (inputCount_pos_of_check_eq_ok hcheck)
  rw [sign_of_check hcheck]
  cases h : signer.inputSignature key address (signer.digest c) with
  | error e =>
      rw [signInputs_of_error h hpos]
      rfl
  | ok text =>
      rw [signInputs_of_ok h]
      rfl

/-! ## The signers of a container -/

/-- Signers are recovered from the signatures of two parts apart. -/
theorem mapM_recoverText_append {before added : List String} {signers signers' : List String}
    (h : before.mapM (signer.recoverText digest) = .ok signers)
    (h' : added.mapM (signer.recoverText digest) = .ok signers') :
    (before ++ added).mapM (signer.recoverText digest) = .ok (signers ++ signers') :=
  mapM_eq_ok_iff.mpr (List.rel_append (mapM_eq_ok_iff.mp h) (mapM_eq_ok_iff.mp h'))

theorem mapM_recoverText_replicate (h : signer.recoverText digest text = .ok address)
    (inputs : Nat) :
    (List.replicate inputs text).mapM (signer.recoverText digest) =
      .ok (List.replicate inputs address) := by
  induction inputs with
  | zero => rfl
  | succ inputs ih =>
      rw [List.replicate_succ, List.replicate_succ, ← List.singleton_append,
        ← List.singleton_append]
      exact mapM_recoverText_append (mapM_eq_ok_iff.mpr (.cons h .nil)) ih

/-! ## Main statement -/

/-- **Every input is signed, and none before the checks.**  Whatever the key, a container
without data, without inputs or with too many of them is refused, with the error of the first
of these that applies.  Any other container is signed one input after the other; if this
succeeds, then

* the data and the number of inputs stay, and behind the signatures there were stands one more
  signature for every input, the same for all of them, in 130 lower-case hexadecimal digits,
* the signers of the container, if they could be recovered before, are the same as before, and
  then the address that it was signed for, once for every input. -/
theorem every_input_is_signed (signer : Signer) (key : Word256) (address : String)
    (c : Container) :
    let result := signer.sign key address c
    (c.rawData = [] → result = .error (.missingField "raw_data")) ∧
    (c.rawData ≠ [] → c.inputCount = 0 → result = .error (.missingField "input_count")) ∧
    (c.rawData ≠ [] → c.inputCount ≠ 0 → signer.maxInputs < c.inputCount →
      result = .error (.invalidRange 0 (c.inputCount - 1))) ∧
    (c.rawData ≠ [] → c.inputCount ≠ 0 → c.inputCount ≤ signer.maxInputs →
      result = (fun signatures => { c with signatures }) <$>
        signer.signInputs key address (signer.digest c) c.inputCount.toNat c.signatures) ∧
    (∀ signed, result = .ok signed →
      signed.rawData = c.rawData ∧ signed.inputCount = c.inputCount ∧
      (∃ text, signed.signatures = c.signatures ++ List.replicate c.inputCount.toNat text ∧
        text.length = 130 ∧ ∀ ch ∈ text.toList, ch ∈ "0123456789abcdef".toList) ∧
      ∀ signers, signer.recoverSigners c = .ok signers →
        signer.recoverSigners signed =
          .ok (signers ++ List.replicate c.inputCount.toNat address)) := by
  intro result
  refine ⟨?_, ?_, ?_, ?_, ?_⟩
  · intro hdata
    exact sign_of_refused (by simp only [check, hdata, List.isEmpty_nil, if_true])
  · intro hdata hcount
    have hfilled := List.isEmpty_eq_false_iff.mpr hdata
    exact sign_of_refused (by simp only [check, hfilled, hcount, if_true, Bool.false_eq_true,
      if_false])
  · intro hdata hcount hmany
    have hfilled := List.isEmpty_eq_false_iff.mpr hdata
    exact sign_of_refused (by simp only [check, hfilled, hcount, hmany, if_true,
      Bool.false_eq_true, if_false])
  · intro hdata hcount hfew
    exact sign_eq_signInputs (check_eq_ok_iff.mpr ⟨hdata, hcount, hfew⟩)
  · intro signed hsigned
    obtain ⟨_, hcheck, -⟩ := bind_eq_ok_iff.mp hsigned
    rw [show result = _ from sign_of_check hcheck] at hsigned
    obtain ⟨text, htext, rfl⟩ := map_eq_ok_iff.mp hsigned
    obtain ⟨hlength, hlower, hrecovered⟩ := inputSignature_eq_ok htext
    refine ⟨rfl, rfl, ⟨text, rfl, hlength, hlower⟩, fun signers hsigners => ?_⟩
    exact mapM_recoverText_append hsigners (mapM_recoverText_replicate hrecovered _)

end Keyring.Container.Signer
