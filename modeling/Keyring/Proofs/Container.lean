import Keyring.Container
import Keyring.Proofs.Bytes
import Keyring.Proofs.Hex
import Keyring.Proofs.Json.Reading

/-!
# Signed containers

A container is read back from the payload it is written to (`decode_encode`), and a signature
from its hexadecimal text (`recoverText_encode`).  So what a signer hands out can be judged by
its bytes alone: they are a container with one new signature for every input, and each of
these recovers to the address that was asked for (`sign_eq_ok`).
-/

namespace Keyring

namespace RecoverableSignature

theorem length_toBytes (sig : RecoverableSignature) : sig.toBytes.length = 65 := by
  rw [toBytes, List.length_append, List.length_append, Word256.length_toBytes,
    Word256.length_toBytes, List.length_singleton]

/-- A signature is read back from its 65 bytes. -/
theorem ofBytes_toBytes (sig : RecoverableSignature) : ofBytes sig.toBytes = .ok sig := by
  have hr : sig.r.toBytes.length = 32 := sig.r.length_toBytes
  have hs : sig.s.toBytes.length = 32 := sig.s.length_toBytes
  have htake : sig.toBytes.take 32 = sig.r.toBytes := by
    rw [toBytes, List.append_assoc, List.take_left' hr]
  have hdrop : sig.toBytes.drop 32 = sig.s.toBytes ++ [sig.recoveryId] := by
    rw [toBytes, List.append_assoc, List.drop_left' hr]
  have hlast : sig.toBytes.getD 64 0 = sig.recoveryId := by
    rw [toBytes, List.getD_eq_getElem?_getD, List.getElem?_append_right (by simp [hr, hs])]
    simp [hr, hs]
  rw [ofBytes, if_pos sig.length_toBytes, htake, hdrop, List.take_left' hs, hlast,
    Word256.ofBytes_toBytes, Word256.ofBytes_toBytes]

theorem toBytes_injective {sig sig' : RecoverableSignature} (h : sig.toBytes = sig'.toBytes) :
    sig = sig' := by
  have hread := congrArg ofBytes h
  rw [ofBytes_toBytes, ofBytes_toBytes] at hread
  exact Except.ok.inj hread

/-- Whatever is read as a signature are its 65 bytes. -/
theorem toBytes_of_ofBytes_eq_ok {b : Bytes} {sig : RecoverableSignature}
    (h : ofBytes b = .ok sig) : sig.toBytes = b := by
  unfold ofBytes at h
  split at h
  · next hlength =>
      cases h
      have htake : (b.take 32).length = 32 := by rw [List.length_take]; omega
      have hmiddle : ((b.drop 32).take 32).length = 32 := by
        rw [List.length_take, List.length_drop]; omega
      have hlast : b.drop 64 = [b.getD 64 0] := by
        obtain ⟨id, hid⟩ := List.length_eq_one_iff.mp
          (show (b.drop 64).length = 1 by rw [List.length_drop]; omega)
        rw [List.getD_eq_getElem?_getD, ← List.head?_drop, hid]
        rfl
      calc toBytes ⟨Word256.ofBytes (b.take 32), Word256.ofBytes ((b.drop 32).take 32), b.getD 64 0⟩
          = b.take 32 ++ (b.drop 32).take 32 ++ b.drop 64 := by
            rw [toBytes, Word256.toBytes_ofBytes htake, Word256.toBytes_ofBytes hmiddle, hlast]
        _ = b := by
            rw [List.append_assoc, show 64 = 32 + 32 from rfl, ← List.drop_drop,
              List.take_append_drop, List.take_append_drop]
  · cases h

end RecoverableSignature

namespace Container

open Json

theorem hex?_toTree (b : Bytes) : hex? (Value.string (Hex.encode b)).toTree = some b := by
  rw [hex?, Tree.string?_toTree, Option.bind_eq_bind, Option.bind_some, Hex.decode_encode]
  rfl

/-- A container is read back from its payload. -/
theorem decode_encode (c : Container) : decode c.encode = .ok c := by
  have hslots : ["raw_data", "input_count", "signatures"].mapM
      (Tree.slot? .refused
        [("raw_data", (Value.string (Hex.encode c.rawData)).toTree),
         ("input_count", (Value.ofNat c.inputCount.toNat).toTree),
         ("signatures", (Value.array (c.signatures.map .string)).toTree)]) =
      some
        [some (Value.string (Hex.encode c.rawData)).toTree,
         some (Value.ofNat c.inputCount.toNat).toTree,
         some (Value.array (c.signatures.map .string)).toTree] := rfl
  have hcount : Tree.uint32? (Value.ofNat c.inputCount.toNat).toTree = some c.inputCount :=
    Tree.uint32?_numberText c.inputCount
  have hsignatures : Tree.list? Tree.string? (Value.array (c.signatures.map .string)).toTree =
      some c.signatures :=
    Tree.list?_toTree Tree.string?_toTree c.signatures
  have hread : ofTree? c.toValue.toTree = some c := by
    rw [ofTree?, toValue, Tree.record?_toTree]
    simp only [List.map_cons, List.map_nil, hslots, Option.bind_eq_bind, Option.bind_some,
      Tree.required?, hex?_toTree, hcount, Tree.defaulted?, hsignatures]
    rfl
  rw [decode, encode, Tree.ofBytes?_bytes, Option.bind_some, hread]

/-! ## Signing -/

namespace Signer

/-- What signing for an address makes of a container: its data stay, and there is a new
signature for every input, each of which recovers to the address. -/
structure Signed (signer : Signer) (address : String) (before signed : Container) : Prop where
  rawData_eq : signed.rawData = before.rawData
  inputCount_eq : signed.inputCount = before.inputCount
  inputCount_pos : 0 < signed.inputCount
  signatures_eq : ∃ added, signed.signatures = before.signatures ++ added ∧
    added.length = signed.inputCount.toNat ∧
    ∀ text ∈ added, signer.recoverText (signer.digest signed) text = .ok address

variable {signer : Signer} {key : Word256} {address : String}

theorem recoverText_encode (signer : Signer) (digest : Word256) (sig : RecoverableSignature) :
    signer.recoverText digest (Hex.encode sig.toBytes) = signer.recoverAddress digest sig := by
  simp only [recoverText, Hex.decode_encode, RecoverableSignature.ofBytes_toBytes]
  rfl

theorem inputCount_pos_of_check_eq_ok {c : Container} (h : signer.check c = .ok ()) :
    0 < c.inputCount := by
  unfold check at h
  split_ifs at h with hdata hcount
  exact UInt32.pos_iff_ne_zero.mpr hcount

/-- A container that was signed has a signature of the address for every input. -/
theorem sign_eq_ok {c signed : Container} (h : signer.sign key address c = .ok signed) :
    signer.Signed address c signed := by
  obtain ⟨_, hcheck, h⟩ := bind_eq_ok_iff.mp h
  obtain ⟨sig, -, h⟩ := bind_eq_ok_iff.mp h
  obtain ⟨recovered, hrecovered, h⟩ := bind_eq_ok_iff.mp h
  split at h
  · next haddress =>
      cases h
      refine ⟨rfl, rfl, inputCount_pos_of_check_eq_ok hcheck, _, rfl, List.length_replicate, ?_⟩
      intro text htext
      rw [List.eq_of_mem_replicate htext, recoverText_encode, ← haddress]
      exact hrecovered
  · cases h

/-- The payload and the bytes of a signature are both containers. -/
theorem signPayload_eq_ok {payload bytes : Bytes}
    (h : signer.signPayload key address payload = .ok bytes) :
    ∃ c signed, decode payload = .ok c ∧ decode bytes = .ok signed ∧
      signer.Signed address c signed := by
  obtain ⟨c, hdecode, h⟩ := bind_eq_ok_iff.mp h
  obtain ⟨signed, hsign, h⟩ := bind_eq_ok_iff.mp h
  obtain rfl := pure_eq_ok_iff.mp h
  exact ⟨c, signed, hdecode, decode_encode signed, sign_eq_ok hsign⟩

end Signer

end Container

end Keyring
