import Keyring.Proofs.Chain.Fit

/-!
# From an address to the sender of a transaction

A unit of an account chain keeps the addresses it has derived as texts, with the checksum in the
case of their letters, and its signer is handed such a text and reads it before it signs.  What is
read is the address that was written (`ofText_checksumText`), so signing for the text is the same
as signing for the address itself (`signPayload_address`): nothing is lost or changed on the way.
-/

namespace Keyring

open Secp256k1

/-- The signer of an account chain signs for the text of an address as for the address. -/
theorem Evm.Signer.signPayload_address (signer : Evm.Signer) (key : Word256) (owner : Point)
    (network : Network) (payload : Bytes) :
    signer.signPayload key (owner.address .evm network) payload = do
      let request ← Evm.Request.decode payload
      return (← signer.signRequest key (EvmAddress.ofPublicKey owner) request).bytes := by
  have hread : EvmAddress.ofText (owner.address .evm network) =
      .ok (EvmAddress.ofPublicKey owner) :=
    EvmAddress.ofText_checksumText _
  rw [signPayload, hread]
  rfl

/-- An address that a unit of an account chain hands out is read as the address of the key that it
signs with, and its signatures are those for this address. -/
theorem Plugin.Makes.exists_sender {params : ChainParams} {pool : PoolConfig} {wordsCount : Nat}
    {phrase text : String} {k : Keychain} {p : AddressPath}
    (h : (Plugin.ofParams params pool wordsCount).Makes phrase k) (hfamily : params.family = .evm)
    (hencoding : params.addressEncoding = .evm)
    (haddress : (k.perform (.address p)).1 = .ok (.address text)) :
    ∃ secret : Secret,
      EvmAddress.ofText text = .ok (EvmAddress.ofPublicKey secret.publicKey) ∧
      ∀ payload, (k.perform (.sign p payload)).1 = do
        let request ← Evm.Request.decode payload
        let signed ← (Evm.Signer.mk params.chainId).signRequest secret.toWord
          (EvmAddress.ofPublicKey secret.publicKey) request
        return .signed text signed.bytes := by
  obtain ⟨secret, htext, hsign⟩ := h.exists_owner haddress
  rw [hencoding] at htext
  refine ⟨secret, ?_, fun payload => ?_⟩
  · rw [htext]
    exact EvmAddress.ofText_checksumText _
  · have hsigner : ChainSigner.ofParams params pool.maxContainerInputs =
        .evm ⟨params.chainId⟩ := by
      rw [ChainSigner.ofParams, hfamily]
    rw [hsign, hsigner, ChainSigner.sign, htext, Evm.Signer.signPayload_address]
    simp only [bind_assoc, pure_bind]
    rfl

/-- **Every address is read back from its text, and nothing else is read.**  The text of an address
with its checksum is read as the address.  A text is read as an address exactly if it consists of
the 40 digits of its bytes, each in lower or in upper case, behind one `0x`, one `0X` or nothing;
any other text is refused with an error of addresses.

So the signer of an account chain, which is handed an address as a text, signs for the address that
was written.  Take a unit of an account chain with addresses of this kind, in whatever state, and a
path for which it hands out an address: the text is read as the address of a key, and whatever
payload the unit is asked to sign for this path is signed with this key and for this address. -/
theorem address_texts_are_read_back :
    (∀ a : EvmAddress, EvmAddress.ofText a.checksumText = .ok a) ∧
    (∀ (s : String) (a : EvmAddress), EvmAddress.ofText s = .ok a ↔
      ∃ mark ∈ ["", "0x", "0X"], ∃ digits : List Char, s = mark ++ String.ofList digits ∧
        digits.length = 40 ∧ digits.map Char.toLower = Hex.digits a.toBytes) ∧
    (∀ s : String, (∀ a, EvmAddress.ofText s ≠ .ok a) →
      ∃ fault, EvmAddress.ofText s = .error (.address fault)) ∧
    ∀ (params : ChainParams) (pool : PoolConfig) (wordsCount : Nat) (phrase text : String)
        (k : Keychain) (p : AddressPath), params.family = .evm → params.addressEncoding = .evm →
      (Plugin.ofParams params pool wordsCount).Makes phrase k →
      (k.perform (.address p)).1 = .ok (.address text) →
      ∃ secret : Secret,
        EvmAddress.ofText text = .ok (EvmAddress.ofPublicKey secret.publicKey) ∧
        ∀ payload, (k.perform (.sign p payload)).1 = do
          let request ← Evm.Request.decode payload
          let signed ← (Evm.Signer.mk params.chainId).signRequest secret.toWord
            (EvmAddress.ofPublicKey secret.publicKey) request
          return .signed text signed.bytes := by
  refine ⟨EvmAddress.ofText_checksumText, fun s a => ?_,
    fun s => EvmAddress.exists_fault_of_ofText_ne_ok, ?_⟩
  · rw [EvmAddress.ofText_eq_ok_iff]
    constructor
    · rintro ⟨mark, hmark, cs, hs, hdigits⟩
      have hlength : cs.length = 40 := by
        rw [← List.length_map (f := Char.toLower), hdigits, Hex.length_digits,
          EvmAddress.length_toBytes]
      exact ⟨mark, hmark, cs, hs, hlength, hdigits⟩
    · rintro ⟨mark, hmark, cs, hs, -, hdigits⟩
      exact ⟨mark, hmark, cs, hs, hdigits⟩
  · intro params pool wordsCount phrase text k p hfamily hencoding hmakes haddress
    exact hmakes.exists_sender hfamily hencoding haddress

end Keyring
