import Keyring.Proofs.Address.Text
import Keyring.Proofs.Chain.Derivable
import Keyring.Proofs.Container.Inputs
import Keyring.Proofs.Evm.Complete

/-!
# Whether a signer can use the addresses of its chain

The address that a keychain hands out is written in the encoding of the chain, and the signer of
the chain is handed this text when it is asked to sign.  The signers of containers write the
address of the recovered key in the same encoding before they compare.  The signer of an account
chain reads the text, and it reads no encoding but its own (`ofText_address_eq_ok`).  An encoding
can be configured for every chain, so the two fit together except for an account chain that is
given another one (`ChainParams.fits_iff`).

Where they fit, the key that signs is the one the address belongs to (`exists_owner_of_entry`),
and signatures recover to the key that made them.  So nothing can be wrong with a payload that has
all it needs but what no address is to blame for (`Evm.Unsigned`).
-/

namespace Keyring

open Secp256k1

/-! ## What no address is to blame for -/

/-- The errors that are left for a payload with all it needs: there is no nonce for its digest,
the signature has a recovery id that stands for no parity, or the `v` of a legacy transaction does
not fit 64 bits. -/
inductive Unsigned : WalletError → Prop
  | nonces : Unsigned (.signing .nonceExhausted)
  | recoveryId (id : UInt8) : Unsigned (.recovery (.badRecoveryId id))
  | wrongV (v : UInt64) (transaction : String) : Unsigned (.recovery (.wrongV v transaction))
  | chainId (chainId : UInt64) : Unsigned (.signing (.chainIdOverflow chainId))

/-- There is a result, or an error that no address is to blame for. -/
def Settles {α : Type} (result : Except WalletError α) : Prop :=
  (∃ a, result = .ok a) ∨ ∃ fault, result = .error fault ∧ Unsigned fault

namespace Settles

variable {α β : Type} {result : Except WalletError α} {fault : WalletError}

theorem of_ok {a : α} (h : result = .ok a) : Settles result :=
  Or.inl ⟨a, h⟩

theorem of_error (h : result = .error fault) (hfault : Unsigned fault) : Settles result :=
  Or.inr ⟨fault, h, hfault⟩

/-- A chain of steps settles if every step does. -/
theorem bind {f : α → Except WalletError β} (h : Settles result)
    (hf : ∀ a, result = .ok a → Settles (f a)) : Settles (result >>= f) := by
  rcases h with ⟨a, rfl⟩ | ⟨fault, rfl, hfault⟩
  · exact hf a rfl
  · exact of_error rfl hfault

end Settles

variable {secret : Secret} {digest : Word256} {sig : RecoverableSignature} {fault : WalletError}
  {network : Network} {payload : Bytes}

theorem settles_signDigest (secret : Secret) (digest : Word256) :
    Settles (signDigest secret.toWord digest) := by
  rw [Evm.signDigest_toWord, signSecret_eq]
  beta_reduce
  split
  · exact .of_ok rfl
  · exact .of_error rfl .nonces

/-! ## Account chains -/

namespace Evm

variable {kind : Kind} {chainId v : UInt64} {id : UInt8} {request : Request}

theorem settles_signatureV (kind : Kind) (chainId : UInt64) (id : UInt8) :
    Settles (signatureV kind chainId id) := by
  cases kind with
  | legacy =>
      simp only [signatureV]
      split
      · exact .of_ok rfl
      · exact .of_error rfl (.chainId chainId)
  | accessList | dynamicFee => exact .of_ok rfl

/-- A recovery id above one is told apart from both parities. -/
theorem recoveryV_of_large (hid : 1 < id) (hv : signatureV kind chainId id = .ok v) :
    recoveryV kind chainId v = .error (.recovery (.wrongV v kind.title)) := by
  have hlarge : 1 < id.toNat := UInt8.lt_iff_toNat_lt.mp hid
  have htoNat := signatureV_eq_ok_iff.mp hv
  cases kind with
  | legacy =>
      rw [vOfParity] at htoNat
      rw [recoveryV_legacy, if_neg (by omega), if_neg (by omega)]
  | accessList | dynamicFee =>
      rw [vOfParity] at htoNat
      simp only [recoveryV]
      rw [if_neg (by omega)]

theorem recoverSigner_of_large {s : Signature} (hid : 1 < id)
    (hv : signatureV kind chainId id = .ok s.v) :
    recoverSigner kind chainId digest s = .error (.recovery (.wrongV s.v kind.title)) := by
  rw [recoverSigner, recoveryV_of_large hid hv, error_bind]

/-- The owner of the key gets a complete request signed, unless the signature itself fails. -/
theorem settles_signRequest (chainId : UInt64) (secret : Secret) (h : request.IsComplete) :
    Settles (Signer.signRequest ⟨chainId⟩ secret.toWord
      (EvmAddress.ofPublicKey secret.publicKey) request) := by
  obtain ⟨tx, htx⟩ := exists_transaction_iff.mpr h
  refine .bind (.of_ok htx) fun tx _ => ?_
  refine .bind (settles_signDigest secret _) fun raw hraw => ?_
  rw [signDigest_toWord] at hraw
  refine .bind (settles_signatureV request.kind chainId raw.recoveryId) fun v hv => ?_
  by_cases hid : raw.recoveryId ≤ 1
  · have howner := recoverSigner_of_signSecret hraw hid hv
    refine .bind (.of_ok howner) fun recovered hrecovered => ?_
    rw [howner] at hrecovered
    exact .of_ok (if_pos (Except.ok.inj hrecovered).symm)
  · have hlarge := UInt8.not_le.mp hid
    exact .bind (.of_error (recoverSigner_of_large hlarge hv) (.wrongV v _)) fun recovered hok =>
      absurd ((recoverSigner_of_large hlarge hv).symm.trans hok) (by simp)

theorem settles_signPayload (chainId : UInt64) (secret : Secret) (network : Network)
    (hdecode : Request.decode payload = .ok request) (h : request.IsComplete) :
    Settles (Signer.signPayload ⟨chainId⟩ secret.toWord (secret.publicKey.address .evm network)
      payload) := by
  have hread : EvmAddress.ofText (secret.publicKey.address .evm network) =
      .ok (EvmAddress.ofPublicKey secret.publicKey) :=
    EvmAddress.ofText_checksumText _
  rw [Signer.signPayload, hdecode, ok_bind, hread, ok_bind]
  exact (settles_signRequest chainId secret h).bind fun signed _ => .of_ok rfl

/-- In another encoding the address is not read. -/
theorem signPayload_of_other_encoding (signer : Signer) (key : Word256) (owner : Point)
    {encoding : AddressEncoding} (network : Network) (hencoding : encoding ≠ .evm)
    (hdecode : Request.decode payload = .ok request) :
    ∃ fault, signer.signPayload key (owner.address encoding network) payload =
      .error (.address fault) := by
  obtain ⟨fault, hfault⟩ := EvmAddress.exists_fault_of_ofText_ne_ok
    fun a hread => hencoding (ofText_address_eq_ok hread).1
  refine ⟨fault, ?_⟩
  rw [Signer.signPayload, hdecode, ok_bind, hfault, error_bind]

end Evm

/-! ## Containers -/

namespace Container.Signer

variable {signer : Signer} {c : Container}

/-- A signature of the key recovers to the address of the key in any encoding. -/
theorem recoverAddress_of_signSecret (signer : Signer) (h : signSecret secret digest = .ok sig)
    (hid : sig.recoveryId ≤ 1) :
    signer.recoverAddress digest sig =
      .ok (secret.publicKey.address signer.encoding signer.network) := by
  rw [recoverAddress, if_neg (UInt8.not_lt.mpr hid), recoverPublicKey_of_signSecret h hid]
  rfl

theorem settles_inputSignature (signer : Signer) (secret : Secret) (digest : Word256) :
    Settles (signer.inputSignature secret.toWord
      (secret.publicKey.address signer.encoding signer.network) digest) := by
  refine .bind (settles_signDigest secret digest) fun sig hsig => ?_
  rw [Evm.signDigest_toWord] at hsig
  by_cases hid : sig.recoveryId ≤ 1
  · rw [signer.recoverAddress_of_signSecret hsig hid, ok_bind, if_pos rfl]
    exact .of_ok rfl
  · rw [recoverAddress, if_pos (UInt8.not_le.mp hid), error_bind]
    exact .of_error rfl (.recoveryId sig.recoveryId)

theorem settles_signPayload (signer : Signer) (secret : Secret)
    (hdecode : Container.decode payload = .ok c) (hcheck : signer.check c = .ok ()) :
    Settles (signer.signPayload secret.toWord
      (secret.publicKey.address signer.encoding signer.network) payload) := by
  have hinput := settles_inputSignature signer secret (signer.digest c)
  rw [signPayload, hdecode, ok_bind, sign_of_check hcheck, map_eq_pure_bind]
  exact (hinput.bind fun text _ => .of_ok rfl).bind fun signed _ => .of_ok rfl

end Container.Signer

/-! ## Chains -/

/-- A payload of the family of a signer, with all the fields that are mandatory for it and within
its limits. -/
def ChainSigner.Complete (signer : ChainSigner) (payload : Bytes) : Prop :=
  match signer with
  | .evm _ => ∃ request, Evm.Request.decode payload = .ok request ∧ request.IsComplete
  | .container signer => ∃ c, Container.decode payload = .ok c ∧
      c.rawData ≠ [] ∧ c.inputCount ≠ 0 ∧ c.inputCount ≤ signer.maxInputs

/-- An account chain writes addresses so that its signer can read them.  The signers of the other
chains read none. -/
def ChainParams.Fits (params : ChainParams) : Prop :=
  params.family = .evm → params.addressEncoding = .evm

theorem ChainBuilder.family_eq_evm_iff {b : ChainBuilder} {name : String}
    (h : preset? name = some b) : b.family = .evm ↔ name = "ethereum" := by
  unfold preset? at h
  split at h <;> cases h <;> decide

/-- They fit unless an account chain is given the encoding of another. -/
theorem ChainParams.fits_iff {config : ChainConfig} {params : ChainParams}
    (h : ChainParams.ofConfig config = .ok params) :
    params.Fits ↔ (config.name = "ethereum" →
      config.addressEncoding = none ∨ config.addressEncoding = some .evm) := by
  obtain ⟨b, hb, rfl⟩ := ChainParams.ofConfig_eq_ok_iff.mp h
  have hdefault := (ChainBuilder.isPreset_of_preset? hb).addressEncoding_eq
  rw [ChainParams.Fits, ← ChainBuilder.family_eq_evm_iff hb]
  refine forall_congr' fun hfamily => ?_
  have hfamily : b.family = .evm := hfamily
  show config.addressEncoding.getD b.addressEncoding = .evm ↔ _
  rw [hdefault, hfamily]
  cases config.addressEncoding with
  | none => exact iff_of_true rfl (Or.inl rfl)
  | some encoding => simp

/-- The key of an entry is the one its address belongs to. -/
theorem exists_owner_of_entry {params : ChainParams} {root : KeyNode} {m : KeyMaterial}
    {p : AddressPath} {e : AddressEntry} (hroot : root.Intact m network)
    (h : Keychain.deriveEntry params root p = .ok e) :
    ∃ secret : Secret, e =
      ⟨secret.publicKey.address params.addressEncoding params.network, secret.toWord⟩ := by
  obtain ⟨⟨account, leaf⟩, hpath, -⟩ := bind_eq_ok_iff.mp h
  obtain ⟨m', hleaf⟩ := Keychain.exists_intact_of_derivePath hroot hpath
  rw [Keychain.deriveEntry_of_derivePath_eq_ok hleaf hpath] at h
  obtain ⟨secret, hval, hword, -⟩ := hleaf.exists_secret
  have hpublic : m'.publicKey = secret.publicKey := by
    rw [hleaf.publicKey_eq, ← hval]
    rfl
  rw [hpublic, ← hword] at h
  cases h
  exact ⟨secret, rfl⟩

namespace ChainSigner

variable {params : ChainParams}

/-- Where they fit, a complete payload is signed for the owner of the key. -/
theorem settles_sign (hfits : params.Fits) (maxInputs : UInt32) (secret : Secret)
    (h : (ofParams params maxInputs).Complete payload) :
    Settles ((ofParams params maxInputs).sign secret.toWord
      (secret.publicKey.address params.addressEncoding params.network) payload) := by
  unfold ofParams at h ⊢
  cases hfamily : params.family with
  | evm =>
      simp only [hfamily] at h ⊢
      obtain ⟨request, hdecode, hcomplete⟩ := h
      rw [hfits hfamily]
      exact Evm.settles_signPayload params.chainId secret params.network hdecode hcomplete
  | tron | utxo =>
      simp only [hfamily] at h ⊢
      obtain ⟨c, hdecode, hdata, hcount, hfew⟩ := h
      exact Container.Signer.settles_signPayload _ secret hdecode
        (Container.Signer.check_eq_ok_iff.mpr ⟨hdata, hcount, hfew⟩)

/-- Where they do not, no request is signed at all. -/
theorem sign_of_not_fits (hfits : ¬params.Fits) (maxInputs : UInt32) (key : Word256)
    (owner : Point) {request : Evm.Request} (hdecode : Evm.Request.decode payload = .ok request) :
    ∃ fault, (ofParams params maxInputs).sign key
      (owner.address params.addressEncoding params.network) payload = .error (.address fault) := by
  obtain ⟨hfamily, hencoding⟩ := Classical.not_imp.mp hfits
  unfold ofParams
  rw [hfamily]
  exact Evm.signPayload_of_other_encoding _ key owner params.network hencoding hdecode

end ChainSigner

namespace Plugin.Makes

variable {params : ChainParams} {pool : PoolConfig} {wordsCount : Nat} {phrase text : String}
  {k : Keychain} {p : AddressPath}

/-- Where a keychain has an address, it signs with the key of the owner. -/
theorem exists_owner (h : (ofParams params pool wordsCount).Makes phrase k)
    (haddress : (k.perform (.address p)).1 = .ok (.address text)) :
    ∃ secret : Secret, text = secret.publicKey.address params.addressEncoding params.network ∧
      ∀ payload, (k.perform (.sign p payload)).1 =
        (ChainSigner.ofParams params pool.maxContainerInputs).sign secret.toWord text payload >>=
          fun bytes => .ok (.signed text bytes) := by
  obtain ⟨master, hmaster, -, -, hsigner⟩ := h.sound
  obtain ⟨⟨m, hintact⟩, -⟩ := Keychain.intact_of_masterOf hmaster
  rw [h.perform_address_eq hmaster] at haddress
  obtain ⟨e, hderived, htext⟩ := bind_eq_ok_iff.mp haddress
  obtain ⟨secret, rfl⟩ := exists_owner_of_entry hintact hderived
  cases htext
  refine ⟨secret, rfl, fun payload => ?_⟩
  rw [Keychain.perform, h.withEntry_eq hmaster, hderived, hsigner]
  rfl

end Plugin.Makes

/-- **A signer can use the addresses of its chain, unless it is an account chain with another
encoding.**  Take a chain with any configuration, a keychain that its plugin makes, in whatever
state, and a path for which the keychain hands out an address.  If encoding and signer fit, every
complete payload is signed for this address, up to failures of the signature itself that have
nothing to do with the address.  If they do not, no payload that is a request is signed: the
signer does not read the address that was handed out.  The configurations of the second kind are
those of the account chain with an encoding of another family, and whether a configuration is
accepted does not depend on its encoding. -/
theorem signers_fit_encodings (config : ChainConfig) :
    (∀ (params : ChainParams) (pool : PoolConfig) (wordsCount : Nat) (phrase text : String)
        (k : Keychain) (p : AddressPath) (payload : Bytes),
      ChainParams.ofConfig config = .ok params →
      let plugin := Plugin.ofParams params pool wordsCount
      plugin.Makes phrase k → (k.perform (.address p)).1 = .ok (.address text) →
        let answer := (k.perform (.sign p payload)).1
        (params.Fits → plugin.signer.Complete payload →
          (∃ bytes, answer = .ok (.signed text bytes)) ∨
            ∃ fault, answer = .error fault ∧ Unsigned fault) ∧
        (¬params.Fits → (∃ request, Evm.Request.decode payload = .ok request) →
          ∃ fault, answer = .error (.address fault))) ∧
    (∀ params : ChainParams, ChainParams.ofConfig config = .ok params →
      (params.Fits ↔ (config.name = "ethereum" →
        config.addressEncoding = none ∨ config.addressEncoding = some .evm))) ∧
    (∀ encoding : Option AddressEncoding,
      (∃ params, ChainParams.ofConfig { config with addressEncoding := encoding } = .ok params) ↔
        ∃ params, ChainParams.ofConfig config = .ok params) := by
  refine ⟨?_, fun params => ChainParams.fits_iff, fun encoding => ?_⟩
  · intro params pool wordsCount phrase text k p payload _ plugin hmakes haddress answer
    obtain ⟨secret, htext, hsign⟩ := hmakes.exists_owner haddress
    have hanswer : answer = _ := hsign payload
    rw [htext] at hanswer ⊢
    constructor
    · intro hfits hcomplete
      rcases ChainSigner.settles_sign hfits pool.maxContainerInputs secret hcomplete with
        ⟨bytes, hbytes⟩ | ⟨fault, hfault, hunsigned⟩
      · rw [hbytes] at hanswer
        exact Or.inl ⟨bytes, hanswer⟩
      · rw [hfault] at hanswer
        exact Or.inr ⟨fault, hanswer, hunsigned⟩
    · rintro hfits ⟨request, hdecode⟩
      obtain ⟨fault, hfault⟩ := ChainSigner.sign_of_not_fits hfits pool.maxContainerInputs
        secret.toWord secret.publicKey hdecode
      rw [hfault] at hanswer
      exact ⟨fault, hanswer⟩
  · rw [ChainParams.exists_ofConfig_iff, ChainParams.exists_ofConfig_iff]

/-- A payload with everything that a legacy transaction needs. -/
def legacyTransfer : Bytes :=
  Bytes.ofString
    ("\x7b\"type\": \"legacy\", \"nonce\": 9, \"gas\": 21000, \"gas_price\": \"0x4a817c800\", "
      ++ "\"to\": \"0x3535353535353535353535353535353535353535\", "
      ++ "\"value\": \"0xde0b6b3a7640000\"\x7d")

set_option maxRecDepth 100000 in
theorem decode_legacyTransfer : Evm.Request.decode legacyTransfer =
    .ok (.legacy ⟨9, 21000, some 0x3535353535353535353535353535353535353535,
      some 0xde0b6b3a7640000, []⟩ (some 0x4a817c800)) := by
  decide +kernel

/-- On an account chain with addresses in Base58 it is signed for the owner of no key. -/
theorem legacyTransfer_for_unread_address :
    ∃ params, ChainParams.ofConfig { name := "ethereum", addressEncoding := some .tron } =
        .ok params ∧
      (ChainSigner.ofParams params 256).Complete legacyTransfer ∧
      ∀ secret : Secret, ∃ fault, (ChainSigner.ofParams params 256).sign secret.toWord
        (secret.publicKey.address params.addressEncoding params.network) legacyTransfer =
          .error (.address fault) := by
  have hconfig := ChainParams.ofConfig_eq_ok_iff
    (c := { name := "ethereum", addressEncoding := some .tron }) |>.mpr ⟨_, rfl, rfl⟩
  refine ⟨_, hconfig, ⟨_, decode_legacyTransfer, rfl, rfl, rfl⟩, fun secret => ?_⟩
  refine ChainSigner.sign_of_not_fits (fun hfits => ?_) 256 secret.toWord secret.publicKey
    decode_legacyTransfer
  exact absurd (hfits rfl) (by decide)

end Keyring
