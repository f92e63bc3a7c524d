import Keyring.Proofs.KeyNode.Public
import Keyring.Proofs.Mnemonic.Master
import Keyring.Proofs.Path.Derivation
import Keyring.Proofs.Wallet.History

/-!
# Addresses of an exported account

The extended public key of an account is exported so that its addresses can be watched where
the private keys are not.  The keychain derives an address from the master node, with the
private keys of all levels; whoever has the exported text derives it from there, with public
keys alone.  The two levels below the account are never hardened, so both ways lead to the same
public key (`KeyNode.Intact.foldlM_derive_public?`), and thus to the same address.
-/

namespace Keyring

/-! ## Watching an account -/

namespace Keychain

variable {params : ChainParams} {master : KeyNode} {p : AddressPath} {e : AddressEntry}
  {k : Keychain}

/-- The address of an entry is found below the public node of its account. -/
theorem exists_leaf_of_deriveEntry {m : KeyMaterial} (hmaster : master.Intact m params.network)
    (hdepth : master.depth = 0) (h : deriveEntry params master p = .ok e) :
    ∃ account m' leaf, params.scheme.deriveAccount master p.account = .ok account ∧
      account.Intact m' params.network ∧ account.depth = 3 ∧
      account.childNumber.toNat = 2 ^ 31 + p.account.toNat ∧
      account.public?.bind (fun node => (node.derive p.change).bind (·.derive p.addressIndex)) =
        some leaf ∧
      leaf.key.address params.addressEncoding params.network = e.address := by
  obtain ⟨⟨account, leaf⟩, hpath, h⟩ := bind_eq_ok_iff.mp h
  obtain ⟨address, haddress, h⟩ := bind_eq_ok_iff.mp h
  obtain ⟨owner, howner, haddress⟩ := bind_eq_ok_iff.mp haddress
  obtain ⟨secret, -, h⟩ := bind_eq_ok_iff.mp h
  cases h
  cases haddress
  obtain ⟨hrange, hsteps, hleaf⟩ := PathScheme.derivePath_eq_ok_iff.mp hpath
  obtain ⟨-, -, hnumber, hchange, hindex⟩ := PathScheme.inRange_fullPath_iff.mp hrange
  obtain ⟨m', hintact⟩ := hsteps.intact hmaster
  obtain ⟨m'', hleafIntact⟩ := hleaf.intact hintact
  obtain rfl : m''.publicKey = owner := Except.ok.inj (hleafIntact.publicKey.symm.trans howner)
  obtain ⟨coinType, hchild⟩ := PathScheme.exists_parent_of_account hsteps
  have hthree : account.depth = 3 := by
    rw [← UInt16.toNat_inj, hsteps.toNat_depth, hdepth]
    rfl
  have hunhardened : ∀ index ∈ [p.change, p.addressIndex], index < hardenedOffset := by
    simp [hchange, hindex]
  have hpublic := hintact.foldlM_derive_public? hunhardened
  have hbelow : account.public?.bind
      (fun node => (node.derive p.change).bind (·.derive p.addressIndex)) = leaf.public? := by
    have hfold : [p.change, p.addressIndex].foldlM KeyNode.derive account = .ok leaf :=
      KeyNode.foldlM_derive_eq_ok_iff.mpr hleaf
    rw [hfold] at hpublic
    simp only [List.foldlM_cons, List.foldlM_nil, bind_pure] at hpublic
    exact hpublic.symm
  rw [hleafIntact.public?_eq] at hbelow
  exact ⟨account, m', _, PathScheme.deriveAccount_of_derivePath_eq_ok hpath, hintact, hthree,
    by rw [hchild.childNumber_eq, toNat_hardened hnumber], hbelow, rfl⟩

/-- **The addresses of an exported account are those of its keychain.**  Take the keychain of the
master node of a seed, which is that of every phrase with this seed, after any history.  If it
answers a request for an address, then it exports the public key of the account and is left as
it was; the text spells the public node of the account, three levels below the master node,
with the chain code and the public key of the account on the network of the chain; and the
address is that of the public key that is derived from this node alone, by the child `change` and
its child `addressIndex`. -/
theorem exported_account_key_derives_addresses (params : ChainParams) (signer : ChainSigner)
    (maxRangeSize : UInt32) {seed : Bytes} {master : KeyNode}
    (hmaster : KeyNode.ofSeed seed params.network = .ok master) (history : List Event) :
    let k := (ofMaster params signer maxRangeSize master).after history
    (∀ phrase, Mnemonic.seedOfPhrase phrase = .ok seed →
      ofPhrase params signer maxRangeSize phrase =
        .ok (ofMaster params signer maxRangeSize master)) ∧
    ∀ path text, (k.perform (.address path)).1 = .ok (.address text) →
      ∃ exported raw account m node leaf,
        k.perform (.extendedPublic path.account) = (.ok (.extendedPublic exported), k) ∧
        Base58.decodeCheck? exported = some raw ∧ raw.length = 78 ∧
        PublicNode.ofBytes? raw = some node ∧
        node.version = params.network.publicVersion ∧ node.depth = 3 ∧
        node.childNumber.toNat = 2 ^ 31 + path.account.toNat ∧
        params.scheme.deriveAccount master path.account = .ok account ∧
        account.material = some m ∧ node.chainCode = m.chainCode ∧ node.key = m.publicKey ∧
        raw.drop 45 = m.publicKey.compressed ∧
        (node.derive path.change).bind (·.derive path.addressIndex) = some leaf ∧
        leaf.key.address params.addressEncoding params.network = text := by
  intro k
  obtain ⟨⟨m₀, hintact₀⟩, hdepth₀⟩ := KeyNode.intact_of_ofSeed_eq_ok hmaster
  have hsound : Sound params master k :=
    (Sound.of_ofMaster params signer maxRangeSize master).after history
  constructor
  · intro phrase hseed
    exact ofPhrase_eq_ok_iff.mpr ⟨master, bind_eq_ok_iff.mpr ⟨seed, hseed, hmaster⟩, rfl⟩
  · intro path text haddress
    obtain ⟨e, k', hresolve, huse⟩ := withEntry_eq_ok haddress
    cases huse
    obtain ⟨account, m, leaf, haccount, hintact, hdepth, hnumber, hleaf, htext⟩ :=
      exists_leaf_of_deriveEntry hintact₀ hdepth₀ (hsound.derived_of_resolve hresolve)
    obtain ⟨exported, raw, hexported, hraw, hlength, hdata, hnode⟩ :=
      hintact.extendedPublic_read_back
    have hroot : k.root = some master := by
      obtain ⟨root, hroot, -⟩ := resolve_eq_ok_iff.mp hresolve
      rcases hsound.root_eq with hsame | ⟨hnone, -⟩
      · exact hsame
      · rw [hroot] at hnone
        cases hnone
    have hexport : k.extendedPublicOf path.account = .ok exported := by
      refine bind_eq_ok_iff.mpr ⟨master, liveRoot_of_root_eq_some hroot, ?_⟩
      rw [hsound.params_eq]
      exact bind_eq_ok_iff.mpr ⟨account, haccount, hexported⟩
    rw [hintact.public?_eq] at hnode hleaf
    refine ⟨exported, raw, account, m, _, leaf, ?_, hraw, hlength, hnode, rfl, ?_, hnumber,
      haccount, hintact.material_eq, rfl, rfl, hdata, hleaf, htext⟩
    · rw [perform, hexport]
      rfl
    · rw [hdepth]
      rfl

/-- A seed of 16 bytes. -/
def countingSeed : Bytes :=
  [0, 1, 2, 3, 4, 5, 6, 7, 8, 9, 10, 11, 12, 13, 14, 15]

/-- The master node of `countingSeed`. -/
def countingMaster : KeyNode :=
  .ofSecret ⟨0xe8f32e723decf4051aefac8e2c93c9c5b214313817cdb01a1494b917c8436b35, by decide,
      by decide⟩
    (Bytes.ofNat 32 0x873dff81c02f525623fd1fe5167eac3a55a049de3d314bb42ee227ffed37d508)
    0 0 0 .mainnet

/-- The node of the first account below it. -/
def countingAccount : KeyNode :=
  .ofSecret ⟨0x9c24ea2b92e4cd97a314adc872191120743853998e8be762f4bf571900deacf4, by decide,
      by decide⟩
    (Bytes.ofNat 32 0xb7af3b0710f62509668a737f2ee45beb0d59bc370a18c08df19b6267b75bd07d)
    3 0x86c4a070 hardenedOffset .mainnet

set_option maxRecDepth 100000 in
theorem ofSeed_countingSeed : KeyNode.ofSeed countingSeed .mainnet = .ok countingMaster := by
  decide +kernel

/-- Its scalar is a private key, so there is a master node on every network. -/
theorem exists_ofSeed_countingSeed (network : Network) :
    ∃ master, KeyNode.ofSeed countingSeed network = .ok master := by
  have hlength : ¬ (countingSeed.length < 16 ∨ 64 < countingSeed.length) := by decide
  by_cases husable : KeyNode.UsableSeed countingSeed
  · exact ⟨_, KeyNode.ofSeed_of_usable hlength husable network⟩
  · have hnone := KeyNode.ofSeed_of_unusable hlength husable .mainnet
    rw [ofSeed_countingSeed] at hnone
    cases hnone

set_option maxRecDepth 100000 in
theorem deriveAccount_countingMaster :
    (ChainBuilder.build { name := "ethereum", family := .evm }).scheme.deriveAccount
      countingMaster 0 = .ok countingAccount := by
  decide +kernel

set_option maxRecDepth 100000 in
theorem exported_account_key_of_countingSeed :
    let params := ChainBuilder.build { name := "ethereum", family := .evm }
    ∃ master, KeyNode.ofSeed countingSeed params.network = .ok master ∧
      let k := ofMaster params (.ofParams params 64) 100 master
      (k.perform (.address ⟨0, 1, 2⟩)).1 =
          .ok (.address "0x17B84F930f1FCa68Be1c29116CC5FAc74B1ED570") ∧
        ∃ exported raw node leaf,
          k.perform (.extendedPublic 0) = (.ok (.extendedPublic exported), k) ∧
          Base58.decodeCheck? exported = some raw ∧ PublicNode.ofBytes? raw = some node ∧
          (node.derive 1).bind (·.derive 2) = some leaf ∧
          leaf.key.address .evm .mainnet = "0x17B84F930f1FCa68Be1c29116CC5FAc74B1ED570" := by
  intro params
  refine ⟨_, ofSeed_countingSeed, ?_⟩
  intro k
  have hrange : (params.scheme.fullPath ⟨0, 1, 2⟩).InRange :=
    PathScheme.inRange_fullPath_iff.mpr (by decide)
  have hentry : (deriveEntry (ChainBuilder.build { name := "ethereum", family := .evm })
      countingMaster ⟨0, 1, 2⟩).map AddressEntry.address =
        .ok "0x17B84F930f1FCa68Be1c29116CC5FAc74B1ED570" := by
    rw [deriveEntry, PathScheme.derivePath_of_deriveAccount hrange deriveAccount_countingMaster]
    decide +kernel
  obtain ⟨e, hderived, htext⟩ := map_eq_ok_iff.mp hentry
  have haddress := address_ofMaster (.ofParams params 64) 100 hderived
  rw [htext] at haddress
  obtain ⟨exported, raw, -, -, node, leaf, hexported, hraw, -, hnode, -, -, -, -, -, -, -, -,
    hleaf, hkey⟩ := (exported_account_key_derives_addresses params (.ofParams params 64) 100
      ofSeed_countingSeed []).2 ⟨0, 1, 2⟩ _ haddress
  exact ⟨haddress, exported, raw, node, leaf, hexported, hraw, hnode, hleaf, hkey⟩

end Keychain

end Keyring
