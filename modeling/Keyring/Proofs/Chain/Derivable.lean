import Keyring.Proofs.Chain.Registry
import Keyring.Proofs.Mnemonic.Phrase
import Keyring.Proofs.Path.Derivation
import Keyring.Proofs.Pool.Signing
import Keyring.Proofs.Wallet.WatchOnly

/-!
# Which chains have addresses

An address is five levels below the master node.  Three of the levels come from the request and
two from the parameters of the chain.  If all of them are child numbers, an address is only
missing where a digest gives no key (`deriveEntry_of_inRange`); otherwise none is there at all,
and for a purpose or coin type that is too large this goes for every request.  Presets are never
too large, but nothing on the way from a configuration to a registry looks at what is configured
(`validate_of_scheme`, `exists_ofConfig_iff`).
-/

namespace Keyring

/-! ## Entries -/

namespace Keychain

variable {params : ChainParams} {root account leaf : KeyNode} {m : KeyMaterial}
  {network : Network} {p : AddressPath} {e : AddressEntry} {fault : WalletError}

theorem deriveEntry_of_derivePath_eq_error (h : params.scheme.derivePath root p = .error fault) :
    deriveEntry params root p = .error fault := by
  rw [deriveEntry, h]
  rfl

/-- An intact node has an address and a private key. -/
theorem deriveEntry_of_derivePath_eq_ok (hleaf : leaf.Intact m network)
    (h : params.scheme.derivePath root p = .ok (account, leaf)) :
    deriveEntry params root p =
      .ok ⟨m.publicKey.address params.addressEncoding params.network, m.secret⟩ := by
  rw [deriveEntry, h]
  show (leaf.address params.addressEncoding params.network >>= _) = _
  rw [KeyNode.address, hleaf.publicKey, KeyNode.privateKey, hleaf.liveMaterial]
  rfl

/-- The leaf below an intact node is intact. -/
theorem exists_intact_of_derivePath (hroot : root.Intact m network)
    (h : params.scheme.derivePath root p = .ok (account, leaf)) :
    ∃ m', leaf.Intact m' network := by
  obtain ⟨-, haccount, hleaf⟩ := PathScheme.derivePath_eq_ok_iff.mp h
  obtain ⟨m', hintact⟩ := haccount.intact hroot
  exact hleaf.intact hintact

/-- Below a master node the entry of a path is there unless a child has no key. -/
theorem deriveEntry_of_inRange (hroot : root.Intact m network) (hdepth : root.depth = 0)
    (h : (params.scheme.fullPath p).InRange) :
    (∃ e, deriveEntry params root p = .ok e) ∨
      ∃ index, deriveEntry params root p = .error (.invalidChildKey index) := by
  cases hpath : params.scheme.derivePath root p with
  | ok nodes =>
      obtain ⟨account, leaf⟩ := nodes
      obtain ⟨m', hintact⟩ := exists_intact_of_derivePath hroot hpath
      exact Or.inl ⟨_, deriveEntry_of_derivePath_eq_ok hintact hpath⟩
  | error fault =>
      have hlevels : root.depth.toNat + 5 ≤ 255 := by
        rw [hdepth]
        decide
      obtain ⟨index, -, rfl⟩ :=
        ((PathScheme.derivePath_eq_error_iff h).mp hpath).eq_invalidChildKey hroot hlevels
      exact Or.inr ⟨index, deriveEntry_of_derivePath_eq_error hpath⟩

/-- A purpose that is no child number is reported for every path. -/
theorem deriveEntry_of_large_purpose (h : hardenedOffset ≤ params.purpose) :
    deriveEntry params root p =
      .error (.derivation (.levelOutOfRange .purpose params.purpose)) := by
  have hindices := Bip44Path.indices_of_first_large (p := params.scheme.fullPath p) rfl
    (List.forall_mem_nil _) h
  exact deriveEntry_of_derivePath_eq_error (PathScheme.derivePath_of_indices_eq_error hindices)

/-- So is a coin type that is none, below a purpose that is one. -/
theorem deriveEntry_of_large_coinType (hpurpose : params.purpose < hardenedOffset)
    (h : hardenedOffset ≤ params.coinType) :
    deriveEntry params root p =
      .error (.derivation (.levelOutOfRange .coinType params.coinType)) := by
  have hlevels : (params.scheme.fullPath p).levels = [(.purpose, params.purpose)] ++
      (.coinType, params.coinType) ::
        [(.account, p.account), (.change, p.change), (.addressIndex, p.addressIndex)] := rfl
  have hindices := Bip44Path.indices_of_first_large hlevels
    (List.forall_mem_singleton.mpr hpurpose) h
  exact deriveEntry_of_derivePath_eq_error (PathScheme.derivePath_of_indices_eq_error hindices)

/-- The master node of a phrase is intact, and there is nothing above it. -/
theorem intact_of_masterOf {phrase : String} {master : KeyNode}
    (h : masterOf phrase network = .ok master) :
    (∃ m, master.Intact m network) ∧ master.depth = 0 := by
  obtain ⟨seed, -, hseed⟩ := bind_eq_ok_iff.mp h
  exact KeyNode.intact_of_ofSeed_eq_ok hseed

end Keychain

namespace Plugin.Makes

variable {plugin : Plugin} {phrase : String} {k : Keychain} {p : AddressPath}

/-- With child numbers at all levels, a keychain has an address unless a child has no key. -/
theorem perform_address_of_inRange (h : plugin.Makes phrase k)
    (hrange : (plugin.params.scheme.fullPath p).InRange) :
    (∃ text, (k.perform (.address p)).1 = .ok (.address text)) ∨
      ∃ index, (k.perform (.address p)).1 = .error (.invalidChildKey index) := by
  obtain ⟨master, hmaster, -⟩ := h.sound
  obtain ⟨⟨m, hintact⟩, hdepth⟩ := Keychain.intact_of_masterOf hmaster
  rw [h.perform_address_eq hmaster]
  rcases Keychain.deriveEntry_of_inRange hintact hdepth hrange with ⟨e, he⟩ | ⟨index, herror⟩
  · rw [he]
    exact Or.inl ⟨e.address, rfl⟩
  · rw [herror]
    exact Or.inr ⟨index, rfl⟩

/-- With a purpose that is none, it answers nothing else. -/
theorem perform_address_of_large_purpose (h : plugin.Makes phrase k)
    (hpurpose : hardenedOffset ≤ plugin.params.purpose) (p : AddressPath) :
    (k.perform (.address p)).1 =
      .error (.derivation (.levelOutOfRange .purpose plugin.params.purpose)) := by
  obtain ⟨master, hmaster, -⟩ := h.sound
  rw [h.perform_address_eq hmaster, Keychain.deriveEntry_of_large_purpose hpurpose]
  rfl

theorem perform_address_of_large_coinType (h : plugin.Makes phrase k)
    (hpurpose : plugin.params.purpose < hardenedOffset)
    (hcoin : hardenedOffset ≤ plugin.params.coinType) (p : AddressPath) :
    (k.perform (.address p)).1 =
      .error (.derivation (.levelOutOfRange .coinType plugin.params.coinType)) := by
  obtain ⟨master, hmaster, -⟩ := h.sound
  rw [h.perform_address_eq hmaster, Keychain.deriveEntry_of_large_coinType hpurpose hcoin]
  rfl

end Plugin.Makes

/-! ## Configurations -/

/-- The purpose and coin type of a configuration are not looked at. -/
theorem Config.validate_of_scheme (c : Config) (purpose : UInt32) (coinType : Option UInt32) :
    { c with chain := { c.chain with purpose, coinType } }.validate = c.validate := by
  simp only [Config.validate, Config.fault?]

namespace Registry

variable {c : Config} {r : Registry} {plugin : Plugin}

/-- A chain that the configuration does not name has child numbers for its scheme. -/
theorem scheme_of_unnamed (h : IsBuiltin c plugin) (hname : plugin.name ≠ c.chain.name) :
    plugin.params.purpose < hardenedOffset ∧ plugin.params.coinType < hardenedOffset := by
  obtain ⟨b, hb, hparams⟩ := h.params_of_unnamed hname
  have hpreset := ChainBuilder.isPreset_of_preset? hb
  rw [hparams, ChainBuilder.build, ChainBuilder.coinType, hpreset.purpose_eq,
    hpreset.coinType?_eq]
  have hpurpose : Bip44Path.standardPurpose < hardenedOffset := by decide
  exact ⟨hpurpose, hpreset.coinType_lt⟩

/-- The chain that it names has what it sets, and else a child number. -/
theorem scheme_of_named (h : IsBuiltin c plugin) (hname : plugin.name = c.chain.name) :
    plugin.params.purpose = c.chain.purpose ∧
      (∀ coin, c.chain.coinType = some coin → plugin.params.coinType = coin) ∧
      (c.chain.coinType = none → plugin.params.coinType < hardenedOffset) := by
  obtain ⟨b, hb, hparams⟩ := ChainParams.ofConfig_eq_ok_iff.mp (h.params_of_named hname)
  have hpreset := ChainBuilder.isPreset_of_preset? hb
  rw [hparams, ChainBuilder.configured]
  refine ⟨rfl, fun coin hcoin => ?_, fun hnone => ?_⟩
  · simp only [hcoin, Option.getD_some]
  · simp only [hnone, Option.getD_none]
    exact hpreset.coinType_lt

/-- **A chain has addresses if its purpose and coin type are child numbers.**  Take any chain of
the registry of a validated configuration, and a keychain that its plugin makes, in whatever
state.  If the purpose and the coin type of the chain are below `2 ^ 31`, every address with three
such numbers is answered, unless a child has no key; otherwise none is, and the error names the
purpose or the coin type.  All chains but the one that is configured have such a scheme, and this
one has what is configured.  That can be anything: whether a configuration is validated and has a
registry does not depend on its purpose and its coin type. -/
theorem scheme_decides_addresses (c : Config) :
    (∀ (r : Registry) (plugin : Plugin), c.validate = .ok () →
      Registry.ofConfig c = .ok r → plugin ∈ r.plugins →
        (∀ (phrase : String) (k : Keychain) (p : AddressPath), plugin.Makes phrase k →
          let answer := (k.perform (.address p)).1
          (p.account.toNat < 2 ^ 31 → p.change.toNat < 2 ^ 31 → p.addressIndex.toNat < 2 ^ 31 →
            plugin.params.purpose.toNat < 2 ^ 31 → plugin.params.coinType.toNat < 2 ^ 31 →
              (∃ text, answer = .ok (.address text)) ∨
                ∃ index, answer = .error (.invalidChildKey index)) ∧
          (2 ^ 31 ≤ plugin.params.purpose.toNat →
            answer = .error (.derivation (.levelOutOfRange .purpose plugin.params.purpose))) ∧
          (plugin.params.purpose.toNat < 2 ^ 31 → 2 ^ 31 ≤ plugin.params.coinType.toNat →
            answer = .error (.derivation (.levelOutOfRange .coinType plugin.params.coinType)))) ∧
        (plugin.name ≠ c.chain.name →
          plugin.params.purpose.toNat < 2 ^ 31 ∧ plugin.params.coinType.toNat < 2 ^ 31) ∧
        (plugin.name = c.chain.name →
          plugin.params.purpose = c.chain.purpose ∧
          (∀ coin, c.chain.coinType = some coin → plugin.params.coinType = coin) ∧
          (c.chain.coinType = none → plugin.params.coinType.toNat < 2 ^ 31))) ∧
    (∀ (purpose : UInt32) (coinType : Option UInt32),
      let changed := { c with chain := { c.chain with purpose, coinType } }
      changed.validate = c.validate ∧
        ((∃ r, Registry.ofConfig changed = .ok r) ↔ ∃ r, Registry.ofConfig c = .ok r)) := by
  constructor
  · intro r plugin _ hregistry hplugin
    have hbuiltin : IsBuiltin c plugin := (of_ofConfig_eq_ok hregistry).2.2 plugin hplugin
    refine ⟨?_, scheme_of_unnamed hbuiltin, scheme_of_named hbuiltin⟩
    intro phrase k p hmakes answer
    refine ⟨?_, ?_, ?_⟩
    · intro haccount hchange hindex hpurpose hcoin
      exact hmakes.perform_address_of_inRange
        (PathScheme.inRange_fullPath_iff.mpr ⟨hpurpose, hcoin, haccount, hchange, hindex⟩)
    · intro hpurpose
      exact hmakes.perform_address_of_large_purpose hpurpose p
    · intro hpurpose hcoin
      exact hmakes.perform_address_of_large_coinType hpurpose hcoin p
  · intro purpose coinType
    refine ⟨c.validate_of_scheme purpose coinType, ?_⟩
    rw [exists_ofConfig_iff, exists_ofConfig_iff]

/-- With the purpose `2 ^ 31 + 44` there is a registry, with a chain of which no keychain ever
answers the first address.  Neither does the one that its plugin makes of the phrase of sixteen
zero bytes, nor that of the master node of `countingSeed`. -/
theorem large_purpose_is_accepted :
    let phrase := "abandon abandon abandon abandon abandon abandon abandon abandon abandon " ++
      "abandon abandon about"
    let fails (k : Keychain) : Prop := (k.perform (.address ⟨0, 0, 0⟩)).1 =
      .error (.derivation (.levelOutOfRange .purpose 2147483692))
    ({ chain := { purpose := 2147483692 } } : Config).validate = .ok () ∧
    ∃ r plugin, Registry.ofConfig { chain := { purpose := 2147483692 } } = .ok r ∧
      plugin ∈ r.plugins ∧ plugin.name = "ethereum" ∧
      (∀ text k, plugin.Makes text k → fails k) ∧
      (∃ seed, Mnemonic.seedOfPhrase phrase = .ok seed ∧
        ∀ master, KeyNode.ofSeed seed plugin.params.network = .ok master →
          ∃ k, plugin.keychain phrase = .ok k ∧ fails k) ∧
      ∃ master, KeyNode.ofSeed Keychain.countingSeed plugin.params.network = .ok master ∧
        fails (.ofMaster plugin.params plugin.signer plugin.maxRangeSize master) := by
  intro phrase fails
  have hbuiltin : "ethereum" ∈ builtinChains := by decide
  obtain ⟨r, hregistry⟩ :=
    (exists_ofConfig_iff (c := { chain := { purpose := 2147483692 } })).mpr hbuiltin
  obtain ⟨-, hnames, hplugins⟩ := of_ofConfig_eq_ok hregistry
  have hmem : "ethereum" ∈ r.names := by
    rw [hnames]
    decide
  obtain ⟨plugin, hplugin, hname⟩ := List.mem_map.mp hmem
  have hpurpose : plugin.params.purpose = 2147483692 :=
    (scheme_of_named (hplugins plugin hplugin) hname).1
  have hlarge : hardenedOffset ≤ plugin.params.purpose := by
    rw [hpurpose]
    decide
  have hfails : ∀ text k, plugin.Makes text k → fails k := fun text k hmakes =>
    (hmakes.perform_address_of_large_purpose hlarge _).trans (by rw [hpurpose])
  refine ⟨by rfl, r, plugin, hregistry, hplugin, hname, hfails, ?_, ?_⟩
  · have hvalid : Mnemonic.isValid phrase = true := by decide +kernel
    obtain ⟨m, hm⟩ := Mnemonic.isValid_iff.mp hvalid
    have hseed := Mnemonic.seedOfPhrase_eq_ok_iff.mpr ⟨m, hm, rfl⟩
    refine ⟨m.seed, hseed, fun master hmaster => ?_⟩
    have hkeychain : plugin.keychain phrase = _ := Keychain.ofPhrase_eq_ok_iff.mpr
      ⟨master, bind_eq_ok_iff.mpr ⟨m.seed, hseed, hmaster⟩, rfl⟩
    exact ⟨_, hkeychain, hfails phrase _ (.of_keychain hkeychain)⟩
  · obtain ⟨master, hmaster⟩ := Keychain.exists_ofSeed_countingSeed plugin.params.network
    refine ⟨master, hmaster, ?_⟩
    show (Keychain.perform _ _).1 = _
    rw [Keychain.perform_address_ofMaster, Keychain.deriveEntry_of_large_purpose hlarge, hpurpose]
    rfl

end Registry

end Keyring
