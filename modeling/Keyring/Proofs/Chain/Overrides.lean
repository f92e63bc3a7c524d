import Keyring.Proofs.Chain.Derivable

/-!
# Overrides stay with their chain

A configuration sets parameters for one chain and limits for all of them.  What becomes of the
parameters is decided when the registry is filled (`IsBuiltin`): the chain that is named gets what
is configured, every other chain its preset.  From there on each plugin carries its parameters
twice, as they are and in what its signer was made of (`ChainSigner.Uses`), and hands both to its
keychains.  So the answers of a keychain are read off the parameters of its own plugin: the nodes
that it derives are those of their scheme (`ChainParams.Derives`), and its addresses and
signatures are those of these nodes.
-/

namespace Keyring

/-! ## Signers -/

/-- A signer that signs for a chain with the given parameters, and refuses containers with more
than `maxInputs` inputs. -/
def ChainSigner.Uses (signer : ChainSigner) (params : ChainParams) (maxInputs : UInt32) : Prop :=
  match signer with
  | .evm s => params.family = .evm ∧ s.chainId = params.chainId
  | .container s =>
    (params.family = .tron ∧ (∀ c, s.digest c = .ofBytes (sha256 c.rawData)) ∨
      params.family = .utxo ∧ ∀ c, s.digest c = .ofBytes (doubleSha256 c.rawData)) ∧
    s.encoding = params.addressEncoding ∧ s.network = params.network ∧ s.maxInputs = maxInputs

theorem ChainSigner.uses_ofParams (params : ChainParams) (maxInputs : UInt32) :
    (ofParams params maxInputs).Uses params maxInputs := by
  unfold ofParams
  split
  · next hevm => exact ⟨hevm, rfl⟩
  · next htron => exact ⟨Or.inl ⟨htron, fun c => rfl⟩, rfl, rfl, rfl⟩
  · next hutxo => exact ⟨Or.inr ⟨hutxo, fun c => rfl⟩, rfl, rfl, rfl⟩

/-! ## Nodes -/

namespace ChainParams

/-- The node of a path, derived from the master node of a phrase under the purpose and the coin
type of a chain. -/
def Derives (params : ChainParams) (phrase : String) (p : AddressPath) (leaf : KeyNode) : Prop :=
  ∃ master account, Keychain.masterOf phrase params.network = .ok master ∧
    (PathScheme.mk params.purpose params.coinType).derivePath master p = .ok (account, leaf)

/-- The node of an account. -/
def DerivesAccount (params : ChainParams) (phrase : String) (account : UInt32)
    (node : KeyNode) : Prop :=
  ∃ master, Keychain.masterOf phrase params.network = .ok master ∧
    (PathScheme.mk params.purpose params.coinType).deriveAccount master account = .ok node

/-- What an entry of a path holds are the address and the private key of its node. -/
theorem exists_deriveEntry_iff {params : ChainParams} {phrase : String} {p : AddressPath}
    {e : AddressEntry} {master : KeyNode}
    (hmaster : Keychain.masterOf phrase params.network = .ok master) :
    Keychain.deriveEntry params master p = .ok e ↔ ∃ leaf, params.Derives phrase p leaf ∧
      leaf.address params.addressEncoding params.network = .ok e.address ∧
      leaf.privateKey = .ok e.privateKey := by
  rw [Keychain.deriveEntry, bind_eq_ok_iff]
  constructor
  · rintro ⟨⟨account, leaf⟩, hpath, h⟩
    obtain ⟨address, haddress, h⟩ := bind_eq_ok_iff.mp h
    obtain ⟨key, hkey, h⟩ := bind_eq_ok_iff.mp h
    cases h
    exact ⟨leaf, ⟨master, account, hmaster, hpath⟩, haddress, hkey⟩
  · rintro ⟨leaf, ⟨master', account, hmaster', hpath⟩, haddress, hkey⟩
    rw [hmaster] at hmaster'
    cases hmaster'
    exact ⟨(account, leaf), hpath, bind_eq_ok_iff.mpr
      ⟨e.address, haddress, bind_eq_ok_iff.mpr ⟨e.privateKey, hkey, rfl⟩⟩⟩

/-- A node that is derived has a private key, with its address or without. -/
theorem Derives.exists_privateKey {params : ChainParams} {phrase : String} {p : AddressPath}
    {leaf : KeyNode} (h : params.Derives phrase p leaf) : ∃ key, leaf.privateKey = .ok key := by
  obtain ⟨master, account, hmaster, hpath⟩ := h
  obtain ⟨⟨m, hintact⟩, -⟩ := Keychain.intact_of_masterOf hmaster
  have hscheme : params.scheme.derivePath master p = .ok (account, leaf) := hpath
  obtain ⟨m', hleaf⟩ := Keychain.exists_intact_of_derivePath hintact hscheme
  have hkey : leaf.privateKey = .ok m'.secret := by
    rw [KeyNode.privateKey, hleaf.liveMaterial]
    rfl
  exact ⟨m'.secret, hkey⟩

end ChainParams

/-! ## Keychains of a plugin -/

namespace Plugin.Makes

variable {plugin : Plugin} {phrase : String} {k : Keychain} {p : AddressPath}

/-- The addresses of a keychain are those of the nodes of its chain. -/
theorem perform_address_eq_ok_iff (h : plugin.Makes phrase k) {text : String} :
    (k.perform (.address p)).1 = .ok (.address text) ↔
      ∃ leaf, plugin.params.Derives phrase p leaf ∧
        leaf.address plugin.params.addressEncoding plugin.params.network = .ok text := by
  obtain ⟨master, hmaster, -⟩ := h.sound
  rw [h.perform_address_eq hmaster, bind_eq_ok_iff]
  constructor
  · rintro ⟨e, hderived, htext⟩
    cases htext
    obtain ⟨leaf, hleaf, haddress, -⟩ :=
      (ChainParams.exists_deriveEntry_iff hmaster).mp hderived
    exact ⟨leaf, hleaf, haddress⟩
  · rintro ⟨leaf, hleaf, haddress⟩
    obtain ⟨key, hkey⟩ := hleaf.exists_privateKey
    exact ⟨⟨text, key⟩,
      (ChainParams.exists_deriveEntry_iff hmaster).mpr ⟨leaf, hleaf, haddress, hkey⟩, rfl⟩

/-- So are all the addresses in its answers, also those of ranges. -/
theorem answered (h : plugin.Makes phrase k) {op : Keychain.Operation} {answer : Keychain.Answer}
    (hanswer : (k.perform op).1 = .ok answer) :
    op.Answered (fun p text => ∃ leaf, plugin.params.Derives phrase p leaf ∧
      leaf.address plugin.params.addressEncoding plugin.params.network = .ok text) answer := by
  obtain ⟨master, hmaster, hsound, -, -⟩ := h.sound
  refine (hsound.answered hanswer).imp ?_
  rintro p text ⟨e, hderived, rfl⟩
  obtain ⟨leaf, hleaf, haddress, -⟩ := (ChainParams.exists_deriveEntry_iff hmaster).mp hderived
  exact ⟨leaf, hleaf, haddress⟩

/-- A signature is made by the signer of the plugin, with the key and for the address of a node
of its chain. -/
theorem perform_sign_eq_ok_iff (h : plugin.Makes phrase k) {payload bytes : Bytes}
    {text : String} :
    (k.perform (.sign p payload)).1 = .ok (.signed text bytes) ↔
      ∃ leaf key, plugin.params.Derives phrase p leaf ∧
        leaf.address plugin.params.addressEncoding plugin.params.network = .ok text ∧
        leaf.privateKey = .ok key ∧ plugin.signer.sign key text payload = .ok bytes := by
  obtain ⟨master, hmaster, -, -, hsigner⟩ := h.sound
  have hperform := h.withEntry_eq hmaster p fun entry => do
    return .signed entry.address (← k.signer.sign entry.privateKey entry.address payload)
  rw [Keychain.perform, hperform, hsigner, bind_eq_ok_iff]
  constructor
  · rintro ⟨e, hderived, huse⟩
    obtain ⟨signed, hsign, hpure⟩ := bind_eq_ok_iff.mp huse
    cases hpure
    obtain ⟨leaf, hleaf, haddress, hkey⟩ :=
      (ChainParams.exists_deriveEntry_iff hmaster).mp hderived
    exact ⟨leaf, e.privateKey, hleaf, haddress, hkey, hsign⟩
  · rintro ⟨leaf, key, hleaf, haddress, hkey, hsign⟩
    have hderived := (ChainParams.exists_deriveEntry_iff (e := ⟨text, key⟩) hmaster).mpr
      ⟨leaf, hleaf, haddress, hkey⟩
    exact ⟨_, hderived, bind_eq_ok_iff.mpr ⟨bytes, hsign, rfl⟩⟩

/-- The public key of an account is the one of the node of the account. -/
theorem perform_extendedPublic_eq_ok_iff (h : plugin.Makes phrase k) {account : UInt32}
    {text : String} :
    (k.perform (.extendedPublic account)).1 = .ok (.extendedPublic text) ↔
      ∃ node, plugin.params.DerivesAccount phrase account node ∧
        node.extendedPublic = .ok text := by
  obtain ⟨master, hmaster, hsound, hroot, -⟩ := h.sound
  rw [Keychain.perform, map_eq_ok_iff]
  simp only [Keychain.extendedPublicOf, Keychain.liveRoot_of_root_eq_some hroot, ok_bind,
    hsound.params_eq]
  constructor
  · rintro ⟨text', h, htext⟩
    cases htext
    obtain ⟨node, hnode, hpublic⟩ := bind_eq_ok_iff.mp h
    exact ⟨node, ⟨master, hmaster, hnode⟩, hpublic⟩
  · rintro ⟨node, ⟨master', hmaster', hnode⟩, hpublic⟩
    rw [hmaster] at hmaster'
    cases hmaster'
    exact ⟨text, bind_eq_ok_iff.mpr ⟨node, hnode, hpublic⟩, rfl⟩

end Plugin.Makes

/-! ## Registries -/

namespace Registry

variable {c : Config} {r : Registry} {plugin : Plugin} {name : String}

/-- The built-in chains are there before the name of the configuration is looked at. -/
theorem ofConfig_of_unknown (h : c.chain.name ∉ builtinChains) :
    Registry.ofConfig c = .error (.unsupportedChain c.chain.name) := by
  obtain ⟨r, hr⟩ := exists_foldlM_addBuiltin (r := empty) c (by decide) (fun _ => id)
    (fun _ _ => List.not_mem_nil)
  have hmissing : ¬ (r.find? c.chain.name).isSome := by
    rw [isSome_find?_iff, names_of_builtinChains hr, ← mem_builtinChains_iff]
    exact h
  have hget : r.get c.chain.name = .error (.unsupportedChain c.chain.name) := by
    rw [get, Option.not_isSome_iff_eq_none.mp hmissing]
  rw [ofConfig, hr, ok_bind, hget]
  rfl

theorem of_find?_eq_some (h : r.find? name = some plugin) :
    plugin ∈ r.plugins ∧ plugin.name = name := by
  rw [find?] at h
  have hname := List.find?_some h
  exact ⟨List.mem_of_find?_eq_some h, beq_iff_eq.mp hname⟩

/-- A plugin is found under its own name and under no other. -/
theorem get_eq_ok_iff (h : r.names.Nodup) :
    r.get name = .ok plugin ↔ plugin ∈ r.plugins ∧ plugin.name = name := by
  unfold get
  constructor
  · intro hget
    split at hget
    · next found hfound =>
        cases hget
        exact of_find?_eq_some hfound
    · cases hget
  · rintro ⟨hplugin, rfl⟩
    obtain ⟨found, hfound⟩ : ∃ found, r.find? plugin.name = some found :=
      Option.isSome_iff_exists.mp (isSome_find?_iff.mpr (List.mem_map_of_mem hplugin))
    obtain ⟨hmem, hname⟩ := of_find?_eq_some hfound
    have hsame : found = plugin := List.inj_on_of_nodup_map h hmem hplugin hname
    rw [hfound, hsame]

/-- A signer and the limits are made of the parameters of the plugin itself. -/
theorem IsBuiltin.uses (h : IsBuiltin c plugin) :
    plugin.signer.Uses plugin.params c.pool.maxContainerInputs ∧
      plugin.maxRangeSize = c.pool.maxRangeSize := by
  obtain ⟨params, -, hplugin⟩ := h
  rw [hplugin]
  exact ⟨ChainSigner.uses_ofParams params c.pool.maxContainerInputs, rfl⟩

/-! ## Main statement -/

/-- **Overrides stay with their chain.**  A configuration has a registry exactly if it names a
built-in chain, and is refused by the name otherwise.  The registry has the built-in chains in
ascending order, each under the name in its own parameters.  The chain that is named has the
parameters that the configuration makes, every other chain has those of its preset, whatever is
configured; and the limits of the pool are those of the configuration.

Each chain works with its own parameters.  Its signer has their chain id, or their digest, address
encoding and network.  A keychain that its plugin makes of a phrase, in whatever state it is,
answers a request for an address exactly with the one of the node that their purpose and coin type
lead to, in their encoding and for their network; there is no other address in any answer.
Signatures are made with the key of this node, for this address and by this signer, and what is
exported of an account is the node of the account under the same purpose and coin type. -/
theorem overrides_stay_with_their_chain (c : Config) :
    ((∃ r, Registry.ofConfig c = .ok r) ↔ c.chain.name ∈ builtinChains) ∧
    (c.chain.name ∉ builtinChains →
      Registry.ofConfig c = .error (.unsupportedChain c.chain.name)) ∧
    ∀ r, Registry.ofConfig c = .ok r →
      (r.names.Pairwise (· < ·) ∧ ∀ name, name ∈ r.names ↔ name ∈ builtinChains) ∧
      (∀ name plugin, r.get name = .ok plugin ↔
        plugin ∈ r.plugins ∧ plugin.params.name = name) ∧
      ∀ plugin ∈ r.plugins,
        (plugin.params.name = c.chain.name →
          ChainParams.ofConfig c.chain = .ok plugin.params) ∧
        (plugin.params.name ≠ c.chain.name →
          ∃ b, ChainBuilder.preset? plugin.params.name = some b ∧ plugin.params = b.build) ∧
        plugin.signer.Uses plugin.params c.pool.maxContainerInputs ∧
        plugin.maxRangeSize = c.pool.maxRangeSize ∧
        ∀ (phrase : String) (k : Keychain), plugin.Makes phrase k →
          let hasAddress (leaf : KeyNode) (text : String) :=
            leaf.address plugin.params.addressEncoding plugin.params.network = .ok text
          (∀ p text, (k.perform (.address p)).1 = .ok (.address text) ↔
            ∃ leaf, plugin.params.Derives phrase p leaf ∧ hasAddress leaf text) ∧
          (∀ op answer, (k.perform op).1 = .ok answer → op.Answered
            (fun p text => ∃ leaf, plugin.params.Derives phrase p leaf ∧ hasAddress leaf text)
            answer) ∧
          (∀ p payload text bytes, (k.perform (.sign p payload)).1 = .ok (.signed text bytes) ↔
            ∃ leaf key, plugin.params.Derives phrase p leaf ∧ hasAddress leaf text ∧
              leaf.privateKey = .ok key ∧ plugin.signer.sign key text payload = .ok bytes) ∧
          (∀ account text,
            (k.perform (.extendedPublic account)).1 = .ok (.extendedPublic text) ↔
              ∃ node, plugin.params.DerivesAccount phrase account node ∧
                node.extendedPublic = .ok text) := by
  refine ⟨exists_ofConfig_iff, ofConfig_of_unknown, fun r hregistry => ?_⟩
  obtain ⟨-, hnames, hplugins⟩ := of_ofConfig_eq_ok hregistry
  have hsorted : r.names.Pairwise (· < ·) := by
    rw [hnames]
    decide
  have hnodup : r.names.Nodup := by
    rw [hnames]
    decide
  refine ⟨⟨hsorted, fun name => ?_⟩, fun name plugin => get_eq_ok_iff hnodup, ?_⟩
  · rw [hnames]
    exact mem_builtinChains_iff.symm
  · intro plugin hplugin
    have hbuiltin := hplugins plugin hplugin
    refine ⟨hbuiltin.params_of_named, hbuiltin.params_of_unnamed, hbuiltin.uses.1,
      hbuiltin.uses.2, fun phrase k hmakes => ⟨?_, ?_, ?_, ?_⟩⟩
    · exact fun p text => hmakes.perform_address_eq_ok_iff
    · exact fun op answer => hmakes.answered
    · exact fun p payload text bytes => hmakes.perform_sign_eq_ok_iff
    · exact fun account text => hmakes.perform_extendedPublic_eq_ok_iff

end Registry

end Keyring
