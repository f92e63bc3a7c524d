import Mathlib.Data.List.Sort
import Keyring.Chain.Plugin
import Keyring.Proofs.Outcome

/-!
# The registry of a configuration

A configuration changes the parameters of the chain that it names, and of no other.  Nothing of
what it sets is ever refused: a value can be set only once, but the builder of a known chain comes
with no value set (`ChainBuilder.isPreset_of_preset?`), so the parameters are read off the two
(`ChainParams.ofConfig_eq_ok_iff`).  A name can be registered only once as well, but the built-in
chains have different names.  So all that a configuration has to get right is the name of its
chain (`exists_ofConfig_iff`).
-/

namespace Keyring

/-! ## Builders -/

namespace ChainBuilder

variable {b : ChainBuilder} {name : String}

/-- The builder of a chain that is known by name. -/
structure IsPreset (b : ChainBuilder) (name : String) : Prop where
  name_eq : b.name = name
  chainId?_eq : b.chainId? = none
  coinType?_eq : b.coinType? = none
  purpose_eq : b.purpose = Bip44Path.standardPurpose
  coinType_lt : b.defaultCoinType < hardenedOffset
  addressEncoding_eq : b.addressEncoding = b.family.addressEncoding

theorem isPreset_of_preset? (h : preset? name = some b) : b.IsPreset name := by
  unfold preset? at h
  split at h <;> cases h <;> exact ⟨rfl, rfl, rfl, rfl, by decide, rfl⟩

theorem exists_preset?_iff : (∃ b, preset? name = some b) ↔ name ∈ Registry.builtinChains := by
  simp only [Registry.builtinChains, List.mem_cons, List.not_mem_nil, or_false]
  constructor
  · rintro ⟨b, h⟩
    unfold preset? at h
    split at h
    · exact Or.inl rfl
    · exact Or.inr (Or.inl rfl)
    · exact Or.inr (Or.inr rfl)
    · cases h
  · rintro (rfl | rfl | rfl) <;> exact ⟨_, rfl⟩

/-- The parameters that a builder without set values gives under a configuration. -/
def configured (b : ChainBuilder) (c : ChainConfig) : ChainParams where
  name := b.name
  family := b.family
  chainId := c.chainId.getD b.defaultChainId
  coinType := c.coinType.getD b.defaultCoinType
  purpose := c.purpose
  network := c.network
  addressEncoding := c.addressEncoding.getD b.addressEncoding

theorem IsPreset.configure (h : b.IsPreset name) (c : ChainConfig) :
    ∃ b', b.configure c = .ok b' ∧ b'.build = b.configured c := by
  obtain ⟨-, hchainId, hcoinType, -, -, -⟩ := h
  obtain ⟨_, _, chainId?, coinType?, _, _, _, _, _⟩ := b
  cases hchainId
  cases hcoinType
  obtain ⟨_, chainId?, coinType?, _, _, _⟩ := c
  cases chainId? <;> cases coinType? <;> exact ⟨_, rfl, rfl⟩

end ChainBuilder

theorem ChainParams.ofConfig_eq_ok_iff {c : ChainConfig} {params : ChainParams} :
    ChainParams.ofConfig c = .ok params ↔
      ∃ b, ChainBuilder.preset? c.name = some b ∧ params = b.configured c := by
  unfold ChainParams.ofConfig
  split
  · next b hb =>
      obtain ⟨b', hb', hbuild⟩ := (ChainBuilder.isPreset_of_preset? hb).configure c
      rw [hb', hb]
      constructor
      · intro h
        cases h
        exact ⟨b, rfl, hbuild⟩
      · rintro ⟨b'', hsome, rfl⟩
        cases hsome
        exact congrArg Except.ok hbuild
  · next hnone =>
      rw [hnone]
      exact ⟨nofun, nofun⟩

/-- A configuration gives parameters if its name is known. -/
theorem ChainParams.exists_ofConfig_iff {c : ChainConfig} :
    (∃ params, ChainParams.ofConfig c = .ok params) ↔ c.name ∈ Registry.builtinChains := by
  rw [← ChainBuilder.exists_preset?_iff]
  constructor
  · rintro ⟨params, h⟩
    obtain ⟨b, hb, -⟩ := ChainParams.ofConfig_eq_ok_iff.mp h
    exact ⟨b, hb⟩
  · rintro ⟨b, hb⟩
    exact ⟨_, ChainParams.ofConfig_eq_ok_iff.mpr ⟨b, hb, rfl⟩⟩

namespace Registry

variable {c : Config} {r r' : Registry} {name : String} {names : List String} {plugin : Plugin}

/-- The parameters of a built-in chain come from its preset, changed or not. -/
theorem builtinParams_eq_ok_iff {params : ChainParams} : builtinParams c name = .ok params ↔
    ∃ b, ChainBuilder.preset? name = some b ∧
      params = if name = c.chain.name then b.configured c.chain else b.build := by
  unfold builtinParams
  split
  · next hname => rw [ChainParams.ofConfig_eq_ok_iff, hname]
  · cases ChainBuilder.preset? name <;> simp [eq_comm]

theorem name_of_builtinParams {params : ChainParams} (h : builtinParams c name = .ok params) :
    params.name = name := by
  obtain ⟨b, hb, rfl⟩ := builtinParams_eq_ok_iff.mp h
  have hname := (ChainBuilder.isPreset_of_preset? hb).name_eq
  split <;> exact hname

theorem exists_builtinParams (c : Config) (h : name ∈ builtinChains) :
    ∃ params, builtinParams c name = .ok params := by
  obtain ⟨b, hb⟩ := ChainBuilder.exists_preset?_iff.mpr h
  exact ⟨_, builtinParams_eq_ok_iff.mpr ⟨b, hb, rfl⟩⟩

/-! ## Registering -/

theorem isSome_find?_iff : (r.find? name).isSome ↔ name ∈ r.names := by
  rw [find?, List.find?_isSome, names, List.mem_map]
  simp only [beq_iff_eq]

theorem mem_insertSorted {p q : Plugin} {ps : List Plugin} :
    q ∈ insertSorted p ps ↔ q = p ∨ q ∈ ps := by
  induction ps with
  | nil => rw [insertSorted, List.mem_cons]
  | cons head rest ih =>
      rw [insertSorted]
      split
      · rw [List.mem_cons]
      · rw [List.mem_cons, ih, List.mem_cons]
        exact or_left_comm

/-- Where a plugin is put depends on nothing but the names. -/
theorem map_name_insertSorted (p : Plugin) (ps : List Plugin) :
    (insertSorted p ps).map Plugin.name = (ps.map Plugin.name).orderedInsert (· < ·) p.name := by
  induction ps with
  | nil => rfl
  | cons head rest ih =>
      rw [insertSorted, List.map_cons, List.orderedInsert]
      split
      · rfl
      · rw [List.map_cons, ih]

theorem register_eq_ok_iff :
    r.register plugin = .ok r' ↔
      plugin.name ∉ r.names ∧ r' = ⟨insertSorted plugin r.plugins⟩ := by
  unfold register
  split
  · next hfound => exact ⟨nofun, fun h => absurd (isSome_find?_iff.mp hfound) h.1⟩
  · next hnone => rw [Except.ok.injEq, and_iff_right (mt isSome_find?_iff.mpr hnone), eq_comm]

/-- The plugin of a built-in chain under a configuration. -/
def IsBuiltin (c : Config) (plugin : Plugin) : Prop :=
  ∃ params, builtinParams c plugin.name = .ok params ∧
    plugin = .ofParams params c.pool c.mnemonic.wordsCount.toNat

/-- The chain that the configuration names has what the configuration makes of it. -/
theorem IsBuiltin.params_of_named (h : IsBuiltin c plugin) (hname : plugin.name = c.chain.name) :
    ChainParams.ofConfig c.chain = .ok plugin.params := by
  obtain ⟨params, hparams, hplugin⟩ := h
  rw [builtinParams, if_pos hname] at hparams
  rw [hparams, hplugin]
  rfl

/-- Every other chain has its preset. -/
theorem IsBuiltin.params_of_unnamed (h : IsBuiltin c plugin)
    (hname : plugin.name ≠ c.chain.name) :
    ∃ b, ChainBuilder.preset? plugin.name = some b ∧ plugin.params = b.build := by
  obtain ⟨params, hparams, hplugin⟩ := h
  obtain ⟨b, hb, hvalue⟩ := builtinParams_eq_ok_iff.mp hparams
  rw [if_neg hname] at hvalue
  exact ⟨b, hb, (congrArg Plugin.params hplugin).trans hvalue⟩

/-- One built-in chain is added under its name. -/
theorem addBuiltin_eq_ok_iff : addBuiltin c r name = .ok r' ↔
    name ∉ r.names ∧ ∃ plugin, IsBuiltin c plugin ∧ plugin.name = name ∧
      r' = ⟨insertSorted plugin r.plugins⟩ := by
  rw [addBuiltin, bind_eq_ok_iff]
  constructor
  · rintro ⟨params, hparams, h⟩
    obtain ⟨hnew, rfl⟩ := register_eq_ok_iff.mp h
    have hname := name_of_builtinParams hparams
    have hplugin : (Plugin.ofParams params c.pool c.mnemonic.wordsCount.toNat).name = name := hname
    rw [hplugin] at hnew
    exact ⟨hnew, _, ⟨params, hplugin.symm ▸ hparams, rfl⟩, hplugin, rfl⟩
  · rintro ⟨hnew, plugin, ⟨params, hparams, hplugin⟩, rfl, rfl⟩
    refine ⟨params, hparams, ?_⟩
    rw [← hplugin]
    exact register_eq_ok_iff.mpr ⟨hnew, rfl⟩

/-- So are several. -/
theorem of_foldlM_addBuiltin (h : names.foldlM (addBuiltin c) r = .ok r') :
    r'.names = names.foldl (fun sorted name => sorted.orderedInsert (· < ·) name) r.names ∧
      ∀ plugin ∈ r'.plugins, plugin ∈ r.plugins ∨ IsBuiltin c plugin := by
  induction names generalizing r with
  | nil =>
      cases h
      exact ⟨rfl, fun plugin => Or.inl⟩
  | cons name names ih =>
      obtain ⟨next, hnext, h⟩ := bind_eq_ok_iff.mp h
      obtain ⟨-, added, hadded, hname, rfl⟩ := addBuiltin_eq_ok_iff.mp hnext
      obtain ⟨hnames, hplugins⟩ := ih h
      refine ⟨?_, fun plugin hplugin => ?_⟩
      · rw [hnames, List.foldl_cons, Registry.names, map_name_insertSorted, hname]
        rfl
      · rcases hplugins plugin hplugin with hmem | hbuiltin
        · rcases mem_insertSorted.mp hmem with rfl | hold
          · exact Or.inr hadded
          · exact Or.inl hold
        · exact Or.inr hbuiltin

theorem exists_foldlM_addBuiltin (c : Config) (hnodup : names.Nodup)
    (hbuiltin : ∀ name ∈ names, name ∈ builtinChains) (hnew : ∀ name ∈ names, name ∉ r.names) :
    ∃ r', names.foldlM (addBuiltin c) r = .ok r' := by
  induction names generalizing r with
  | nil => exact ⟨r, rfl⟩
  | cons name names ih =>
      obtain ⟨hname, hnodup⟩ := List.nodup_cons.mp hnodup
      obtain ⟨hfirst, hbuiltin⟩ := List.forall_mem_cons.mp hbuiltin
      obtain ⟨hfresh, hnew⟩ := List.forall_mem_cons.mp hnew
      obtain ⟨params, hparams⟩ := exists_builtinParams c hfirst
      have hplugin : (Plugin.ofParams params c.pool c.mnemonic.wordsCount.toNat).name = name :=
        name_of_builtinParams hparams
      have hadd := addBuiltin_eq_ok_iff.mpr
        ⟨hfresh, _, ⟨params, hplugin.symm ▸ hparams, rfl⟩, hplugin, rfl⟩
      -- The names that are left are new beside the one that was added.
      have hleft : ∀ other ∈ names, other ∉ Registry.names
          ⟨insertSorted (.ofParams params c.pool c.mnemonic.wordsCount.toNat) r.plugins⟩ := by
        intro other hother
        rw [Registry.names, map_name_insertSorted, hplugin, List.mem_orderedInsert, not_or]
        exact ⟨fun heq => hname (heq ▸ hother), hnew other hother⟩
      obtain ⟨r', hr'⟩ := ih hnodup hbuiltin hleft
      exact ⟨r', bind_eq_ok_iff.mpr ⟨_, hadd, hr'⟩⟩

/-! ## The built-in chains -/

/-- The built-in chains are registered in the order of their names. -/
theorem names_of_builtinChains (h : builtinChains.foldlM (addBuiltin c) empty = .ok r) :
    r.names = ["bitcoin", "ethereum", "tron"] := by
  rw [(of_foldlM_addBuiltin h).1]
  decide

theorem mem_builtinChains_iff :
    name ∈ builtinChains ↔ name ∈ ["bitcoin", "ethereum", "tron"] := by
  simp only [builtinChains, List.mem_cons, List.not_mem_nil, or_false]
  tauto

theorem get_eq_ok (h : name ∈ r.names) : ∃ plugin, r.get name = .ok plugin := by
  obtain ⟨plugin, hplugin⟩ := Option.isSome_iff_exists.mp (isSome_find?_iff.mpr h)
  exact ⟨plugin, by rw [get, hplugin]⟩

theorem mem_names_of_get_eq_ok (h : r.get name = .ok plugin) : name ∈ r.names := by
  unfold get at h
  split at h
  · next p hp => exact isSome_find?_iff.mp (Option.isSome_iff_exists.mpr ⟨p, hp⟩)
  · cases h

/-- A registry has the built-in chains, and the configuration names one of them. -/
theorem of_ofConfig_eq_ok (h : Registry.ofConfig c = .ok r) :
    c.chain.name ∈ builtinChains ∧ r.names = ["bitcoin", "ethereum", "tron"] ∧
      ∀ plugin ∈ r.plugins, IsBuiltin c plugin := by
  obtain ⟨all, hall, h⟩ := bind_eq_ok_iff.mp h
  obtain ⟨plugin, hplugin, h⟩ := bind_eq_ok_iff.mp h
  cases h
  have hnames := names_of_builtinChains hall
  refine ⟨?_, hnames, fun plugin hplugin => ?_⟩
  · rw [mem_builtinChains_iff, ← hnames]
    exact mem_names_of_get_eq_ok hplugin
  · exact ((of_foldlM_addBuiltin hall).2 plugin hplugin).resolve_left List.not_mem_nil

/-- A configuration has a registry if it names a built-in chain. -/
theorem exists_ofConfig_iff :
    (∃ r, Registry.ofConfig c = .ok r) ↔ c.chain.name ∈ builtinChains := by
  constructor
  · rintro ⟨r, h⟩
    exact (of_ofConfig_eq_ok h).1
  · intro hname
    obtain ⟨r, hr⟩ := exists_foldlM_addBuiltin (r := empty) c (by decide) (fun _ => id)
      (fun _ _ => List.not_mem_nil)
    have hmem : c.chain.name ∈ r.names := by
      rw [names_of_builtinChains hr]
      exact mem_builtinChains_iff.mp hname
    obtain ⟨plugin, hplugin⟩ := get_eq_ok hmem
    exact ⟨r, bind_eq_ok_iff.mpr ⟨r, hr, bind_eq_ok_iff.mpr ⟨plugin, hplugin, rfl⟩⟩⟩

end Registry

end Keyring
