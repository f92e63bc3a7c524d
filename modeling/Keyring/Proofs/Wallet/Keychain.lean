import Keyring.Proofs.Outcome
import Keyring.Proofs.Wallet.AddressCache
import Keyring.Wallet.Keychain

/-!
# What a keychain does

Every operation leaves its keychain as it was, but for entries that it has derived and
kept (`perform_keeps`).  That one statement covers single addresses, ranges and
signatures, whether they succeed or fail; the lemmas on `keep` say what it means for the
cache.
-/

namespace Keyring.Keychain

variable {k k' : Keychain} {p q : AddressPath} {e : AddressEntry}

/-! ## New keychains -/

/-- The keychain that a master node starts with. -/
def ofMaster (params : ChainParams) (signer : ChainSigner) (maxRangeSize : UInt32)
    (master : KeyNode) : Keychain :=
  ⟨params, signer, maxRangeSize, some master, .empty⟩

/-- The master node of a phrase. -/
def masterOf (phrase : String) (network : Network) : Except WalletError KeyNode := do
  let seed ← Mnemonic.seedOfPhrase phrase
  KeyNode.ofSeed seed network

/-- A phrase makes the keychain of its master node, and none without one. -/
theorem ofPhrase_eq_ok_iff {params : ChainParams} {signer : ChainSigner}
    {maxRangeSize : UInt32} {phrase : String} :
    ofPhrase params signer maxRangeSize phrase = .ok k ↔
      ∃ master, masterOf phrase params.network = .ok master ∧
        k = ofMaster params signer maxRangeSize master := by
  simp only [ofPhrase, masterOf, bind_eq_ok_iff, pure_eq_ok_iff]
  constructor
  · rintro ⟨seed, hseed, master, hmaster, rfl⟩
    exact ⟨master, ⟨seed, hseed, hmaster⟩, rfl⟩
  · rintro ⟨master, ⟨seed, hseed, hmaster⟩, rfl⟩
    exact ⟨seed, hseed, master, hmaster, rfl⟩

/-! ## Keeping derived entries -/

section Keep

variable {cache : AddressCache} {derived : List (AddressPath × AddressEntry)}

@[simp] theorem keep_nil (cache : AddressCache) : keep cache [] = cache := rfl

@[simp] theorem keep_cons (cache : AddressCache) (d : AddressPath × AddressEntry)
    (derived : List (AddressPath × AddressEntry)) :
    keep cache (d :: derived) = keep (cache.insert d.1 d.2) derived := rfl

theorem keep_append (cache : AddressCache) (derived₁ derived₂ : List (AddressPath × AddressEntry)) :
    keep cache (derived₁ ++ derived₂) = keep (keep cache derived₁) derived₂ :=
  List.foldl_append

theorem entries_suffix_keep (cache : AddressCache)
    (derived : List (AddressPath × AddressEntry)) :
    cache.entries <:+ (keep cache derived).entries := by
  induction derived generalizing cache with
  | nil => exact List.suffix_rfl
  | cons d derived ih => exact (cache.entries_suffix_insert d.1 d.2).trans (ih _)

theorem get?_keep_of_get?_eq_some (derived : List (AddressPath × AddressEntry))
    (h : cache.get? p = some e) : (keep cache derived).get? p = some e := by
  induction derived generalizing cache with
  | nil => exact h
  | cons d derived ih => exact ih (AddressCache.get?_insert_of_get?_eq_some d.2 h)

theorem keys_nodup_keep (derived : List (AddressPath × AddressEntry))
    (h : cache.keys.Nodup) : (keep cache derived).keys.Nodup := by
  induction derived generalizing cache with
  | nil => exact h
  | cons d derived ih => exact ih (AddressCache.keys_nodup_insert d.1 d.2 h)

theorem mem_entries_keep {entry : String × AddressEntry}
    (h : entry ∈ (keep cache derived).entries) :
    entry ∈ cache.entries ∨ ∃ d ∈ derived, entry = (d.1.cacheKey, d.2) := by
  induction derived generalizing cache with
  | nil => exact Or.inl h
  | cons d derived ih =>
      rcases ih h with hinsert | ⟨d', hd', hentry⟩
      · rcases AddressCache.mem_entries_insert hinsert with hnew | hold
        · exact Or.inr ⟨d, List.mem_cons_self, hnew⟩
        · exact Or.inl hold
      · exact Or.inr ⟨d', List.mem_cons_of_mem _ hd', hentry⟩

end Keep

/-! ## Single addresses -/

section Resolve

variable {root : KeyNode} {fault : WalletError}

theorem liveRoot_of_root_eq_none (h : k.root = none) : k.liveRoot = .error .keyCleared := by
  simp [liveRoot, h]

theorem liveRoot_of_root_eq_some (h : k.root = some root) : k.liveRoot = .ok root := by
  simp [liveRoot, h]

theorem liveRoot_eq_ok_iff : k.liveRoot = .ok root ↔ k.root = some root := by
  unfold liveRoot
  cases k.root <;> simp

theorem resolve_of_unloaded (hroot : k.root = none) : k.resolve p = .error .keyCleared := by
  rw [resolve, liveRoot_of_root_eq_none hroot]
  rfl

theorem resolve_of_cached (hroot : k.root = some root) (hcached : k.cache.get? p = some e) :
    k.resolve p = .ok (e, k) := by
  rw [resolve, liveRoot_of_root_eq_some hroot, hcached]
  rfl

theorem resolve_of_derived (hroot : k.root = some root) (hcached : k.cache.get? p = none)
    (hderived : deriveEntry k.params root p = .ok e) :
    k.resolve p = .ok (e, { k with cache := k.cache.insert p e }) := by
  rw [resolve, liveRoot_of_root_eq_some hroot, hcached]
  show (deriveEntry k.params root p >>= _) = _
  rw [hderived]
  rfl

theorem resolve_of_underived (hroot : k.root = some root) (hcached : k.cache.get? p = none)
    (hderived : deriveEntry k.params root p = .error fault) :
    k.resolve p = .error fault := by
  rw [resolve, liveRoot_of_root_eq_some hroot, hcached]
  show (deriveEntry k.params root p >>= _) = _
  rw [hderived]
  rfl

/-- A path is resolved by the entry it has, or else by the entry that is derived for it
and kept. -/
theorem resolve_eq_ok_iff : k.resolve p = .ok (e, k') ↔
    ∃ root, k.root = some root ∧
      (k.cache.get? p = some e ∧ k' = k ∨
        k.cache.get? p = none ∧ deriveEntry k.params root p = .ok e ∧
          k' = { k with cache := k.cache.insert p e }) := by
  constructor
  · intro h
    cases hroot : k.root with
    | none => simp [resolve_of_unloaded hroot] at h
    | some root =>
        refine ⟨root, rfl, ?_⟩
        cases hcached : k.cache.get? p with
        | some kept =>
            rw [resolve_of_cached hroot hcached] at h
            cases h
            exact Or.inl ⟨rfl, rfl⟩
        | none =>
            cases hderived : deriveEntry k.params root p with
            | error fault => simp [resolve_of_underived hroot hcached hderived] at h
            | ok entry =>
                rw [resolve_of_derived hroot hcached hderived] at h
                cases h
                exact Or.inr ⟨rfl, rfl, by rw [hroot]⟩
  · rintro ⟨root, hroot, ⟨hcached, rfl⟩ | ⟨hcached, hderived, rfl⟩⟩
    · exact resolve_of_cached hroot hcached
    · exact resolve_of_derived hroot hcached hderived

end Resolve

/-! ## Deriving several paths -/

section DeriveAll

variable {params : ChainParams} {root : KeyNode} {paths : List AddressPath} {race : Nat}
  {derived : List (AddressPath × AddressEntry)} {fault : WalletError}

theorem deriveOne_eq_ok_iff {d : AddressPath × AddressEntry} :
    deriveOne params root p = .ok d ↔ d.1 = p ∧ deriveEntry params root p = .ok d.2 := by
  obtain ⟨q, entry⟩ := d
  simp only [deriveOne, bind_eq_ok_iff, pure_eq_ok_iff, Prod.mk.injEq]
  constructor
  · rintro ⟨entry', hentry, rfl, rfl⟩
    exact ⟨rfl, hentry⟩
  · rintro ⟨rfl, hentry⟩
    exact ⟨entry, hentry, rfl, rfl⟩

theorem deriveOne_eq_error_iff :
    deriveOne params root p = .error fault ↔ deriveEntry params root p = .error fault := by
  rw [deriveOne, bind_eq_error_iff, or_iff_left]
  rintro ⟨entry, -, hpure⟩
  exact pure_ne_error hpure

/-- Paths are derived if each of them is, whoever wins the race. -/
theorem deriveAll_eq_ok_iff : deriveAll params root paths race = .ok derived ↔
    paths.mapM (deriveOne params root) = .ok derived := by
  conv_rhs => rw [← List.take_append_drop race paths, List.mapM_append]
  simp only [deriveAll, bind_eq_ok_iff]
  constructor
  · rintro ⟨later, hlater, earlier, hearlier, hderived⟩
    exact ⟨earlier, hearlier, later, hlater, hderived⟩
  · rintro ⟨earlier, hearlier, later, hlater, hderived⟩
    exact ⟨later, hlater, earlier, hearlier, hderived⟩

/-- The failure that is reported is the failure of one of the paths. -/
theorem exists_of_deriveAll_eq_error (h : deriveAll params root paths race = .error fault) :
    ∃ p ∈ paths, deriveEntry params root p = .error fault := by
  rcases bind_eq_error_iff.mp h with hlater | ⟨later, -, h⟩
  · obtain ⟨p, hp, hfault⟩ := exists_of_mapM_eq_error hlater
    exact ⟨p, List.mem_of_mem_drop hp, deriveOne_eq_error_iff.mp hfault⟩
  · rcases bind_eq_error_iff.mp h with hearlier | ⟨earlier, -, hpure⟩
    · obtain ⟨p, hp, hfault⟩ := exists_of_mapM_eq_error hearlier
      exact ⟨p, List.mem_of_mem_take hp, deriveOne_eq_error_iff.mp hfault⟩
    · exact absurd hpure pure_ne_error

/-- Every failure can win the race. -/
theorem exists_race_deriveAll_eq_error (hp : p ∈ paths)
    (hfault : deriveEntry params root p = .error fault) :
    ∃ race, deriveAll params root paths race = .error fault := by
  obtain ⟨before, after, rfl⟩ := List.append_of_mem hp
  refine ⟨before.length, ?_⟩
  rw [deriveAll, List.drop_left, List.mapM_cons, deriveOne_eq_error_iff.mpr hfault]
  rfl

/-- Every entry of a derived list is derived for its own path. -/
theorem derived_of_mem (h : paths.mapM (deriveOne params root) = .ok derived)
    {d : AddressPath × AddressEntry} (hd : d ∈ derived) :
    deriveEntry params root d.1 = .ok d.2 := by
  obtain ⟨p, -, hstep⟩ := exists_of_mem_of_mapM_eq_ok h hd
  obtain ⟨rfl, hentry⟩ := deriveOne_eq_ok_iff.mp hstep
  exact hentry

end DeriveAll

/-! ## Ranges -/

section Collect

variable {ranges : List AddressRange} {race : Nat} {accounts : List Account}

/-- Ranges are collected from the entries that the cache holds once everything that was
missing is derived and kept. -/
theorem collect_eq_ok_iff :
    k.collect ranges race = .ok (accounts, k') ↔
      checkRanges k.maxRangeSize 0 ranges = .ok () ∧
        ∃ paths root derived, pathsOf ranges = .ok paths ∧ k.root = some root ∧
          (missing k.cache paths).mapM (deriveOne k.params root) = .ok derived ∧
          paths.mapM (accountOf (keep k.cache derived)) = .ok accounts ∧
          k' = { k with cache := keep k.cache derived } := by
  unfold collect
  -- The first step answers nothing but that it succeeded, which the empty pattern drops.
  simp only [bind_eq_ok_iff, pure_eq_ok_iff, liveRoot_eq_ok_iff, deriveAll_eq_ok_iff,
    Prod.mk.injEq]
  constructor
  · rintro ⟨⟨⟩, hcheck, paths, hpaths, root, hroot, derived, hderived, _, haccounts, rfl, rfl⟩
    exact ⟨hcheck, paths, root, derived, hpaths, hroot, hderived, haccounts, rfl⟩
  · rintro ⟨hcheck, paths, root, derived, hpaths, hroot, hderived, haccounts, rfl⟩
    exact ⟨(), hcheck, paths, hpaths, root, hroot, derived, hderived, accounts, haccounts,
      rfl, rfl⟩

end Collect

/-! ## One operation -/

/-- What every operation does to its keychain: it derives some entries and keeps them. -/
def Keeps (k k' : Keychain) : Prop :=
  ∃ derived : List (AddressPath × AddressEntry),
    k' = { k with cache := keep k.cache derived } ∧
      ∀ d ∈ derived, ∃ root, k.root = some root ∧ deriveEntry k.params root d.1 = .ok d.2

theorem Keeps.refl (k : Keychain) : k.Keeps k :=
  ⟨[], rfl, by simp⟩

theorem Keeps.trans {k'' : Keychain} (h : k.Keeps k') (h' : k'.Keeps k'') : k.Keeps k'' := by
  obtain ⟨derived₁, rfl, hderived₁⟩ := h
  obtain ⟨derived₂, rfl, hderived₂⟩ := h'
  refine ⟨derived₁ ++ derived₂, by rw [keep_append], fun d hd => ?_⟩
  rcases List.mem_append.mp hd with hd | hd
  · exact hderived₁ d hd
  · exact hderived₂ d hd

theorem resolve_keeps (h : k.resolve p = .ok (e, k')) : k.Keeps k' := by
  obtain ⟨root, hroot, ⟨-, rfl⟩ | ⟨-, hderived, rfl⟩⟩ := resolve_eq_ok_iff.mp h
  · exact Keeps.refl k'
  · exact ⟨[(p, e)], rfl, by simpa using ⟨root, hroot, hderived⟩⟩

theorem withEntry_keeps (k : Keychain) (p : AddressPath)
    (use : AddressEntry → Except WalletError Answer) : k.Keeps (k.withEntry p use).2 := by
  unfold withEntry
  split
  · next h => exact resolve_keeps h
  · exact Keeps.refl k

theorem collect_keeps {ranges : List AddressRange} {race : Nat} {accounts : List Account}
    (h : k.collect ranges race = .ok (accounts, k')) : k.Keeps k' := by
  obtain ⟨-, paths, root, derived, -, hroot, hderived, -, rfl⟩ := collect_eq_ok_iff.mp h
  exact ⟨derived, rfl, fun d hd => ⟨root, hroot, derived_of_mem hderived hd⟩⟩

theorem perform_keeps (k : Keychain) (op : Operation) : k.Keeps (k.perform op).2 := by
  cases op with
  | touch => exact Keeps.refl k
  | loadAccount p => exact withEntry_keeps k p _
  | address p => exact withEntry_keeps k p _
  | accounts ranges race =>
      simp only [perform]
      split
      · next h => exact collect_keeps h
      · exact Keeps.refl k
  | sign p payload => exact withEntry_keeps k p _
  | extendedPublic account => exact Keeps.refl k

end Keyring.Keychain
