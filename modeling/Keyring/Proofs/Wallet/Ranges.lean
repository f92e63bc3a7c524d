import Mathlib.Data.List.Dedup
import Keyring.Proofs.Wallet.History

/-!
# Ranges against single addresses

A request for ranges derives what is missing in one go: it drops the paths that have an
entry, sorts the rest, drops repetitions, derives, keeps, and reads the answer from the
cache.  Asking for one address after the other does none of this.  This file proves that
nobody can tell the difference, except that a request for ranges that fails leaves nothing
behind, and that the failure of any of its paths may be the one that is heard.

Both ways keep entries that are a function of the path (`derivedEntries`), so what they
leave in the cache depends only on which paths without an entry were asked for, neither
on their order nor on repetitions (`keep_derivedEntries_agrees`).
-/

namespace Keyring

/-! ## The paths of ranges -/

/-- The paths of a range, one for every index from the first to the last. -/
def AddressRange.span (r : AddressRange) : List AddressPath :=
  (List.range' r.first.toNat (r.last.toNat + 1 - r.first.toNat)).map fun i =>
    ⟨r.account, r.change, UInt32.ofNat i⟩

theorem AddressRange.paths_eq_span {r : AddressRange} (h : ¬ r.last < r.first) :
    r.paths = .ok r.span := by
  have hle : r.first.toNat ≤ r.last.toNat := by
    rw [UInt32.lt_iff_toNat_lt] at h
    omega
  have hsize : r.size = r.last.toNat + 1 - r.first.toNat := by
    unfold size
    omega
  have hpaths : (List.range r.size).map r.pathAt = r.span := by
    rw [span, List.range'_eq_map_range, List.map_map, hsize]
    rfl
  simp only [paths, count, if_neg h, ← hpaths]
  rfl

namespace Keychain

variable {k : Keychain} {p q : AddressPath} {ranges : List AddressRange}

/-- The paths of a request: those of its ranges, one range after the other. -/
def requested (ranges : List AddressRange) : List AddressPath :=
  ranges.flatMap AddressRange.span

theorem pathsOf_eq_requested (h : ∀ r ∈ ranges, ¬ r.last < r.first) :
    pathsOf ranges = .ok (requested ranges) := by
  have hspans : ranges.mapM AddressRange.paths = .ok (ranges.map AddressRange.span) :=
    mapM_eq_ok_map fun r hr => AddressRange.paths_eq_span (h r hr)
  rw [pathsOf, hspans, requested, List.flatMap_def]
  rfl

example : (requested [⟨0, 0, 1, 2⟩, ⟨0, 0, 2, 3⟩]).map (·.addressIndex) = [1, 2, 2, 3] := by
  decide

/-- Accepted ranges are not reversed. -/
theorem not_reversed_of_checkRanges {limit : UInt32} {total : Nat}
    (h : checkRanges limit total ranges = .ok ()) : ∀ r ∈ ranges, ¬ r.last < r.first := by
  induction ranges generalizing total with
  | nil => simp
  | cons r ranges ih =>
      obtain ⟨count, hcount, h⟩ := bind_eq_ok_iff.mp h
      have hfirst : ¬ r.last < r.first := by
        intro hreversed
        simp [AddressRange.count, hreversed] at hcount
      dsimp only at h
      split at h
      · cases h
      · exact List.forall_mem_cons.mpr ⟨hfirst, ih h⟩

/-- A request is rejected in the name of one of its ranges. -/
theorem range_of_checkRanges_error {limit : UInt32} {total : Nat} {e : WalletError}
    (h : checkRanges limit total ranges = .error e) :
    ∃ r ∈ ranges, e = .invalidRange r.first r.last := by
  induction ranges generalizing total with
  | nil => simp [checkRanges] at h
  | cons r ranges ih =>
      rcases bind_eq_error_iff.mp h with hcount | ⟨count, -, h⟩
      · unfold AddressRange.count at hcount
        split at hcount
        · cases hcount
          exact ⟨r, List.mem_cons_self, rfl⟩
        · cases hcount
      · dsimp only at h
        split at h
        · cases h
          exact ⟨r, List.mem_cons_self, rfl⟩
        · obtain ⟨r', hr', he⟩ := ih h
          exact ⟨r', List.mem_cons_of_mem _ hr', he⟩

/-! ## The paths that are missing -/

theorem mem_distinct {ps : List AddressPath} : p ∈ distinct ps ↔ p ∈ ps := by
  fun_induction distinct ps with
  | case1 q rest ih => simp [ih]
  | case2 q q' rest hne ih => simp [ih]
  | case3 ps hne => rfl

theorem mem_missing_iff {cache : AddressCache} {paths : List AddressPath} :
    p ∈ missing cache paths ↔ p ∈ paths ∧ cache.get? p = none := by
  rw [missing, mem_distinct, List.mem_mergeSort, List.mem_filter]
  simp [AddressCache.contains]

/-! ## Keeping what is derived for a list of paths -/

section Derived

variable (params : ChainParams) (root : KeyNode)

/-- The entries of those paths that can be derived. -/
def derivedEntries (paths : List AddressPath) : List (AddressPath × AddressEntry) :=
  paths.filterMap fun p => (deriveEntry params root p).toOption.map (p, ·)

variable {params root} {cache : AddressCache} {paths : List AddressPath} {e : AddressEntry}

@[simp] theorem derivedEntries_nil : derivedEntries params root [] = [] := rfl

theorem derivedEntries_cons_of_ok (h : deriveEntry params root p = .ok e)
    (paths : List AddressPath) :
    derivedEntries params root (p :: paths) = (p, e) :: derivedEntries params root paths := by
  simp [derivedEntries, h, Except.toOption]

theorem derivedEntries_cons_of_error {fault : WalletError}
    (h : deriveEntry params root p = .error fault) (paths : List AddressPath) :
    derivedEntries params root (p :: paths) = derivedEntries params root paths := by
  simp [derivedEntries, h, Except.toOption]

theorem mapM_deriveOne_eq_ok (h : ∀ p ∈ paths, ∃ e, deriveEntry params root p = .ok e) :
    paths.mapM (deriveOne params root) = .ok (derivedEntries params root paths) := by
  induction paths with
  | nil => rfl
  | cons p paths ih =>
      obtain ⟨e, he⟩ := h p List.mem_cons_self
      have htail := ih fun q hq => h q (List.mem_cons_of_mem _ hq)
      have hstep : deriveOne params root p = .ok (p, e) := deriveOne_eq_ok_iff.mpr ⟨rfl, he⟩
      rw [derivedEntries_cons_of_ok he, List.mapM_cons, hstep, ok_bind, htail]
      rfl

/-- What a cache holds after keeping: what it held before, else what is derived for the
paths of the list. -/
theorem get?_keep_derivedEntries (cache : AddressCache) (paths : List AddressPath)
    (q : AddressPath) :
    (keep cache (derivedEntries params root paths)).get? q =
      (cache.get? q).or (if q ∈ paths then (deriveEntry params root q).toOption else none) := by
  induction paths generalizing cache with
  | nil => simp
  | cons p paths ih =>
      cases hp : deriveEntry params root p with
      | error fault =>
          rw [derivedEntries_cons_of_error hp, ih]
          by_cases hq : q = p
          · simp [hq, hp, Except.toOption]
          · simp [hq]
      | ok e =>
          rw [derivedEntries_cons_of_ok hp, keep_cons, ih, AddressCache.get?_insert]
          by_cases hq : q = p
          · cases hcached : cache.get? p <;> simp [hq, hp, hcached, Except.toOption]
          · simp [hq]

/-- The entries that a cache gains: one for every path of the list that has none and can be
derived. -/
def Gains (params : ChainParams) (root : KeyNode) (cache : AddressCache)
    (paths : List AddressPath) (entry : String × AddressEntry) : Prop :=
  ∃ p ∈ paths, cache.get? p = none ∧
    ∃ e, deriveEntry params root p = .ok e ∧ entry = (p.cacheKey, e)

variable {entry : String × AddressEntry}

/-- What is kept for a path is not gained again for the rest. -/
theorem not_gains_insert (paths : List AddressPath) (e' : AddressEntry) :
    ¬ Gains params root (cache.insert p e) paths (p.cacheKey, e') := by
  rintro ⟨q, -, hnone, e', -, hkey⟩
  cases AddressPath.cacheKey_injective (congrArg Prod.fst hkey)
  simp [AddressCache.get?_insert] at hnone

theorem gains_cons_iff_of_ok (hp : deriveEntry params root p = .ok e)
    (hnone : cache.get? p = none) : Gains params root cache (p :: paths) entry ↔
      Gains params root (cache.insert p e) paths entry ∨ entry = (p.cacheKey, e) := by
  have hother : ∀ q, q ≠ p → (cache.insert p e).get? q = cache.get? q := fun q hq => by
    rw [AddressCache.get?_insert, if_neg hq]
  constructor
  · rintro ⟨q, hq, hqnone, e', hderived, rfl⟩
    by_cases hqp : q = p
    · subst hqp
      rw [hp] at hderived
      cases hderived
      exact Or.inr rfl
    · have hrest := (List.mem_cons.mp hq).resolve_left hqp
      exact Or.inl ⟨q, hrest, by rw [hother q hqp, hqnone], e', hderived, rfl⟩
  · rintro (⟨q, hq, hqnone, e', hderived, rfl⟩ | rfl)
    · refine ⟨q, List.mem_cons_of_mem _ hq, ?_, e', hderived, rfl⟩
      by_cases hqp : q = p
      · rw [hqp, hnone]
      · rw [← hother q hqp, hqnone]
    · exact ⟨p, List.mem_cons_self, hnone, e, hp, rfl⟩

/-- Keeping puts the entries that the cache gains in front of the old ones, each of them
once. -/
theorem exists_entries_keep_derivedEntries (params : ChainParams) (root : KeyNode)
    (cache : AddressCache) (paths : List AddressPath) :
    ∃ news, (keep cache (derivedEntries params root paths)).entries = news ++ cache.entries ∧
      news.Nodup ∧ ∀ entry, entry ∈ news ↔ Gains params root cache paths entry := by
  induction paths generalizing cache with
  | nil => exact ⟨[], rfl, List.nodup_nil, by simp [Gains]⟩
  | cons p paths ih =>
      cases hp : deriveEntry params root p with
      | error fault =>
          obtain ⟨news, hentries, hnodup, hmem⟩ := ih cache
          refine ⟨news, by rw [derivedEntries_cons_of_error hp, hentries], hnodup, ?_⟩
          simpa [Gains, hp] using hmem
      | ok e =>
          rw [derivedEntries_cons_of_ok hp, keep_cons]
          cases hcached : cache.get? p with
          | some kept =>
              rw [AddressCache.insert_of_get?_eq_some hcached]
              obtain ⟨news, hentries, hnodup, hmem⟩ := ih cache
              refine ⟨news, hentries, hnodup, ?_⟩
              simpa [Gains, hcached] using hmem
          | none =>
              -- The entry of `p` is kept first, so the later ones stand in front of it.
              obtain ⟨news, hentries, hnodup, hmem⟩ := ih (cache.insert p e)
              have hnew : (p.cacheKey, e) ∉ news := by
                rw [hmem]
                exact not_gains_insert paths e
              refine ⟨news ++ [(p.cacheKey, e)], ?_, ?_, fun entry => ?_⟩
              · rw [hentries, AddressCache.insert_of_get?_eq_none hcached]
                simp
              · exact hnodup.append (List.nodup_singleton _) (by simpa using hnew)
              · rw [List.mem_append, hmem, List.mem_singleton, gains_cons_iff_of_ok hp hcached]

/-- Keeping for two lists of paths leaves the same cache, if they have the same paths
without an entry. -/
theorem keep_derivedEntries_agrees {paths' : List AddressPath}
    (h : ∀ p, cache.get? p = none → (p ∈ paths ↔ p ∈ paths')) :
    (keep cache (derivedEntries params root paths)).Agrees
      (keep cache (derivedEntries params root paths')) := by
  constructor
  · obtain ⟨news, hentries, hnodup, hmem⟩ :=
      exists_entries_keep_derivedEntries params root cache paths
    obtain ⟨news', hentries', hnodup', hmem'⟩ :=
      exists_entries_keep_derivedEntries params root cache paths'
    have hperm : news.Perm news' := by
      refine (List.perm_ext_iff_of_nodup hnodup hnodup').mpr fun entry => ?_
      rw [hmem, hmem']
      constructor
      · rintro ⟨p, hp, hnone, hderived⟩
        exact ⟨p, (h p hnone).mp hp, hnone, hderived⟩
      · rintro ⟨p, hp, hnone, hderived⟩
        exact ⟨p, (h p hnone).mpr hp, hnone, hderived⟩
    rw [hentries, hentries']
    exact hperm.append_right cache.entries
  · intro p
    rw [get?_keep_derivedEntries, get?_keep_derivedEntries]
    cases hcached : cache.get? p with
    | some e => rfl
    | none => simp only [h p hcached]

/-- The missing paths, sorted and without repetitions, leave the same cache as all. -/
theorem keep_missing_agrees (root : KeyNode) :
    (keep cache (derivedEntries params root (missing cache paths))).Agrees
      (keep cache (derivedEntries params root paths)) :=
  keep_derivedEntries_agrees fun p hnone => by simp [mem_missing_iff, hnone]

/-- One entry is new for every path without one, repetitions left out. -/
theorem keys_keep_derivedEntries_perm
    (h : ∀ p ∈ paths, cache.get? p = none → ∃ e, deriveEntry params root p = .ok e) :
    (keep cache (derivedEntries params root paths)).keys.Perm
      (((paths.filter (!cache.contains ·)).dedup.map AddressPath.cacheKey) ++ cache.keys) := by
  obtain ⟨news, hentries, hnodup, hmem⟩ :=
    exists_entries_keep_derivedEntries params root cache paths
  have hkeys : (keep cache (derivedEntries params root paths)).keys =
      news.map Prod.fst ++ cache.keys := by
    rw [AddressCache.keys, hentries, List.map_append]
    rfl
  rw [hkeys]
  refine List.Perm.append_right cache.keys ?_
  have hnews : (news.map Prod.fst).Nodup := by
    refine hnodup.map_on fun entry hentry entry' hentry' hkey => ?_
    obtain ⟨p, -, -, e, hp, rfl⟩ := (hmem _).mp hentry
    obtain ⟨p', -, -, e', hp', rfl⟩ := (hmem _).mp hentry'
    cases AddressPath.cacheKey_injective hkey
    rw [hp] at hp'
    cases hp'
    rfl
  have hpaths : ((paths.filter (!cache.contains ·)).dedup.map AddressPath.cacheKey).Nodup :=
    (List.nodup_dedup _).map fun _ _ => AddressPath.cacheKey_injective
  refine (List.perm_ext_iff_of_nodup hnews hpaths).mpr fun key => ?_
  simp only [List.mem_map, List.mem_dedup, List.mem_filter, Bool.not_eq_true',
    AddressCache.contains_eq_false_iff]
  constructor
  · rintro ⟨entry, hentry, rfl⟩
    obtain ⟨p, hp, hnone, e, -, rfl⟩ := (hmem _).mp hentry
    exact ⟨p, ⟨hp, hnone⟩, rfl⟩
  · rintro ⟨p, ⟨hp, hnone⟩, rfl⟩
    obtain ⟨e, he⟩ := h p hp hnone
    exact ⟨(p.cacheKey, e), (hmem _).mpr ⟨p, hp, hnone, e, he, rfl⟩, rfl⟩

end Derived

/-! ## One address after the other -/

/-- The keychain after loading the accounts of some paths one after the other. -/
def loadEach (k : Keychain) (paths : List AddressPath) : Keychain :=
  paths.foldl (fun k p => (k.perform (.loadAccount p)).2) k

section Single

variable {root : KeyNode} {e : AddressEntry} {fault : WalletError}

theorem perform_loadAccount_of_resolve {k' : Keychain} (h : k.resolve p = .ok (e, k')) :
    k.perform (.loadAccount p) = (.ok (.account ⟨p, e.address⟩), k') := by
  simp only [perform, withEntry, h]

theorem perform_loadAccount_of_resolve_error (h : k.resolve p = .error fault) :
    k.perform (.loadAccount p) = (.error fault, k) := by
  simp only [perform, withEntry, h]

/-- Loading one account keeps what is derived for its path. -/
theorem perform_loadAccount_snd (hroot : k.root = some root) (p : AddressPath) :
    (k.perform (.loadAccount p)).2 =
      { k with cache := keep k.cache (derivedEntries k.params root [p]) } := by
  cases hderived : deriveEntry k.params root p with
  | error fault =>
      rw [derivedEntries_cons_of_error hderived, derivedEntries_nil, keep_nil]
      cases hcached : k.cache.get? p with
      | some kept =>
          rw [perform_loadAccount_of_resolve (resolve_of_cached hroot hcached)]
      | none =>
          rw [perform_loadAccount_of_resolve_error
            (resolve_of_underived hroot hcached hderived)]
  | ok e =>
      rw [derivedEntries_cons_of_ok hderived, derivedEntries_nil, keep_cons, keep_nil]
      cases hcached : k.cache.get? p with
      | some kept =>
          rw [perform_loadAccount_of_resolve (resolve_of_cached hroot hcached),
            AddressCache.insert_of_get?_eq_some hcached]
      | none =>
          rw [perform_loadAccount_of_resolve (resolve_of_derived hroot hcached hderived)]

theorem loadEach_eq (hroot : k.root = some root) (paths : List AddressPath) :
    k.loadEach paths =
      { k with cache := keep k.cache (derivedEntries k.params root paths) } := by
  induction paths generalizing k with
  | nil => rfl
  | cons p paths ih =>
      have hsplit : derivedEntries k.params root (p :: paths) =
          derivedEntries k.params root [p] ++ derivedEntries k.params root paths := by
        rw [derivedEntries, derivedEntries, derivedEntries, ← List.filterMap_append,
          List.singleton_append]
      have hstep := perform_loadAccount_snd hroot p
      have hroot' : (k.perform (.loadAccount p)).2.root = some root := by
        rw [hstep]
        exact hroot
      calc k.loadEach (p :: paths)
          = (k.perform (.loadAccount p)).2.loadEach paths := rfl
        _ = { k with
              cache := keep (keep k.cache (derivedEntries k.params root [p]))
                (derivedEntries k.params root paths) } := by rw [ih hroot', hstep]
        _ = { k with cache := keep k.cache (derivedEntries k.params root (p :: paths)) } := by
              rw [hsplit, keep_append]

end Single

/-! ## Ranges -/

/-- Whether the address of a path can be had: it was derived before, or it can be. -/
def Provides (k : Keychain) (root : KeyNode) (p : AddressPath) : Prop :=
  k.cache.contains p = true ∨ ∃ e, deriveEntry k.params root p = .ok e

theorem Provides.derives {root : KeyNode} (h : k.Provides root p) (hnone : k.cache.get? p = none) :
    ∃ e, deriveEntry k.params root p = .ok e := by
  refine h.resolve_left fun hcontains => ?_
  rw [AddressCache.contains_eq_false_iff.mpr hnone] at hcontains
  cases hcontains

section Collect

variable {root : KeyNode} {race : Nat} {e : WalletError}

theorem collect_of_rejected (h : checkRanges k.maxRangeSize 0 ranges = .error e) (race : Nat) :
    k.collect ranges race = .error e := by
  rw [collect, h]
  rfl

theorem collect_of_unloaded (h : checkRanges k.maxRangeSize 0 ranges = .ok ())
    (hroot : k.root = none) (race : Nat) : k.collect ranges race = .error .keyCleared := by
  rw [collect, h, pathsOf_eq_requested (not_reversed_of_checkRanges h),
    liveRoot_of_root_eq_none hroot]
  rfl

/-- What stops the workers stops the request. -/
theorem collect_of_underived (h : checkRanges k.maxRangeSize 0 ranges = .ok ())
    (hroot : k.root = some root)
    (hderive : deriveAll k.params root (missing k.cache (requested ranges)) race = .error e) :
    k.collect ranges race = .error e := by
  rw [collect, h, pathsOf_eq_requested (not_reversed_of_checkRanges h),
    liveRoot_of_root_eq_some hroot]
  show (deriveAll k.params root (missing k.cache (requested ranges)) race >>= _) = _
  rw [hderive]
  rfl

/-- A missing path that cannot be derived fails the whole request, with its error or with that of
another such path. -/
theorem collect_of_not_provided (h : checkRanges k.maxRangeSize 0 ranges = .ok ())
    (hroot : k.root = some root) (hnot : ¬ ∀ p ∈ requested ranges, k.Provides root p)
    (race : Nat) :
    ∃ p ∈ requested ranges, ∃ e, k.cache.get? p = none ∧
      deriveEntry k.params root p = .error e ∧ k.collect ranges race = .error e := by
  -- If all that is missing could be derived, all that is requested could be had.
  have hunderived : ∀ derived,
      deriveAll k.params root (missing k.cache (requested ranges)) race ≠ .ok derived := by
    intro derived hderived
    refine hnot fun p hp => ?_
    cases hcached : k.cache.contains p with
    | true => exact Or.inl hcached
    | false =>
        have hmissing : p ∈ missing k.cache (requested ranges) :=
          mem_missing_iff.mpr ⟨hp, AddressCache.contains_eq_false_iff.mp hcached⟩
        obtain ⟨d, hd⟩ := exists_eq_ok_of_mapM_eq_ok (deriveAll_eq_ok_iff.mp hderived) hmissing
        exact Or.inr ⟨d.2, (deriveOne_eq_ok_iff.mp hd).2⟩
  obtain ⟨e, he⟩ := eq_error_of_forall_ne_ok hunderived
  obtain ⟨p, hp, hderived⟩ := exists_of_deriveAll_eq_error he
  obtain ⟨hrequested, hnone⟩ := mem_missing_iff.mp hp
  exact ⟨p, hrequested, e, hnone, hderived, collect_of_underived h hroot he⟩

/-- The failure of every missing path can be the one that is heard. -/
theorem exists_race_collect_eq_error (h : checkRanges k.maxRangeSize 0 ranges = .ok ())
    (hroot : k.root = some root) (hp : p ∈ requested ranges) (hnone : k.cache.get? p = none)
    (hderived : deriveEntry k.params root p = .error e) :
    ∃ race, k.collect ranges race = .error e := by
  have hmissing : p ∈ missing k.cache (requested ranges) := mem_missing_iff.mpr ⟨hp, hnone⟩
  obtain ⟨race, hderive⟩ := exists_race_deriveAll_eq_error hmissing hderived
  exact ⟨race, collect_of_underived h hroot hderive⟩

/-- The account that a keychain with a root gives for a path, if it gives one. -/
theorem perform_loadAccount_of_provides (hroot : k.root = some root)
    (h : k.Provides root p) :
    ∃ e, (k.cache.get? p).or (deriveEntry k.params root p).toOption = some e ∧
      (k.perform (.loadAccount p)).1 = .ok (.account ⟨p, e.address⟩) := by
  cases hcached : k.cache.get? p with
  | some kept =>
      refine ⟨kept, rfl, ?_⟩
      rw [perform_loadAccount_of_resolve (resolve_of_cached hroot hcached)]
  | none =>
      obtain ⟨e, he⟩ := h.derives hcached
      refine ⟨e, by rw [he]; rfl, ?_⟩
      rw [perform_loadAccount_of_resolve (resolve_of_derived hroot hcached he)]

theorem mapM_deriveOne_missing (hall : ∀ p ∈ requested ranges, k.Provides root p) :
    (missing k.cache (requested ranges)).mapM (deriveOne k.params root) =
      .ok (derivedEntries k.params root (missing k.cache (requested ranges))) := by
  refine mapM_deriveOne_eq_ok fun p hp => ?_
  obtain ⟨hrequested, hnone⟩ := mem_missing_iff.mp hp
  exact (hall p hrequested).derives hnone

/-- Once the missing paths are derived and kept, the account read from the cache is the
one that loading the path gives. -/
theorem accountOf_keep_missing (hroot : k.root = some root) (hp : p ∈ requested ranges)
    (h : k.Provides root p) :
    ∃ a, accountOf (keep k.cache
        (derivedEntries k.params root (missing k.cache (requested ranges)))) p = .ok a ∧
      (k.perform (.loadAccount p)).1 = .ok (.account a) := by
  obtain ⟨e, he, hload⟩ := perform_loadAccount_of_provides hroot h
  refine ⟨⟨p, e.address⟩, accountOf_eq_ok_iff.mpr ⟨e, ?_, rfl⟩, hload⟩
  rw [get?_keep_derivedEntries]
  cases hcached : k.cache.get? p with
  | some kept =>
      rw [hcached] at he
      exact he
  | none =>
      rw [hcached, Option.none_or] at he
      rw [if_pos (mem_missing_iff.mpr ⟨hp, hcached⟩), Option.none_or, he]

/-- If every path can be had, the answer lists the accounts that loading them gives. -/
theorem collect_of_provided (h : checkRanges k.maxRangeSize 0 ranges = .ok ())
    (hroot : k.root = some root) (hall : ∀ p ∈ requested ranges, k.Provides root p) :
    ∃ accounts, (∀ race, k.collect ranges race = .ok (accounts, { k with
        cache := keep k.cache
          (derivedEntries k.params root (missing k.cache (requested ranges))) })) ∧
      accounts.map (·.path) = requested ranges ∧
      ∀ a ∈ accounts, (k.perform (.loadAccount a.path)).1 = .ok (.account a) := by
  obtain ⟨accounts, haccounts⟩ := exists_mapM_eq_ok fun p hp =>
    (accountOf_keep_missing hroot hp (hall p hp)).imp fun a ha => ha.1
  refine ⟨accounts, fun race => ?_, ?_, ?_⟩
  · exact collect_eq_ok_iff.mpr ⟨h, requested ranges, root, _,
      pathsOf_eq_requested (not_reversed_of_checkRanges h), hroot, mapM_deriveOne_missing hall,
      haccounts, rfl⟩
  · refine map_eq_of_mapM_eq_ok haccounts fun p a ha => ?_
    obtain ⟨e, -, rfl⟩ := accountOf_eq_ok_iff.mp ha
    rfl
  · intro a ha
    obtain ⟨p, hp, haccount⟩ := exists_of_mem_of_mapM_eq_ok haccounts ha
    obtain ⟨a', haccount', hload⟩ := accountOf_keep_missing hroot hp (hall p hp)
    rw [haccount] at haccount'
    cases haccount'
    obtain ⟨e, -, rfl⟩ := accountOf_eq_ok_iff.mp haccount
    exact hload

end Collect

/-! ## Main statement -/

/-- **Ranges are single addresses, all or nothing.**  For any keychain, whatever its cache
holds, any request for ranges and any race of the workers:

* if the request is rejected, the error names one of its ranges and nothing changes, even
  in an unloaded keychain;
* an accepted request fails on an unloaded keychain without changing it;
* if every path of the request can be had, the answer lists their accounts, range after
  range in ascending order, each as loading it alone gives it.  The cache is then the one
  that loading the paths one after the other leaves: no old entry changes, and one entry
  is new for every path that had none, however often it was asked for;
* otherwise the error is that of a path that cannot be derived, and nothing changes.  The race
  decides which: each of the requested paths without an entry that cannot be derived is the one
  in some race.

A path can be had if it has an entry or can be derived.  In a keychain that holds what was
derived, as every history leaves it, this is the same as that it can be derived. -/
theorem accounts_refines_loadAccount (k : Keychain) (ranges : List AddressRange) :
    (∀ e, checkRanges k.maxRangeSize 0 ranges = .error e →
      (∃ r ∈ ranges, e = .invalidRange r.first r.last) ∧
        ∀ race, k.perform (.accounts ranges race) = (.error e, k)) ∧
    (checkRanges k.maxRangeSize 0 ranges = .ok () → k.root = none →
      ∀ race, k.perform (.accounts ranges race) = (.error .keyCleared, k)) ∧
    (∀ root, checkRanges k.maxRangeSize 0 ranges = .ok () → k.root = some root →
      (∀ p ∈ requested ranges, k.Provides root p) →
      ∃ accounts cache, (∀ race, k.perform (.accounts ranges race) =
          (.ok (.accounts accounts.length accounts), { k with cache })) ∧
        accounts.map (·.path) = requested ranges ∧
        (∀ a ∈ accounts, (k.perform (.loadAccount a.path)).1 = .ok (.account a)) ∧
        (∃ cache', k.loadEach (requested ranges) = { k with cache := cache' } ∧
          cache.Agrees cache') ∧
        (∀ p e, k.cache.get? p = some e → cache.get? p = some e) ∧
        cache.keys.Perm
          (((requested ranges).filter (!k.cache.contains ·)).dedup.map AddressPath.cacheKey ++
            k.cache.keys)) ∧
    (∀ root, checkRanges k.maxRangeSize 0 ranges = .ok () → k.root = some root →
      (¬ ∀ p ∈ requested ranges, k.Provides root p) →
      (∀ race, ∃ p ∈ requested ranges, ∃ e, deriveEntry k.params root p = .error e ∧
        k.perform (.loadAccount p) = (.error e, k) ∧
        k.perform (.accounts ranges race) = (.error e, k)) ∧
      ∀ p ∈ requested ranges, ∀ e, k.cache.get? p = none →
        deriveEntry k.params root p = .error e →
          ∃ race, k.perform (.accounts ranges race) = (.error e, k)) ∧
    (∀ root, Sound k.params root k → ∀ p,
      k.Provides root p ↔ ∃ e, deriveEntry k.params root p = .ok e) := by
  refine ⟨?_, ?_, ?_, ?_, ?_⟩
  · intro e he
    exact ⟨range_of_checkRanges_error he,
      fun race => by simp only [perform, collect_of_rejected he]⟩
  · intro hcheck hroot race
    simp only [perform, collect_of_unloaded hcheck hroot]
  · intro root hcheck hroot hall
    obtain ⟨accounts, hcollect, hpaths, hloads⟩ := collect_of_provided hcheck hroot hall
    refine ⟨accounts, keep k.cache (derivedEntries k.params root
        (missing k.cache (requested ranges))),
      fun race => by simp only [perform, hcollect], hpaths, hloads,
      ⟨_, loadEach_eq hroot _, ?_⟩, ?_, ?_⟩
    · exact keep_missing_agrees root
    · exact fun p e he => get?_keep_of_get?_eq_some _ he
    · -- The paths in the statement are in the order of the request, not sorted: both are
      -- the same set of new keys.
      refine ((keep_missing_agrees root).entries_perm.map Prod.fst).trans ?_
      exact keys_keep_derivedEntries_perm fun p hp hnone => (hall p hp).derives hnone
  · intro root hcheck hroot hnot
    refine ⟨fun race => ?_, fun p hp e hnone hderived => ?_⟩
    · obtain ⟨p, hp, e, hnone, hderived, hcollect⟩ :=
        collect_of_not_provided hcheck hroot hnot race
      refine ⟨p, hp, e, hderived, ?_, by simp only [perform, hcollect]⟩
      exact perform_loadAccount_of_resolve_error (resolve_of_underived hroot hnone hderived)
    · obtain ⟨race, hcollect⟩ := exists_race_collect_eq_error hcheck hroot hp hnone hderived
      exact ⟨race, by simp only [perform, hcollect]⟩
  · intro root hsound p
    constructor
    · rintro (hcontains | hderives)
      · obtain ⟨e, he⟩ := Option.isSome_iff_exists.mp hcontains
        exact ⟨e, hsound.derived_of_get? he⟩
      · exact hderives
    · exact Or.inr

end Keychain

end Keyring
