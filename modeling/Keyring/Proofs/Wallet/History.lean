import Keyring.Proofs.Wallet.Keychain

/-!
# What a keychain holds after any history

A keychain is asked to do things and may be unloaded in between, in any order and with
any arguments.  `Sound` is the invariant of all its histories: the master node is the one
the keychain was made with or is gone, and every entry of the cache is the one that is
derived from that master node for the one path under whose text it is kept.

The invariant rests on two facts.  An operation only keeps entries that it has derived
from the root (`perform_keeps`), and the text of a path belongs to no other path
(`AddressPath.cacheKey_injective`).  Since a derived entry is a function of the master
node and the path, no history can change the address that an answer carries.
-/

namespace Keyring.Keychain

variable {k k' : Keychain} {p : AddressPath} {e : AddressEntry}

/-! ## Histories -/

/-- What can happen to a keychain. -/
inductive Event
  | perform (op : Operation)
  | unload

/-- The keychain after one event, whether it succeeded or failed. -/
def apply (k : Keychain) : Event → Keychain
  | .perform op => (k.perform op).2
  | .unload => k.unload

/-- The keychain after a history, the oldest event first. -/
def after (k : Keychain) (history : List Event) : Keychain :=
  history.foldl apply k

@[simp] theorem after_nil (k : Keychain) : k.after [] = k := rfl

@[simp] theorem after_cons (k : Keychain) (event : Event) (history : List Event) :
    k.after (event :: history) = (k.apply event).after history := rfl

/-! ## Unloaded keychains -/

/-- Without a root nothing is derived, so nothing is kept either. -/
theorem Keeps.eq_of_unloaded (h : k.Keeps k') (hroot : k.root = none) : k' = k := by
  obtain ⟨derived, rfl, hderived⟩ := h
  cases derived with
  | nil => rfl
  | cons d derived =>
      obtain ⟨root, hsome, -⟩ := hderived d List.mem_cons_self
      rw [hroot] at hsome
      cases hsome

theorem unload_of_unloaded (hroot : k.root = none) (hcache : k.cache = .empty) :
    k.unload = k := by
  cases k
  simp_all [unload]

/-- A keychain without a root stays as it is. -/
theorem after_of_unloaded (hroot : k.root = none) (hcache : k.cache = .empty)
    (history : List Event) : k.after history = k := by
  induction history with
  | nil => rfl
  | cons event history ih =>
      have hsame : k.apply event = k := by
        cases event with
        | perform op => exact (perform_keeps k op).eq_of_unloaded hroot
        | unload => exact unload_of_unloaded hroot hcache
      rw [after_cons, hsame, ih]

/-! ## The invariant -/

/-- A keychain that holds what can be derived from `master`, as long as it has a root. -/
structure Sound (params : ChainParams) (master : KeyNode) (k : Keychain) : Prop where
  params_eq : k.params = params
  root_eq : k.root = some master ∨ k.root = none ∧ k.cache = .empty
  entry_derived : ∀ entry ∈ k.cache.entries,
    ∃ p : AddressPath, entry.1 = p.cacheKey ∧ deriveEntry params master p = .ok entry.2
  keys_nodup : k.cache.keys.Nodup

namespace Sound

variable {params : ChainParams} {master : KeyNode}

theorem of_ofMaster (params : ChainParams) (signer : ChainSigner) (maxRangeSize : UInt32)
    (master : KeyNode) : Sound params master (ofMaster params signer maxRangeSize master) where
  params_eq := rfl
  root_eq := Or.inl rfl
  entry_derived := by simp [ofMaster, AddressCache.empty]
  keys_nodup := List.nodup_nil

theorem of_keeps (h : Sound params master k) (hkeeps : k.Keeps k') :
    Sound params master k' := by
  -- With a root, what is kept is derived from it; without one, nothing is kept.
  rcases h.root_eq with hroot | ⟨hroot, -⟩
  · obtain ⟨derived, rfl, hderived⟩ := hkeeps
    refine ⟨h.params_eq, Or.inl hroot, ?_, keys_nodup_keep derived h.keys_nodup⟩
    intro entry hentry
    rcases mem_entries_keep hentry with hold | ⟨d, hd, rfl⟩
    · exact h.entry_derived entry hold
    · obtain ⟨root, hsome, hentry⟩ := hderived d hd
      rw [hroot] at hsome
      cases hsome
      exact ⟨d.1, rfl, h.params_eq ▸ hentry⟩
  · rwa [hkeeps.eq_of_unloaded hroot]

theorem unload (h : Sound params master k) : Sound params master k.unload where
  params_eq := h.params_eq
  root_eq := Or.inr ⟨rfl, rfl⟩
  entry_derived := by simp [Keychain.unload, AddressCache.empty]
  keys_nodup := List.nodup_nil

/-- One event keeps the invariant. -/
theorem apply (h : Sound params master k) (event : Event) :
    Sound params master (k.apply event) := by
  cases event with
  | perform op => exact h.of_keeps (perform_keeps k op)
  | unload => exact h.unload

/-- So does a history. -/
theorem after (h : Sound params master k) (history : List Event) :
    Sound params master (k.after history) := by
  induction history generalizing k with
  | nil => exact h
  | cons event history ih => exact ih (h.apply event)

/-- The entry of a path is the one that is derived for it, since no other path has the
same text. -/
theorem derived_of_get? (h : Sound params master k) (hget : k.cache.get? p = some e) :
    deriveEntry params master p = .ok e := by
  obtain ⟨q, hkey, hderived⟩ := h.entry_derived _ (AddressCache.mem_entries_of_get? hget)
  rwa [AddressPath.cacheKey_injective hkey]

theorem derived_of_resolve (h : Sound params master k) (hresolve : k.resolve p = .ok (e, k')) :
    deriveEntry params master p = .ok e := by
  obtain ⟨root, hroot, ⟨hcached, -⟩ | ⟨-, hderived, -⟩⟩ := resolve_eq_ok_iff.mp hresolve
  · exact h.derived_of_get? hcached
  · rcases h.root_eq with hmaster | ⟨hnone, -⟩
    · rw [hmaster] at hroot
      cases hroot
      exact h.params_eq ▸ hderived
    · rw [hnone] at hroot
      cases hroot

/-- What it keeps of a path is what is derived for it, so as long as it has a root its cache
changes no answer. -/
theorem withEntry_eq (h : Sound params master k) (hroot : k.root = some master) (p : AddressPath)
    (use : AddressEntry → Except WalletError Answer) :
    (k.withEntry p use).1 = deriveEntry params master p >>= use := by
  rw [withEntry]
  cases hcached : k.cache.get? p with
  | some kept =>
      rw [resolve_of_cached hroot hcached, h.derived_of_get? hcached]
      rfl
  | none =>
      rw [← h.params_eq]
      cases hderived : deriveEntry k.params master p with
      | ok e =>
          rw [resolve_of_derived hroot hcached hderived]
          rfl
      | error fault =>
          rw [resolve_of_underived hroot hcached hderived]
          rfl

end Sound

/-! ## Nothing is lost before an unload -/

/-- Up to an unload a history keeps entries, as a single operation does. -/
theorem keeps_after {later : List Event} (hlater : Event.unload ∉ later) :
    k.Keeps (k.after later) := by
  induction later generalizing k with
  | nil => exact Keeps.refl k
  | cons event later ih =>
      simp only [List.mem_cons, not_or] at hlater
      cases event with
      | unload => exact absurd rfl hlater.1
      | perform op => exact (perform_keeps k op).trans (ih hlater.2)

/-! ## Answers -/

/-- Whether an answer belongs to an operation and carries, for every path it names, an
address that belongs to the path. -/
def Operation.Answered (address : AddressPath → String → Prop) : Operation → Answer → Prop
  | .touch, .done => True
  | .loadAccount p, .account a => a.path = p ∧ address p a.address
  | .address p, .address text => address p text
  | .accounts ranges _, .accounts count found =>
    count = found.length ∧ pathsOf ranges = .ok (found.map (·.path)) ∧
      ∀ a ∈ found, address a.path a.address
  | .sign p _, .signed text _ => address p text
  | .extendedPublic _, .extendedPublic _ => True
  | _, _ => False

theorem withEntry_eq_ok {use : AddressEntry → Except WalletError Answer} {answer : Answer}
    (h : (k.withEntry p use).1 = .ok answer) :
    ∃ e k', k.resolve p = .ok (e, k') ∧ use e = .ok answer := by
  unfold withEntry at h
  split at h
  · next e k' hresolve => exact ⟨e, k', hresolve, h⟩
  · simp at h

theorem accountOf_eq_ok_iff {cache : AddressCache} {a : Account} :
    accountOf cache p = .ok a ↔ ∃ e, cache.get? p = some e ∧ a = ⟨p, e.address⟩ := by
  unfold accountOf
  cases cache.get? p <;> simp [eq_comm]

/-- A sound keychain answers with the addresses that are derived from its master node. -/
theorem Sound.answered {params : ChainParams} {master : KeyNode} (h : Sound params master k)
    {op : Operation} {answer : Answer} (hanswer : (k.perform op).1 = .ok answer) :
    op.Answered (fun p text => ∃ e, deriveEntry params master p = .ok e ∧ text = e.address)
      answer := by
  cases op with
  | touch =>
      cases hanswer
      trivial
  | loadAccount p =>
      obtain ⟨e, k', hresolve, huse⟩ := withEntry_eq_ok hanswer
      cases huse
      exact ⟨rfl, e, h.derived_of_resolve hresolve, rfl⟩
  | address p =>
      obtain ⟨e, k', hresolve, huse⟩ := withEntry_eq_ok hanswer
      cases huse
      exact ⟨e, h.derived_of_resolve hresolve, rfl⟩
  | accounts ranges race =>
      simp only [perform] at hanswer
      split at hanswer
      · next accounts k' hcollect =>
          cases hanswer
          -- The accounts are read from the cache that is left, which is sound again.
          have hsound := h.of_keeps (collect_keeps hcollect)
          obtain ⟨-, paths, root, derived, hpaths, -, -, haccounts, rfl⟩ :=
            collect_eq_ok_iff.mp hcollect
          refine ⟨rfl, ?_, ?_⟩
          · rw [hpaths, map_eq_of_mapM_eq_ok haccounts]
            intro p a ha
            obtain ⟨e, -, rfl⟩ := accountOf_eq_ok_iff.mp ha
            rfl
          · intro a ha
            obtain ⟨p, -, haccount⟩ := exists_of_mem_of_mapM_eq_ok haccounts ha
            obtain ⟨e, hget, rfl⟩ := accountOf_eq_ok_iff.mp haccount
            exact ⟨e, hsound.derived_of_get? hget, rfl⟩
      · simp at hanswer
  | sign p payload =>
      obtain ⟨e, k', hresolve, huse⟩ := withEntry_eq_ok hanswer
      obtain ⟨bytes, -, hpure⟩ := bind_eq_ok_iff.mp huse
      cases hpure
      exact ⟨e, h.derived_of_resolve hresolve, rfl⟩
  | extendedPublic account =>
      obtain ⟨text, -, rfl⟩ := map_eq_ok_iff.mp hanswer
      trivial

theorem Operation.Answered.imp {address address' : AddressPath → String → Prop}
    (himp : ∀ p text, address p text → address' p text) {op : Operation} {answer : Answer}
    (h : op.Answered address answer) : op.Answered address' answer := by
  cases op <;> cases answer <;> simp only [Operation.Answered] at h ⊢
  case loadAccount.account p a => exact ⟨h.1, himp _ _ h.2⟩
  case address.address p text => exact himp _ _ h
  case accounts.accounts ranges race count accounts =>
    exact ⟨h.1, h.2.1, fun a ha => himp _ _ (h.2.2 a ha)⟩
  case sign.signed p payload text bytes => exact himp _ _ h

/-- A new keychain answers a request for an address with what it derives. -/
theorem perform_address_ofMaster (params : ChainParams) (master : KeyNode) (signer : ChainSigner)
    (maxRangeSize : UInt32) (p : AddressPath) :
    ((ofMaster params signer maxRangeSize master).perform (.address p)).1 =
      deriveEntry params master p >>= fun e => .ok (.address e.address) :=
  (Sound.of_ofMaster params signer maxRangeSize master).withEntry_eq rfl p _

theorem address_ofMaster {params : ChainParams} {master : KeyNode} (signer : ChainSigner)
    (maxRangeSize : UInt32) (h : deriveEntry params master p = .ok e) :
    ((ofMaster params signer maxRangeSize master).perform (.address p)).1 =
      .ok (.address e.address) := by
  rw [perform_address_ofMaster, h]
  rfl

/-! ## Main statement -/

/-- **No history changes what a keychain answers.**  Take the keychain of any master
node; the keychain of a valid phrase is the one of the phrase's master node.  After any
history

* its root is that master node or gone, and once it is gone nothing comes back,
* every entry of the cache stands under the text of exactly one path, no text occurs
  twice, and the entry is what is derived for the path from the master node,
* no entry is removed or changed before the next unload, and
* every successful answer carries the addresses that a new keychain answers with, even
  one with another signer and another limit on ranges. -/
theorem history_keeps_derived_entries (params : ChainParams) (signer : ChainSigner)
    (maxRangeSize : UInt32) (master : KeyNode) (history : List Event) :
    let k := (ofMaster params signer maxRangeSize master).after history
    (∀ phrase fresh, ofPhrase params signer maxRangeSize phrase = .ok fresh ↔
      ∃ root, masterOf phrase params.network = .ok root ∧
        fresh = ofMaster params signer maxRangeSize root) ∧
    (k.root = some master ∨ k.root = none) ∧
    (k.root = none → ∀ later,
      (k.after later).root = none ∧ (k.after later).cache = .empty) ∧
    (∀ key entry, (key, entry) ∈ k.cache.entries →
      ∃ p : AddressPath, (∀ q : AddressPath, q.cacheKey = key ↔ q = p) ∧
        deriveEntry params master p = .ok entry) ∧
    k.cache.keys.Nodup ∧
    (∀ later, Event.unload ∉ later →
      k.cache.entries <:+ (k.after later).cache.entries ∧
        ∀ p entry, k.cache.get? p = some entry →
          (k.after later).cache.get? p = some entry) ∧
    (∀ op answer, (k.perform op).1 = .ok answer →
      op.Answered (fun p text => ∀ signer' maxRangeSize',
        ((ofMaster params signer' maxRangeSize' master).perform (.address p)).1 =
          .ok (.address text)) answer) := by
  intro k
  have hsound : Sound params master k :=
    (Sound.of_ofMaster params signer maxRangeSize master).after history
  refine ⟨fun phrase fresh => ofPhrase_eq_ok_iff, ?_, ?_, ?_, hsound.keys_nodup, ?_, ?_⟩
  · exact hsound.root_eq.imp_right And.left
  · intro hroot later
    have hcache : k.cache = .empty := by
      rcases hsound.root_eq with hmaster | ⟨-, hcache⟩
      · rw [hroot] at hmaster
        cases hmaster
      · exact hcache
    rw [after_of_unloaded hroot hcache later]
    exact ⟨hroot, hcache⟩
  · intro key entry hentry
    obtain ⟨p, hkey, hderived⟩ := hsound.entry_derived _ hentry
    refine ⟨p, fun q => ⟨fun hq => ?_, fun hq => ?_⟩, hderived⟩
    · exact AddressPath.cacheKey_injective (hq.trans hkey)
    · rw [hq]
      exact hkey.symm
  · intro later hlater
    obtain ⟨derived, hkept, -⟩ := keeps_after (k := k) hlater
    rw [hkept]
    exact ⟨entries_suffix_keep k.cache derived,
      fun p entry hentry => get?_keep_of_get?_eq_some derived hentry⟩
  · intro op answer hanswer
    refine (hsound.answered hanswer).imp ?_
    rintro p text ⟨e, hderived, rfl⟩ signer' maxRangeSize'
    exact address_ofMaster signer' maxRangeSize' hderived

end Keyring.Keychain
