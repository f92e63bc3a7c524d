import Mathlib.Data.List.Basic
import Keyring.Pool.Schedule
import Keyring.Proofs.Outcome
import Keyring.Proofs.Pool.Lifecycle

/-!
# Units in the custody of a host

A host never takes back a unit: it keeps it for its wallet or it lets go of it, and a unit
that it let go of is shut down, at once or later.  `Owned leaving h` says so of every unit
that the host `h` has made, where `leaving` are the units that it let go of and has not shut
down yet.

Whatever a host does, a single unit only lives through events of its own, which is why the
invariant of a unit holds for all of them (`Owned.settled`) and a closed one never changes.
Taking a unit out of the register and shutting it down are two changes of the host.  Each of
them has its own lemma here (`Owned.release`, `Owned.shutdownUnit`), so that they can be put
together in one go or with the work of other callers in between.
-/

namespace Keyring

open PoolUnit (Event Moment Settled)

/-- What the step of a caller is to the unit.  Reading is no event, so no time passes. -/
def UnitStep.toEvent (s : UnitStep) (h : Host) : Event :=
  match s with
  | .operate op => .operate h.source h.context.decrypt op
  | .unload => .unload
  | .shutdown => .shutdown
  | .readLoaded | .readClosed | .readCached => .elapse 0

namespace Host

/-- A host that has not made any unit. -/
def begin (context : PoolContext) (hasRuntime : Bool) (repository : MemoryRepository)
    (now : Nat) : Host :=
  { context, hasRuntime, repository, now }

/-- Lets go of the unit of a wallet. -/
def release (h : Host) (wallet : Uuid) : Host :=
  { h with registered := h.registered.filter (·.1 != wallet) }

/-- Lets go of all units. -/
def releaseAll (h : Host) : Host :=
  { h with registered := [] }

/-- Makes a unit and keeps it for its wallet. -/
def register (h : Host) (wallet mnemonic : Uuid) : Host :=
  { h with
    units := h.units ++ [{ wallet, mnemonic }]
    registered := (wallet, h.units.length) :: h.registered }

/-- The unit after events at the present time of the host. -/
def lived (h : Host) (u : PoolUnit) (events : List Event) : PoolUnit :=
  (Moment.after h.context.plugin h.context.interval ⟨u, h.now⟩ events).unit

variable {h : Host} {wallet mnemonic : Uuid} {id : Nat} {u : PoolUnit} {leaving : List Nat}

/-! ## Changing one unit -/

theorem setUnit_of_getElem? (hu : h.units[id]? = some u) : h.setUnit id u = h := by
  obtain ⟨hlt, rfl⟩ := List.getElem?_eq_some_iff.mp hu
  simp only [setUnit, List.set_getElem_self]

theorem getElem?_setUnit (hu : h.units[id]? = some u) (u' : PoolUnit) (other : Nat) :
    (h.setUnit id u').units[other]? = if other = id then some u' else h.units[other]? := by
  have hlt : id < h.units.length := (List.getElem?_eq_some_iff.mp hu).1
  simp only [setUnit, List.getElem?_set, if_pos hlt, eq_comm (a := id)]

theorem shutdownUnit_of_some (hu : h.units[id]? = some u) :
    h.shutdownUnit id = h.setUnit id u.shutdown := by
  rw [shutdownUnit, hu]

theorem shutdownUnit_of_none (hu : h.units[id]? = none) : h.shutdownUnit id = h := by
  rw [shutdownUnit, hu]

/-- Shutting a unit down leaves the register. -/
@[simp] theorem shutdownUnit_registered (h : Host) (id : Nat) :
    (h.shutdownUnit id).registered = h.registered := by
  unfold shutdownUnit
  split <;> rfl

@[simp] theorem lookup_shutdownUnit (h : Host) (id : Nat) (wallet : Uuid) :
    (h.shutdownUnit id).lookup wallet = h.lookup wallet := by
  rw [lookup, shutdownUnit_registered, lookup]

@[simp] theorem shutdownUnit_hasRuntime (h : Host) (id : Nat) :
    (h.shutdownUnit id).hasRuntime = h.hasRuntime := by
  unfold shutdownUnit
  split <;> rfl

@[simp] theorem length_shutdownUnit (h : Host) (id : Nat) :
    (h.shutdownUnit id).units.length = h.units.length := by
  unfold shutdownUnit
  split
  · exact List.length_set
  · rfl

/-- What a caller does to a unit is an event of the unit. -/
theorem step_of_some (hu : h.units[id]? = some u) (s : UnitStep) :
    (h.step id s).2 = h.setUnit id (h.lived u [s.toEvent h]) := by
  cases s with
  | operate op => simp only [step, operate, hu]; rfl
  | unload => simp only [step, unload, hu]; rfl
  | shutdown => exact shutdownUnit_of_some hu
  | readLoaded | readClosed | readCached => exact (setUnit_of_getElem? hu).symm

theorem step_of_none (hu : h.units[id]? = none) (s : UnitStep) : (h.step id s).2 = h := by
  cases s with
  | operate op => simp only [step, operate, hu]
  | unload => simp only [step, unload, hu]
  | shutdown => exact shutdownUnit_of_none hu
  | readLoaded | readClosed | readCached => rfl

theorem getElem?_shutdownUnits (ids : List Nat) (hu : h.units[id]? = some u) :
    (ids.foldl shutdownUnit h).units[id]? = some (if id ∈ ids then u.shutdown else u) := by
  induction ids generalizing h u with
  | nil => simp [hu]
  | cons first rest ih =>
      have hfirst : (h.shutdownUnit first).units[id]? =
          some (if id = first then u.shutdown else u) := by
        cases hv : h.units[first]? with
        | none =>
            have hne : id ≠ first := by
              rintro rfl
              rw [hu] at hv
              cases hv
            rw [shutdownUnit_of_none hv, hu, if_neg hne]
        | some v =>
            rw [shutdownUnit_of_some hv, getElem?_setUnit hv]
            split
            · next heq =>
                rw [← heq, hu, Option.some.injEq] at hv
                rw [hv]
            · exact hu
      rw [List.foldl_cons, ih hfirst]
      by_cases heq : id = first
      · -- Shutting down twice is shutting down once.
        simp only [heq, if_pos, List.mem_cons_self]
        split <;> rfl
      · simp [heq]

/-! ## The register -/

@[simp] theorem lookup_release (h : Host) (wallet other : Uuid) :
    (h.release wallet).lookup other = if other = wallet then none else h.lookup other := by
  simp only [release, lookup]
  induction h.registered with
  | nil => simp
  | cons entry rest ih =>
      by_cases hentry : entry.1 = wallet
      · rw [List.filter_cons_of_neg (by simp [hentry]), ih, List.lookup_cons]
        by_cases hother : other = wallet
        · rw [if_pos hother, if_pos hother]
        · rw [if_neg hother, if_neg hother, beq_false_of_ne (by rw [hentry]; exact hother)]
      · rw [List.filter_cons_of_pos (by simp [hentry]), List.lookup_cons, List.lookup_cons, ih]
        by_cases hother : other = wallet
        · rw [if_pos hother, if_pos hother, hother, beq_false_of_ne (Ne.symm hentry)]
        · rw [if_neg hother, if_neg hother]

theorem mem_registered_of_lookup (hid : h.lookup wallet = some id) :
    (wallet, id) ∈ h.registered := by
  obtain ⟨before, after, hsplit, -⟩ := List.lookup_eq_some_iff.mp hid
  rw [hsplit]
  simp

theorem lookup_register (h : Host) (wallet mnemonic other : Uuid) :
    (h.register wallet mnemonic).lookup other =
      if other = wallet then some h.units.length else h.lookup other := by
  simp only [register, lookup, List.lookup_cons]
  by_cases hother : other = wallet
  · rw [if_pos hother, beq_iff_eq.mpr hother]
  · rw [if_neg hother, beq_false_of_ne hother]

theorem getElem?_register_of_some (hu : h.units[id]? = some u) :
    (h.register wallet mnemonic).units[id]? = some u := by
  rw [register, List.getElem?_append_left (List.getElem?_eq_some_iff.mp hu).1, hu]

theorem getElem?_register_cases (hu : (h.register wallet mnemonic).units[id]? = some u) :
    h.units[id]? = some u ∨ id = h.units.length ∧ u = { wallet, mnemonic } := by
  rw [register, List.getElem?_append] at hu
  split at hu
  · exact Or.inl hu
  · next hle =>
      have hlt := (List.getElem?_eq_some_iff.mp hu).1
      have hid : id = h.units.length := by
        rw [List.length_singleton] at hlt
        omega
      subst hid
      rw [Nat.sub_self, List.getElem?_cons_zero, Option.some.injEq] at hu
      exact Or.inr ⟨rfl, hu.symm⟩

/-- A unit that the host keeps is handed out again to those who name its mnemonic. -/
theorem getOrCreate_of_kept (hid : h.lookup wallet = some id) (hu : h.units[id]? = some u)
    (mnemonic : Uuid) :
    h.getOrCreate wallet mnemonic =
      if u.mnemonic = mnemonic then .ok (id, h)
      else .error (PoolUnit.foreignMnemonic wallet mnemonic) := by
  simp [getOrCreate, hid, hu]

theorem getOrCreate_of_none (hnone : h.lookup wallet = none) (mnemonic : Uuid) :
    h.getOrCreate wallet mnemonic =
      if h.hasRuntime then .ok (h.units.length, h.register wallet mnemonic)
      else .error (.internal noRuntime) := by
  simp only [getOrCreate, hnone, create]
  by_cases hruntime : h.hasRuntime = true
  · rw [if_pos hruntime, if_pos hruntime]
    rfl
  · rw [if_neg hruntime, if_neg hruntime]
    rfl

/-- Removing a unit is letting go of it and shutting it down. -/
theorem remove_of_kept (hid : h.lookup wallet = some id) :
    h.remove wallet = (true, (h.release wallet).shutdownUnit id) := by
  have hcomm : ({ h.shutdownUnit id with
      registered := h.registered.filter (·.1 != wallet) } : Host) =
        (h.release wallet).shutdownUnit id := by
    simp only [shutdownUnit, release]
    split <;> rfl
  simp only [remove, hid, hcomm]

theorem remove_of_none (hnone : h.lookup wallet = none) : h.remove wallet = (false, h) := by
  simp only [remove, hnone]

/-- Shutting a host down is letting go of all units and shutting them down. -/
theorem shutdown_eq (h : Host) :
    h.shutdown = (h.registered.map Prod.snd).foldl shutdownUnit h.releaseAll := by
  rw [List.foldl_map]
  unfold shutdown
  generalize h.registered = entries
  induction entries generalizing h with
  | nil => rfl
  | cons entry rest ih =>
      have hcomm : (h.shutdownUnit entry.2).releaseAll = h.releaseAll.shutdownUnit entry.2 := by
        simp only [shutdownUnit, releaseAll]
        split <;> rfl
      rw [List.foldl_cons, List.foldl_cons, ih, hcomm]

/-- Changing a record changes the repository and nothing else. -/
theorem exists_repository_of_setEnabled {later : Host} {enabled : Bool} {time : Timestamp}
    (hok : h.setEnabled wallet enabled time = .ok later) :
    ∃ repository, h.repository.setEnabled wallet enabled time = .ok repository ∧
      later = { h with repository } := by
  obtain ⟨repository, hrepository, heq⟩ := bind_eq_ok_iff.mp hok
  exact ⟨repository, hrepository, (pure_eq_ok_iff.mp heq).symm⟩

/-! ## The invariant -/

/-- Every unit that the host has made is kept for its wallet, closed, or `leaving`. -/
structure Owned (leaving : List Nat) (h : Host) : Prop where
  nodup : (h.registered.map Prod.fst).Nodup
  registered_wallet : ∀ (wallet : Uuid) (id : Nat), (wallet, id) ∈ h.registered →
    ∃ u : PoolUnit, h.units[id]? = some u ∧ u.wallet = wallet
  held : ∀ (id : Nat) (u : PoolUnit), h.units[id]? = some u →
    h.lookup u.wallet = some id ∨ u.isClosed = true ∨ id ∈ leaving
  settled : ∀ (id : Nat) (u : PoolUnit), h.units[id]? = some u → Settled u.wallet u.mnemonic u

namespace Owned

theorem begin (context : PoolContext) (hasRuntime : Bool) (repository : MemoryRepository)
    (now : Nat) : Owned [] (begin context hasRuntime repository now) where
  nodup := List.nodup_nil
  registered_wallet := by simp [Host.begin]
  held := by simp [Host.begin]
  settled := by simp [Host.begin]

theorem lookup_wallet (hown : Owned leaving h) (hid : h.lookup wallet = some id) :
    ∃ u, h.units[id]? = some u ∧ u.wallet = wallet :=
  hown.registered_wallet wallet id (mem_registered_of_lookup hid)

/-- What a unit lives through does not change whose it is. -/
theorem settled_lived (hown : Owned leaving h) (hu : h.units[id]? = some u)
    (events : List Event) : Settled u.wallet u.mnemonic (h.lived u events) :=
  (hown.settled id u hu).after (m := ⟨u, h.now⟩) h.context.plugin h.context.interval events

/-- Nor does it change a closed unit at all. -/
theorem lived_of_closed (hown : Owned leaving h) (hu : h.units[id]? = some u)
    (hclosed : u.isClosed = true) (events : List Event) : h.lived u events = u :=
  (hown.settled id u hu).after_of_closed (m := ⟨u, h.now⟩) hclosed h.context.plugin
    h.context.interval events

/-- Units may live through anything as long as the register stays. -/
theorem evolve (hown : Owned leaving h) {later : Host}
    (hregistered : later.registered = h.registered)
    (hlived : ∀ id : Nat, ∃ events, later.units[id]? = h.units[id]?.map (h.lived · events)) :
    Owned leaving later where
  nodup := by
    rw [hregistered]
    exact hown.nodup
  registered_wallet wallet id hmem := by
    rw [hregistered] at hmem
    obtain ⟨u, hu, hwallet⟩ := hown.registered_wallet wallet id hmem
    obtain ⟨events, hlater⟩ := hlived id
    rw [hu] at hlater
    exact ⟨_, hlater, by rw [(hown.settled_lived hu events).wallet_eq, hwallet]⟩
  held id v hv := by
    obtain ⟨events, hlater⟩ := hlived id
    rw [hv, eq_comm, Option.map_eq_some_iff] at hlater
    obtain ⟨u, hu, rfl⟩ := hlater
    rw [lookup, hregistered, (hown.settled_lived hu events).wallet_eq]
    rcases hown.held id u hu with hkept | hclosed | hleaving
    · exact Or.inl hkept
    · rw [hown.lived_of_closed hu hclosed]
      exact Or.inr (Or.inl hclosed)
    · exact Or.inr (Or.inr hleaving)
  settled id v hv := by
    obtain ⟨events, hlater⟩ := hlived id
    rw [hv, eq_comm, Option.map_eq_some_iff] at hlater
    obtain ⟨u, hu, rfl⟩ := hlater
    have hsettled := hown.settled_lived hu events
    rw [hsettled.wallet_eq, hsettled.mnemonic_eq]
    exact hsettled

theorem setUnit (hown : Owned leaving h) (hu : h.units[id]? = some u) (events : List Event) :
    Owned leaving (h.setUnit id (h.lived u events)) := by
  refine hown.evolve rfl fun other => ?_
  rw [getElem?_setUnit hu]
  by_cases hother : other = id
  · rw [if_pos hother, hother, hu]
    exact ⟨events, rfl⟩
  · rw [if_neg hother]
    exact ⟨[], by simp [lived]⟩

theorem step (hown : Owned leaving h) (id : Nat) (s : UnitStep) :
    Owned leaving (h.step id s).2 := by
  cases hu : h.units[id]? with
  | none =>
      rw [step_of_none hu]
      exact hown
  | some u =>
      rw [step_of_some hu]
      exact hown.setUnit hu _

/-- Time may pass. -/
theorem advance (hown : Owned leaving h) (span : Nat) : Owned leaving (h.advance span) := by
  refine hown.evolve rfl fun id => ⟨[.elapse span, .unloadIfIdle], ?_⟩
  simp only [Host.advance, List.getElem?_map]
  rfl

/-- A new unit is kept. -/
theorem register (hown : Owned leaving h) (hnone : h.lookup wallet = none) (mnemonic : Uuid) :
    Owned leaving (h.register wallet mnemonic) where
  nodup := by
    refine List.nodup_cons.mpr ⟨?_, hown.nodup⟩
    rw [lookup, List.lookup_eq_none_iff] at hnone
    simp only [List.mem_map, not_exists, not_and]
    intro entry hentry heq
    simpa [heq] using hnone entry hentry
  registered_wallet other id hmem := by
    rcases List.mem_cons.mp hmem with hnew | hold
    · obtain ⟨rfl, rfl⟩ := Prod.mk.inj hnew
      exact ⟨_, List.getElem?_concat_length, rfl⟩
    · obtain ⟨u, hu, hwallet⟩ := hown.registered_wallet other id hold
      exact ⟨u, getElem?_register_of_some hu, hwallet⟩
  held id v hv := by
    rcases getElem?_register_cases hv with hold | ⟨rfl, rfl⟩
    · rcases hown.held id v hold with hkept | hclosed | hleaving
      · left
        have hother : v.wallet ≠ wallet := by
          rintro rfl
          rw [hnone] at hkept
          cases hkept
        rw [lookup_register, if_neg hother, hkept]
      · exact Or.inr (Or.inl hclosed)
      · exact Or.inr (Or.inr hleaving)
    · left
      rw [lookup_register, if_pos rfl]
  settled id v hv := by
    rcases getElem?_register_cases hv with hold | ⟨rfl, rfl⟩
    · exact hown.settled id v hold
    · exact Settled.begin wallet mnemonic

/-- A unit that is shut down is not leaving any more. -/
theorem shutdownUnit (hown : Owned leaving h) (id : Nat) :
    Owned (leaving.erase id) (h.shutdownUnit id) := by
  have hshut : Owned leaving (h.shutdownUnit id) := hown.step id .shutdown
  refine ⟨hshut.nodup, hshut.registered_wallet, ?_, hshut.settled⟩
  intro other v hv
  rcases hshut.held other v hv with hkept | hclosed | hleaving
  · exact Or.inl hkept
  · exact Or.inr (Or.inl hclosed)
  · by_cases hother : other = id
    · cases hu : h.units[id]? with
      | none =>
          rw [shutdownUnit_of_none hu, hother, hu] at hv
          cases hv
      | some u =>
          rw [shutdownUnit_of_some hu, getElem?_setUnit hu, if_pos hother,
            Option.some.injEq] at hv
          subst hv
          exact Or.inr (Or.inl rfl)
    · exact Or.inr (Or.inr ((List.mem_erase_of_ne hother).mpr hleaving))

theorem shutdownUnits (ids : List Nat) (hown : Owned (ids ++ leaving) h) :
    Owned leaving (ids.foldl Host.shutdownUnit h) := by
  induction ids generalizing h with
  | nil => exact hown
  | cons id rest ih =>
      refine ih ?_
      have hshut := hown.shutdownUnit id
      rwa [List.cons_append, List.erase_cons_head] at hshut

/-- Asking for a unit finds the one that is kept or makes a new one. -/
theorem getOrCreate_eq_ok (hown : Owned leaving h) {later : Host}
    (hok : h.getOrCreate wallet mnemonic = .ok (id, later)) :
    h.lookup wallet = some id ∧ later = h ∨
      h.lookup wallet = none ∧ id = h.units.length ∧ later = h.register wallet mnemonic := by
  cases hkept : h.lookup wallet with
  | some kept =>
      obtain ⟨u, hu, -⟩ := hown.lookup_wallet hkept
      rw [getOrCreate_of_kept hkept hu] at hok
      split at hok
      · cases hok
        exact Or.inl ⟨rfl, rfl⟩
      · cases hok
  | none =>
      rw [getOrCreate_of_none hkept] at hok
      split at hok
      · cases hok
        exact Or.inr ⟨rfl, rfl, rfl⟩
      · cases hok

theorem getOrCreate (hown : Owned leaving h) {later : Host}
    (hok : h.getOrCreate wallet mnemonic = .ok (id, later)) : Owned leaving later := by
  rcases hown.getOrCreate_eq_ok hok with ⟨-, rfl⟩ | ⟨hnone, -, rfl⟩
  · exact hown
  · exact hown.register hnone mnemonic

theorem setEnabled (hown : Owned leaving h) {later : Host} {enabled : Bool} {time : Timestamp}
    (hok : h.setEnabled wallet enabled time = .ok later) : Owned leaving later := by
  obtain ⟨repository, -, rfl⟩ := exists_repository_of_setEnabled hok
  exact hown.evolve rfl fun id => ⟨[], by simp [lived]⟩

theorem put (hown : Owned leaving h) (record : WalletRecord) :
    Owned leaving (h.put record).2 :=
  hown.evolve rfl fun id => ⟨[], by simp [lived, Host.put]⟩

/-- A unit that the host lets go of is leaving. -/
theorem release (hown : Owned leaving h) (hid : h.lookup wallet = some id) :
    Owned (id :: leaving) (h.release wallet) where
  nodup := hown.nodup.sublist (List.filter_sublist.map Prod.fst)
  registered_wallet other v hmem := hown.registered_wallet other v (List.mem_of_mem_filter hmem)
  held other v hv := by
    rw [lookup_release]
    rcases hown.held other v hv with hkept | hclosed | hleaving
    · by_cases hwallet : v.wallet = wallet
      · rw [hwallet, hid, Option.some.injEq] at hkept
        exact Or.inr (Or.inr (by simp [hkept]))
      · rw [if_neg hwallet]
        exact Or.inl hkept
    · exact Or.inr (Or.inl hclosed)
    · exact Or.inr (Or.inr (List.mem_cons_of_mem id hleaving))
  settled := hown.settled

theorem releaseAll (hown : Owned leaving h) :
    Owned (h.registered.map Prod.snd ++ leaving) h.releaseAll where
  nodup := List.nodup_nil
  registered_wallet := by simp [Host.releaseAll]
  held other v hv := by
    rcases hown.held other v hv with hkept | hclosed | hleaving
    · refine Or.inr (Or.inr (List.mem_append_left _ ?_))
      exact List.mem_map_of_mem (mem_registered_of_lookup hkept)
    · exact Or.inr (Or.inl hclosed)
    · exact Or.inr (Or.inr (List.mem_append_right _ hleaving))
  settled := hown.settled

end Owned

end Host

end Keyring
