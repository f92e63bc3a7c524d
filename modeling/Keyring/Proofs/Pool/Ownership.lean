import Keyring.Proofs.Pool.Custody
import Keyring.Proofs.Storage.Memory

/-!
# Histories of a host

A host is asked for units, to find them and to remove them; its callers use the units that
they were handed, as long as they like, and records are stored and changed meanwhile.  All
of this happens for the sake of one wallet at a time (`Request`).  Shutting the host down
and the passing of time concern every wallet.  A caller names a unit by its wallet and by
its place among the units of the wallet, the oldest first.

Every unit that was ever handed out is kept for its wallet or closed
(`issued_units_kept_or_closed`).  A request makes one of five changes to a host (`Change`), and
`Custody` says that each of them keeps this; here it is carried through histories
(`Owned.after`).
-/

namespace Keyring.Host

open PoolUnit (Settled)

/-! ## Places -/

/-- The position of the unit of a wallet that has `n` units of the wallet before it. -/
def positionOf (wallet : Uuid) : List PoolUnit → Nat → Option Nat
  | [], _ => none
  | u :: rest, n =>
    if u.wallet = wallet then
      match n with
      | 0 => some 0
      | n + 1 => (positionOf wallet rest n).map (· + 1)
    else (positionOf wallet rest n).map (· + 1)

/-- The number of units of a wallet that were made before a unit. -/
def place (h : Host) (wallet : Uuid) (id : Nat) : Nat :=
  (h.units.take id).countP (·.wallet == wallet)

/-! ## Events -/

/-- What may happen to a wallet. -/
inductive Request
  | getOrCreate (mnemonic : Uuid)
  | lookup
  | remove
  | step (place : Nat) (s : UnitStep)
  | put (record : WalletRecord)
  | setEnabled (enabled : Bool) (time : Timestamp)

/-- What comes of it; a step that crashes has no reply.  The id of a stored record tells how many
records of other wallets there are, so it is left out. -/
inductive Reply
  | handle (place : Nat)
  | found (place : Option Nat)
  | flag (b : Bool)
  | unit (reply : Option UnitReply)
  | failed (e : WalletError)
  | done

/-- What may happen to a host. -/
inductive Event
  | ask (wallet : Uuid) (request : Request)
  | shutdown
  | advance (span : Nat)

/-- The host after a request. -/
def ask (h : Host) (wallet : Uuid) : Request → Reply × Host
  | .getOrCreate mnemonic =>
    match h.getOrCreate wallet mnemonic with
    | .ok (id, later) => (.handle (later.place wallet id), later)
    | .error e => (.failed e, h)
  | .lookup => (.found ((h.lookup wallet).map (h.place wallet)), h)
  | .remove => (.flag (h.remove wallet).1, (h.remove wallet).2)
  | .step place s =>
    match positionOf wallet h.units place with
    | some id => (.unit (h.step id s).1, (h.step id s).2)
    | none => (.failed (.internal "no such unit"), h)
  | .put record => (.done, (h.put { record with wallet }).2)
  | .setEnabled enabled time =>
    match h.setEnabled wallet enabled time with
    | .ok later => (.done, later)
    | .error e => (.failed e, h)

/-- The host after an event. -/
def play (h : Host) : Event → Reply × Host
  | .ask wallet request => h.ask wallet request
  | .shutdown => (.done, h.shutdown)
  | .advance span => (.done, h.advance span)

/-- The host after a history, the oldest event first. -/
def after (h : Host) (history : List Event) : Host :=
  history.foldl (fun h event => (h.play event).2) h

@[simp] theorem after_nil (h : Host) : h.after [] = h := rfl

@[simp] theorem after_cons (h : Host) (event : Event) (history : List Event) :
    h.after (event :: history) = (h.play event).2.after history := rfl

variable {h : Host} {wallet mnemonic : Uuid} {id : Nat} {u : PoolUnit}

/-! ## What a request changes -/

theorem positionOf_cons_of_ne (hwallet : u.wallet ≠ wallet) (rest : List PoolUnit) (n : Nat) :
    positionOf wallet (u :: rest) n = (positionOf wallet rest n).map (· + 1) := by
  cases n <;> simp [positionOf, hwallet]

/-- A position is that of a unit of the wallet, and its place leads back to it. -/
theorem positionOf_eq_some {units : List PoolUnit} {n : Nat}
    (h : positionOf wallet units n = some id) :
    ∃ u, units[id]? = some u ∧ u.wallet = wallet ∧
      (units.take id).countP (·.wallet == wallet) = n := by
  induction units generalizing n id with
  | nil => cases h
  | cons u rest ih =>
      by_cases hwallet : u.wallet = wallet
      · cases n with
        | zero =>
            rw [positionOf, if_pos hwallet, Option.some.injEq] at h
            subst h
            exact ⟨u, rfl, hwallet, rfl⟩
        | succ n =>
            rw [positionOf, if_pos hwallet] at h
            obtain ⟨id, hid, rfl⟩ := Option.map_eq_some_iff.mp h
            obtain ⟨v, hv, hvwallet, hplace⟩ := ih hid
            exact ⟨v, by simpa using hv, hvwallet, by simp [hwallet, hplace]⟩
      · rw [positionOf_cons_of_ne hwallet] at h
        obtain ⟨id, hid, rfl⟩ := Option.map_eq_some_iff.mp h
        obtain ⟨v, hv, hvwallet, hplace⟩ := ih hid
        exact ⟨v, by simpa using hv, hvwallet, by simp [hwallet, hplace]⟩

/-- Every unit can be named by its wallet and its place. -/
theorem positionOf_place (hu : h.units[id]? = some u) :
    positionOf u.wallet h.units (h.place u.wallet id) = some id := by
  unfold place
  generalize h.units = units at hu ⊢
  induction units generalizing id with
  | nil => cases hu
  | cons v rest ih =>
      cases id with
      | zero =>
          cases hu
          simp [positionOf]
      | succ id =>
          have hrest := ih (by simpa using hu)
          by_cases hwallet : v.wallet = u.wallet
          · simp [hwallet, positionOf, hrest]
          · rw [positionOf_cons_of_ne hwallet, List.take_succ_cons,
              List.countP_cons_of_neg (by simpa using hwallet), hrest]
            rfl

/-- What a request for the sake of a wallet can make of a host. -/
inductive Change (h : Host) (wallet : Uuid) : Host → Prop
  | same : Change h wallet h
  | registered (mnemonic : Uuid) (hnone : h.lookup wallet = none) :
      Change h wallet (h.register wallet mnemonic)
  | removed (id : Nat) (hid : h.lookup wallet = some id) :
      Change h wallet ((h.release wallet).shutdownUnit id)
  | lived (id : Nat) (u : PoolUnit) (events : List PoolUnit.Event)
      (hu : h.units[id]? = some u) (hwallet : u.wallet = wallet) :
      Change h wallet (h.setUnit id (h.lived u events))
  | stored (repository : MemoryRepository)
      (hothers : ∀ other, other ≠ wallet →
        repository.find? other = h.repository.find? other) :
      Change h wallet { h with repository }

namespace Owned

variable {leaving : List Nat}

/-- A request makes one of these changes. -/
theorem change_ask (hown : Owned leaving h) (wallet : Uuid) (request : Request) :
    Change h wallet (h.ask wallet request).2 := by
  cases request with
  | getOrCreate mnemonic =>
      simp only [Host.ask]
      split
      · next hok =>
          rcases hown.getOrCreate_eq_ok hok with ⟨-, rfl⟩ | ⟨hnone, -, rfl⟩
          · exact .same
          · exact .registered mnemonic hnone
      · exact .same
  | lookup => exact .same
  | remove =>
      simp only [Host.ask]
      cases hid : h.lookup wallet with
      | some id =>
          rw [remove_of_kept hid]
          exact .removed id hid
      | none =>
          rw [remove_of_none hid]
          exact .same
  | step place s =>
      simp only [Host.ask]
      split
      · next id hposition =>
          obtain ⟨u, hu, hwallet, -⟩ := positionOf_eq_some hposition
          rw [step_of_some hu]
          exact .lived id u _ hu hwallet
      · exact .same
  | put record =>
      refine .stored _ fun other hother => ?_
      exact (MemoryRepository.find?_insert _ _ _).trans (if_neg (Ne.symm hother))
  | setEnabled enabled time =>
      simp only [Host.ask]
      split
      · next later hok =>
          obtain ⟨repository, hrepository, rfl⟩ := exists_repository_of_setEnabled hok
          refine .stored repository fun other hother => ?_
          rw [MemoryRepository.find?_of_setEnabled hrepository, if_neg hother]
      · exact .same

/-! ## What a history keeps -/

theorem change (hown : Owned [] h) {later : Host} (hchange : Change h wallet later) :
    Owned [] later := by
  cases hchange with
  | same => exact hown
  | registered mnemonic hnone => exact hown.register hnone mnemonic
  | removed id hid =>
      have hshut := (hown.release hid).shutdownUnit id
      rwa [List.erase_cons_head] at hshut
  | lived id u events hu => exact hown.setUnit hu events
  | stored repository => exact hown.evolve rfl fun id => ⟨[], by simp [lived]⟩

/-- One event keeps the invariant. -/
theorem play (hown : Owned [] h) (event : Event) : Owned [] (h.play event).2 := by
  cases event with
  | ask wallet request => exact hown.change (hown.change_ask wallet request)
  | shutdown =>
      have hall := hown.releaseAll
      simp only [Host.play, shutdown_eq]
      exact shutdownUnits _ hall
  | advance span => exact hown.advance span

/-- So does a history. -/
theorem after (hown : Owned [] h) (history : List Event) : Owned [] (h.after history) := by
  induction history generalizing h with
  | nil => exact hown
  | cons event history ih => exact ih (hown.play event)

/-! ### Closed units -/

theorem getElem?_setUnit_of_closed (hown : Owned leaving h) (hu : h.units[id]? = some u)
    (hclosed : u.isClosed = true) {other : Nat} {v : PoolUnit}
    (hv : h.units[other]? = some v) (events : List PoolUnit.Event) :
    (h.setUnit other (h.lived v events)).units[id]? = some u := by
  rw [getElem?_setUnit hv]
  split
  · next heq =>
      rw [← heq, hu, Option.some.injEq] at hv
      subst hv
      rw [hown.lived_of_closed hu hclosed]
  · exact hu

theorem getElem?_change_of_closed (hown : Owned [] h) (hu : h.units[id]? = some u)
    (hclosed : u.isClosed = true) {later : Host} (hchange : Change h wallet later) :
    later.units[id]? = some u := by
  cases hchange with
  | same => exact hu
  | registered mnemonic => exact getElem?_register_of_some hu
  | removed other hid =>
      obtain ⟨v, hv, -⟩ := hown.lookup_wallet hid
      have hshut := (hown.release hid).getElem?_setUnit_of_closed hu hclosed hv [.shutdown]
      rwa [shutdownUnit_of_some (h := h.release wallet) hv]
  | lived other v events hv => exact hown.getElem?_setUnit_of_closed hu hclosed hv events
  | stored repository => exact hu

theorem getElem?_play_of_closed (hown : Owned [] h) (hu : h.units[id]? = some u)
    (hclosed : u.isClosed = true) (event : Event) :
    (h.play event).2.units[id]? = some u := by
  cases event with
  | ask wallet request =>
      exact hown.getElem?_change_of_closed hu hclosed (hown.change_ask wallet request)
  | shutdown =>
      have hshut : u.shutdown = u := hown.lived_of_closed hu hclosed [.shutdown]
      simp only [Host.play, shutdown_eq]
      rw [getElem?_shutdownUnits _ (h := h.releaseAll) hu, hshut, ite_self]
  | advance span =>
      have hidle := hown.lived_of_closed hu hclosed [.elapse span, .unloadIfIdle]
      simp only [Host.play, Host.advance, List.getElem?_map, hu, Option.map_some,
        Option.some.injEq]
      exact hidle

/-- No history changes a closed unit. -/
theorem getElem?_after_of_closed (hown : Owned [] h) (hu : h.units[id]? = some u)
    (hclosed : u.isClosed = true) (history : List Event) :
    (h.after history).units[id]? = some u := by
  induction history generalizing h with
  | nil => exact hu
  | cons event history ih =>
      exact ih (hown.play event) (hown.getElem?_play_of_closed hu hclosed event)

/-! ### The runtime -/

theorem hasRuntime_of_change {later : Host} (hchange : Change h wallet later) :
    later.hasRuntime = h.hasRuntime := by
  cases hchange with
  | same => rfl
  | registered mnemonic => rfl
  | removed id => exact shutdownUnit_hasRuntime _ id
  | lived id u events => rfl
  | stored repository => rfl

theorem hasRuntime_play (hown : Owned [] h) (event : Event) :
    (h.play event).2.hasRuntime = h.hasRuntime := by
  cases event with
  | ask wallet request => exact hasRuntime_of_change (hown.change_ask wallet request)
  | shutdown =>
      have hfold : ∀ (ids : List Nat) (h : Host),
          (ids.foldl Host.shutdownUnit h).hasRuntime = h.hasRuntime := by
        intro ids
        induction ids with
        | nil => exact fun _ => rfl
        | cons id rest ih => exact fun h => (ih _).trans (shutdownUnit_hasRuntime h id)
      simp only [Host.play, shutdown_eq, hfold]
      rfl
  | advance span => rfl

theorem hasRuntime_after (hown : Owned [] h) (history : List Event) :
    (h.after history).hasRuntime = h.hasRuntime := by
  induction history generalizing h with
  | nil => rfl
  | cons event history ih => exact (ih (hown.play event)).trans (hown.hasRuntime_play event)

end Owned

/-! ## Handing out and taking back -/

/-- A wallet without a unit gets a new one, unloaded and open. -/
theorem getOrCreate_new (hnone : h.lookup wallet = none) (hruntime : h.hasRuntime = true)
    (mnemonic : Uuid) :
    ∃ later u, h.getOrCreate wallet mnemonic = .ok (h.units.length, later) ∧
      later.units = h.units ++ [u] ∧ later.lookup wallet = some h.units.length ∧
      (∀ other, other ≠ wallet → later.lookup other = h.lookup other) ∧
      u.wallet = wallet ∧ u.mnemonic = mnemonic ∧ u.isLoaded = false ∧ u.isClosed = false := by
  refine ⟨h.register wallet mnemonic, { wallet, mnemonic }, ?_, rfl, ?_, ?_, rfl, rfl, rfl, rfl⟩
  · rw [getOrCreate_of_none hnone, if_pos hruntime]
  · rw [lookup_register, if_pos rfl]
  · intro other hother
    rw [lookup_register, if_neg hother]

/-- A wallet whose unit is removed has none, and the host has made as many as before. -/
theorem remove_spec (h : Host) (wallet : Uuid) :
    (h.remove wallet).1 = (h.lookup wallet).isSome ∧
      (h.remove wallet).2.lookup wallet = none ∧
      (h.remove wallet).2.hasRuntime = h.hasRuntime ∧
      (h.remove wallet).2.units.length = h.units.length := by
  cases hid : h.lookup wallet with
  | some id =>
      rw [remove_of_kept hid]
      refine ⟨rfl, ?_, ?_, ?_⟩
      · rw [lookup_shutdownUnit, lookup_release, if_pos rfl]
      · rw [shutdownUnit_hasRuntime, release]
      · rw [length_shutdownUnit, release]
  | none =>
      rw [remove_of_none hid]
      exact ⟨rfl, hid, rfl, rfl⟩

/-! ## Main statement -/

/-- **A unit that was ever handed out is the one its wallet has, or closed for good.**  After
any history of a new host

* every unit can be named, and it is kept for its wallet, or it is closed and unloaded and no
  later history changes it,
* a wallet that has a unit gets this very unit for the mnemonic of the unit; for any other
  mnemonic the wallet is not found and the host stays as it is,
* a wallet that has no unit gets a new one for the two of them, unloaded and open, unless
  units cannot be started at all,
* removing answers whether the wallet had a unit, and the next unit of the wallet is one
  that had not been handed out before,
* shutting the host down leaves it empty and all of its units closed. -/
theorem issued_units_kept_or_closed (context : PoolContext) (hasRuntime : Bool)
    (repository : MemoryRepository) (now : Nat) (history : List Event) :
    let h := (begin context hasRuntime repository now).after history
    (∀ (id : Nat) (u : PoolUnit), h.units[id]? = some u →
      positionOf u.wallet h.units (h.place u.wallet id) = some id ∧
        (h.lookup u.wallet = some id ∨
          u.isClosed = true ∧ u.isLoaded = false ∧
            ∀ later, (h.after later).units[id]? = some u)) ∧
    (∀ wallet id, h.lookup wallet = some id →
      ∃ u : PoolUnit, h.units[id]? = some u ∧ u.wallet = wallet ∧
        h.getOrCreate wallet u.mnemonic = .ok (id, h) ∧
        ∀ mnemonic, mnemonic ≠ u.mnemonic →
          h.getOrCreate wallet mnemonic =
              .error (.walletNotFound
                ("wallet " ++ wallet.text ++ " has no mnemonic " ++ mnemonic.text)) ∧
            (h.play (.ask wallet (.getOrCreate mnemonic))).2 = h) ∧
    (∀ wallet mnemonic, h.lookup wallet = none →
      if hasRuntime then
        ∃ later u, h.getOrCreate wallet mnemonic = .ok (h.units.length, later) ∧
          later.units = h.units ++ [u] ∧ later.lookup wallet = some h.units.length ∧
          (∀ other, other ≠ wallet → later.lookup other = h.lookup other) ∧
          u.wallet = wallet ∧ u.mnemonic = mnemonic ∧ u.isLoaded = false ∧ u.isClosed = false
      else
        h.getOrCreate wallet mnemonic = .error (.internal noRuntime) ∧
          (h.play (.ask wallet (.getOrCreate mnemonic))).2 = h) ∧
    (∀ wallet,
      ((h.remove wallet).1 = true ↔ (h.lookup wallet).isSome = true) ∧
        (h.remove wallet).2.lookup wallet = none ∧
        ∀ mnemonic, hasRuntime = true →
          ∃ id later, (h.remove wallet).2.getOrCreate wallet mnemonic = .ok (id, later) ∧
            h.units[id]? = none) ∧
    h.shutdown.size = 0 ∧ ∀ u ∈ h.shutdown.units, u.isClosed = true := by
  intro h
  have hown : Owned [] h := (Owned.begin context hasRuntime repository now).after history
  have hruntime : h.hasRuntime = hasRuntime :=
    (Owned.begin context hasRuntime repository now).hasRuntime_after history
  refine ⟨?_, ?_, ?_, ?_, ?_⟩
  · intro id u hu
    refine ⟨positionOf_place hu, ?_⟩
    rcases hown.held id u hu with hkept | hclosed | hleaving
    · exact Or.inl hkept
    · have hunloaded := (hown.settled id u hu).unloaded_of_closed hclosed
      refine Or.inr ⟨hclosed, by rw [PoolUnit.isLoaded, hunloaded]; rfl, ?_⟩
      exact hown.getElem?_after_of_closed hu hclosed
    · cases hleaving
  · intro wallet id hid
    obtain ⟨u, hu, hwallet⟩ := hown.lookup_wallet hid
    refine ⟨u, hu, hwallet, by rw [getOrCreate_of_kept hid hu, if_pos rfl], ?_⟩
    intro mnemonic hforeign
    have hrefused := getOrCreate_of_kept hid hu mnemonic
    rw [if_neg (Ne.symm hforeign)] at hrefused
    exact ⟨hrefused, by simp only [play, ask, hrefused]⟩
  · intro wallet mnemonic hnone
    rw [← hruntime]
    split
    · next hstarts => exact getOrCreate_new hnone hstarts mnemonic
    · next hstarts =>
        have hrefused := getOrCreate_of_none hnone mnemonic
        rw [if_neg hstarts] at hrefused
        exact ⟨hrefused, by simp only [play, ask, hrefused]⟩
  · intro wallet
    obtain ⟨hanswer, hnone, hsame, hlength⟩ := remove_spec h wallet
    refine ⟨by rw [hanswer], hnone, ?_⟩
    intro mnemonic hstarts
    rw [← hruntime, ← hsame] at hstarts
    obtain ⟨later, u, hnew, -⟩ := getOrCreate_new hnone hstarts mnemonic
    exact ⟨_, later, hnew, List.getElem?_eq_none (Nat.le_of_eq hlength.symm)⟩
  · have hshut : Owned [] h.shutdown := hown.play .shutdown
    refine ⟨rfl, ?_⟩
    intro u hmem
    obtain ⟨id, hu⟩ := List.mem_iff_getElem?.mp hmem
    rcases hshut.held id u hu with hkept | hclosed | hleaving
    · -- Nothing is registered any more.
      cases hkept
    · exact hclosed
    · cases hleaving

end Keyring.Host
