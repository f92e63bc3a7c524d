import Mathlib.Data.List.Induction
import Keyring.Proofs.Pool.Gate
import Keyring.Proofs.Pool.Ownership

/-!
# Units that are handed out again

A unit is closed in one of two ways.  The host lets go of it and shuts it down, so that the wallet
gets another one; or someone who holds the unit shuts it down, and the host, which does not learn
of it, goes on to keep the unit.  It looks at the mnemonic of a unit before it hands it out again,
not at whether the unit is closed.  So the closed units that are handed out are those that a holder
has shut down (`ShutByHolder`): whatever else happens to a unit that is kept leaves it open
(`Owned.keepsClosed_or_shut`), and a closed one never opens again.
-/

namespace Keyring

namespace PoolUnit

variable {u : PoolUnit} {ctx : PoolContext} {source : RecordSource}

/-- An open unit can be loaded if it is already, or if its record may be used.  Its idle time
starts anew. -/
theorem operate_touch_of_open (hopen : u.isClosed = false) (now : Nat)
    (h : u.isLoaded = true ∨ ∃ record text m, u.Admits ctx source record text m) :
    (u.operate ctx source now .touch).1 = .ok .done ∧
      (u.operate ctx source now .touch).2.deadline = some (now + ctx.interval) := by
  cases hkeychain : u.keychain with
  | some k =>
      rw [operate_of_loaded ctx source now .touch hopen hkeychain, run_eq]
      exact ⟨rfl, rfl⟩
  | none =>
      rcases h with hloaded | ⟨record, text, m, hadmits⟩
      · rw [isLoaded, hkeychain] at hloaded
        cases hloaded
      · obtain ⟨master, -, hfetch⟩ := fetch_of_admits hadmits
        rw [operate_of_fetched ctx source now .touch hopen hkeychain hfetch]
        exact ⟨rfl, rfl⟩

/-- By the clock it succeeds as long as the clock can tell the new deadline, and crashes
from then on. -/
theorem attempt_touch_of_open (hopen : u.isClosed = false) (now : Nat)
    (h : u.isLoaded = true ∨ ∃ record text m, u.Admits ctx source record text m) :
    (u.attempt ctx source now .touch).1 =
      if now + ctx.interval < clockEnd then some (.ok .done) else none := by
  obtain ⟨hanswer, hdeadline⟩ := operate_touch_of_open hopen now h
  have htold : (u.operate ctx source now .touch).2.isTold =
      decide (now + ctx.interval < clockEnd) := by
    rw [isTold, hdeadline]
    rfl
  split
  · next hrange => rw [attempt_of_told (by rw [htold]; exact decide_eq_true hrange), hanswer]
  · next hbeyond => rw [attempt_of_untold (by rw [htold]; exact decide_eq_false hbeyond)]

end PoolUnit

namespace Host

/-- Whether a holder of a unit has shut it down in the course of a history. -/
def ShutByHolder (start : Host) (history : List Event) (id : Nat) : Prop :=
  ∃ before wallet place later,
    history = before ++ .ask wallet (.step place .shutdown) :: later ∧
      positionOf wallet (start.after before).units place = some id

/-- Whether the host lets go of the unit of a wallet. -/
def Event.LetsGo (wallet : Uuid) : Event → Prop
  | .ask other .remove => other = wallet
  | .shutdown => True
  | _ => False

/-- A host that keeps a closed unit. -/
def KeepsClosed (h : Host) (id : Nat) : Prop :=
  ∃ u : PoolUnit, h.units[id]? = some u ∧ u.isClosed = true ∧ h.lookup u.wallet = some id

variable {h start : Host} {wallet mnemonic : Uuid} {id : Nat} {u : PoolUnit} {event : Event}
  {history : List Event}

theorem after_append (h : Host) (first second : List Event) :
    h.after (first ++ second) = (h.after first).after second :=
  List.foldl_append

/-! ## What closes a unit that is kept -/

theorem isClosed_lived_iff (h : Host) (u : PoolUnit) (s : UnitStep) :
    (h.lived u [s.toEvent h]).isClosed = true ↔ u.isClosed = true ∨ s = .shutdown := by
  cases s with
  | operate op =>
      have hsame : (h.lived u [UnitStep.toEvent (.operate op) h]).isClosed = u.isClosed :=
        PoolUnit.attempt_isClosed u h.context h.source h.now op
      rw [hsame]
      simp
  | shutdown => exact ⟨fun _ => Or.inr rfl, fun _ => rfl⟩
  | unload | readLoaded | readClosed | readCached =>
      exact ⟨Or.inl, fun hor => hor.resolve_right (by simp)⟩

/-- A new unit is open. -/
theorem keepsClosed_of_register (hlater : (h.register wallet mnemonic).KeepsClosed id) :
    h.KeepsClosed id := by
  obtain ⟨v, hv, hclosed, hkept⟩ := hlater
  rw [lookup_register] at hkept
  rcases getElem?_register_cases hv with hold | ⟨-, rfl⟩
  · split at hkept
    · next hwallet =>
        -- The place of the new unit was not taken.
        cases hkept
        rw [List.getElem?_eq_none (Nat.le_refl _)] at hold
        cases hold
    · exact ⟨v, hold, hclosed, hkept⟩
  · cases hclosed

namespace Owned

/-- A unit that is shut down by a removal is not kept. -/
theorem keepsClosed_of_remove (hown : Owned [] h)
    (hlater : (h.remove wallet).2.KeepsClosed id) : h.KeepsClosed id := by
  cases hid : h.lookup wallet with
  | none => rwa [remove_of_none hid] at hlater
  | some removed =>
      rw [remove_of_kept hid] at hlater
      obtain ⟨v, hv, hclosed, hkept⟩ := hlater
      obtain ⟨u, hu, hwallet⟩ := hown.lookup_wallet hid
      rw [lookup_shutdownUnit, lookup_release] at hkept
      rw [shutdownUnit_of_some (h := h.release wallet) hu,
        getElem?_setUnit (h := h.release wallet) hu] at hv
      split at hkept
      · cases hkept
      · next hother =>
          split at hv
          · cases hv
            exact absurd hwallet hother
          · exact ⟨v, hv, hclosed, hkept⟩

/-- A step closes the unit that it is taken on if it is a shutdown, and no other. -/
theorem keepsClosed_of_step (hown : Owned [] h) {place : Nat} {s : UnitStep}
    (hlater : (h.play (.ask wallet (.step place s))).2.KeepsClosed id) :
    h.KeepsClosed id ∨ s = .shutdown ∧ positionOf wallet h.units place = some id := by
  simp only [Host.play, ask] at hlater
  split at hlater
  · next target hposition =>
      obtain ⟨u, hu, -, -⟩ := positionOf_eq_some hposition
      simp only [step_of_some hu] at hlater
      obtain ⟨v, hv, hclosed, hkept⟩ := hlater
      rw [getElem?_setUnit hu] at hv
      split at hv
      · next hsame =>
          cases hv
          subst hsame
          rw [(hown.settled_lived hu _).wallet_eq] at hkept
          rcases (isClosed_lived_iff h u s).mp hclosed with hbefore | hshutdown
          · exact Or.inl ⟨u, hu, hbefore, hkept⟩
          · exact Or.inr ⟨hshutdown, hposition⟩
      · exact Or.inl ⟨v, hv, hclosed, hkept⟩
  · exact Or.inl hlater

theorem keepsClosed_of_advance {span : Nat} (hlater : (h.advance span).KeepsClosed id) :
    h.KeepsClosed id := by
  obtain ⟨v, hv, hclosed, hkept⟩ := hlater
  obtain ⟨u, hu, rfl⟩ : ∃ u, h.units[id]? = some u ∧ (u.unloadIfIdle (h.now + span)).2 = v :=
    Option.map_eq_some_iff.mp (by rwa [Host.advance, List.getElem?_map] at hv)
  rcases PoolUnit.unloadIfIdle_cases u (h.now + span) with hunload | hsame
  · rw [hunload] at hclosed hkept
    exact ⟨u, hu, hclosed, hkept⟩
  · rw [hsame] at hclosed hkept
    exact ⟨u, hu, hclosed, hkept⟩

/-- One event makes the host keep a closed unit only if it is the shutdown of this unit by a
holder. -/
theorem keepsClosed_or_shut (hown : Owned [] h) (hlater : (h.play event).2.KeepsClosed id) :
    h.KeepsClosed id ∨ ∃ wallet place, event = .ask wallet (.step place .shutdown) ∧
      positionOf wallet h.units place = some id := by
  cases event with
  | ask wallet request =>
      cases request with
      | getOrCreate mnemonic =>
          left
          simp only [Host.play, ask] at hlater
          split at hlater
          · next hok =>
              rcases hown.getOrCreate_eq_ok hok with ⟨-, rfl⟩ | ⟨-, -, rfl⟩
              · exact hlater
              · exact keepsClosed_of_register hlater
          · exact hlater
      | lookup => exact Or.inl hlater
      | remove => exact Or.inl (hown.keepsClosed_of_remove hlater)
      | step place s =>
          rcases hown.keepsClosed_of_step hlater with hbefore | ⟨rfl, hposition⟩
          · exact Or.inl hbefore
          · exact Or.inr ⟨wallet, place, rfl, hposition⟩
      | put record => exact Or.inl hlater
      | setEnabled enabled time =>
          left
          simp only [Host.play, ask] at hlater
          split at hlater
          · next later hok =>
              obtain ⟨repository, -, rfl⟩ := exists_repository_of_setEnabled hok
              exact hlater
          · exact hlater
  | shutdown =>
      -- Nothing is kept any more.
      obtain ⟨v, -, -, hkept⟩ := hlater
      cases hkept
  | advance span => exact Or.inl (keepsClosed_of_advance hlater)

/-- So a closed unit that is kept after a history was shut down by a holder. -/
theorem shutByHolder_of_keepsClosed (hown : Owned [] start) (hnew : ∀ id, ¬ start.KeepsClosed id)
    (hafter : (start.after history).KeepsClosed id) : start.ShutByHolder history id := by
  induction history using List.reverseRecOn with
  | nil => exact absurd hafter (hnew id)
  | append_singleton history event ih =>
      rw [after_append] at hafter
      rcases (hown.after history).keepsClosed_or_shut hafter with
        hbefore | ⟨wallet, place, rfl, hposition⟩
      · obtain ⟨before, wallet, place, later, rfl, hposition⟩ := ih hbefore
        refine ⟨before, wallet, place, later ++ [event], ?_, hposition⟩
        rw [List.append_assoc, List.cons_append]
      · exact ⟨history, wallet, place, [], rfl, hposition⟩

theorem play_shutdown {place : Nat} (hposition : positionOf wallet h.units place = some id)
    (hu : h.units[id]? = some u) :
    (h.play (.ask wallet (.step place .shutdown))).2 = h.setUnit id u.shutdown := by
  simp only [Host.play, ask, hposition, step_of_some hu]
  rfl

/-- A unit that a holder has shut down stays closed. -/
theorem closed_of_shutByHolder (hown : Owned [] start) (hshut : start.ShutByHolder history id) :
    ∃ u : PoolUnit, (start.after history).units[id]? = some u ∧ u.isClosed = true := by
  obtain ⟨before, wallet, place, later, rfl, hposition⟩ := hshut
  obtain ⟨u, hu, -, -⟩ := positionOf_eq_some hposition
  have hclosed : ((start.after before).setUnit id u.shutdown).units[id]? = some u.shutdown := by
    rw [getElem?_setUnit hu, if_pos rfl]
  rw [← play_shutdown hposition hu] at hclosed
  refine ⟨u.shutdown, ?_, rfl⟩
  rw [after_append, after_cons]
  exact ((hown.after before).play _).getElem?_after_of_closed hclosed rfl later

/-! ## How long a unit is kept -/

theorem lookup_play_of_kept (hown : Owned [] h) (hid : h.lookup wallet = some id)
    (hstays : ¬ event.LetsGo wallet) : (h.play event).2.lookup wallet = some id := by
  cases event with
  | ask other request =>
      cases request with
      | getOrCreate mnemonic =>
          simp only [Host.play, ask]
          split
          · next hok =>
              rcases hown.getOrCreate_eq_ok hok with ⟨-, rfl⟩ | ⟨hnone, -, rfl⟩
              · exact hid
              · have hother : wallet ≠ other := by
                  rintro rfl
                  rw [hid] at hnone
                  cases hnone
                rw [lookup_register, if_neg hother]
                exact hid
          · exact hid
      | lookup => exact hid
      | remove =>
          have hother : wallet ≠ other := fun heq => hstays heq.symm
          simp only [Host.play, ask]
          cases hremoved : h.lookup other with
          | none => rwa [remove_of_none hremoved]
          | some removed =>
              rw [remove_of_kept hremoved, lookup_shutdownUnit, lookup_release, if_neg hother]
              exact hid
      | step place s =>
          simp only [Host.play, ask]
          split
          · next target hposition =>
              obtain ⟨u, hu, -, -⟩ := positionOf_eq_some hposition
              simp only [step_of_some hu]
              exact hid
          · exact hid
      | put record => exact hid
      | setEnabled enabled time =>
          simp only [Host.play, ask]
          split
          · next later hok =>
              obtain ⟨repository, -, rfl⟩ := exists_repository_of_setEnabled hok
              exact hid
          · exact hid
  | shutdown => exact absurd trivial hstays
  | advance span => exact hid

theorem lookup_after_of_kept (hown : Owned [] h) (hid : h.lookup wallet = some id)
    (hstays : ∀ event ∈ history, ¬ event.LetsGo wallet) :
    (h.after history).lookup wallet = some id := by
  induction history generalizing h with
  | nil => exact hid
  | cons event history ih =>
      obtain ⟨hevent, hstays⟩ := List.forall_mem_cons.mp hstays
      exact ih (hown.play event) (hown.lookup_play_of_kept hid hevent) hstays

/-- The unit that is handed out was kept before, or it is new and open. -/
theorem exists_unit_of_getOrCreate (hown : Owned [] h) {later : Host}
    (hok : h.getOrCreate wallet mnemonic = .ok (id, later)) :
    ∃ u : PoolUnit, later.units[id]? = some u ∧ later.lookup wallet = some id ∧
      u.wallet = wallet ∧ u.mnemonic = mnemonic ∧
      (later = h ∨ h.units[id]? = none ∧ u.isClosed = false) := by
  cases hid : h.lookup wallet with
  | some kept =>
      obtain ⟨u, hu, hwallet⟩ := hown.lookup_wallet hid
      rw [getOrCreate_of_kept hid hu] at hok
      split at hok
      · next hmnemonic =>
          cases hok
          exact ⟨u, hu, hid, hwallet, hmnemonic, Or.inl rfl⟩
      · cases hok
  | none =>
      rcases hown.getOrCreate_eq_ok hok with ⟨hkept, -⟩ | ⟨-, rfl, rfl⟩
      · rw [hid] at hkept
        cases hkept
      · refine ⟨{ wallet, mnemonic }, List.getElem?_concat_length, ?_, rfl, rfl,
          Or.inr ⟨List.getElem?_eq_none (Nat.le_refl _), rfl⟩⟩
        rw [lookup_register, if_pos rfl]

/-- A closed unit that is kept is handed out until the host lets go of it, and refuses
everything. -/
theorem getOrCreate_after_of_closed (hown : Owned [] h) (hid : h.lookup wallet = some id)
    (hu : h.units[id]? = some u) (hclosed : u.isClosed = true)
    (hstays : ∀ event ∈ history, ¬ event.LetsGo wallet) :
    (h.after history).getOrCreate wallet u.mnemonic = .ok (id, h.after history) ∧
      ∀ op, ((h.after history).operate id op).1 = some (.error (.unitClosed u.wallet.text)) := by
  have hlater := hown.getElem?_after_of_closed hu hclosed history
  constructor
  · rw [getOrCreate_of_kept (hown.lookup_after_of_kept hid hstays) hlater, if_pos rfl]
  · intro op
    simp only [operate, hlater, PoolUnit.attempt_of_closed hclosed (hown.settled id u hu).told]

/-- A unit that is kept and shut down by a holder is handed out as it is. -/
theorem getOrCreate_of_shut (hown : Owned [] h) (hid : h.lookup wallet = some id)
    (hu : h.units[id]? = some u) :
    let shut := (h.play (.ask wallet (.step (h.place wallet id) .shutdown))).2
    shut.getOrCreate wallet u.mnemonic = .ok (id, shut) ∧ shut.units[id]? = some u.shutdown := by
  intro shut
  have hwallet : u.wallet = wallet := by
    obtain ⟨v, hv, hwallet⟩ := hown.lookup_wallet hid
    rw [hu] at hv
    cases hv
    exact hwallet
  have hposition : positionOf wallet h.units (h.place wallet id) = some id :=
    hwallet ▸ positionOf_place hu
  have hshut : shut = h.setUnit id u.shutdown := play_shutdown hposition hu
  have hclosed : shut.units[id]? = some u.shutdown := by
    rw [hshut, getElem?_setUnit hu, if_pos rfl]
  have hkept : shut.lookup wallet = some id := by
    rw [hshut]
    exact hid
  exact ⟨(getOrCreate_of_kept hkept hclosed _).trans (if_pos rfl), hclosed⟩

/-- Once the host has let go of its unit, a wallet gets an open one. -/
theorem getOrCreate_of_letsGo (hown : Owned [] h) (hruntime : h.hasRuntime = true)
    (hgone : event.LetsGo wallet) (mnemonic : Uuid) :
    ∃ id later u, (h.play event).2.getOrCreate wallet mnemonic = .ok (id, later) ∧
      later.units[id]? = some u ∧ u.isClosed = false := by
  have hnone : (h.play event).2.lookup wallet = none := by
    cases event with
    | ask other request =>
        cases request with
        | remove =>
            cases hgone
            exact (remove_spec h wallet).2.1
        | _ => exact absurd hgone id
    | shutdown => rfl
    | advance span => exact absurd hgone id
  rw [← hown.hasRuntime_play event] at hruntime
  obtain ⟨later, u, hnew, hunits, -, -, -, -, -, hopen⟩ :=
    getOrCreate_new hnone hruntime mnemonic
  refine ⟨_, later, u, hnew, ?_, hopen⟩
  rw [hunits]
  exact List.getElem?_concat_length

end Owned

/-! ## Main statement -/

/-- **A unit that is handed out is open unless a holder has shut it down.**  After any history of a
new host, what it hands out is a unit for the wallet and the mnemonic that were named, and

* the unit is closed exactly if someone who held it has shut it down in this history,
* if it is open, it can be used: it loads, unless it is loaded, if the gate admits its record and
  the clock can tell the deadline that it gets; once the clock cannot, loading crashes,
* if it is closed, it is handed out again and again, whatever else happens, and refuses all
  operations, until the wallet is removed or the host is shut down,
* whoever gets it can bring this about, by shutting it down.

After a removal or a shutdown of the host the wallet gets an open unit, unless units cannot be
started at all. -/
theorem issued_unit_closed_iff_shut_by_holder (context : PoolContext) (hasRuntime : Bool)
    (repository : MemoryRepository) (now : Nat) (history : List Event) :
    let start := begin context hasRuntime repository now
    let h := start.after history
    (∀ wallet mnemonic id later, h.getOrCreate wallet mnemonic = .ok (id, later) →
      ∃ u : PoolUnit, later.units[id]? = some u ∧ u.wallet = wallet ∧ u.mnemonic = mnemonic ∧
        (u.isClosed = true ↔ start.ShutByHolder history id) ∧
        (u.isClosed = false →
          (u.isLoaded = true ∨
            ∃ record text m, u.Admits later.context later.source record text m) →
          (later.operate id .touch).1 =
            if later.now + later.context.interval < PoolUnit.clockEnd then some (.ok .done)
            else none) ∧
        (u.isClosed = true → ∀ events : List Event,
          (∀ event ∈ events, ¬ event.LetsGo wallet) →
            (later.after events).getOrCreate wallet mnemonic = .ok (id, later.after events) ∧
            ∀ op, ((later.after events).operate id op).1 =
              some (.error (.unitClosed wallet.text))) ∧
        let shut := (later.play (.ask wallet (.step (later.place wallet id) .shutdown))).2
        shut.getOrCreate wallet mnemonic = .ok (id, shut) ∧
          shut.units[id]? = some u.shutdown) ∧
    (∀ wallet mnemonic, hasRuntime = true → ∀ event : Event, event.LetsGo wallet →
      ∃ id later u, (h.play event).2.getOrCreate wallet mnemonic = .ok (id, later) ∧
        later.units[id]? = some u ∧ u.isClosed = false) := by
  intro start h
  have hbegin : Owned [] start := Owned.begin context hasRuntime repository now
  have hown : Owned [] h := hbegin.after history
  have hnew : ∀ id, ¬ start.KeepsClosed id := by
    rintro id ⟨u, hu, -, -⟩
    cases hu
  constructor
  · intro wallet mnemonic id later hok
    obtain ⟨u, hu, hid, rfl, rfl, hbefore⟩ := hown.exists_unit_of_getOrCreate hok
    have hlater : Owned [] later := hown.getOrCreate hok
    refine ⟨u, hu, rfl, rfl, ⟨fun hclosed => ?_, fun hshut => ?_⟩, ?_, ?_, ?_⟩
    · rcases hbefore with rfl | ⟨-, hopen⟩
      · exact hbegin.shutByHolder_of_keepsClosed hnew ⟨u, hu, hclosed, hid⟩
      · rw [hclosed] at hopen
        cases hopen
    · obtain ⟨v, hv, hclosed⟩ := hbegin.closed_of_shutByHolder hshut
      rcases hbefore with rfl | ⟨hnone, -⟩
      · rw [hu] at hv
        cases hv
        exact hclosed
      · -- A unit that was shut down had been made.
        rw [hnone] at hv
        cases hv
    · intro hopen husable
      simp only [operate, hu]
      exact PoolUnit.attempt_touch_of_open hopen later.now husable
    · intro hclosed events hstays
      exact hlater.getOrCreate_after_of_closed hid hu hclosed hstays
    · exact hlater.getOrCreate_of_shut hid hu
  · intro wallet mnemonic hstarts event hgone
    have hruntime : h.hasRuntime = true := (hbegin.hasRuntime_after history).trans hstarts
    exact hown.getOrCreate_of_letsGo hruntime hgone mnemonic

/-- So not all units that are handed out are open: the first unit of a wallet is handed out when
it has been shut down. -/
theorem shut_unit_is_handed_out :
    ¬ ∀ (context : PoolContext) (repository : MemoryRepository) (history : List Event)
        (wallet mnemonic : Uuid) (id : Nat) (later : Host) (u : PoolUnit),
      ((begin context true repository 0).after history).getOrCreate wallet mnemonic =
          .ok (id, later) →
        later.units[id]? = some u → u.isClosed = false := by
  intro hall
  let params : ChainParams := ChainBuilder.build { name := "ethereum", family := .evm }
  let context : PoolContext := ⟨.ofParams params {} 12, .ok, 8000⟩
  have hopen := hall context .empty [.ask 1 (.getOrCreate 4), .ask 1 (.step 0 .shutdown)] 1 4 0
    _ _ rfl rfl
  cases hopen

end Host

end Keyring
