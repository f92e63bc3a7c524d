import Keyring.Proofs.Pool.Race
import Keyring.Proofs.Storage.Memory

/-!
# Wallets do not interfere

The wallets of a host share its register, its repository and its clock.  `focus wallet h` is
the host as it were if it had only this wallet: the record of the wallet, its units in the
order in which they were made, and the one that it has.  The number of a record tells how many
others there are, so it is left out.

What happens to another wallet leaves this picture as it is (`focus_play_of_other`), and
whatever happens to the wallet itself answers and changes as it does in the picture
(`play_focus`).  So a history gives the wallet the same answers and leaves the same units
as its events alone (`other_wallets_do_not_show`).

What the wallets share as well are the workers, and other wallets may decide how the races
among them go.  So the events of the wallet alone are also considered with other races than
they had among those of the others.
-/

namespace Keyring

/-- A record without its number. -/
def WalletRecord.anonymous (record : WalletRecord) : WalletRecord :=
  { record with id := 0 }

/-! ## Loading does not look at the number of a record -/

namespace PoolUnit

variable {u : PoolUnit} {source source' : RecordSource}

theorem findRecord_anonymous
    (h : source' u.wallet = (source u.wallet).map WalletRecord.anonymous) :
    u.findRecord source' = (u.findRecord source).map WalletRecord.anonymous := by
  simp only [findRecord, h]
  cases source u.wallet with
  | error e => rfl
  | ok record =>
      simp only [Except.map, bind, Except.bind, WalletRecord.anonymous]
      split
      · rfl
      · split <;> rfl

theorem fetch_anonymous (ctx : PoolContext)
    (h : source' u.wallet = (source u.wallet).map WalletRecord.anonymous) :
    u.fetch ctx source' = u.fetch ctx source := by
  simp only [fetch, findRecord_anonymous h]
  cases u.findRecord source <;> rfl

theorem attempt_anonymous (ctx : PoolContext) (now : Nat) (op : Keychain.Operation)
    (h : source' u.wallet = (source u.wallet).map WalletRecord.anonymous) :
    u.attempt ctx source' now op = u.attempt ctx source now op := by
  simp only [attempt, operate, fetch_anonymous ctx h]

end PoolUnit

namespace Host

/-! ## The picture of one wallet -/

/-- The repository if it had only the record of this wallet. -/
def records (h : Host) (wallet : Uuid) : MemoryRepository :=
  ⟨((h.repository.find? wallet).map WalletRecord.anonymous).toList⟩

/-- The host if it had only this wallet. -/
def focus (wallet : Uuid) (h : Host) : Host :=
  { h with
    repository := h.records wallet
    units := h.units.filter (·.wallet == wallet)
    registered := ((h.lookup wallet).map fun id => (wallet, h.place wallet id)).toList }

/-- The host without the numbers of its records. -/
def anonymous (h : Host) : Host :=
  { h with repository := ⟨h.repository.records.map WalletRecord.anonymous⟩ }

/-- Whether an event can be noticed by a wallet. -/
def Event.concerns (wallet : Uuid) : Event → Bool
  | .ask other _ => other == wallet
  | .shutdown | .advance _ => true

/-- An event that a wallet notices, with the reply to it and with the picture of the wallet
before. -/
structure Notice where
  before : Host
  event : Event
  reply : Reply

/-- Two notices of the same wallet in two races. -/
structure Notice.Alike (n n' : Notice) : Prop where
  before_eq : n'.before = n.before
  event : n.event.Alike n'.event
  reply : n.before.Raced n.event n.reply n'.reply

/-- What a wallet notices of a history. -/
def noticed (wallet : Uuid) (h : Host) : List Event → List Notice
  | [] => []
  | event :: history =>
    if event.concerns wallet then
      ⟨focus wallet h, event, (h.play event).1⟩ :: noticed wallet (h.play event).2 history
    else noticed wallet (h.play event).2 history

variable {h : Host} {wallet other mnemonic : Uuid} {id n : Nat} {u u' : PoolUnit}
  {leaving : List Nat}

/-! ## Places -/

/-- A unit splits the list of units. -/
theorem exists_split (hu : h.units[id]? = some u) :
    ∃ before after, h.units = before ++ u :: after ∧ before.length = id := by
  obtain ⟨hlt, hget⟩ := List.getElem?_eq_some_iff.mp hu
  refine ⟨h.units.take id, h.units.drop (id + 1), ?_, List.length_take_of_le (Nat.le_of_lt hlt)⟩
  rw [← hget, List.getElem_cons_drop, List.take_append_drop]

/-- A unit has its place among the units of its wallet. -/
theorem getElem?_place (hu : h.units[id]? = some u) (hwallet : u.wallet = wallet) :
    (focus wallet h).units[h.place wallet id]? = some u := by
  obtain ⟨before, after, hsplit, hlength⟩ := exists_split hu
  simp [focus, place, hsplit, ← hlength, hwallet, List.countP_eq_length_filter]

/-- In the picture of a wallet, its units have their places for positions. -/
theorem positionOf_filter (units : List PoolUnit) (n : Nat) :
    positionOf wallet (units.filter (·.wallet == wallet)) n =
      (positionOf wallet units n).map fun _ => n := by
  induction units generalizing n with
  | nil => cases n <;> rfl
  | cons u rest ih =>
      by_cases hwallet : u.wallet = wallet
      · rw [List.filter_cons_of_pos (by simpa using hwallet)]
        cases n with
        | zero => simp [positionOf, hwallet]
        | succ n => simp [positionOf, hwallet, ih, Function.comp_def]
      · rw [List.filter_cons_of_neg (by simpa using hwallet), positionOf_cons_of_ne hwallet, ih]
        simp [Function.comp_def]

/-- Only the wallets of the units matter to a place. -/
theorem place_congr {h' : Host} (hwallets : h'.units.map (·.wallet) = h.units.map (·.wallet)) :
    h'.place wallet n = h.place wallet n := by
  have hcount : ∀ h : Host, h.place wallet n =
      ((h.units.map (·.wallet)).take n).countP (· == wallet) := by
    intro h
    rw [← List.map_take, List.countP_map]
    rfl
  rw [hcount, hcount, hwallets]

theorem place_setUnit (hu : h.units[id]? = some u) (hsame : u'.wallet = u.wallet) :
    (h.setUnit id u').place wallet n = h.place wallet n := by
  refine place_congr ?_
  obtain ⟨before, after, hsplit, hlength⟩ := exists_split hu
  simp [setUnit, hsplit, ← hlength, hsame]

theorem place_focus (hle : n ≤ (focus wallet h).units.length) :
    (focus wallet h).place wallet n = n := by
  have hall : ((focus wallet h).units.take n).countP (·.wallet == wallet) =
      ((focus wallet h).units.take n).length := by
    rw [List.countP_eq_length]
    exact fun u hu => (List.mem_filter.mp (List.mem_of_mem_take hu)).2
  rw [place, hall, List.length_take_of_le hle]

/-- A place leads to itself in the picture. -/
theorem place_place (hu : h.units[id]? = some u) (hwallet : u.wallet = wallet) :
    (focus wallet h).place wallet (h.place wallet id) = h.place wallet id :=
  place_focus (Nat.le_of_lt (List.getElem?_eq_some_iff.mp (getElem?_place hu hwallet)).1)

/-- A new unit of a wallet comes after the others. -/
theorem place_register (h : Host) (wallet mnemonic : Uuid) :
    (h.register wallet mnemonic).place wallet h.units.length =
      (focus wallet h).units.length := by
  simp [place, register, focus, List.countP_eq_length_filter]

/-! ## Changes of the host in the picture -/

@[simp] theorem lookup_focus (wallet : Uuid) (h : Host) :
    (focus wallet h).lookup wallet = (h.lookup wallet).map (h.place wallet) := by
  rw [Host.lookup, focus]
  cases h.lookup wallet with
  | none => rfl
  | some id => exact List.lookup_cons_self

theorem anonymous_focus (wallet : Uuid) (h : Host) :
    (focus wallet h).anonymous = focus wallet h := by
  cases hfind : h.repository.find? wallet <;>
    simp [focus, anonymous, records, hfind, WalletRecord.anonymous]

theorem find?_records (h : Host) (wallet : Uuid) :
    (h.records wallet).find? wallet =
      (h.repository.find? wallet).map WalletRecord.anonymous := by
  rw [MemoryRepository.find?, records]
  cases hfind : h.repository.find? wallet with
  | none => rfl
  | some record =>
      have hwallet : record.wallet = wallet := MemoryRepository.wallet_of_find? hfind
      exact List.find?_cons_of_pos (by simp [WalletRecord.anonymous, hwallet])

theorem source_focus (wallet : Uuid) (h : Host) :
    (focus wallet h).source wallet = (h.source wallet).map WalletRecord.anonymous := by
  simp only [source, focus, MemoryRepository.get, find?_records]
  cases h.repository.find? wallet <;> rfl

theorem focus_setUnit (hu : h.units[id]? = some u) (hwallet : u.wallet = wallet)
    (hsame : u'.wallet = u.wallet) :
    focus wallet (h.setUnit id u') = (focus wallet h).setUnit (h.place wallet id) u' := by
  have hunits : (h.setUnit id u').units.filter (·.wallet == wallet) =
      (h.units.filter (·.wallet == wallet)).set (h.place wallet id) u' := by
    obtain ⟨before, after, hsplit, hlength⟩ := exists_split hu
    simp [setUnit, place, hsplit, ← hlength, hsame, hwallet, List.countP_eq_length_filter]
  simp only [focus, hunits, place_setUnit hu hsame]
  rfl

theorem focus_setUnit_of_other (hu : h.units[id]? = some u) (hother : u.wallet ≠ wallet)
    (hsame : u'.wallet = u.wallet) : focus wallet (h.setUnit id u') = focus wallet h := by
  have hunits : (h.setUnit id u').units.filter (·.wallet == wallet) =
      h.units.filter (·.wallet == wallet) := by
    obtain ⟨before, after, hsplit, hlength⟩ := exists_split hu
    simp [setUnit, hsplit, ← hlength, hsame, hother]
  simp only [focus, hunits, place_setUnit hu hsame]
  rfl

theorem focus_shutdownUnit (hu : h.units[id]? = some u) (hwallet : u.wallet = wallet) :
    focus wallet (h.shutdownUnit id) = (focus wallet h).shutdownUnit (h.place wallet id) := by
  have hsame : u.shutdown.wallet = u.wallet := rfl
  rw [shutdownUnit_of_some hu, shutdownUnit_of_some (getElem?_place hu hwallet),
    focus_setUnit hu hwallet hsame]

theorem focus_register (hnone : h.lookup wallet = none) (mnemonic : Uuid) :
    focus wallet (h.register wallet mnemonic) = (focus wallet h).register wallet mnemonic := by
  simp only [focus, lookup_register, if_pos, place_register, Option.map_some, hnone]
  simp [register, records]

theorem focus_register_of_other (hown : Owned leaving h) (hother : other ≠ wallet)
    (mnemonic : Uuid) : focus wallet (h.register other mnemonic) = focus wallet h := by
  have hunits : (h.register other mnemonic).units.filter (·.wallet == wallet) =
      h.units.filter (·.wallet == wallet) := by
    simp [register, hother]
  have hkept : (h.lookup wallet).map (fun id =>
      (wallet, (h.register other mnemonic).place wallet id)) =
        (h.lookup wallet).map fun id => (wallet, h.place wallet id) := by
    refine Option.map_congr fun id hid => ?_
    obtain ⟨u, hu, -⟩ := hown.lookup_wallet hid
    have hlt := (List.getElem?_eq_some_iff.mp hu).1
    rw [place, register, List.take_append_of_le_length (Nat.le_of_lt hlt), place]
  simp only [focus, lookup_register, if_neg (Ne.symm hother), hunits, hkept]
  simp [register, records]

theorem focus_release (wallet : Uuid) (h : Host) :
    focus wallet (h.release wallet) = (focus wallet h).release wallet := by
  have hnone : ((h.lookup wallet).map fun id => (wallet, h.place wallet id)).toList.filter
      (·.1 != wallet) = [] := by
    cases h.lookup wallet <;> simp
  simp only [focus, lookup_release, if_pos, Option.map_none, Option.toList_none]
  simp [release, records, hnone]

theorem focus_release_of_other (hother : other ≠ wallet) (h : Host) :
    focus wallet (h.release other) = focus wallet h := by
  simp only [focus, lookup_release, if_neg (Ne.symm hother)]
  rfl

theorem focus_advance (wallet : Uuid) (h : Host) (span : Nat) :
    focus wallet (h.advance span) = (focus wallet h).advance span := by
  have hsame : ∀ u : PoolUnit, (u.unloadIfIdle (h.now + span)).2.wallet = u.wallet := by
    intro u
    rcases u.unloadIfIdle_cases (h.now + span) with hunload | hkept
    · rw [hunload]
      rfl
    · rw [hkept]
  have hplace : ∀ n, (h.advance span).place wallet n = h.place wallet n := by
    intro n
    refine place_congr ?_
    simp [advance, hsame]
  have hlookup : (h.advance span).lookup wallet = h.lookup wallet := rfl
  simp only [focus, hlookup, hplace]
  simp [advance, records, List.filter_map, Function.comp_def, hsame]

/-! ## Other wallets -/

/-- A change for the sake of another wallet leaves the picture as it is. -/
theorem focus_change_of_other (hown : Owned [] h) (hother : other ≠ wallet) {later : Host}
    (hchange : Change h other later) : focus wallet later = focus wallet h := by
  cases hchange with
  | same => rfl
  | registered mnemonic => exact focus_register_of_other hown hother mnemonic
  | removed id hid =>
      obtain ⟨u, hu, hwallet⟩ := hown.lookup_wallet hid
      have hsame : u.shutdown.wallet = u.wallet := rfl
      rw [shutdownUnit_of_some (h := h.release other) hu,
        focus_setUnit_of_other (h := h.release other) hu (by rwa [hwallet]) hsame,
        focus_release_of_other hother]
  | lived id u events hu hwallet =>
      exact focus_setUnit_of_other hu (by rwa [hwallet]) (hown.settled_lived hu events).wallet_eq
  | stored repository hothers =>
      simp only [focus, records, hothers wallet (Ne.symm hother)]
      rfl

/-- So does every event that does not concern the wallet. -/
theorem focus_play_of_other (hown : Owned [] h) {event : Event}
    (hother : event.concerns wallet = false) : focus wallet (h.play event).2 = focus wallet h := by
  cases event with
  | ask other request =>
      exact focus_change_of_other hown (by simpa [Event.concerns] using hother)
        (hown.change_ask other request)
  | shutdown => cases hother
  | advance span => cases hother

/-! ## The wallet itself -/

/-- A caller of a unit of the wallet notices nothing else. -/
theorem step_focus (hown : Owned leaving h) (hu : h.units[id]? = some u)
    (hwallet : u.wallet = wallet) (s : UnitStep) :
    ((focus wallet h).step (h.place wallet id) s).1 = (h.step id s).1 ∧
      ((focus wallet h).step (h.place wallet id) s).2 = focus wallet (h.step id s).2 := by
  have hu' := getElem?_place hu hwallet
  have hattempt : ∀ op, u.attempt (focus wallet h).context (focus wallet h).source
      (focus wallet h).now op = u.attempt h.context h.source h.now op := by
    intro op
    refine PoolUnit.attempt_anonymous _ _ _ ?_
    rw [hwallet, source_focus]
  have hlived : (focus wallet h).lived u [s.toEvent (focus wallet h)] =
      h.lived u [s.toEvent h] := by
    cases s with
    | operate op => exact congrArg Prod.snd (hattempt op)
    | unload | shutdown | readLoaded | readClosed | readCached => rfl
  refine ⟨?_, ?_⟩
  · cases s with
    | operate op => simp only [step, operate, hu, hu', hattempt op]
    | unload => simp only [step, unload, hu, hu']
    | shutdown => rfl
    | readLoaded | readClosed | readCached => simp only [step, hu, hu']
  · rw [step_of_some hu, step_of_some hu', hlived,
      focus_setUnit hu hwallet (hown.settled_lived hu _).wallet_eq]

theorem getOrCreate_focus (hown : Owned [] h) (wallet mnemonic : Uuid) :
    ((focus wallet h).ask wallet (.getOrCreate mnemonic)).1 =
        (h.ask wallet (.getOrCreate mnemonic)).1 ∧
      ((focus wallet h).ask wallet (.getOrCreate mnemonic)).2 =
        focus wallet (h.ask wallet (.getOrCreate mnemonic)).2 := by
  have hlookup := lookup_focus wallet h
  cases hid : h.lookup wallet with
  | some id =>
      obtain ⟨u, hu, hwallet⟩ := hown.lookup_wallet hid
      rw [hid, Option.map_some] at hlookup
      simp only [ask, getOrCreate_of_kept hid hu,
        getOrCreate_of_kept hlookup (getElem?_place hu hwallet)]
      by_cases hsame : u.mnemonic = mnemonic
      · simp only [if_pos hsame, place_place hu hwallet, and_self]
      · simp only [if_neg hsame, and_self]
  | none =>
      rw [hid, Option.map_none] at hlookup
      simp only [ask, getOrCreate_of_none hid, getOrCreate_of_none hlookup]
      by_cases hruntime : h.hasRuntime = true
      · have hnew : (h.register wallet mnemonic).units[h.units.length]? =
            some { wallet, mnemonic } := List.getElem?_concat_length
        have hplace := place_place hnew rfl
        rw [place_register, focus_register hid] at hplace
        have hruntime' : (focus wallet h).hasRuntime = true := hruntime
        simp only [if_pos hruntime, if_pos hruntime', focus_register hid, place_register, hplace,
          and_self]
      · have hruntime' : ¬(focus wallet h).hasRuntime = true := hruntime
        simp only [if_neg hruntime, if_neg hruntime', and_self]

theorem remove_focus (hown : Owned [] h) (wallet : Uuid) :
    ((focus wallet h).remove wallet).1 = (h.remove wallet).1 ∧
      ((focus wallet h).remove wallet).2 = focus wallet (h.remove wallet).2 := by
  have hlookup := lookup_focus wallet h
  cases hid : h.lookup wallet with
  | some id =>
      obtain ⟨u, hu, hwallet⟩ := hown.lookup_wallet hid
      rw [hid, Option.map_some] at hlookup
      have hshut := focus_shutdownUnit (h := h.release wallet) hu hwallet
      rw [remove_of_kept hid, remove_of_kept hlookup, hshut, focus_release]
      exact ⟨rfl, rfl⟩
  | none =>
      rw [hid, Option.map_none] at hlookup
      rw [remove_of_none hid, remove_of_none hlookup]
      exact ⟨rfl, rfl⟩

theorem put_focus (h : Host) (record : WalletRecord) :
    ((focus record.wallet h).put record).2.anonymous =
      focus record.wallet (h.put record).2 := by
  have hgone : (h.records record.wallet).records.filter (·.wallet != record.wallet) = [] := by
    rw [records]
    cases hfind : h.repository.find? record.wallet with
    | none => rfl
    | some old =>
        have hwallet := MemoryRepository.wallet_of_find? hfind
        simp [WalletRecord.anonymous, hwallet]
  have hstored : (h.put record).2.records record.wallet = ⟨[record.anonymous]⟩ := by
    rw [records, put, MemoryRepository.find?_insert, if_pos rfl]
    rfl
  simp only [focus, hstored]
  simp only [put, anonymous, MemoryRepository.insert, hgone]
  rfl

theorem setEnabled_focus (h : Host) (wallet : Uuid) (enabled : Bool) (time : Timestamp) :
    ((focus wallet h).ask wallet (.setEnabled enabled time)).1 =
        (h.ask wallet (.setEnabled enabled time)).1 ∧
      ((focus wallet h).ask wallet (.setEnabled enabled time)).2 =
        focus wallet (h.ask wallet (.setEnabled enabled time)).2 := by
  have hfocus := find?_records h wallet
  cases hfind : h.repository.find? wallet with
  | none =>
      rw [hfind, Option.map_none] at hfocus
      have hrefused := MemoryRepository.setEnabled_of_none hfind enabled time
      have hrefused' : (focus wallet h).repository.setEnabled wallet enabled time =
          .error (.walletNotFound wallet.text) :=
        MemoryRepository.setEnabled_of_none hfocus enabled time
      simp only [ask, Host.setEnabled, hrefused, hrefused', bind, Except.bind, and_self]
  | some record =>
      rw [hfind, Option.map_some] at hfocus
      have hdone := MemoryRepository.setEnabled_of_some hfind enabled time
      have hdone' : (focus wallet h).repository.setEnabled wallet enabled time = .ok _ :=
        MemoryRepository.setEnabled_of_some hfocus enabled time
      have hchanged := MemoryRepository.find?_of_setEnabled hdone wallet
      have hwallet := MemoryRepository.wallet_of_find? hfocus
      rw [if_pos rfl, hfind, Option.map_some] at hchanged
      simp only [ask, Host.setEnabled, hdone, hdone', bind, Except.bind, pure, Except.pure,
        true_and]
      simp only [focus, records, hchanged, hfind, Option.map_some, Option.toList_some,
        List.map_cons, List.map_nil, if_pos hwallet]
      rfl

/-- A request is answered as in the picture, and changes it accordingly. -/
theorem ask_focus (hown : Owned [] h) (wallet : Uuid) (request : Request) :
    ((focus wallet h).ask wallet request).1 = (h.ask wallet request).1 ∧
      ((focus wallet h).ask wallet request).2.anonymous =
        focus wallet (h.ask wallet request).2 := by
  cases request with
  | getOrCreate mnemonic =>
      obtain ⟨hreply, hlater⟩ := getOrCreate_focus hown wallet mnemonic
      exact ⟨hreply, by rw [hlater, anonymous_focus]⟩
  | lookup =>
      refine ⟨?_, anonymous_focus wallet h⟩
      simp only [ask, lookup_focus]
      cases hid : h.lookup wallet with
      | some id =>
          obtain ⟨u, hu, hwallet⟩ := hown.lookup_wallet hid
          simp only [Option.map_some, place_place hu hwallet]
      | none => rfl
  | remove =>
      obtain ⟨hreply, hlater⟩ := remove_focus hown wallet
      exact ⟨congrArg Reply.flag hreply, by simp only [ask, hlater, anonymous_focus]⟩
  | step place s =>
      have hposition : positionOf wallet (focus wallet h).units place =
          (positionOf wallet h.units place).map fun _ => place := positionOf_filter h.units place
      simp only [ask, hposition]
      cases hid : positionOf wallet h.units place with
      | some id =>
          obtain ⟨u, hu, hwallet, rfl⟩ := positionOf_eq_some hid
          obtain ⟨hreply, hlater⟩ := step_focus hown hu hwallet s
          exact ⟨congrArg Reply.unit hreply,
            (congrArg Host.anonymous hlater).trans (anonymous_focus wallet _)⟩
      | none => exact ⟨rfl, anonymous_focus wallet h⟩
  | put record => exact ⟨rfl, put_focus h { record with wallet }⟩
  | setEnabled enabled time =>
      obtain ⟨hreply, hlater⟩ := setEnabled_focus h wallet enabled time
      exact ⟨hreply, by rw [hlater, anonymous_focus]⟩

/-! ## Shutting the host down -/

/-- The register has one entry for a wallet. -/
theorem filter_registered (hown : Owned leaving h) (wallet : Uuid) :
    h.registered.filter (·.1 == wallet) =
      ((h.lookup wallet).map fun id => (wallet, id)).toList := by
  have hnodup := hown.nodup
  rw [Host.lookup]
  generalize h.registered = entries at hnodup ⊢
  induction entries with
  | nil => rfl
  | cons entry rest ih =>
      rw [List.map_cons, List.nodup_cons] at hnodup
      by_cases hwallet : entry.1 = wallet
      · have hrest : rest.filter (·.1 == wallet) = [] := by
          rw [List.filter_eq_nil_iff]
          intro a ha heq
          rw [beq_iff_eq, ← hwallet] at heq
          exact hnodup.1 (heq ▸ List.mem_map_of_mem ha)
        subst hwallet
        rw [List.filter_cons_of_pos (by simp), hrest, List.lookup_cons, beq_self_eq_true]
        rfl
      · rw [List.filter_cons_of_neg (by simpa using hwallet), ih hnodup.2, List.lookup_cons,
          beq_false_of_ne (Ne.symm hwallet)]

/-- Of the units that are shut down, those of the wallet can be seen. -/
theorem focus_shutdownUnits (entries : List (Uuid × Nat))
    (hentries : ∀ entry ∈ entries, ∃ u, h.units[entry.2]? = some u ∧ u.wallet = entry.1) :
    focus wallet ((entries.map Prod.snd).foldl shutdownUnit h) =
      ((entries.filter (·.1 == wallet)).map fun entry => h.place wallet entry.2).foldl
        shutdownUnit (focus wallet h) := by
  induction entries generalizing h with
  | nil => rfl
  | cons entry rest ih =>
      obtain ⟨u, hu, hwallet⟩ := hentries entry List.mem_cons_self
      have hsame : u.shutdown.wallet = u.wallet := rfl
      have hshut := shutdownUnit_of_some hu
      have hplace : ∀ n, (h.shutdownUnit entry.2).place wallet n = h.place wallet n := by
        intro n
        rw [hshut, place_setUnit hu hsame]
      have hrest : ∀ other ∈ rest, ∃ v,
          (h.shutdownUnit entry.2).units[other.2]? = some v ∧ v.wallet = other.1 := by
        intro other hother
        obtain ⟨v, hv, hvwallet⟩ := hentries other (List.mem_cons_of_mem _ hother)
        rw [hshut, getElem?_setUnit hu]
        split
        · next heq =>
            rw [heq, hu, Option.some.injEq] at hv
            exact ⟨_, rfl, by rw [hsame, hv, hvwallet]⟩
        · exact ⟨v, hv, hvwallet⟩
      rw [List.map_cons, List.foldl_cons, ih hrest]
      simp only [hplace]
      by_cases hentry : entry.1 = wallet
      · rw [List.filter_cons_of_pos (by simpa using hentry), List.map_cons, List.foldl_cons,
          focus_shutdownUnit hu (by rw [hwallet, hentry])]
      · rw [List.filter_cons_of_neg (by simpa using hentry), hshut,
          focus_setUnit_of_other hu (by rwa [hwallet]) hsame]

theorem focus_shutdown (hown : Owned leaving h) (wallet : Uuid) :
    focus wallet h.shutdown = (focus wallet h).shutdown := by
  have hentries : ∀ entry ∈ h.registered, ∃ u, h.releaseAll.units[entry.2]? = some u ∧
      u.wallet = entry.1 := fun entry => hown.registered_wallet entry.1 entry.2
  rw [shutdown_eq, shutdown_eq, focus_shutdownUnits h.registered hentries,
    filter_registered hown]
  cases hid : h.lookup wallet <;> simp [focus, hid] <;> rfl

/-! ## Histories -/

/-- An event that concerns the wallet does to it what it does in the picture. -/
theorem play_focus (hown : Owned [] h) {event : Event}
    (hconcerns : event.concerns wallet = true) :
    ((focus wallet h).play event).1 = (h.play event).1 ∧
      ((focus wallet h).play event).2.anonymous = focus wallet (h.play event).2 := by
  cases event with
  | ask other request =>
      have hsame : other = wallet := by simpa [Event.concerns] using hconcerns
      rw [hsame]
      exact ask_focus hown wallet request
  | shutdown =>
      refine ⟨rfl, ?_⟩
      simp only [play, ← focus_shutdown hown, anonymous_focus]
  | advance span =>
      refine ⟨rfl, ?_⟩
      simp only [play, ← focus_advance, anonymous_focus]

/-- Two hosts that look the same to a wallet go on so, although only one of them serves
other wallets. -/
theorem noticed_filter {h' : Host} (hown : Owned [] h) (hown' : Owned [] h')
    (hsame : focus wallet h = focus wallet h') (history : List Event) :
    noticed wallet h history = noticed wallet h' (history.filter (Event.concerns wallet)) ∧
      focus wallet (h.after history) =
        focus wallet (h'.after (history.filter (Event.concerns wallet))) := by
  induction history generalizing h h' with
  | nil => exact ⟨rfl, hsame⟩
  | cons event history ih =>
      by_cases hconcerns : event.concerns wallet = true
      · obtain ⟨hreply, hlater⟩ := play_focus hown hconcerns
        obtain ⟨hreply', hlater'⟩ := play_focus hown' hconcerns
        rw [← hsame] at hreply' hlater'
        have hnext : focus wallet (h.play event).2 = focus wallet (h'.play event).2 :=
          calc
            focus wallet (h.play event).2 = ((focus wallet h).play event).2.anonymous :=
              hlater.symm
            _ = focus wallet (h'.play event).2 := hlater'
        obtain ⟨hnoticed, hafter⟩ := ih (hown.play event) (hown'.play event) hnext
        rw [List.filter_cons_of_pos hconcerns, noticed, noticed, if_pos hconcerns,
          if_pos hconcerns, ← hreply, ← hreply', hsame, hnoticed]
        exact ⟨rfl, hafter⟩
      · -- Only the first host has this event, and the wallet does not notice.
        have hother : event.concerns wallet = false := by simpa using hconcerns
        have hnext : focus wallet (h.play event).2 = focus wallet h' :=
          (focus_play_of_other hown hother).trans hsame
        obtain ⟨hnoticed, hafter⟩ := ih (hown.play event) hown' hnext
        rw [List.filter_cons_of_neg hconcerns, noticed, if_neg hconcerns]
        exact ⟨hnoticed, hafter⟩

/-- Whatever the races of its events, a history is noticed in the same way, but for the failures
of requests for ranges. -/
theorem noticed_alike (hown : Owned [] h) {history history' : List Event}
    (halike : List.Forall₂ Event.Alike history history') (wallet : Uuid) :
    List.Forall₂ Notice.Alike (h.noticed wallet history) (h.noticed wallet history') := by
  induction halike generalizing h with
  | nil => exact .nil
  | @cons event event' history history' hevent _ ih =>
      have hsame := (play_alike hevent h).1
      have hconcerned : event'.concerns wallet = event.concerns wallet := by
        cases hevent <;> rfl
      rw [noticed, noticed, hconcerned, hsame]
      split
      · next hconcerns =>
          -- The reply is the one in the picture of the wallet.
          have hraced := (play_alike hevent (focus wallet h)).2
          rw [(play_focus hown hconcerns).1,
            (play_focus hown (hconcerned.trans hconcerns)).1] at hraced
          exact .cons ⟨rfl, hevent, hraced⟩ (ih (hown.play event))
      · exact ih (hown.play event)

/-! ## Main statement -/

/-- **A wallet does not notice the others.**  From any host on, whatever it has been asked
before, a history gives a wallet the same answers as what remains of it when the requests for
the sake of other wallets are left out and the races of its own requests for ranges go the same
way.  At each point of the history

* the wallet has the same units, with the same keychains, addresses and deadlines, and the
  same of them are closed,
* the same one of them, or none, is kept for the wallet,
* the wallet has the same record but for its number.

With the other wallets gone the races may go another way.  This leaves the same host after the
remaining requests, and every answer is the same too, unless it is that of a unit whose keychain
cannot derive several paths of a request for ranges: then it is the failure of any of them. -/
theorem other_wallets_do_not_show (context : PoolContext) (hasRuntime : Bool)
    (repository : MemoryRepository) (now : Nat) (before : List Event) (wallet : Uuid)
    (history : List Event) :
    let h := (begin context hasRuntime repository now).after before
    let own := history.filter (Event.concerns wallet)
    h.noticed wallet history = h.noticed wallet own ∧
    (∀ raced, List.Forall₂ Event.Alike own raced → h.after raced = h.after own ∧
      List.Forall₂ Notice.Alike (h.noticed wallet history) (h.noticed wallet raced)) ∧
    (h.after history).units.filter (·.wallet == wallet) =
      (h.after own).units.filter (·.wallet == wallet) ∧
    ((h.after history).lookup wallet).map ((h.after history).place wallet) =
      ((h.after own).lookup wallet).map ((h.after own).place wallet) ∧
    ((h.after history).repository.find? wallet).map WalletRecord.anonymous =
      ((h.after own).repository.find? wallet).map WalletRecord.anonymous := by
  intro h own
  have hown : Owned [] h := (Owned.begin context hasRuntime repository now).after before
  obtain ⟨hnoticed, hsame⟩ := noticed_filter hown hown rfl history
  refine ⟨hnoticed, fun raced halike => ⟨after_alike halike h, ?_⟩, congrArg Host.units hsame,
    ?_, ?_⟩
  · rw [hnoticed]
    exact noticed_alike hown halike wallet
  · rw [← lookup_focus, ← lookup_focus, hsame]
  · rw [← find?_records, ← find?_records]
    exact congrArg (fun h => h.repository.find? wallet) hsame

end Host

end Keyring
