import Keyring.Proofs.Pool.Ownership

/-!
# Callers that come in between

Callers share a host.  Each access to the register and each use of a unit has the register
or the unit for itself, but a call that needs more than one access may be overtaken: removing
a unit takes it out of the register first and shuts it down later, and so does shutting down
the host, for each of its units.  `Transit` is a host together with the units that are out of
the register and still to be shut down.  Any number of callers, in any order of their
accesses, is one list of accesses here.

Most units that are out of the register are closed, but not the leaving ones.  A wallet whose
unit is leaving has no unit any more, so it may get another one, and both can be loaded:
`overtaken` is the shortest way to get there.  One of two loaded units of a wallet is always
leaving, and this ends as soon as it is shut down (`loaded_together_only_while_leaving`).
-/

namespace Keyring.Host

open PoolUnit (Settled)

/-- No wallet has two loaded units. -/
def LoadedOnce (h : Host) : Prop :=
  ∀ (id other : Nat) (u v : PoolUnit), h.units[id]? = some u → h.units[other]? = some v →
    u.wallet = v.wallet → u.isLoaded = true → v.isLoaded = true → id = other

/-! ## Accesses -/

/-- A host and the units that it has let go of and that are still to be shut down. -/
structure Transit where
  host : Host
  leaving : List Nat

/-- What a caller or the watchdog of a unit does without being overtaken. -/
inductive Access
  | getOrCreate (wallet mnemonic : Uuid)
  | lookup (wallet : Uuid)
  | release (wallet : Uuid)
  | releaseAll
  | close (id : Nat)
  | step (id : Nat) (s : UnitStep)
  | unloadIfIdle (id : Nat)
  | elapse (span : Nat)
  | put (record : WalletRecord)
  | setEnabled (wallet : Uuid) (enabled : Bool) (time : Timestamp)

namespace Transit

/-- A host that has not made any unit. -/
def begin (context : PoolContext) (hasRuntime : Bool) (repository : MemoryRepository)
    (now : Nat) : Transit :=
  ⟨Host.begin context hasRuntime repository now, []⟩

/-- The host after one access. -/
def access (t : Transit) : Access → Transit
  | .getOrCreate wallet mnemonic =>
    match t.host.getOrCreate wallet mnemonic with
    | .ok (_, later) => { t with host := later }
    | .error _ => t
  | .lookup _ => t
  | .release wallet =>
    match t.host.lookup wallet with
    | some id => ⟨t.host.release wallet, id :: t.leaving⟩
    | none => t
  | .releaseAll => ⟨t.host.releaseAll, t.host.registered.map Prod.snd ++ t.leaving⟩
  | .close id =>
    if id ∈ t.leaving then ⟨t.host.shutdownUnit id, t.leaving.erase id⟩ else t
  | .step id s => { t with host := (t.host.step id s).2 }
  | .unloadIfIdle id =>
    match t.host.units[id]? with
    | some u => { t with host := t.host.setUnit id (u.unloadIfIdle t.host.now).2 }
    | none => t
  | .elapse span => { t with host := { t.host with now := t.host.now + span } }
  | .put record => { t with host := (t.host.put record).2 }
  | .setEnabled wallet enabled time =>
    match t.host.setEnabled wallet enabled time with
    | .ok later => { t with host := later }
    | .error _ => t

/-- The host after accesses, the first one first. -/
def after (t : Transit) (accesses : List Access) : Transit :=
  accesses.foldl access t

@[simp] theorem after_nil (t : Transit) : t.after [] = t := rfl

@[simp] theorem after_cons (t : Transit) (first : Access) (rest : List Access) :
    t.after (first :: rest) = (t.access first).after rest := rfl

variable {t : Transit} {h : Host} {wallet mnemonic : Uuid} {id : Nat}

/-! ## Calls that nobody overtakes -/

/-- Shutting the leaving units down, one after the other. -/
theorem after_close (ids : List Nat) (h : Host) (leaving : List Nat) :
    (Transit.mk h (ids ++ leaving)).after (ids.map .close) =
      ⟨ids.foldl shutdownUnit h, leaving⟩ := by
  induction ids generalizing h with
  | nil => rfl
  | cons id rest ih =>
      simp only [List.map_cons, after_cons, access, List.cons_append, List.mem_cons_self, if_pos,
        List.erase_cons_head, List.foldl_cons]
      exact ih _

/-- The two accesses of a removal, one right after the other, are the call. -/
theorem after_remove (hid : h.lookup wallet = some id) :
    (Transit.mk h []).after [.release wallet, .close id] = ⟨(h.remove wallet).2, []⟩ := by
  rw [after_cons, access, hid, remove_of_kept hid]
  exact after_close [id] (h.release wallet) []

/-- So are those of a shutdown. -/
theorem after_shutdown (h : Host) :
    (Transit.mk h []).after (.releaseAll :: (h.registered.map Prod.snd).map .close) =
      ⟨h.shutdown, []⟩ := by
  rw [after_cons, access, shutdown_eq]
  exact after_close (h.registered.map Prod.snd) h.releaseAll []

/-! ## What accesses keep -/

/-- One access keeps every unit registered, closed or leaving. -/
theorem owned_access (hown : Owned t.leaving t.host) (a : Access) :
    Owned (t.access a).leaving (t.access a).host := by
  cases a with
  | getOrCreate wallet mnemonic =>
      simp only [access]
      split
      · next hok => exact hown.getOrCreate hok
      · exact hown
  | lookup wallet => exact hown
  | release wallet =>
      simp only [access]
      split
      · next id hid => exact hown.release hid
      · exact hown
  | releaseAll => exact hown.releaseAll
  | close id =>
      simp only [access]
      split
      · exact hown.shutdownUnit id
      · exact hown
  | step id s => exact hown.step id s
  | unloadIfIdle id =>
      simp only [access]
      split
      · next u hu => exact hown.setUnit hu [.unloadIfIdle]
      · exact hown
  | elapse span => exact hown.evolve rfl fun id => ⟨[], by simp [lived, access]⟩
  | put record => exact hown.put record
  | setEnabled wallet enabled time =>
      simp only [access]
      split
      · next later hok => exact hown.setEnabled hok
      · exact hown

theorem owned_after (hown : Owned t.leaving t.host) (accesses : List Access) :
    Owned (t.after accesses).leaving (t.after accesses).host := by
  induction accesses generalizing t with
  | nil => exact hown
  | cons first rest ih => exact ih (owned_access hown first)

/-- A loaded unit is the one that its wallet has, or it is leaving. -/
theorem kept_or_leaving_of_loaded (hown : Owned t.leaving t.host) {u : PoolUnit}
    (hu : t.host.units[id]? = some u) (hloaded : u.isLoaded = true) :
    t.host.lookup u.wallet = some id ∨ id ∈ t.leaving := by
  rcases hown.held id u hu with hkept | hclosed | hleaving
  · exact Or.inl hkept
  · rw [(hown.settled id u hu).open_of_loaded hloaded] at hclosed
    cases hclosed
  · exact Or.inr hleaving

/-- One of two loaded units of a wallet is leaving. -/
theorem leaving_of_loaded (hown : Owned t.leaving t.host) {other : Nat} {u v : PoolUnit}
    (hu : t.host.units[id]? = some u) (hv : t.host.units[other]? = some v)
    (hwallet : u.wallet = v.wallet) (huloaded : u.isLoaded = true)
    (hvloaded : v.isLoaded = true) :
    id = other ∨ id ∈ t.leaving ∨ other ∈ t.leaving := by
  rcases kept_or_leaving_of_loaded hown hu huloaded with hkept | hleaving
  · rcases kept_or_leaving_of_loaded hown hv hvloaded with hkept' | hleaving
    · -- A wallet has one unit in the register.
      rw [hwallet, hkept', Option.some.injEq] at hkept
      exact Or.inl hkept.symm
    · exact Or.inr (Or.inr hleaving)
  · exact Or.inr (Or.inl hleaving)

theorem loadedOnce_of_owned (hown : Owned [] h) : h.LoadedOnce := by
  intro id other u v hu hv hwallet huloaded hvloaded
  rcases leaving_of_loaded (t := ⟨h, []⟩) hown hu hv hwallet huloaded hvloaded with
    hsame | hleaving | hleaving
  · exact hsame
  · cases hleaving
  · cases hleaving

/-! ## A removal that is overtaken -/

/-- A unit that the host lets go of before anything is done with it is like one that it never
kept. -/
theorem create_eq_release_register (hnone : h.lookup wallet = none)
    (hruntime : h.hasRuntime = true) (mnemonic : Uuid) :
    h.create wallet mnemonic =
      .ok (h.units.length, (h.register wallet mnemonic).release wallet) := by
  have hothers : h.registered.filter (·.1 != wallet) = h.registered := by
    rw [Host.lookup, List.lookup_eq_none_iff] at hnone
    exact List.filter_eq_self.mpr fun entry hentry => by
      simpa [bne_iff_ne, ne_comm] using hnone entry hentry
  simp [create, hruntime, release, register, hothers]

/-- A unit is handed out and taken out of the register again; before it is shut down, another
one is handed out for the same wallet, and both of them are loaded. -/
def overtaken (wallet mnemonic : Uuid) : List Access :=
  [.getOrCreate wallet mnemonic, .release wallet, .getOrCreate wallet mnemonic,
   .step 0 (.operate .touch), .step 1 (.operate .touch)]

/-- Halfway through, the host is as if the unit had been made without it. -/
theorem after_take_overtaken (context : PoolContext) (repository : MemoryRepository)
    (now : Nat) (wallet mnemonic : Uuid) :
    ∃ later, (Host.begin context true repository now).create wallet mnemonic = .ok (0, later) ∧
      (begin context true repository now).after ((overtaken wallet mnemonic).take 2) =
        ⟨later, [0]⟩ := by
  let h := Host.begin context true repository now
  have hnone : h.lookup wallet = none := rfl
  have hmade : h.getOrCreate wallet mnemonic = .ok (0, h.register wallet mnemonic) :=
    (getOrCreate_of_none hnone mnemonic).trans (if_pos rfl)
  have hkept : (h.register wallet mnemonic).lookup wallet = some 0 :=
    (lookup_register h wallet mnemonic wallet).trans (if_pos rfl)
  have haccess : (Transit.mk h []).access (.getOrCreate wallet mnemonic) =
      ⟨h.register wallet mnemonic, []⟩ := by
    simp only [access, hmade]
  refine ⟨_, create_eq_release_register hnone rfl mnemonic, ?_⟩
  rw [overtaken, List.take_succ_cons, after_cons, begin, haccess]
  simp only [List.take_succ_cons, List.take_zero, after_cons, after_nil, access, hkept]

theorem after_overtaken (context : PoolContext) (repository : MemoryRepository) (now : Nat)
    (wallet mnemonic : Uuid) :
    let u := (({ wallet, mnemonic } : PoolUnit).attempt context repository.get now .touch).2
    (begin context true repository now).after (overtaken wallet mnemonic) =
      ⟨{ context, repository, units := [u, u], registered := [(wallet, 1)], now }, [0]⟩ := by
  simp [overtaken, begin, Host.begin, access, Host.getOrCreate, Host.create, Host.lookup,
    Host.release, Host.step, Host.operate, Host.setUnit, Host.source]

/-- Both of the units are loaded if the wallet opens and the clock can tell their deadline. -/
theorem not_loadedOnce_overtaken_iff (context : PoolContext) (repository : MemoryRepository)
    (now : Nat) (wallet mnemonic : Uuid) :
    ¬ ((begin context true repository now).after (overtaken wallet mnemonic)).host.LoadedOnce ↔
      (({ wallet, mnemonic } : PoolUnit).fetch context repository.get).1.isOk = true ∧
        now + context.interval < PoolUnit.clockEnd := by
  let new : PoolUnit := { wallet, mnemonic }
  have hloads : (new.attempt context repository.get now .touch).2.isLoaded = true ↔
      (new.fetch context repository.get).1.isOk = true ∧
        now + context.interval < PoolUnit.clockEnd :=
    PoolUnit.isLoaded_attempt_iff rfl rfl rfl
  rw [after_overtaken, ← hloads]
  constructor
  · intro hboth
    by_contra hunloaded
    refine hboth fun id other u v hu hv _ hloaded => ?_
    have hmem := List.mem_of_getElem? hu
    simp only [List.mem_cons, List.not_mem_nil, or_false, or_self] at hmem
    rw [hmem] at hloaded
    exact absurd hloaded hunloaded
  · intro hloaded honce
    exact absurd (honce 0 1 _ _ rfl rfl rfl hloaded hloaded) Nat.zero_ne_one

end Transit

/-! ## Main statement -/

/-- **Two units of a wallet are loaded together only while one of them is leaving.**  Whatever
any number of callers do, in any order of their accesses,

* a loaded unit is the one that its wallet has, or it is leaving, so that one of two loaded
  units of a wallet is leaving,
* no wallet has two loaded units any more as soon as the leaving ones are shut down,
* no wallet ever has two loaded units if every call is done before the next one begins, and
  a removal and a shutdown that nobody overtakes are these calls.

While a removal is overtaken, there can be two of them: a wallet that opens is loaded twice
after `overtaken`, once in the unit that the host has let go of and once in its new one, unless
the clock cannot tell the deadlines, so that loading crashes.  When the new one is asked for, the
host is as if the other had been made without it. -/
theorem loaded_together_only_while_leaving (context : PoolContext) (hasRuntime : Bool)
    (repository : MemoryRepository) (now : Nat) :
    (∀ accesses,
      let t := (Transit.begin context hasRuntime repository now).after accesses
      (∀ (id : Nat) (u : PoolUnit), t.host.units[id]? = some u → u.isLoaded = true →
        t.host.lookup u.wallet = some id ∨ id ∈ t.leaving) ∧
      (∀ (id other : Nat) (u v : PoolUnit), t.host.units[id]? = some u →
        t.host.units[other]? = some v → u.wallet = v.wallet → u.isLoaded = true →
        v.isLoaded = true → id = other ∨ id ∈ t.leaving ∨ other ∈ t.leaving) ∧
      (t.after (t.leaving.map .close)).leaving = [] ∧
      (t.after (t.leaving.map .close)).host.LoadedOnce) ∧
    (∀ history, ((begin context hasRuntime repository now).after history).LoadedOnce) ∧
    (∀ h wallet id, h.lookup wallet = some id →
      (Transit.mk h []).after [.release wallet, .close id] = ⟨(h.remove wallet).2, []⟩) ∧
    (∀ h, (Transit.mk h []).after (.releaseAll :: (h.registered.map Prod.snd).map .close) =
      ⟨h.shutdown, []⟩) ∧
    ∀ wallet mnemonic,
      (∃ later, (begin context true repository now).create wallet mnemonic = .ok (0, later) ∧
        (Transit.begin context true repository now).after
          ((Transit.overtaken wallet mnemonic).take 2) = ⟨later, [0]⟩) ∧
      let t :=
        (Transit.begin context true repository now).after
          (Transit.overtaken wallet mnemonic)
      t.leaving = [0] ∧ t.host.lookup wallet = some 1 ∧
        (¬ t.host.LoadedOnce ↔
          (({ wallet, mnemonic } : PoolUnit).fetch context repository.get).1.isOk = true ∧
            now + context.interval < PoolUnit.clockEnd) := by
  have hbegin : Owned [] (begin context hasRuntime repository now) :=
    Owned.begin context hasRuntime repository now
  refine ⟨?_, ?_, ?_, Transit.after_shutdown, ?_⟩
  · intro accesses t
    have hown : Owned t.leaving t.host :=
      Transit.owned_after (t := .begin context hasRuntime repository now) hbegin accesses
    have hclosed : (t.after (t.leaving.map .close)).leaving = [] := by
      have hall := Transit.after_close t.leaving t.host []
      rw [List.append_nil] at hall
      rw [hall]
    have hlater := Transit.owned_after hown (t.leaving.map .close)
    rw [hclosed] at hlater
    exact ⟨fun _ _ => Transit.kept_or_leaving_of_loaded hown,
      fun _ _ _ _ => Transit.leaving_of_loaded hown, hclosed,
      Transit.loadedOnce_of_owned hlater⟩
  · intro history
    exact Transit.loadedOnce_of_owned (hbegin.after history)
  · intro h wallet id hid
    exact Transit.after_remove hid
  · intro wallet mnemonic
    refine ⟨Transit.after_take_overtaken context repository now wallet mnemonic, ?_⟩
    intro t
    refine ⟨?_, ?_, Transit.not_loadedOnce_overtaken_iff context repository now wallet mnemonic⟩
    · simp only [t, Transit.after_overtaken]
    · simp only [t, Transit.after_overtaken, lookup, List.lookup_cons_self]

end Keyring.Host
