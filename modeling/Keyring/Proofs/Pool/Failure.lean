import Keyring.Pool.Host
import Keyring.Proofs.Pool.Lifecycle
import Keyring.Proofs.Wallet.Keychain

/-!
# What a failed operation leaves behind

An operation can fail at many places: the unit is closed, its keychain cannot be fetched, a
range is refused, a path cannot be derived, a payload cannot be signed.  Each place has its own
effects so far, and they come to two rules.

* A keychain that fails to serve an operation is the one before it (`Keychain.leftBy`).  Only a
  signature has got further by then: it has looked up the address that it was to sign for.
* A unit that fetched its keychain keeps it, with the idle time that the fetching has started.
  So it makes no difference whether the keychain is fetched by the operation that fails or by
  a request to load before it (`operate_after_load`).
-/

namespace Keyring

namespace Keychain

variable {k : Keychain} {p : AddressPath} {op : Operation} {fault : WalletError}

/-- The keychain that a failed operation leaves.  A signature has looked up its address. -/
def leftBy (k : Keychain) : Operation → Keychain
  | .sign p _ => (k.perform (.address p)).2
  | _ => k

theorem leftBy_of_not_sign (k : Keychain) (h : ∀ p payload, op ≠ .sign p payload) :
    k.leftBy op = k := by
  cases op with
  | sign p payload => exact absurd rfl (h p payload)
  | touch | loadAccount _ | address _ | accounts _ _ | extendedPublic _ => rfl

/-- What is left does not depend on the use that an entry is put to. -/
theorem withEntry_snd (k : Keychain) (p : AddressPath)
    (use : AddressEntry → Except WalletError Answer) :
    (k.withEntry p use).2 = (k.perform (.address p)).2 := by
  simp only [perform, withEntry]
  cases k.resolve p <;> rfl

/-- An entry that is only looked up fails to be found if anything fails. -/
theorem withEntry_of_lookup {answer : AddressEntry → Answer}
    (h : (k.withEntry p fun entry => .ok (answer entry)).1 = .error fault) :
    (k.withEntry p fun entry => .ok (answer entry)).2 = k := by
  unfold withEntry at h ⊢
  cases hresolve : k.resolve p with
  | ok found =>
      rw [hresolve] at h
      cases h
  | error e => rfl

theorem perform_of_error (h : (k.perform op).1 = .error fault) :
    (k.perform op).2 = k.leftBy op := by
  cases op with
  | touch => rfl
  | loadAccount p => exact withEntry_of_lookup h
  | address p => exact withEntry_of_lookup h
  | accounts ranges race =>
      simp only [perform] at h ⊢
      cases hcollect : k.collect ranges race with
      | ok collected =>
          rw [hcollect] at h
          cases h
      | error e => rfl
  | sign p payload => exact withEntry_snd k p _
  | extendedPublic account => rfl

/-- What a failed operation leaves differs in the cache at most. -/
theorem leftBy_eq (k : Keychain) (op : Operation) :
    k.leftBy op = { k with cache := (k.leftBy op).cache } := by
  cases op with
  | sign p payload =>
      obtain ⟨derived, hkept, -⟩ := perform_keeps k (.address p)
      simp only [leftBy, hkept]
  | touch | loadAccount _ | address _ | accounts _ _ | extendedPublic _ => rfl

end Keychain

namespace PoolUnit

variable {u : PoolUnit} {ctx : PoolContext} {source : RecordSource} {k : Keychain} {now : Nat}
  {op : Keychain.Operation} {fault : WalletError}

/-- A loaded unit that fails keeps its deadline and what its keychain is left as. -/
theorem operate_of_loaded_of_fails (hopen : u.isClosed = false) (hloaded : u.keychain = some k)
    (hfails : (u.operate ctx source now op).1 = .error fault) :
    (u.operate ctx source now op).2 = { u with keychain := some (k.leftBy op) } := by
  rw [operate_of_loaded ctx source now op hopen hloaded, run_eq] at hfails ⊢
  have hanswer : (k.perform op).1 = .error fault := hfails
  rw [Keychain.perform_of_error hanswer]
  simp only [hanswer]
  rfl

/-- A request for an address leaves a loaded unit the keychain that a failing signature for it
leaves, and that is the one before if the request fails. -/
theorem operate_address_of_loaded (p : AddressPath) (payload : Bytes)
    (hopen : u.isClosed = false) (hloaded : u.keychain = some k) :
    (u.operate ctx source now (.address p)).2.keychain = some (k.leftBy (.sign p payload)) ∧
      ((u.operate ctx source now (.address p)).1.isOk = false →
        k.leftBy (.sign p payload) = k) := by
  rw [operate_of_loaded ctx source now (.address p) hopen hloaded, run_eq]
  refine ⟨rfl, fun hunfound => ?_⟩
  cases hanswer : (k.perform (.address p)).1 with
  | ok answer =>
      rw [hanswer] at hunfound
      cases hunfound
  | error e => exact Keychain.perform_of_error hanswer

/-- An unloaded unit that cannot be loaded refuses every operation in the same way. -/
theorem operate_of_load_fails (op : Keychain.Operation) (hunloaded : u.keychain = none)
    (hload : (u.operate ctx source now .touch).1 = .error fault) :
    u.operate ctx source now op = u.operate ctx source now .touch ∧
      (u.operate ctx source now .touch).2.keychain = none ∧
      (u.operate ctx source now .touch).2.deadline = u.deadline := by
  rcases operate_cases ctx source now .touch u with ⟨hclosed, hresult⟩ | ⟨-, k, hloaded, -⟩ |
    ⟨hopen, -, e, hfetch, hresult⟩ | ⟨-, -, k, -, hresult⟩
  · rw [hresult, operate_of_closed ctx source now op hclosed]
    exact ⟨rfl, hunloaded, rfl⟩
  · rw [hunloaded] at hloaded
    cases hloaded
  · rw [hresult, operate_of_unfetched ctx source now op hopen hunloaded hfetch]
    exact ⟨rfl, hunloaded, rfl⟩
  · -- The keychain was fetched, so loading has succeeded.
    rw [hresult] at hload
    cases hload

/-- An unloaded unit may as well be loaded first, and the operation, if it fails, then be served
from what any repository and any decryptor have by then. -/
theorem operate_after_load {answer : Keychain.Answer} (hunloaded : u.keychain = none)
    (hload : (u.operate ctx source now .touch).1 = .ok answer)
    (hfails : (u.operate ctx source now op).1 = .error fault) (source' : RecordSource)
    (decrypt' : Bytes → Except WalletError Bytes) :
    u.operate ctx source now op =
        (u.operate ctx source now .touch).2.operate { ctx with decrypt := decrypt' } source' now
          op ∧
      (u.operate ctx source now .touch).2.isLoaded = true ∧
      (u.operate ctx source now .touch).2.deadline = some (now + ctx.interval) ∧
      (u.operate ctx source now op).2.deadline = some (now + ctx.interval) := by
  rcases operate_cases ctx source now .touch u with ⟨-, hresult⟩ | ⟨-, k, hloaded, -⟩ |
    ⟨-, -, e, -, hresult⟩ | ⟨hopen, -, k, hfetch, hresult⟩
  · rw [hresult] at hload
    cases hload
  · rw [hunloaded] at hloaded
    cases hloaded
  · rw [hresult] at hload
    cases hload
  · have hop := operate_of_fetched ctx source now op hopen hunloaded hfetch
    rw [hop] at hfails
    have hopen' : (u.operate ctx source now .touch).2.isClosed = false := by
      rw [hresult]
      exact hopen
    have hloaded' : (u.operate ctx source now .touch).2.keychain = some k := by
      rw [hresult]
      rfl
    rw [operate_of_loaded _ source' now op hopen' hloaded', run_eq, hop, hresult]
    refine ⟨?_, rfl, rfl, rfl⟩
    have hanswer : (k.perform op).1 = .error fault := hfails
    simp only [hanswer]
    rfl

/-- A closed unit refuses every operation, and there is nothing in it to change. -/
theorem Settled.operate_of_closed {wallet mnemonic : Uuid} (h : Settled wallet mnemonic u)
    (hclosed : u.isClosed = true) :
    (u.operate ctx source now op).2 = u ∧ u.keychain = none ∧ u.deadline = none := by
  have hunloaded := h.unloaded_of_closed hclosed
  rw [PoolUnit.operate_of_closed ctx source now op hclosed]
  exact ⟨rfl, hunloaded, h.deadline_eq_none hunloaded⟩

end PoolUnit

namespace Host

variable {h : Host} {id other : Nat} {op : Keychain.Operation}

theorem operate_repository (h : Host) (id : Nat) (op : Keychain.Operation) :
    (h.operate id op).2.repository = h.repository := by
  unfold operate
  cases h.units[id]? <;> rfl

/-- An operation on one unit is nothing to the others. -/
theorem operate_other (hother : other ≠ id) :
    (h.operate id op).2.units[other]? = h.units[other]? := by
  unfold operate
  cases h.units[id]? with
  | none => rfl
  | some u => exact List.getElem?_set_ne (Ne.symm hother)

end Host

/-! ## Main statement -/

/-- **A failed operation leaves a unit as it was.**  Let an operation with any arguments fail on
a new unit after any history, crashes among its events, with any repository and any decryptor.
Then

* the unit stands for the same mnemonic of the same wallet, and is open or closed as before,
* if it was loaded, it is loaded with the same deadline and the same keychain, root included, up
  to the cache; the cache is the same as well, unless a signature has failed: then it is the one
  that a request for the address leaves, whatever the payload, and the same again if that
  request fails,
* if it was closed, nothing has changed; if it was unloaded and loading it fails, the operation
  has failed like loading; either way the unit is unloaded without a deadline,
* if it was unloaded and loading it succeeds, the outcome is that of loading it and then asking
  the loaded unit for the operation, and the deadline is the one that loading has set.

An operation that answers with an error by the clock is such an operation.  One that a host passes
on to a unit never changes the repository, nor any other unit. -/
theorem PoolUnit.failure_leaves_unit (plugin : Plugin) (interval : Nat) (wallet mnemonic : Uuid)
    (start : Nat) (history : List Event) (source : RecordSource)
    (decrypt : Bytes → Except WalletError Bytes) (op : Keychain.Operation) :
    let m := (Moment.begin wallet mnemonic start).after plugin interval history
    let ctx : PoolContext := ⟨plugin, decrypt, interval⟩
    let result := m.unit.operate ctx source m.now op
    let load := m.unit.operate ctx source m.now .touch
    let tried := m.unit.attempt ctx source m.now op
    (∀ fault, result.1 = .error fault →
      (result.2.wallet = wallet ∧ result.2.mnemonic = mnemonic ∧
        result.2.isClosed = m.unit.isClosed) ∧
      (∀ k, m.unit.keychain = some k → ∃ cache,
        result.2 = { m.unit with keychain := some { k with cache } } ∧
        ((∀ p payload, op ≠ .sign p payload) → cache = k.cache) ∧
        (∀ p payload, op = .sign p payload →
          let lookup := m.unit.operate ctx source m.now (.address p)
          lookup.2.keychain = some { k with cache } ∧
            (lookup.1.isOk = false → cache = k.cache))) ∧
      (m.unit.isClosed = true →
        result.2 = m.unit ∧ result.2.keychain = none ∧ result.2.deadline = none) ∧
      (m.unit.keychain = none → load.1.isOk = false →
        result = load ∧ result.2.keychain = none ∧ result.2.deadline = none) ∧
      (m.unit.keychain = none → load.1.isOk = true →
        (∀ source' decrypt', result = load.2.operate { ctx with decrypt := decrypt' } source'
          m.now op) ∧
        load.2.isLoaded = true ∧ load.2.deadline = some (m.now + interval) ∧
          result.2.deadline = load.2.deadline)) ∧
    (∀ fault, tried.1 = some (.error fault) → result = (.error fault, tried.2)) ∧
    (∀ (h : Host) (id : Nat), (h.operate id op).2.repository = h.repository ∧
      ∀ other, other ≠ id → (h.operate id op).2.units[other]? = h.units[other]?) := by
  intro m ctx result load tried
  have hsettled : Settled wallet mnemonic m.unit :=
    (Settled.begin wallet mnemonic).after (m := .begin wallet mnemonic start) plugin interval
      history
  have howner : result.2.wallet = m.unit.wallet ∧ result.2.mnemonic = m.unit.mnemonic :=
    operate_owner ctx source m.now op m.unit
  rw [hsettled.wallet_eq, hsettled.mnemonic_eq] at howner
  refine ⟨fun fault hfails =>
    ⟨⟨howner.1, howner.2, operate_isClosed ctx source m.now op m.unit⟩, ?_, ?_, ?_, ?_⟩, ?_,
    fun h id => ⟨h.operate_repository id op, fun _ => Host.operate_other⟩⟩
  · -- It was loaded.
    intro k hloaded
    have hopen : m.unit.isClosed = false := by
      apply hsettled.open_of_loaded
      rw [isLoaded, hloaded]
      rfl
    refine ⟨(k.leftBy op).cache, ?_, ?_, ?_⟩
    · rw [← Keychain.leftBy_eq]
      exact operate_of_loaded_of_fails hopen hloaded hfails
    · intro hother
      rw [Keychain.leftBy_of_not_sign k hother]
    · rintro p payload rfl lookup
      obtain ⟨hkeychain, hunfound⟩ : lookup.2.keychain = _ ∧ (lookup.1.isOk = false → _) :=
        operate_address_of_loaded p payload hopen hloaded
      rw [← Keychain.leftBy_eq]
      exact ⟨hkeychain, fun h => congrArg Keychain.cache (hunfound h)⟩
  · -- It was closed.
    intro hclosed
    obtain ⟨hsame, hunloaded, hdisarmed⟩ :
        result.2 = m.unit ∧ m.unit.keychain = none ∧ m.unit.deadline = none :=
      hsettled.operate_of_closed hclosed
    rw [hsame]
    exact ⟨rfl, hunloaded, hdisarmed⟩
  · -- It was unloaded and cannot be loaded.
    intro hunloaded hrefused
    cases hload : load.1 with
    | ok answer =>
        rw [hload] at hrefused
        cases hrefused
    | error e =>
        obtain ⟨hsame, hnone, hdeadline⟩ := operate_of_load_fails op hunloaded hload
        rw [show result = load from hsame]
        exact ⟨rfl, hnone, hdeadline.trans (hsettled.deadline_eq_none hunloaded)⟩
  · -- It was unloaded and can be loaded.
    intro hunloaded hloads
    cases hload : load.1 with
    | error e =>
        rw [hload] at hloads
        cases hloads
    | ok answer =>
        have hafterLoad := operate_after_load hunloaded hload hfails
        obtain ⟨-, hloaded, hdeadline, hdeadline'⟩ := hafterLoad source decrypt
        exact ⟨fun source' decrypt' => (hafterLoad source' decrypt').1, hloaded, hdeadline,
          hdeadline'.trans hdeadline.symm⟩
  · -- By the clock it answers, so it did not crash.
    intro fault hfails
    have hsame : tried = (some result.1, result.2) := by
      refine attempt_of_answered fun hcrash => ?_
      rw [show tried.1 = none from hcrash] at hfails
      cases hfails
    rw [hsame] at hfails ⊢
    exact Prod.ext (Option.some.inj hfails) rfl

end Keyring
