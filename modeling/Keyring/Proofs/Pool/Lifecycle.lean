import Keyring.Proofs.Pool.Operate

/-!
# The life of a pool unit

A unit is asked to do things, is unloaded by its owner or when it has been idle, and is
shut down, in any order, while time passes.  What the repository and the decryptor answer
may change from one operation to the next.  Operations go by the clock, so some of them may
crash; a history goes on after a crash, with what the crash has left of the unit.

The keychain, the deadline of the idle time and the mark of a closed unit are set on
different occasions: loading sets the first two before the operation is known to
succeed, only success moves the deadline, and unloading takes both away.  `Settled` says
how the three fit together between any two events, and that the clock can tell the deadline.
A crash keeps this, since a keychain is given to a unit after the deadline is set, and the
deadline that is left is the old one.  A closed unit has nothing left to change, so every later
history leaves it as it is (`after_of_closed`).
-/

namespace Keyring.PoolUnit

/-! ## Events -/

/-- What can happen to a unit. -/
inductive Event
  | operate (source : RecordSource) (decrypt : Bytes → Except WalletError Bytes)
      (op : Keychain.Operation)
  | unload
  | unloadIfIdle
  | shutdown
  | elapse (span : Nat)

/-- A unit at some time. -/
structure Moment where
  unit : PoolUnit
  now : Nat

namespace Moment

/-- A new unit for a mnemonic of a wallet. -/
def begin (wallet mnemonic : Uuid) (now : Nat) : Moment :=
  ⟨{ wallet, mnemonic }, now⟩

section Runs

variable (plugin : Plugin) (interval : Nat)

/-- The unit after one event. -/
def step (m : Moment) : Event → Moment
  | .operate source decrypt op =>
    { m with unit := (m.unit.attempt ⟨plugin, decrypt, interval⟩ source m.now op).2 }
  | .unload => { m with unit := m.unit.unload.2 }
  | .unloadIfIdle => { m with unit := (m.unit.unloadIfIdle m.now).2 }
  | .shutdown => { m with unit := m.unit.shutdown }
  | .elapse span => { m with now := m.now + span }

/-- The unit after a history, the oldest event first. -/
def after (m : Moment) (history : List Event) : Moment :=
  history.foldl (step plugin interval) m

@[simp] theorem after_nil (m : Moment) : m.after plugin interval [] = m := rfl

@[simp] theorem after_cons (m : Moment) (event : Event) (history : List Event) :
    m.after plugin interval (event :: history) =
      (m.step plugin interval event).after plugin interval history := rfl

end Runs

end Moment

/-! ## Unloading -/

/-- An idle unit is unloaded, any other one is left alone. -/
theorem unloadIfIdle_cases (u : PoolUnit) (now : Nat) :
    u.unloadIfIdle now = u.unload ∨ u.unloadIfIdle now = (false, u) := by
  unfold unloadIfIdle
  split
  · split
    · exact Or.inl rfl
    · exact Or.inr rfl
  · exact Or.inr rfl

/-! ## The invariant -/

/-- How keychain, deadline and closing fit together in a unit for a mnemonic of a wallet. -/
structure Settled (wallet mnemonic : Uuid) (u : PoolUnit) : Prop where
  wallet_eq : u.wallet = wallet
  mnemonic_eq : u.mnemonic = mnemonic
  armed_iff : u.deadline.isSome = u.keychain.isSome
  unloaded_of_closed : u.isClosed = true → u.keychain = none
  told : u.isTold = true

namespace Settled

variable {wallet mnemonic : Uuid} {u : PoolUnit} {ctx : PoolContext} {source : RecordSource}
  {now : Nat} {op : Keychain.Operation}

theorem begin (wallet mnemonic : Uuid) : Settled wallet mnemonic { wallet, mnemonic } :=
  ⟨rfl, rfl, rfl, fun _ => rfl, rfl⟩

theorem deadline_eq_none (h : Settled wallet mnemonic u) (hunloaded : u.keychain = none) :
    u.deadline = none := by
  have harmed := h.armed_iff
  rw [hunloaded] at harmed
  exact Option.isSome_eq_false_iff.mp harmed |> Option.isNone_iff_eq_none.mp

/-- A loaded unit is open. -/
theorem open_of_loaded (h : Settled wallet mnemonic u) (hloaded : u.isLoaded = true) :
    u.isClosed = false := by
  cases hclosed : u.isClosed with
  | false => rfl
  | true =>
      rw [PoolUnit.isLoaded, h.unloaded_of_closed hclosed] at hloaded
      cases hloaded

theorem unload (h : Settled wallet mnemonic u) : Settled wallet mnemonic u.unload.2 :=
  ⟨h.wallet_eq, h.mnemonic_eq, rfl, fun _ => rfl, rfl⟩

theorem unloadIfIdle (h : Settled wallet mnemonic u) (now : Nat) :
    Settled wallet mnemonic (u.unloadIfIdle now).2 := by
  rcases unloadIfIdle_cases u now with hunload | hsame
  · rw [hunload]
    exact h.unload
  · rw [hsame]
    exact h

theorem shutdown (h : Settled wallet mnemonic u) : Settled wallet mnemonic u.shutdown :=
  ⟨h.wallet_eq, h.mnemonic_eq, rfl, fun _ => rfl, rfl⟩

theorem note (h : Settled wallet mnemonic u) (handed : List Bytes) :
    Settled wallet mnemonic (u.note handed) :=
  ⟨h.wallet_eq, h.mnemonic_eq, h.armed_iff, h.unloaded_of_closed, h.told⟩

/-- An open unit with a keychain and a deadline that can be told is settled. -/
theorem of_loaded (h : Settled wallet mnemonic u) (hopen : u.isClosed = false)
    (k : Keychain) {deadline : Option Nat} (harmed : deadline.isSome = true)
    (htold : deadline.all (· < clockEnd) = true) :
    Settled wallet mnemonic { u with keychain := some k, deadline } :=
  ⟨h.wallet_eq, h.mnemonic_eq, harmed, fun hclosed => by simp [hopen] at hclosed, htold⟩

/-- What a keychain does in a loaded unit leaves an armed deadline alone. -/
theorem of_perform (h : Settled wallet mnemonic u) (hopen : u.isClosed = false) {k : Keychain}
    (hloaded : u.keychain = some k) (k' : Keychain) :
    Settled wallet mnemonic { u with keychain := some k' } := by
  refine h.of_loaded hopen k' ?_ h.told
  rw [h.armed_iff, hloaded]
  rfl

theorem operate (h : Settled wallet mnemonic u)
    (htold : (u.operate ctx source now op).2.isTold = true) :
    Settled wallet mnemonic (u.operate ctx source now op).2 := by
  rcases operate_cases ctx source now op u with ⟨-, hresult⟩ | ⟨hopen, k, hloaded, hresult⟩ |
    ⟨-, -, e, -, hresult⟩ | ⟨hopen, -, k, -, hresult⟩
  · rw [hresult]
    exact h
  · rw [hresult, run_eq] at htold ⊢
    refine h.of_loaded hopen _ ?_ htold
    -- A failed operation leaves the deadline of a loaded unit, and that is armed.
    split
    · rfl
    · rw [h.armed_iff, hloaded]
      rfl
  · rw [hresult]
    exact h.note _
  · rw [hresult] at htold ⊢
    exact (h.note _).of_loaded hopen _ rfl htold

/-- A crash finds an open unit.  If the unit is loaded, its keychain keeps what it has derived;
otherwise the unit only keeps what it handed to the decryptor. -/
theorem attempt_of_crash (h : Settled wallet mnemonic u)
    (hcrash : (u.attempt ctx source now op).1 = none) :
    u.isClosed = false ∧
      (∀ k, u.keychain = some k →
        (u.attempt ctx source now op).2 = { u with keychain := some (k.perform op).2 }) ∧
      (u.keychain = none →
        (u.attempt ctx source now op).2 = u.note (u.fetch ctx source).2) := by
  have huntold := attempt_eq_none_iff_untold.mp hcrash
  have hopen : u.isClosed = false := by
    rw [← Bool.not_eq_true]
    intro hclosed
    rw [attempt_of_closed hclosed h.told] at hcrash
    cases hcrash
  refine ⟨hopen, fun k hloaded => ?_, fun hunloaded => ?_⟩
  · rw [attempt_of_loaded_of_untold hopen hloaded huntold]
  · rw [attempt_of_unloaded_of_untold hopen hunloaded huntold]

/-- An operation keeps the invariant, whether it crashes or not. -/
theorem attempt (h : Settled wallet mnemonic u) (ctx : PoolContext) (source : RecordSource)
    (now : Nat) (op : Keychain.Operation) :
    Settled wallet mnemonic (u.attempt ctx source now op).2 := by
  cases htold : (u.operate ctx source now op).2.isTold with
  | true =>
      rw [attempt_of_told htold]
      exact h.operate htold
  | false =>
      obtain ⟨hopen, hloaded, hunloaded⟩ :=
        h.attempt_of_crash (attempt_eq_none_iff_untold.mpr htold)
      cases hkeychain : u.keychain with
      | some k =>
          rw [hloaded k hkeychain]
          exact h.of_perform hopen hkeychain _
      | none =>
          rw [hunloaded hkeychain]
          exact h.note _

/-- One event keeps the invariant. -/
theorem step {m : Moment} (h : Settled wallet mnemonic m.unit) (plugin : Plugin)
    (interval : Nat) (event : Event) :
    Settled wallet mnemonic (m.step plugin interval event).unit := by
  cases event with
  | operate source decrypt op => exact h.attempt _ source m.now op
  | unload => exact h.unload
  | unloadIfIdle => exact h.unloadIfIdle m.now
  | shutdown => exact h.shutdown
  | elapse span => exact h

/-- So does a history. -/
theorem after {m : Moment} (h : Settled wallet mnemonic m.unit) (plugin : Plugin)
    (interval : Nat) (history : List Event) :
    Settled wallet mnemonic (m.after plugin interval history).unit := by
  induction history generalizing m with
  | nil => exact h
  | cons event history ih => exact ih (h.step plugin interval event)

/-- A closed unit has nothing to unload. -/
theorem unload_of_closed (h : Settled wallet mnemonic u) (hclosed : u.isClosed = true) :
    u.unload.2 = u := by
  have hunloaded := h.unloaded_of_closed hclosed
  have hdeadline := h.deadline_eq_none hunloaded
  cases u
  simp_all [PoolUnit.unload]

/-- An event does not change a closed unit. -/
theorem step_of_closed {m : Moment} (h : Settled wallet mnemonic m.unit)
    (hclosed : m.unit.isClosed = true) (plugin : Plugin) (interval : Nat) (event : Event) :
    (m.step plugin interval event).unit = m.unit := by
  have hunload := h.unload_of_closed hclosed
  cases event with
  | operate source decrypt op =>
      simp only [Moment.step, attempt_of_closed hclosed h.told]
  | unload => exact hunload
  | unloadIfIdle =>
      show (m.unit.unloadIfIdle m.now).2 = m.unit
      rcases unloadIfIdle_cases m.unit m.now with hidle | hsame
      · rw [hidle, hunload]
      · rw [hsame]
  | shutdown =>
      show { m.unit.unload.2 with isClosed := true } = m.unit
      rw [hunload, ← hclosed]
  | elapse span => rfl

/-- No history changes a closed unit. -/
theorem after_of_closed {m : Moment} (h : Settled wallet mnemonic m.unit)
    (hclosed : m.unit.isClosed = true) (plugin : Plugin) (interval : Nat)
    (history : List Event) : (m.after plugin interval history).unit = m.unit := by
  induction history generalizing m with
  | nil => rfl
  | cons event history ih =>
      have hsame := h.step_of_closed hclosed plugin interval event
      -- The step leaves the unit as it is, so what is known of it holds for the rest.
      rw [Moment.after_cons, ih (by rw [hsame]; exact h) (by rw [hsame]; exact hclosed), hsame]

end Settled

/-! ## Main statement -/

/-- **A unit is loaded as long as its deadline is armed, and closed for good.**  Between
any two events of any history of a new unit, crashes among them,

* a keychain is present if and only if a deadline is armed, and a unit without a keychain
  keeps no addresses,
* a closed unit has neither of them; shutting down closes, and no later history changes
  the unit: it stays closed and unloaded, nothing is handed to the decryptor any more, and every
  operation answers that the unit of the wallet is closed, with or without a clock,
* unloading answers whether there was a keychain and leaves none behind, so that
  unloading again changes nothing. -/
theorem loaded_iff_armed_until_closed (plugin : Plugin) (interval : Nat)
    (wallet mnemonic : Uuid) (start : Nat) (history : List Event) :
    let m := (Moment.begin wallet mnemonic start).after plugin interval history
    (m.unit.keychain.isSome ↔ m.unit.deadline.isSome) ∧
    (m.unit.keychain = none → m.unit.cachedAddresses = 0) ∧
    (m.unit.isClosed = true → m.unit.keychain = none ∧ m.unit.deadline = none) ∧
    m.unit.shutdown.isClosed = true ∧
    (m.unit.isClosed = true → ∀ later,
      let m' := m.after plugin interval later
      m'.unit.isClosed = true ∧ m'.unit.keychain = none ∧ m'.unit.deadline = none ∧
        m'.unit.decrypted = m.unit.decrypted ∧
        ∀ ctx source now op,
          m'.unit.operate ctx source now op = (.error (.unitClosed wallet.text), m'.unit) ∧
          m'.unit.attempt ctx source now op =
            (some (.error (.unitClosed wallet.text)), m'.unit)) ∧
    (m.unit.unload.1 = true ↔ m.unit.keychain.isSome) ∧
    m.unit.unload.2.keychain = none ∧
    m.unit.unload.2.unload = (false, m.unit.unload.2) := by
  intro m
  have hsettled : Settled wallet mnemonic m.unit :=
    (Settled.begin wallet mnemonic).after (m := .begin wallet mnemonic start) plugin interval
      history
  have hclosed : m.unit.isClosed = true → m.unit.keychain = none ∧ m.unit.deadline = none := by
    intro hclosed
    have hunloaded := hsettled.unloaded_of_closed hclosed
    exact ⟨hunloaded, hsettled.deadline_eq_none hunloaded⟩
  refine ⟨by rw [hsettled.armed_iff], ?_, hclosed, rfl, ?_, Iff.rfl, rfl, rfl⟩
  · intro hunloaded
    simp [cachedAddresses, hunloaded]
  · intro hmark later m'
    have hsame : m'.unit = m.unit := hsettled.after_of_closed hmark plugin interval later
    rw [hsame]
    refine ⟨hmark, (hclosed hmark).1, (hclosed hmark).2, rfl, ?_⟩
    intro ctx source now op
    rw [operate_of_closed ctx source now op hmark, attempt_of_closed hmark hsettled.told,
      hsettled.wallet_eq]
    exact ⟨rfl, rfl⟩

end Keyring.PoolUnit
