import Mathlib.Algebra.Order.Ring.Nat
import Keyring.Config.Toml
import Keyring.Proofs.Pool.Gate
import Keyring.Proofs.Pool.IdleTime
import Keyring.Proofs.Text.Decimal

/-!
# Deadlines that the clock cannot tell

Every interval but zero is accepted, up to the largest number of 64 bits, and no deadline is
compared with the end of the clock before it is set.  The deadline is set by the operations that
start the idle time anew, which are those that load the unit and those that succeed, so these are
the ones that crash once the present instant and the interval together reach the end of the clock
(`Settled.attempt_eq_none_iff`).

As long as no deadline reaches the end, nothing crashes, and a history is the one that a clock
without an end would give (`Settled.after_eq_afterFreely`).  If the first deadline would, nothing
is ever loaded.
-/

namespace Keyring

namespace PoolUnit

variable {u : PoolUnit} {ctx : PoolContext} {source : RecordSource} {now : Nat}
  {op : Keychain.Operation} {wallet mnemonic : Uuid}

/-! ## Histories by a clock without an end -/

namespace Moment

variable (plugin : Plugin) (interval : Nat)

/-- The unit after one event, if every deadline could be told. -/
def stepFreely (m : Moment) : Event → Moment
  | .operate source decrypt op =>
    { m with unit := (m.unit.operate ⟨plugin, decrypt, interval⟩ source m.now op).2 }
  | event => m.step plugin interval event

/-- The unit after a history, the oldest event first. -/
def afterFreely (m : Moment) (history : List Event) : Moment :=
  history.foldl (stepFreely plugin interval) m

@[simp] theorem afterFreely_nil (m : Moment) : m.afterFreely plugin interval [] = m := rfl

@[simp] theorem afterFreely_cons (m : Moment) (event : Event) (history : List Event) :
    m.afterFreely plugin interval (event :: history) =
      (m.stepFreely plugin interval event).afterFreely plugin interval history := rfl

theorem now_le_now_after (m : Moment) (history : List Event) :
    m.now ≤ (m.after plugin interval history).now := by
  induction history generalizing m with
  | nil => exact Nat.le_refl m.now
  | cons event history ih =>
      exact Nat.le_trans (now_le_now_step plugin interval m event) (ih _)

end Moment

namespace Settled

variable {plugin : Plugin} {interval : Nat} {m : Moment}

/-! ## When an operation crashes -/

/-- The deadline that an operation leaves can be told, unless it is a new one beyond the end. -/
theorem untold_operate_iff (h : Settled wallet mnemonic u) :
    (u.operate ctx source now op).2.isTold = false ↔
      clockEnd ≤ now + ctx.interval ∧
        (u.isLoaded = false ∧ (u.operate ctx source now op).2.isLoaded = true ∨
          (u.operate ctx source now op).1.isOk = true) := by
  rcases operate_cases ctx source now op u with ⟨-, hresult⟩ | ⟨-, k, hloaded, hresult⟩ |
    ⟨-, hunloaded, e, -, hresult⟩ | ⟨-, hunloaded, k, -, hresult⟩
  · rw [hresult]
    cases u.isLoaded <;> simp [h.told, Except.isOk, Except.toBool]
  · rw [hresult, run_eq]
    -- A loaded unit keeps its deadline unless the operation succeeds.
    have hbefore := h.told
    rw [isTold] at hbefore
    cases (k.perform op).1.isOk <;> simp [isTold, isLoaded, hloaded, hbefore]
  · have htold : (u.note (u.fetch ctx source).2).isTold = true :=
      isTold_of_deadline_eq_none (h.deadline_eq_none hunloaded)
    rw [hresult]
    simp [htold, isLoaded, hunloaded, Except.isOk, Except.toBool]
  · rw [hresult]
    simp [isTold, isLoaded, hunloaded]

/-- An operation crashes if it sets a deadline, and the clock cannot tell it. -/
theorem attempt_eq_none_iff (h : Settled wallet mnemonic u) :
    (u.attempt ctx source now op).1 = none ↔
      clockEnd ≤ now + ctx.interval ∧
        (u.isLoaded = false ∧ (u.operate ctx source now op).2.isLoaded = true ∨
          (u.operate ctx source now op).1.isOk = true) :=
  attempt_eq_none_iff_untold.trans h.untold_operate_iff

/-- Before the end of the clock an event is what it is without an end. -/
theorem step_eq_stepFreely (h : Settled wallet mnemonic m.unit)
    (hrange : m.now + interval < clockEnd) (event : Event) :
    m.step plugin interval event = m.stepFreely plugin interval event := by
  cases event with
  | operate source decrypt op =>
      have hanswered : (m.unit.attempt ⟨plugin, decrypt, interval⟩ source m.now op).1 ≠ none :=
        fun hcrash => absurd (h.attempt_eq_none_iff.mp hcrash).1 (Nat.not_le.mpr hrange)
      simp only [Moment.step, Moment.stepFreely, attempt_of_answered hanswered]
  | unload | unloadIfIdle | shutdown | elapse span => rfl

/-- So is a history that ends before. -/
theorem after_eq_afterFreely (h : Settled wallet mnemonic m.unit) {history : List Event}
    (hrange : (m.after plugin interval history).now + interval < clockEnd) :
    m.after plugin interval history = m.afterFreely plugin interval history := by
  induction history generalizing m with
  | nil => rfl
  | cons event history ih =>
      have hle := Moment.now_le_now_after plugin interval m (event :: history)
      have hstep : m.step plugin interval event = m.stepFreely plugin interval event :=
        h.step_eq_stepFreely (by omega) event
      rw [Moment.after_cons] at hrange ⊢
      rw [ih (h.step plugin interval event) hrange, hstep, Moment.afterFreely_cons]

/-! ## After the end of the clock -/

/-- Loading crashes, so an unloaded unit stays unloaded. -/
theorem unloaded_step (h : Settled wallet mnemonic m.unit)
    (hbeyond : clockEnd ≤ m.now + interval) (hunloaded : m.unit.isLoaded = false)
    (event : Event) : (m.step plugin interval event).unit.isLoaded = false := by
  cases event with
  | operate source decrypt op =>
      have hnone := keychain_eq_none hunloaded
      show (m.unit.attempt ⟨plugin, decrypt, interval⟩ source m.now op).2.isLoaded = false
      cases hclosed : m.unit.isClosed with
      | true =>
          rw [attempt_of_closed hclosed h.told]
          exact hunloaded
      | false =>
          rw [← Bool.not_eq_true, isLoaded_attempt_iff hclosed hnone (h.deadline_eq_none hnone)]
          exact fun hloads => absurd hloads.2 (Nat.not_lt.mpr hbeyond)
  | unload => rfl
  | unloadIfIdle =>
      show (m.unit.unloadIfIdle m.now).2.isLoaded = false
      rcases unloadIfIdle_cases m.unit m.now with hunload | hsame
      · rw [hunload]
        rfl
      · rw [hsame]
        exact hunloaded
  | shutdown => rfl
  | elapse span => exact hunloaded

theorem unloaded_after (h : Settled wallet mnemonic m.unit)
    (hbeyond : clockEnd ≤ m.now + interval) (hunloaded : m.unit.isLoaded = false)
    (history : List Event) :
    (m.after plugin interval history).unit.isLoaded = false := by
  induction history generalizing m with
  | nil => exact hunloaded
  | cons event history ih =>
      have hle := Moment.now_le_now_step plugin interval m event
      exact ih (h.step plugin interval event) (by omega) (h.unloaded_step hbeyond hunloaded event)

/-- What succeeds sets a deadline, so it crashes. -/
theorem attempt_ne_ok (h : Settled wallet mnemonic u) (hbeyond : clockEnd ≤ now + ctx.interval)
    (answer : Keychain.Answer) : (u.attempt ctx source now op).1 ≠ some (.ok answer) := by
  intro hanswer
  have hanswered : (u.attempt ctx source now op).1 ≠ none := by
    rw [hanswer]
    exact Option.some_ne_none _
  have hsame := attempt_of_answered hanswered
  rw [hsame] at hanswer
  refine hanswered (h.attempt_eq_none_iff.mpr ⟨hbeyond, Or.inr ?_⟩)
  rw [Option.some.inj hanswer]
  rfl

end Settled

end PoolUnit

/-! ## Configurations -/

namespace Config

/-- A configuration with another interval. -/
def withInterval (c : Config) (secs : UInt64) : Config :=
  { c with pool := { c.pool with unloadIntervalSecs := secs } }

/-- An environment that sets the interval and nothing else. -/
def intervalEnvironment (secs : UInt64) : Environment := fun name =>
  if name = "HDWALLET_UNLOAD_INTERVAL_SECS" then some (toString secs.toNat) else none

/-- Nothing but zero is refused. -/
theorem validate_withInterval {c : Config} (h : c.validate = .ok ()) {secs : UInt64}
    (hpos : 0 < secs) : (c.withInterval secs).validate = .ok () := by
  have hsecs : secs ≠ 0 := by
    rintro rfl
    exact absurd hpos (by decide)
  have hinterval : c.pool.unloadIntervalSecs ≠ 0 := by
    intro hzero
    by_cases hname : (Text.trim c.chain.name).isEmpty = true <;>
      simp [validate, fault?, hname, hzero] at h
  have hsame : (c.withInterval secs).fault? = c.fault? := by
    simp only [fault?, withInterval, hsecs, hinterval, if_false]
    rfl
  rw [validate] at h ⊢
  rw [hsame]
  exact h

/-- The environment can set any number of 64 bits. -/
theorem applyEnvironment_intervalEnvironment (c : Config) (secs : UInt64) :
    c.applyEnvironment (intervalEnvironment secs) = (c.withInterval secs, .ok ()) := by
  have hdigits : secs.toNat.repr.toList = Nat.toDigits 10 secs.toNat := Nat.toList_repr
  have htrim : Text.trim secs.toNat.repr = secs.toNat.repr := by
    refine Text.trim_of_isDigit fun c hc => ?_
    rw [hdigits] at hc
    exact Nat.isDigit_of_mem_toDigits (by omega) (by omega) hc
  have hread : Text.uint64? (Text.trim secs.toNat.repr).toList = some secs := by
    rw [htrim, hdigits, Text.uint64?_toDigits]
  simp [applyEnvironment, overrides, applyAll, overrideText, overrideNumber, intervalEnvironment,
    hread, withInterval]

/-- So every interval but zero gets from an environment into a configuration that is used. -/
theorem load_intervalEnvironment {c : Config} {text : String} (h : ofTomlText text = .ok c)
    {secs : UInt64} (hpos : 0 < secs) :
    load text (intervalEnvironment secs) = .ok (c.withInterval secs) := by
  obtain ⟨parsed, hparse, h⟩ := bind_eq_ok_iff.mp h
  obtain ⟨⟨⟩, hvalidate, h⟩ := bind_eq_ok_iff.mp h
  cases h
  rw [load, hparse, ok_bind]
  simp only [applyEnvironment_intervalEnvironment, ok_bind]
  exact bind_eq_ok_iff.mpr ⟨(), validate_withInterval hvalidate hpos, rfl⟩

end Config

/-! ## Main statement -/

namespace PoolUnit

/-- The clock counts seconds. -/
theorem clockEnd_le_iff {pool : PoolConfig} {now : Nat} :
    clockEnd ≤ now + pool.unloadInterval ↔
      2 ^ 63 ≤ now / 1000 + pool.unloadIntervalSecs.toNat := by
  have hend : clockEnd = 2 ^ 63 * 1000 := by decide
  rw [hend, PoolConfig.unloadInterval]
  omega

/-- **An operation crashes exactly if it sets a deadline that the clock cannot tell.**  Take a new
unit with the interval of any configuration, after any history, in which operations may have
crashed before.

* An operation crashes exactly if the present second and the interval together reach `2 ^ 63`, and
  it would load the unit or succeed.  If it does not crash, it is the operation that it would be
  without a clock.
* A crash finds an open unit.  It leaves a loaded unit as it was, but for what the keychain has
  derived, and an unloaded one as it was, but for what it handed to the decryptor.
* As long as the present second and the interval are below `2 ^ 63`, no operation has crashed, and
  the history is what it is by a clock without an end.
* If they were not at the start, the unit is never loaded and no operation ever succeeds: those
  that the gate refuses fail, and those that it admits crash.

Such an interval is not refused: over a file that is accepted the environment can set every number
of 64 bits but zero. -/
theorem attempt_crashes_iff_deadline_overflows (c : Config) (plugin : Plugin)
    (wallet mnemonic : Uuid) (start : Nat) (history : List Event) :
    let interval := c.pool.unloadInterval
    let new := Moment.begin wallet mnemonic start
    let m := new.after plugin interval history
    let overflows (now : Nat) : Prop := 2 ^ 63 ≤ now / 1000 + c.pool.unloadIntervalSecs.toNat
    (∀ source decrypt op,
      let ctx : PoolContext := ⟨plugin, decrypt, interval⟩
      let done := m.unit.operate ctx source m.now op
      let tried := m.unit.attempt ctx source m.now op
      (tried.1 = none ↔ overflows m.now ∧
        (m.unit.isLoaded = false ∧ done.2.isLoaded = true ∨ done.1.isOk = true)) ∧
      (tried.1 ≠ none → tried = (some done.1, done.2)) ∧
      (tried.1 = none → m.unit.isClosed = false ∧
        (∀ k, m.unit.keychain = some k →
          tried.2 = { m.unit with keychain := some (k.perform op).2 }) ∧
        (m.unit.keychain = none → tried.2 = m.unit.note (m.unit.fetch ctx source).2))) ∧
    (¬ overflows m.now → m = new.afterFreely plugin interval history) ∧
    (overflows start → m.unit.isLoaded = false ∧ ∀ source decrypt op,
      let ctx : PoolContext := ⟨plugin, decrypt, interval⟩
      let tried := m.unit.attempt ctx source m.now op
      (∀ answer, tried.1 ≠ some (.ok answer)) ∧
      (m.unit.isClosed = false →
        (∃ record text phrase, m.unit.Admits ctx source record text phrase) →
          tried.1 = none)) ∧
    (∀ text secs, Config.ofTomlText text = .ok c → 0 < secs →
      Config.load text (Config.intervalEnvironment secs) = .ok (c.withInterval secs)) := by
  intro interval new m overflows
  have hnew : Settled wallet mnemonic new.unit := Settled.begin wallet mnemonic
  have hsettled : Settled wallet mnemonic m.unit := hnew.after plugin interval history
  have hoverflows : ∀ now, overflows now ↔ clockEnd ≤ now + interval :=
    fun now => clockEnd_le_iff.symm
  refine ⟨?_, ?_, ?_, fun text secs h hpos => Config.load_intervalEnvironment h hpos⟩
  · intro source decrypt op ctx done tried
    refine ⟨?_, attempt_of_answered, hsettled.attempt_of_crash⟩
    rw [hoverflows]
    exact hsettled.attempt_eq_none_iff
  · intro hrange
    rw [hoverflows, Nat.not_le] at hrange
    exact hnew.after_eq_afterFreely hrange
  · intro hbeyond
    rw [hoverflows] at hbeyond
    have hunloaded : m.unit.isLoaded = false := hnew.unloaded_after hbeyond rfl history
    have hle : start ≤ m.now := Moment.now_le_now_after plugin interval new history
    have hlater : clockEnd ≤ m.now + interval := by omega
    refine ⟨hunloaded, fun source decrypt op => ⟨?_, ?_⟩⟩
    · exact hsettled.attempt_ne_ok hlater
    · rintro hopen ⟨record, text, phrase, hadmits⟩
      have hcrash := attempt_of_admits_of_beyond hopen (keychain_eq_none hunloaded) hadmits
        hlater op
      exact congrArg Prod.fst hcrash

end PoolUnit

end Keyring
