import Mathlib.Data.List.Induction
import Keyring.Pool.Schedule
import Keyring.Proofs.Pool.Lifecycle

/-!
# How long a unit stays loaded

A unit is idle from its deadline on.  The deadline is set in two places, when a keychain is
fetched and when an operation succeeds, and taken away with the keychain.  So it can be
told from the history alone: `Moment.loadings` and `Moment.successes` are the instants at
which a history loaded the unit and at which its operations succeeded, and a loaded unit
becomes idle one interval after the later of the last two (`Timed`).

The watchdog looks at the clock and at the deadline and at nothing else.  Once it has
unloaded a unit it finds no deadline any more, which is why it does not matter how often it
looks while time passes (`after_watched_watched`).
-/

namespace Keyring

namespace PoolUnit

/-! ## The watchdog -/

/-- The unit has a deadline, and it has come. -/
def Due (u : PoolUnit) (now : Nat) : Prop :=
  ∃ deadline, u.deadline = some deadline ∧ deadline ≤ now

section Watchdog

variable {u : PoolUnit} {now later : Nat}

theorem Due.mono (h : u.Due now) (hle : now ≤ later) : u.Due later := by
  obtain ⟨deadline, harmed, hpast⟩ := h
  exact ⟨deadline, harmed, Nat.le_trans hpast hle⟩

theorem not_due_unload (u : PoolUnit) (now : Nat) : ¬ u.unload.2.Due now := by
  rintro ⟨deadline, harmed, -⟩
  cases harmed

theorem unloadIfIdle_of_due (h : u.Due now) : u.unloadIfIdle now = u.unload := by
  obtain ⟨deadline, harmed, hpast⟩ := h
  simp only [unloadIfIdle, harmed, if_pos hpast]

theorem unloadIfIdle_of_not_due (h : ¬ u.Due now) : u.unloadIfIdle now = (false, u) := by
  unfold unloadIfIdle
  split
  · next deadline harmed =>
      have hfuture : ¬ deadline ≤ now := fun hpast => h ⟨deadline, harmed, hpast⟩
      rw [if_neg hfuture]
  · rfl

/-- The watchdog may look at a unit before: the later look decides. -/
theorem unloadIfIdle_unloadIfIdle (u : PoolUnit) (hle : now ≤ later) :
    ((u.unloadIfIdle now).2.unloadIfIdle later).2 = (u.unloadIfIdle later).2 := by
  by_cases hdue : u.Due now
  · rw [unloadIfIdle_of_due hdue, unloadIfIdle_of_not_due (not_due_unload u later),
      unloadIfIdle_of_due (hdue.mono hle)]
  · rw [unloadIfIdle_of_not_due hdue]

end Watchdog

namespace Settled

variable {wallet mnemonic : Uuid} {u : PoolUnit}

theorem isLoaded_of_due (h : Settled wallet mnemonic u) {now : Nat} (hdue : u.Due now) :
    u.isLoaded = true := by
  obtain ⟨deadline, harmed, -⟩ := hdue
  rw [isLoaded, ← h.armed_iff, harmed]
  rfl

/-- The watchdog unloads the units that are due, and no others. -/
theorem unloadIfIdle_fst_iff (h : Settled wallet mnemonic u) (now : Nat) :
    (u.unloadIfIdle now).1 = true ↔ u.Due now := by
  constructor
  · intro hunloads
    by_contra hdue
    rw [unloadIfIdle_of_not_due hdue] at hunloads
    cases hunloads
  · intro hdue
    rw [unloadIfIdle_of_due hdue]
    exact h.isLoaded_of_due hdue

end Settled

/-! ## Failed operations -/

section Failed

variable {u : PoolUnit} {ctx : PoolContext} {source : RecordSource} {now : Nat}
  {op : Keychain.Operation}

/-- No operation unloads a unit. -/
theorem isLoaded_operate_of_loaded (hloaded : u.isLoaded = true) :
    (u.operate ctx source now op).2.isLoaded = true := by
  rcases operate_cases ctx source now op u with ⟨-, hresult⟩ | ⟨-, k, -, hresult⟩ |
    ⟨-, hunloaded, -⟩ | ⟨-, hunloaded, -⟩
  · rw [hresult]
    exact hloaded
  · rw [hresult, run_eq]
    rfl
  all_goals
    rw [isLoaded, hunloaded] at hloaded
    cases hloaded

/-- An operation that fails does not move the deadline of a loaded unit. -/
theorem deadline_operate_of_error (hloaded : u.isLoaded = true) {e : WalletError}
    (hfails : (u.operate ctx source now op).1 = .error e) :
    (u.operate ctx source now op).2.deadline = u.deadline := by
  rcases operate_cases ctx source now op u with ⟨-, hresult⟩ | ⟨-, k, -, hresult⟩ |
    ⟨-, hunloaded, -⟩ | ⟨-, hunloaded, -⟩
  · rw [hresult]
  · rw [hresult, run_eq] at hfails ⊢
    simp only at hfails
    simp [hfails, Except.isOk, Except.toBool]
  all_goals
    rw [isLoaded, hunloaded] at hloaded
    cases hloaded

/-- Nor does one that crashes, so neither of them unloads the unit or moves its deadline. -/
theorem attempt_of_loaded_of_not_ok (hloaded : u.isLoaded = true)
    (hfails : ∀ answer, (u.attempt ctx source now op).1 ≠ some (.ok answer)) :
    (u.attempt ctx source now op).2.isLoaded = true ∧
      (u.attempt ctx source now op).2.deadline = u.deadline := by
  have hstays : (u.operate ctx source now op).2.isLoaded = true :=
    isLoaded_operate_of_loaded hloaded
  cases htold : (u.operate ctx source now op).2.isTold with
  | true =>
      rw [attempt_of_told htold] at hfails ⊢
      refine ⟨hstays, ?_⟩
      cases hanswer : (u.operate ctx source now op).1 with
      | ok answer => exact absurd (congrArg some hanswer) (hfails answer)
      | error e => exact deadline_operate_of_error hloaded hanswer
  | false =>
      rw [attempt_of_untold htold]
      refine ⟨?_, rfl⟩
      rw [interrupted, if_pos hloaded]
      exact hstays

end Failed

end PoolUnit

/-! ## Time in pieces -/

/-- If two spans one after the other are one longer span, so are any number of them. -/
theorem foldl_spans {State : Type} {pass : State → Nat → State}
    (h : ∀ s first second, pass (pass s first) second = pass s (first + second))
    (s : State) (first : Nat) (rest : List Nat) :
    rest.foldl pass (pass s first) = pass s (rest.foldl (· + ·) first) := by
  induction rest generalizing first with
  | nil => rfl
  | cons second rest ih => rw [List.foldl_cons, List.foldl_cons, h, ih]

namespace Host

theorem advance_advance (h : Host) (first second : Nat) :
    (h.advance first).advance second = h.advance (first + second) := by
  have hle := Nat.le_add_right (h.now + first) second
  simp only [advance, List.map_map, ← Nat.add_assoc, Host.mk.injEq, true_and, and_true]
  exact List.map_congr_left fun u _ => u.unloadIfIdle_unloadIfIdle hle

end Host

namespace PoolUnit

namespace Moment

section Runs

variable (plugin : Plugin) (interval : Nat)

/-- Time passes, and the watchdog looks at the unit. -/
def watched (span : Nat) : List Event :=
  [.elapse span, .unloadIfIdle]

theorem after_watched_watched (m : Moment) (first second : Nat) :
    (m.after plugin interval (watched first)).after plugin interval (watched second) =
      m.after plugin interval (watched (first + second)) := by
  have hlater := unloadIfIdle_unloadIfIdle m.unit (Nat.le_add_right (m.now + first) second)
  rw [Nat.add_assoc] at hlater
  simp only [watched, after_cons, after_nil, step, Nat.add_assoc, hlater]

/-! ## What a history did, and when -/

/-- Whether an event loads the unit. -/
def loads (m : Moment) (event : Event) : Bool :=
  !m.unit.isLoaded && (m.step plugin interval event).unit.isLoaded

/-- Whether an event is an operation that succeeds. -/
def succeeds (m : Moment) : Event → Bool
  | .operate source decrypt op =>
    (m.unit.attempt ⟨plugin, decrypt, interval⟩ source m.now op).1.any (·.isOk)
  | _ => false

/-- The instant of something, if it happened. -/
def stamp (m : Moment) (happened : Bool) : List Nat :=
  if happened then [m.now] else []

/-- The instants of a history at which something was seen to happen, the oldest first. -/
def instants (seen : Moment → Event → Bool) (m : Moment) : List Event → List Nat
  | [] => []
  | event :: history =>
    m.stamp (seen m event) ++ instants seen (m.step plugin interval event) history

/-- The instants at which a history loaded the unit. -/
def loadings (m : Moment) (history : List Event) : List Nat :=
  m.instants plugin interval (loads plugin interval) history

/-- The instants at which the operations of a history succeeded. -/
def successes (m : Moment) (history : List Event) : List Nat :=
  m.instants plugin interval (succeeds plugin interval) history

theorem after_append (m : Moment) (history later : List Event) :
    m.after plugin interval (history ++ later) =
      (m.after plugin interval history).after plugin interval later :=
  List.foldl_append

theorem instants_concat (seen : Moment → Event → Bool) (m : Moment) (history : List Event)
    (event : Event) :
    m.instants plugin interval seen (history ++ [event]) =
      m.instants plugin interval seen history ++
        (m.after plugin interval history).stamp
          (seen (m.after plugin interval history) event) := by
  induction history generalizing m with
  | nil => exact List.append_nil _
  | cons first history ih =>
      simp only [List.cons_append, instants, ih, after_cons, List.append_assoc]

theorem now_le_now_step (m : Moment) (event : Event) :
    m.now ≤ (m.step plugin interval event).now := by
  cases event with
  | elapse span => exact Nat.le_add_right m.now span
  | operate source decrypt op => exact Nat.le_refl m.now
  | unload => exact Nat.le_refl m.now
  | unloadIfIdle => exact Nat.le_refl m.now
  | shutdown => exact Nat.le_refl m.now

end Runs

end Moment

/-! ## Active and quiet events -/

section Activity

variable {plugin : Plugin} {interval : Nat} {m : Moment} {event : Event}

/-- An event that loads the unit or succeeds leaves it loaded, and its time starts anew. -/
theorem step_of_active
    (h : m.loads plugin interval event = true ∨ m.succeeds plugin interval event = true) :
    (m.step plugin interval event).now = m.now ∧
      (m.step plugin interval event).unit.isLoaded = true ∧
      (m.step plugin interval event).unit.deadline = some (m.now + interval) := by
  cases event with
  | operate source decrypt op =>
      simp only [Moment.loads, Moment.succeeds, Moment.step] at h ⊢
      cases htold : (m.unit.operate ⟨plugin, decrypt, interval⟩ source m.now op).2.isTold with
      | false =>
          -- A crash neither loads a unit nor succeeds.
          rw [attempt_of_untold htold] at h
          cases hbefore : m.unit.isLoaded with
          | true => simp [hbefore] at h
          | false => simp [isLoaded_interrupted hbefore] at h
      | true =>
          rw [attempt_of_told htold] at h ⊢
          rcases operate_cases ⟨plugin, decrypt, interval⟩ source m.now op m.unit with
            ⟨-, hresult⟩ | ⟨-, k, hloaded, hresult⟩ | ⟨-, hunloaded, e, -, hresult⟩ |
            ⟨-, -, k, -, hresult⟩
          · simp [hresult, Except.isOk, Except.toBool] at h
          · rw [hresult, run_eq] at h ⊢
            have hsucceeds : (k.perform op).1.isOk = true := by simpa [isLoaded, hloaded] using h
            exact ⟨trivial, rfl, if_pos hsucceeds⟩
          · simp [hresult, isLoaded, hunloaded, Except.isOk, Except.toBool] at h
          · rw [hresult]
            exact ⟨trivial, rfl, rfl⟩
  | unload => simp [Moment.loads, Moment.succeeds, Moment.step, isLoaded, unload] at h
  | unloadIfIdle =>
      simp only [Moment.loads, Moment.succeeds, Moment.step] at h
      rcases unloadIfIdle_cases m.unit m.now with hunload | hsame
      · simp [hunload, isLoaded, unload] at h
      · simp [hsame] at h
  | shutdown => simp [Moment.loads, Moment.succeeds, Moment.step, isLoaded, shutdown, unload] at h
  | elapse span => simp [Moment.loads, Moment.succeeds, Moment.step] at h

/-- Any other event unloads the unit or leaves its deadline alone. -/
theorem step_of_quiet (hloads : m.loads plugin interval event = false)
    (hsucceeds : m.succeeds plugin interval event = false) :
    (m.step plugin interval event).unit.isLoaded = false ∨
      (m.step plugin interval event).unit.isLoaded = m.unit.isLoaded ∧
        (m.step plugin interval event).unit.deadline = m.unit.deadline := by
  cases event with
  | operate source decrypt op =>
      simp only [Moment.loads, Moment.succeeds, Moment.step] at hloads hsucceeds ⊢
      cases hbefore : m.unit.isLoaded with
      | false =>
          left
          simpa [hbefore] using hloads
      | true =>
          refine Or.inr (attempt_of_loaded_of_not_ok hbefore fun answer hanswer => ?_)
          rw [hanswer] at hsucceeds
          cases hsucceeds
  | unload => exact Or.inl rfl
  | unloadIfIdle =>
      simp only [Moment.step]
      rcases unloadIfIdle_cases m.unit m.now with hunload | hsame
      · rw [hunload]
        exact Or.inl rfl
      · rw [hsame]
        exact Or.inr ⟨rfl, rfl⟩
  | shutdown => exact Or.inl rfl
  | elapse span => exact Or.inr ⟨rfl, rfl⟩

end Activity

/-! ## The invariant -/

/-- The later of the last instant of loading and the last instant of success. -/
def lastActive? (loadings successes : List Nat) : Option Nat :=
  loadings.getLast?.map fun loaded => max loaded (successes.getLast?.getD loaded)

section LastActive

variable {loadings successes : List Nat} {now t : Nat}

theorem lastActive?_of_loaded (h : ∀ t ∈ successes, t ≤ now) :
    lastActive? (loadings ++ [now]) successes = some now := by
  have hlast : successes.getLast?.getD now ≤ now := by
    cases hsome : successes.getLast? with
    | none => exact Nat.le_refl now
    | some t => exact h t (List.mem_of_getLast? hsome)
  simp only [lastActive?, List.getLast?_concat, Option.map_some, Nat.max_eq_left hlast]

theorem lastActive?_of_succeeded (hpast : ∀ t ∈ loadings, t ≤ now)
    (h : lastActive? loadings successes = some t) :
    lastActive? loadings (successes ++ [now]) = some now := by
  obtain ⟨loaded, hloaded, -⟩ := Option.map_eq_some_iff.mp h
  have hle : loaded ≤ now := hpast loaded (List.mem_of_getLast? hloaded)
  simp only [lastActive?, hloaded, Option.map_some, List.getLast?_concat, Option.getD_some,
    Nat.max_eq_right hle]

end LastActive

/-- The deadline of a unit as its history tells it. -/
structure Timed (interval : Nat) (loadings successes : List Nat) (m : Moment) : Prop where
  loadings_past : ∀ t ∈ loadings, t ≤ m.now
  successes_past : ∀ t ∈ successes, t ≤ m.now
  deadline_eq : m.unit.isLoaded = true → ∃ active, lastActive? loadings successes = some active ∧
    (∀ t ∈ successes, t ≤ active) ∧ m.unit.deadline = some (active + interval)

namespace Timed

variable {plugin : Plugin} {interval : Nat} {loadings successes : List Nat} {m : Moment}

theorem begin (wallet mnemonic : Uuid) (start : Nat) :
    Timed interval [] [] (.begin wallet mnemonic start) where
  loadings_past := by simp
  successes_past := by simp
  deadline_eq := by simp [Moment.begin, isLoaded]

theorem le_now_of_mem_append_stamp {instants : List Nat} {happened : Bool}
    (hpast : ∀ t ∈ instants, t ≤ m.now) : ∀ t ∈ instants ++ m.stamp happened, t ≤ m.now := by
  intro t ht
  rcases List.mem_append.mp ht with hold | hnew
  · exact hpast t hold
  · cases happened with
    | true => exact Nat.le_of_eq (List.mem_singleton.mp hnew)
    | false => simp [Moment.stamp] at hnew

/-- An active event is the last instant of the history with it. -/
theorem lastActive?_of_active (h : Timed interval loadings successes m) {event : Event}
    (hactive : m.loads plugin interval event = true ∨ m.succeeds plugin interval event = true) :
    lastActive? (loadings ++ m.stamp (m.loads plugin interval event))
      (successes ++ m.stamp (m.succeeds plugin interval event)) = some m.now := by
  cases hloads : m.loads plugin interval event with
  | true => exact lastActive?_of_loaded (le_now_of_mem_append_stamp h.successes_past)
  | false =>
      have hsucceeds : m.succeeds plugin interval event = true := by simpa [hloads] using hactive
      have hafter := (step_of_active hactive).2.1
      -- The event did not load the unit that it leaves loaded, so it was loaded before.
      have hloaded : m.unit.isLoaded = true := by simpa [Moment.loads, hafter] using hloads
      obtain ⟨active, hlast, -⟩ := h.deadline_eq hloaded
      rw [hsucceeds, Moment.stamp, Moment.stamp, if_neg Bool.false_ne_true, if_pos rfl,
        List.append_nil]
      exact lastActive?_of_succeeded h.loadings_past hlast

/-- One event keeps the invariant. -/
theorem step (h : Timed interval loadings successes m) (event : Event) :
    Timed interval (loadings ++ m.stamp (m.loads plugin interval event))
      (successes ++ m.stamp (m.succeeds plugin interval event))
      (m.step plugin interval event) where
  loadings_past t ht :=
    Nat.le_trans (le_now_of_mem_append_stamp h.loadings_past t ht)
      (m.now_le_now_step plugin interval event)
  successes_past t ht :=
    Nat.le_trans (le_now_of_mem_append_stamp h.successes_past t ht)
      (m.now_le_now_step plugin interval event)
  deadline_eq hloaded := by
    by_cases hactive : m.loads plugin interval event = true ∨
        m.succeeds plugin interval event = true
    · obtain ⟨-, -, hdeadline⟩ := step_of_active hactive
      exact ⟨m.now, h.lastActive?_of_active hactive,
        le_now_of_mem_append_stamp h.successes_past, hdeadline⟩
    · rw [not_or, Bool.not_eq_true, Bool.not_eq_true] at hactive
      obtain ⟨hloads, hsucceeds⟩ := hactive
      rcases step_of_quiet hloads hsucceeds with hunloaded | ⟨hsame, hdeadline⟩
      · rw [hunloaded] at hloaded
        cases hloaded
      · rw [hloads, hsucceeds, hdeadline]
        simpa [Moment.stamp] using h.deadline_eq (hsame ▸ hloaded)

/-- So does a history. -/
theorem after (plugin : Plugin) (interval : Nat) (wallet mnemonic : Uuid) (start : Nat)
    (history : List Event) :
    let new := Moment.begin wallet mnemonic start
    Timed interval (new.loadings plugin interval history) (new.successes plugin interval history)
      (new.after plugin interval history) := by
  intro new
  induction history using List.reverseRecOn with
  | nil => exact begin wallet mnemonic start
  | append_singleton history event ih =>
      rw [Moment.loadings, Moment.successes, Moment.instants_concat, Moment.instants_concat,
        Moment.after_append]
      exact ih.step event

end Timed

/-! ## Main statement -/

/-- **A unit stays loaded for one interval after it was last active.**  Between any two
events of any history of a new unit, crashes among them,

* a loaded unit has a deadline, one interval after the later of the instant at which it was
  loaded and the instant of the last operation that succeeded,
* an operation that fails on a loaded unit leaves the deadline, and so does one that crashes;
  looking at a unit of a host leaves the whole host,
* the watchdog unloads the unit if and only if it has a deadline that has come: never less
  than one interval after a success, and it leaves no unit loaded whose deadline has come,
* time may pass in any number of pieces, with the watchdog looking after each of them: the
  unit, and any host, ends as if all of the time had passed at once. -/
theorem deadline_follows_activity (plugin : Plugin) (interval : Nat) (wallet mnemonic : Uuid)
    (start : Nat) (history : List Event) :
    let new := Moment.begin wallet mnemonic start
    let m := new.after plugin interval history
    (m.unit.isLoaded = true → ∃ loaded,
      (new.loadings plugin interval history).getLast? = some loaded ∧
        m.unit.deadline = some
          (max loaded ((new.successes plugin interval history).getLast?.getD loaded)
            + interval)) ∧
    (∀ ctx source now op e, m.unit.isLoaded = true →
      (m.unit.operate ctx source now op).1 = .error e →
        (m.unit.operate ctx source now op).2.deadline = m.unit.deadline) ∧
    (∀ ctx source now op, m.unit.isLoaded = true →
      (∀ answer, (m.unit.attempt ctx source now op).1 ≠ some (.ok answer)) →
        (m.unit.attempt ctx source now op).2.deadline = m.unit.deadline) ∧
    (∀ (h : Host) (id : Nat), ∀ read ∈ [UnitStep.readLoaded, .readClosed, .readCached],
      (h.step id read).2 = h) ∧
    ((m.unit.unloadIfIdle m.now).1 = true ↔
      ∃ deadline, m.unit.deadline = some deadline ∧ deadline ≤ m.now) ∧
    (∀ t ∈ new.successes plugin interval history,
      (m.unit.unloadIfIdle m.now).1 = true → t + interval ≤ m.now) ∧
    (∀ deadline, m.unit.deadline = some deadline → deadline ≤ m.now →
      (m.unit.unloadIfIdle m.now).2.isLoaded = false) ∧
    (∀ (first : Nat) (rest : List Nat),
      rest.foldl (fun m span => m.after plugin interval [.elapse span, .unloadIfIdle])
          (m.after plugin interval [.elapse first, .unloadIfIdle]) =
        m.after plugin interval [.elapse (rest.foldl (· + ·) first), .unloadIfIdle]) ∧
    (∀ (h : Host) (first : Nat) (rest : List Nat),
      rest.foldl Host.advance (h.advance first) = h.advance (rest.foldl (· + ·) first)) := by
  intro new m
  have hsettled : Settled wallet mnemonic m.unit :=
    (Settled.begin wallet mnemonic).after (m := new) plugin interval history
  have htimed := Timed.after plugin interval wallet mnemonic start history
  have hwatched := hsettled.unloadIfIdle_fst_iff m.now
  refine ⟨?_, ?_, ?_, ?_, hwatched, ?_, ?_, ?_, ?_⟩
  · intro hloaded
    obtain ⟨active, hlast, -, hdeadline⟩ := htimed.deadline_eq hloaded
    obtain ⟨loaded, hloading, rfl⟩ := Option.map_eq_some_iff.mp hlast
    exact ⟨loaded, hloading, hdeadline⟩
  · intro ctx source now op e hloaded hfails
    exact deadline_operate_of_error hloaded hfails
  · intro ctx source now op hloaded hfails
    exact (attempt_of_loaded_of_not_ok hloaded hfails).2
  · intro h id read hread
    simp only [List.mem_cons, List.not_mem_nil, or_false] at hread
    rcases hread with rfl | rfl | rfl <;> rfl
  · intro t ht hunloads
    have hdue := hwatched.mp hunloads
    obtain ⟨active, -, hcovered, hdeadline⟩ := htimed.deadline_eq (hsettled.isLoaded_of_due hdue)
    obtain ⟨deadline, harmed, hpast⟩ := hdue
    rw [hdeadline] at harmed
    cases harmed
    have hle := hcovered t ht
    omega
  · intro deadline harmed hpast
    rw [unloadIfIdle_of_due ⟨deadline, harmed, hpast⟩]
    rfl
  · intro first rest
    exact foldl_spans (Moment.after_watched_watched plugin interval) m first rest
  · intro h first rest
    exact foldl_spans Host.advance_advance h first rest

end PoolUnit

end Keyring
