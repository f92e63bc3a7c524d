import Mathlib.Logic.Relation
import Keyring.Proofs.Pool.IdleTime

/-!
# The watchdog of a unit

A host lets time pass for its units in one go: whoever is idle by then is unloaded.  Behind
this there is a watchdog for each unit.  It looks at the deadline, waits until then, and asks
the unit to unload itself if it is idle; without a deadline it waits until it is called.
Whoever sets the deadline calls it afterwards.  A call that finds nobody waiting is kept, but
only one, and it may be older than the deadline that was looked at.  Callers and watchdog take
turns in any order: the deadline may be set between the look and the wait, or while the unit
is about to be checked, and time passes between any two steps.

`Attended` is what keeps a deadline from being overlooked: while the watchdog waits for
anything else than the present deadline, a call has come, or is kept, or is still owed.
`Guarded` puts a unit and its watchdog together.  Callers have the unit for themselves, but
not its watchdog; with `Attended` an idle unit is unloaded after a few moves of the watchdog,
whichever they are (`no_wake_up_is_lost`).
-/

namespace Keyring

/-! ## The timer and its watchdog -/

/-- What a caller does to the timer of a unit.  Starting the idle time anew is two things:
setting the deadline and calling the watchdog. -/
inductive TimerCall
  | set (start : Nat)
  | notify
  | disarm
  | cancel

/-- The timer of a unit, as far as it is in the hands of callers. -/
structure Timer where
  deadline : Option Nat := none
  /-- How many callers have set the deadline and not called yet. -/
  owed : Nat := 0
  cancelled : Bool := false

/-- The timer after a caller did something to it. -/
def Timer.after (interval : Nat) (t : Timer) : TimerCall → Timer
  | .set start => { t with deadline := some (start + interval), owed := t.owed + 1 }
  | .notify => { t with owed := t.owed - 1 }
  | .disarm => { t with deadline := none }
  | .cancel => { t with cancelled := true }

namespace Watch

/-- What the watchdog is doing. -/
inductive Phase
  | looking
  /-- It has seen a deadline, or that there is none, and goes to wait. -/
  | bound (seen : Option Nat)
  /-- It waits until then, or until it is called; a call may have come already. -/
  | parked (seen : Option Nat) (called : Bool)
  /-- It asks the unit to unload itself if it is idle. -/
  | unloading
  | gone

/-- A label says whether a step is that of a caller or of the watchdog.  When it checks the
unit, the watchdog waits for its turn to use it like any caller. -/
inductive Label
  | call (c : TimerCall)
  | move
  | check
  | elapse (span : Nat)

/-- What a caller did, if it was a caller. -/
def Label.call? : Label → Option TimerCall
  | .call c => some c
  | _ => none

end Watch

/-- The timer of a unit and its watchdog. -/
structure Watch extends Timer where
  /-- Whether a call is kept for the watchdog. -/
  permit : Bool := false
  phase : Watch.Phase := .looking
  now : Nat

namespace Watch

/-- The watchdog is called: if it waits it notices, otherwise the call is kept. -/
def notified (w : Watch) : Watch :=
  match w.phase with
  | .parked seen false => { w with phase := .parked seen true }
  | _ => { w with permit := true }

/-- One step of a caller, of the watchdog, or of the clock. -/
inductive Step (interval : Nat) : Watch → Label → Watch → Prop
  | set {w : Watch} {start : Nat} (hstart : start ≤ w.now) :
      Step interval w (.call (.set start)) { w with toTimer := w.after interval (.set start) }
  | notify {w : Watch} (howed : 0 < w.owed) :
      Step interval w (.call .notify)
        { w.notified with toTimer := w.after interval .notify }
  | disarm {w : Watch} :
      Step interval w (.call .disarm) { w with toTimer := w.after interval .disarm }
  | cancel {w : Watch} :
      Step interval w (.call .cancel) { w with toTimer := w.after interval .cancel }
  | look {w : Watch} (hphase : w.phase = .looking) :
      Step interval w .move { w with phase := .bound w.deadline }
  -- Of a kept call and a deadline that has come, either may be noticed first.
  | take {w : Watch} {seen : Option Nat} (hphase : w.phase = .bound seen)
      (hpermit : w.permit = true) :
      Step interval w .move { w with permit := false, phase := .looking }
  | park {w : Watch} {seen : Option Nat} (hphase : w.phase = .bound seen)
      (hpermit : w.permit = false) :
      Step interval w .move { w with phase := .parked seen false }
  | wake {w : Watch} {seen : Option Nat} (hphase : w.phase = .parked seen true) :
      Step interval w .move { w with phase := .looking }
  | expire {w : Watch} {d : Nat} (hphase : w.phase = .bound (some d)) (hdue : d ≤ w.now) :
      Step interval w .move { w with phase := .unloading }
  -- A call that came while it waited is kept for the next time.
  | expireParked {w : Watch} {d : Nat} {called : Bool}
      (hphase : w.phase = .parked (some d) called) (hdue : d ≤ w.now) :
      Step interval w .move { w with phase := .unloading, permit := w.permit || called }
  -- The deadline that counts is the present one, not the one that was waited for.
  | check {w : Watch} (hphase : w.phase = .unloading) :
      Step interval w .check
        { w with phase := .looking, deadline := w.deadline.filter (w.now < ·) }
  | leave {w : Watch} (hcancelled : w.cancelled = true) :
      Step interval w .move { w with phase := .gone }
  | elapse {w : Watch} {span : Nat} :
      Step interval w (.elapse span) { w with now := w.now + span }

/-- Steps one after the other. -/
inductive Run (interval : Nat) : Watch → List Label → Watch → Prop
  | nil {w : Watch} : Run interval w [] w
  | cons {w w' later : Watch} {label : Label} {labels : List Label}
      (hstep : Step interval w label w') (hrest : Run interval w' labels later) :
      Run interval w (label :: labels) later

/-- In a whole row of steps, whoever sets the deadline calls at once. -/
inductive Whole : List Label → Prop
  | nil : Whole []
  | reset {labels : List Label} (start : Nat) (hrest : Whole labels) :
      Whole (.call (.set start) :: .call .notify :: labels)
  | other {labels : List Label} {label : Label} (hset : ∀ start, label ≠ .call (.set start))
      (hnotify : label ≠ .call .notify) (hrest : Whole labels) : Whole (label :: labels)

/-- A watchdog that has just been started. -/
def begin (now : Nat) : Watch :=
  { now }

variable {interval : Nat} {w w' : Watch} {label : Label} {labels : List Label}

/-! ## The invariant -/

/-- While the watchdog waits for anything else than the deadline, a call has come or will
come; it goes only when it is cancelled. -/
structure Attended (w : Watch) : Prop where
  bound : ∀ seen, w.phase = .bound seen → ∀ d, w.deadline = some d →
    (w.permit = true ∨ seen = some d) ∨ 0 < w.owed
  parked : ∀ seen called, w.phase = .parked seen called → ∀ d, w.deadline = some d →
    ((w.permit = true ∨ called = true) ∨ seen = some d) ∨ 0 < w.owed
  /-- A call is not kept from a watchdog that waits. -/
  silent : ∀ seen, w.phase = .parked seen false → w.permit = false
  stays : w.phase = .gone → w.cancelled = true

namespace Attended

theorem begin (now : Nat) : Attended (begin now) := by
  constructor <;> simp [Watch.begin]

theorem notify (h : Attended w) :
    Attended { w.notified with toTimer := w.after interval .notify } := by
  unfold notified
  split
  · constructor <;> simp
  · next hawake =>
      refine ⟨by simp, by simp, ?_, h.stays⟩
      intro seen hparked
      exact absurd hparked (hawake seen)

theorem elapse (h : Attended w) (span : Nat) : Attended { w with now := w.now + span } :=
  ⟨h.bound, h.parked, h.silent, h.stays⟩

/-- One step keeps the invariant. -/
theorem step (h : Attended w) (hstep : Step interval w label w') : Attended w' := by
  cases hstep with
  | set hstart => exact ⟨by simp [Timer.after], by simp [Timer.after], h.silent, h.stays⟩
  | notify howed => exact h.notify
  | disarm => exact ⟨by simp [Timer.after], by simp [Timer.after], h.silent, h.stays⟩
  | cancel => exact ⟨h.bound, h.parked, h.silent, fun _ => rfl⟩
  | look hphase => constructor <;> simp +contextual
  | take hphase hpermit => constructor <;> simp
  | park hphase hpermit =>
      -- It waits for what it has seen, and what is known of that stays true.
      refine ⟨by simp, ?_, by simp [hpermit], by simp⟩
      intro seen called hparked d hd
      obtain ⟨rfl, rfl⟩ := Phase.parked.inj hparked
      rcases h.bound _ hphase d hd with (hkept | hseen) | howed
      · exact Or.inl (Or.inl (Or.inl hkept))
      · exact Or.inl (Or.inr hseen)
      · exact Or.inr howed
  | wake hphase => constructor <;> simp
  | expire hphase hdue => constructor <;> simp
  | expireParked hphase hdue => constructor <;> simp
  | check hphase => constructor <;> simp
  | leave hcancelled => exact ⟨by simp, by simp, by simp, fun _ => hcancelled⟩
  | elapse => exact h.elapse _

/-- So does a row of steps. -/
theorem run (h : Attended w) (hrun : Run interval w labels w') : Attended w' := by
  induction hrun with
  | nil => exact h
  | cons hstep _ ih => exact ih (h.step hstep)

end Attended

/-! ## Resets in one go -/

/-- Only setting the deadline and calling change what is owed. -/
theorem Step.owed_eq (hstep : Step interval w label w')
    (hset : ∀ start, label ≠ .call (.set start)) (hnotify : label ≠ .call .notify) :
    w'.owed = w.owed := by
  cases hstep with
  | set => exact absurd rfl (hset _)
  | notify => exact absurd rfl hnotify
  | _ => rfl

theorem owed_of_whole (hwhole : Whole labels) (hrun : Run interval w labels w') :
    w'.owed = w.owed := by
  induction hwhole generalizing w with
  | nil => cases hrun; rfl
  | reset start _ ih =>
      -- What the first of the two steps owes, the second one pays.
      obtain _ | ⟨hset, hrest⟩ := hrun
      obtain _ | ⟨hnotify, hrest⟩ := hrest
      rw [ih hrest]
      cases hset
      cases hnotify
      exact Nat.add_sub_cancel w.owed 1
  | other hset hnotify _ ih =>
      obtain _ | ⟨hstep, hrest⟩ := hrun
      rw [ih hrest, hstep.owed_eq hset hnotify]

/-! ## The timer in the hands of callers -/

/-- Unless the unit is checked, the timer depends on the callers alone. -/
theorem Run.timer_eq (hrun : Run interval w labels w') (hfree : .check ∉ labels) :
    w'.toTimer = (labels.filterMap Label.call?).foldl (Timer.after interval) w.toTimer := by
  induction hrun with
  | nil => rfl
  | cons hstep _ ih =>
      rw [List.mem_cons, not_or] at hfree
      rw [ih hfree.2]
      cases hstep with
      | check => exact absurd rfl hfree.1
      | _ => rfl

/-! ## Moving on -/

/-- How many steps the watchdog takes at most until it has checked a unit that is idle.  A
call that is kept sends it back once. -/
def rank (w : Watch) : Nat :=
  match w.phase with
  | .looking => 4 + 2 * w.permit.toNat
  | .bound _ => 3 + 2 * w.permit.toNat
  | .parked _ true => 5 + 2 * w.permit.toNat
  | .parked _ false => 2
  | .unloading => 1
  | .gone => 0

theorem rank_le (w : Watch) : w.rank ≤ 7 := by
  have hpermit := Bool.toNat_le w.permit
  unfold rank
  split <;> omega

theorem Step.now_eq (hstep : Step interval w .move w') : w'.now = w.now := by
  cases hstep <;> rfl

/-- A watchdog that is not cancelled comes closer to checking the unit. -/
theorem Step.rank_lt (hstep : Step interval w .move w') (hopen : w.cancelled = false) :
    w'.rank < w.rank := by
  cases hstep with
  | look hphase => simp [rank, hphase]
  | take hphase hpermit => simp [rank, hphase, hpermit]
  | park hphase hpermit => simp [rank, hphase, hpermit]
  | wake hphase => simp [rank, hphase]
  | expire hphase =>
      simp only [rank, hphase]
      omega
  | @expireParked _ called hphase =>
      cases called with
      | true =>
          simp only [rank, hphase]
          omega
      | false => simp [rank, hphase]
  | leave hcancelled =>
      rw [hopen] at hcancelled
      cases hcancelled

theorem rank_pos (hphase : w.phase ≠ .gone) : 0 < w.rank := by
  unfold rank
  split
  case h_6 hgone => exact absurd hgone hphase
  all_goals omega

theorem Attended.phase_ne_gone (h : Attended w) (hopen : w.cancelled = false) :
    w.phase ≠ .gone := by
  intro hgone
  rw [h.stays hgone] at hopen
  cases hopen

/-- There is always something that the watchdog can do about a deadline that has come. -/
theorem Attended.exists_step (h : Attended w) {d : Nat} (harmed : w.deadline = some d)
    (hdue : d ≤ w.now) (hquiet : w.owed = 0) (hopen : w.cancelled = false) :
    (∃ w', Step interval w .move w') ∨ ∃ w', Step interval w .check w' := by
  cases hphase : w.phase with
  | looking => exact Or.inl ⟨_, .look hphase⟩
  | bound seen =>
      cases hpermit : w.permit with
      | true => exact Or.inl ⟨_, .take hphase hpermit⟩
      | false => exact Or.inl ⟨_, .park hphase hpermit⟩
  | parked seen called =>
      cases called with
      | true => exact Or.inl ⟨_, .wake hphase⟩
      | false =>
          -- Nobody has called, so it waits for this very deadline.
          have hseen : seen = some d := by
            simpa [h.silent seen hphase, hquiet] using h.parked seen false hphase d harmed
          rw [hseen] at hphase
          exact Or.inl ⟨_, .expireParked hphase hdue⟩
  | unloading => exact Or.inr ⟨_, .check hphase⟩
  | gone => exact absurd hphase (h.phase_ne_gone hopen)

end Watch

/-- Starting the idle time anew. -/
def TimerCall.reset (start : Nat) : List TimerCall :=
  [.set start, .notify]

/-- Of several resets the last one counts. -/
theorem Timer.foldl_resets (interval : Nat) (t : Timer) (starts : List Nat) :
    (starts.flatMap TimerCall.reset).foldl (Timer.after interval) t =
      { t with deadline := (starts.getLast?.map (· + interval)).or t.deadline } := by
  induction starts using List.reverseRecOn with
  | nil => rfl
  | append_singleton starts start ih =>
      rw [List.flatMap_append, List.foldl_append, ih, List.getLast?_concat]
      rfl

/-! ## A unit and its watchdog -/

namespace PoolUnit

/-- What a caller does to the timer while it has the unit for itself, and what becomes of the
unit.  An operation starts the idle time anew when it loads the unit and when it succeeds; one
that crashes does not get that far. -/
inductive Turn (plugin : Plugin) (interval : Nat) (u : PoolUnit) :
    List TimerCall → PoolUnit → Prop
  | operate (source : RecordSource) (decrypt : Bytes → Except WalletError Bytes)
      (op : Keychain.Operation) (starts : List Nat) (last : Nat)
      (hcount : starts.length =
        ((Moment.mk u last).loads plugin interval (.operate source decrypt op)).toNat +
          ((Moment.mk u last).succeeds plugin interval (.operate source decrypt op)).toNat)
      (hlast : ∀ start ∈ starts.getLast?, start = last) :
      Turn plugin interval u (starts.flatMap TimerCall.reset)
        (u.attempt ⟨plugin, decrypt, interval⟩ source last op).2
  | unload : Turn plugin interval u [.disarm] u.unload.2
  | shutdown : Turn plugin interval u [.disarm, .cancel] u.shutdown

/-- The timer of a unit that nobody is using. -/
def timer (u : PoolUnit) : Timer :=
  { deadline := u.deadline, cancelled := u.isClosed }

variable {plugin : Plugin} {interval : Nat} {u u' : PoolUnit} {wallet mnemonic : Uuid}

/-- An operation that neither loads the unit nor succeeds leaves the deadline. -/
theorem operate_deadline_of_quiet {ctx : PoolContext} {source : RecordSource} {now : Nat}
    {op : Keychain.Operation}
    (hloads : (!u.isLoaded && (u.operate ctx source now op).2.isLoaded) = false)
    (hfails : (u.operate ctx source now op).1.isOk = false) :
    (u.operate ctx source now op).2.deadline = u.deadline := by
  rcases operate_cases ctx source now op u with ⟨-, hresult⟩ | ⟨-, k, -, hresult⟩ |
    ⟨-, -, e, -, hresult⟩ | ⟨-, hunloaded, k, -, hresult⟩
  · rw [hresult]
  · rw [hresult, run_eq] at hfails ⊢
    simp only at hfails
    simp [hfails]
  · rw [hresult, note_deadline]
  · simp [hresult, isLoaded, hunloaded] at hloads

theorem attempt_deadline_of_quiet {ctx : PoolContext} {source : RecordSource} {now : Nat}
    {op : Keychain.Operation}
    (hloads : (!u.isLoaded && (u.attempt ctx source now op).2.isLoaded) = false)
    (hfails : (u.attempt ctx source now op).1.any (·.isOk) = false) :
    (u.attempt ctx source now op).2.deadline = u.deadline := by
  cases htold : (u.operate ctx source now op).2.isTold with
  | true =>
      rw [attempt_of_told htold] at hloads hfails ⊢
      exact operate_deadline_of_quiet hloads hfails
  | false =>
      rw [attempt_of_untold htold]
      rfl

/-- Checking the unit takes away a deadline that has come. -/
theorem timer_unloadIfIdle (u : PoolUnit) (now : Nat) :
    (u.unloadIfIdle now).2.timer =
      { u.timer with deadline := u.timer.deadline.filter (now < ·) } := by
  cases harmed : u.deadline with
  | none => simp [unloadIfIdle, timer, harmed]
  | some d =>
      by_cases hdue : d ≤ now
      · simp [unloadIfIdle, timer, harmed, hdue, unload, Option.filter]
      · simp [unloadIfIdle, timer, harmed, hdue, Option.filter]

namespace Turn

theorem settled {calls : List TimerCall} (hturn : Turn plugin interval u calls u')
    (h : Settled wallet mnemonic u) : Settled wallet mnemonic u' := by
  cases hturn with
  | operate source decrypt op starts last => exact h.attempt _ source last op
  | unload => exact h.unload
  | shutdown => exact h.shutdown

/-- What a caller does to the timer fits what becomes of the unit. -/
theorem timer_eq {calls : List TimerCall} (hturn : Turn plugin interval u calls u') :
    calls.foldl (Timer.after interval) u.timer = u'.timer := by
  cases hturn with
  | operate source decrypt op starts last hcount hlast =>
      rw [Timer.foldl_resets]
      simp only [timer, attempt_isClosed, Timer.mk.injEq, and_true]
      by_cases hactive :
          (Moment.mk u last).loads plugin interval (.operate source decrypt op) = true ∨
            (Moment.mk u last).succeeds plugin interval (.operate source decrypt op) = true
      · obtain ⟨-, -, hdeadline⟩ := step_of_active hactive
        cases hgetLast : starts.getLast? with
        | none =>
            -- An active operation starts the idle time anew at least once.
            rw [List.getLast?_eq_none_iff.mp hgetLast, List.length_nil] at hcount
            rcases hactive with hloads | hsucceeds
            · rw [hloads, Bool.toNat_true] at hcount
              omega
            · rw [hsucceeds, Bool.toNat_true] at hcount
              omega
        | some start =>
            rw [hlast start hgetLast]
            exact hdeadline.symm
      · rw [not_or, Bool.not_eq_true, Bool.not_eq_true] at hactive
        rw [hactive.1, hactive.2] at hcount
        rw [List.length_eq_zero_iff.mp hcount]
        exact (attempt_deadline_of_quiet hactive.1 hactive.2).symm
  | unload => rfl
  | shutdown => rfl

end Turn

end PoolUnit

open PoolUnit (Settled Turn)

/-- A unit and its watchdog. -/
structure Guarded where
  unit : PoolUnit
  watch : Watch

namespace Guarded

/-- A new unit for a mnemonic of a wallet, and its watchdog. -/
def begin (wallet mnemonic : Uuid) (now : Nat) : Guarded :=
  ⟨{ wallet, mnemonic }, .begin now⟩

/-- Time passes. -/
def later (g : Guarded) (span : Nat) : Guarded :=
  { g with watch := { g.watch with now := g.watch.now + span } }

/-- One step of the watchdog. -/
inductive Own (interval : Nat) : Guarded → Guarded → Prop
  | move {g : Guarded} {w' : Watch} (hstep : Watch.Step interval g.watch .move w') :
      Own interval g { g with watch := w' }
  | check {g : Guarded} {w' : Watch} (hstep : Watch.Step interval g.watch .check w') :
      Own interval g ⟨(g.unit.unloadIfIdle g.watch.now).2, w'⟩

/-- What may happen between two moments at which nobody uses the unit.  While a caller has it
for itself, the watchdog goes on, but for checking the unit, and time passes. -/
inductive Step (plugin : Plugin) (interval : Nat) : Guarded → Guarded → Prop
  | turn {g : Guarded} {calls : List TimerCall} {u' : PoolUnit} {labels : List Watch.Label}
      {w' : Watch} (hturn : Turn plugin interval g.unit calls u')
      (hrun : Watch.Run interval g.watch labels w')
      (hcalls : labels.filterMap Watch.Label.call? = calls) (hfree : .check ∉ labels) :
      Step plugin interval g ⟨u', w'⟩
  | own {g g' : Guarded} (hown : Own interval g g') : Step plugin interval g g'
  | elapse {g : Guarded} (span : Nat) : Step plugin interval g (g.later span)

/-- The unit is unloaded after so many steps of the watchdog at most, whichever they are and
however long they take, if nobody uses it meanwhile. -/
def unloadsWithin (interval : Nat) : Nat → Guarded → Prop
  | 0, g => g.unit.isLoaded = false
  | n + 1, g => g.unit.isLoaded = false ∨ ∀ span,
      (∃ g', Own interval (g.later span) g') ∧
        ∀ g', Own interval (g.later span) g' → unloadsWithin interval n g'

variable {plugin : Plugin} {interval : Nat} {g g' : Guarded} {wallet mnemonic : Uuid}

/-! ### The invariant -/

/-- The unit and its timer fit together, and the watchdog overlooks no deadline. -/
structure Sound (wallet mnemonic : Uuid) (g : Guarded) : Prop where
  settled : Settled wallet mnemonic g.unit
  timer_eq : g.watch.toTimer = g.unit.timer
  attended : g.watch.Attended

namespace Sound

theorem begin (wallet mnemonic : Uuid) (now : Nat) :
    Sound wallet mnemonic (begin wallet mnemonic now) :=
  ⟨.begin wallet mnemonic, rfl, .begin now⟩

theorem own (h : Sound wallet mnemonic g) (hown : Own interval g g') :
    Sound wallet mnemonic g' := by
  cases hown with
  | move hstep =>
      refine ⟨h.settled, ?_, h.attended.step hstep⟩
      rw [← h.timer_eq]
      cases hstep <;> rfl
  | check hstep =>
      refine ⟨h.settled.unloadIfIdle _, ?_, h.attended.step hstep⟩
      rw [PoolUnit.timer_unloadIfIdle, ← h.timer_eq]
      cases hstep
      rfl

/-- One step keeps the invariant. -/
theorem step (h : Sound wallet mnemonic g) (hstep : Step plugin interval g g') :
    Sound wallet mnemonic g' := by
  cases hstep with
  | @turn calls u' labels w' hturn hrun hcalls hfree =>
      refine ⟨hturn.settled h.settled, ?_, h.attended.run hrun⟩
      calc
        w'.toTimer = (labels.filterMap Watch.Label.call?).foldl (Timer.after interval)
            g.watch.toTimer := hrun.timer_eq hfree
        _ = calls.foldl (Timer.after interval) g.unit.timer := by rw [hcalls, h.timer_eq]
        _ = u'.timer := hturn.timer_eq
  | own hown => exact h.own hown
  | elapse span => exact ⟨h.settled, h.timer_eq, h.attended.elapse span⟩

/-- So do all of them. -/
theorem reachable (h : Sound wallet mnemonic g)
    (hreach : Relation.ReflTransGen (Step plugin interval) g g') : Sound wallet mnemonic g' := by
  induction hreach with
  | refl => exact h
  | tail _ hstep ih => exact ih.step hstep

/-- A loaded unit is open, and its deadline is known to the watchdog. -/
theorem of_loaded (h : Sound wallet mnemonic g) (hloaded : g.unit.isLoaded = true) :
    g.unit.isClosed = false ∧ g.watch.cancelled = false ∧
      ∃ d, g.unit.deadline = some d ∧ g.watch.deadline = some d := by
  have hopen := h.settled.open_of_loaded hloaded
  have harmed := h.settled.armed_iff
  rw [← PoolUnit.isLoaded, hloaded] at harmed
  obtain ⟨d, hd⟩ := Option.isSome_iff_exists.mp harmed
  refine ⟨hopen, ?_, d, hd, ?_⟩
  · rw [h.timer_eq]
    exact hopen
  · rw [h.timer_eq]
    exact hd

theorem owed_eq_zero (h : Sound wallet mnemonic g) : g.watch.owed = 0 := by
  rw [h.timer_eq]
  rfl

/-- The watchdog of an idle unit can go on. -/
theorem exists_own (h : Sound wallet mnemonic g) (hdue : g.unit.Due g.watch.now) :
    ∃ g', Own interval g g' := by
  obtain ⟨-, hopen, d, hd, hwatched⟩ := h.of_loaded (h.settled.isLoaded_of_due hdue)
  obtain ⟨deadline, harmed, hpast⟩ := hdue
  rw [hd, Option.some.injEq] at harmed
  subst harmed
  rcases h.attended.exists_step hwatched hpast h.owed_eq_zero hopen with
    ⟨w', hmove⟩ | ⟨w', hcheck⟩
  · exact ⟨_, .move hmove⟩
  · exact ⟨_, .check hcheck⟩

end Sound

theorem unloadsWithin_of_unloaded (hunloaded : g.unit.isLoaded = false) (n : Nat) :
    unloadsWithin interval n g := by
  cases n with
  | zero => exact hunloaded
  | succ n => exact Or.inl hunloaded

/-- The watchdog of an idle unit has to unload it. -/
theorem Sound.unloadsWithin (h : Sound wallet mnemonic g) (hdue : g.unit.Due g.watch.now)
    {n : Nat} (hrank : g.watch.rank ≤ n) : unloadsWithin interval n g := by
  have hopen := (h.of_loaded (h.settled.isLoaded_of_due hdue)).2.1
  induction n generalizing g with
  | zero =>
      -- Only a watchdog that is gone has no steps left.
      have hpos := Watch.rank_pos (h.attended.phase_ne_gone hopen)
      omega
  | succ n ih =>
      right
      intro span
      have hlater : Sound wallet mnemonic (g.later span) :=
        ⟨h.settled, h.timer_eq, h.attended.elapse span⟩
      have hpast : (g.later span).unit.Due (g.later span).watch.now :=
        hdue.mono (Nat.le_add_right g.watch.now span)
      refine ⟨hlater.exists_own hpast, ?_⟩
      intro g' hown
      have hsound := hlater.own hown
      cases hown with
      | move hstep =>
          -- The unit is as idle as before, and the check is closer.
          have hlt := hstep.rank_lt hopen
          have hcloser := Nat.le_of_lt_succ (Nat.lt_of_lt_of_le hlt hrank)
          refine ih hsound ?_ hcloser ?_
          · rw [hstep.now_eq]
            exact hpast
          · exact (hsound.of_loaded (h.settled.isLoaded_of_due hdue)).2.1
      | check hstep =>
          refine unloadsWithin_of_unloaded ?_ n
          rw [PoolUnit.unloadIfIdle_of_due hpast]
          rfl

/-! ## Main statement -/

/-- **No deadline is overlooked.**  Whatever the callers of a unit, its watchdog and the clock
do, in any order of their steps,

* if each caller that sets the deadline calls at once, the watchdog waits for no other instant
  than the present deadline unless a call has come or is kept for it,
* if others get in between the setting and the calling, the same is true except while a caller
  still owes its call,
* whenever nobody uses the unit and it is loaded, it is open, its watchdog is there, and its
  deadline is the one of the timer: if the watchdog waits, it waits for this instant unless
  a call has come or is kept for it,
* a unit whose deadline has come is unloaded after seven steps of the watchdog at most,
  whichever they are and however long they take, if nobody uses it meanwhile. -/
theorem no_wake_up_is_lost (plugin : Plugin) (interval : Nat) (wallet mnemonic : Uuid)
    (start : Nat) :
    (∀ labels w, Watch.Whole labels → Watch.Run interval (.begin start) labels w →
      ∀ d seen called, w.deadline = some d → w.phase = .parked seen called →
        (w.permit = true ∨ called = true) ∨ seen = some d) ∧
    (∀ labels w, Watch.Run interval (.begin start) labels w →
      ∀ d seen called, w.deadline = some d → w.phase = .parked seen called →
        ((w.permit = true ∨ called = true) ∨ seen = some d) ∨ 0 < w.owed) ∧
    (∀ g, Relation.ReflTransGen (Step plugin interval) (begin wallet mnemonic start) g →
      g.unit.isLoaded = true →
        g.unit.isClosed = false ∧ g.watch.phase ≠ .gone ∧
          ∃ d, g.unit.deadline = some d ∧ g.watch.deadline = some d ∧
            ∀ seen called, g.watch.phase = .parked seen called →
              (g.watch.permit = true ∨ called = true) ∨ seen = some d) ∧
    ∀ g, Relation.ReflTransGen (Step plugin interval) (begin wallet mnemonic start) g →
      g.unit.Due g.watch.now → unloadsWithin interval 7 g := by
  refine ⟨?_, ?_, ?_, ?_⟩
  · intro labels w hwhole hrun d seen called hd hparked
    have hquiet : w.owed = 0 := Watch.owed_of_whole hwhole hrun
    rcases ((Watch.Attended.begin start).run hrun).parked seen called hparked d hd with
      hseen | howed
    · exact hseen
    · omega
  · intro labels w hrun d seen called hd hparked
    exact ((Watch.Attended.begin start).run hrun).parked seen called hparked d hd
  · intro g hreach hloaded
    have hsound := (Sound.begin wallet mnemonic start).reachable hreach
    obtain ⟨hopen, hgoes, d, hd, hwatched⟩ := hsound.of_loaded hloaded
    refine ⟨hopen, hsound.attended.phase_ne_gone hgoes, d, hd, hwatched, ?_⟩
    intro seen called hparked
    rcases hsound.attended.parked seen called hparked d hwatched with hseen | howed
    · exact hseen
    · rw [hsound.owed_eq_zero] at howed
      cases howed
  · intro g hreach hdue
    have hsound := (Sound.begin wallet mnemonic start).reachable hreach
    exact hsound.unloadsWithin hdue g.watch.rank_le

end Guarded

end Keyring
