import Mathlib.Data.Option.Defs
import Keyring.Proofs.Pool.Ownership
import Keyring.Proofs.Wallet.Ranges

/-!
# Which failure is heard

The workers that derive the missing paths of a request for ranges work for all wallets, so if
several paths of a request cannot be derived, it may be up to the requests of another wallet
which of the failures is heard.  `Keychain.Raced` relates the answers to one request in two races,
and `Event.Alike` the events that differ in a race alone.

Nothing but an answer depends on the races.  Down to the keychain, a request leaves the same
in every race and succeeds in all of them or in none (`perform_raced`), so a unit keeps the same
keychain and the same deadline and crashes in all of them or in none (`attempt_raced`).  Histories
that differ in their races alone leave the same host (`after_alike`).
-/

namespace Keyring

namespace Keychain

/-- Two answers of a keychain to a request for ranges: they are the same, or each of them is the
failure of a requested path that the keychain does not have and cannot derive. -/
inductive Raced (k : Keychain) (ranges : List AddressRange) :
    Except WalletError Answer → Except WalletError Answer → Prop
  | same (answer : Except WalletError Answer) : Raced k ranges answer answer
  | failed {root : KeyNode} {p p' : AddressPath} {e e' : WalletError} (hroot : k.root = some root)
      (hp : p ∈ missing k.cache (requested ranges))
      (hfails : deriveEntry k.params root p = .error e)
      (hp' : p' ∈ missing k.cache (requested ranges))
      (hfails' : deriveEntry k.params root p' = .error e') :
      Raced k ranges (.error e) (.error e')

variable {k : Keychain} {ranges : List AddressRange}

theorem Raced.isOk_eq {answer answer' : Except WalletError Answer}
    (h : k.Raced ranges answer answer') : answer'.isOk = answer.isOk := by
  cases h <;> rfl

/-- A request leaves the same keychain in every race. -/
theorem perform_raced (k : Keychain) (ranges : List AddressRange) (race race' : Nat) :
    (k.perform (.accounts ranges race')).2 = (k.perform (.accounts ranges race)).2 ∧
      k.Raced ranges (k.perform (.accounts ranges race)).1
        (k.perform (.accounts ranges race')).1 := by
  cases hcheck : checkRanges k.maxRangeSize 0 ranges with
  | error e =>
      simp only [perform, collect_of_rejected hcheck]
      exact ⟨trivial, .same _⟩
  | ok _ =>
      cases hroot : k.root with
      | none =>
          simp only [perform, collect_of_unloaded hcheck hroot]
          exact ⟨trivial, .same _⟩
      | some root =>
          by_cases hall : ∀ p ∈ requested ranges, k.Provides root p
          · obtain ⟨accounts, hcollect, -⟩ := collect_of_provided hcheck hroot hall
            simp only [perform, hcollect]
            exact ⟨trivial, .same _⟩
          · obtain ⟨p, hp, e, hnone, hfails, hcollect⟩ :=
              collect_of_not_provided hcheck hroot hall race
            obtain ⟨p', hp', e', hnone', hfails', hcollect'⟩ :=
              collect_of_not_provided hcheck hroot hall race'
            simp only [perform, hcollect, hcollect']
            exact ⟨trivial, .failed hroot (mem_missing_iff.mpr ⟨hp, hnone⟩) hfails
              (mem_missing_iff.mpr ⟨hp', hnone'⟩) hfails'⟩

end Keychain

namespace PoolUnit

/-- The keychain that an open unit has or fetches when it is asked. -/
def AnswersBy (u : PoolUnit) (ctx : PoolContext) (source : RecordSource) (k : Keychain) : Prop :=
  u.isClosed = false ∧
    (u.keychain = some k ∨ u.keychain = none ∧ (u.fetch ctx source).1 = .ok k)

/-- Two answers of a unit to a request for ranges: they are the same, or those that its keychain
gives in two races. -/
inductive Raced (u : PoolUnit) (ctx : PoolContext) (source : RecordSource)
    (ranges : List AddressRange) :
    Except WalletError Keychain.Answer → Except WalletError Keychain.Answer → Prop
  | same (answer : Except WalletError Keychain.Answer) : Raced u ctx source ranges answer answer
  | served {k : Keychain} {answer answer' : Except WalletError Keychain.Answer}
      (hk : u.AnswersBy ctx source k) (h : k.Raced ranges answer answer') :
      Raced u ctx source ranges answer answer'

variable (u : PoolUnit) (ctx : PoolContext) (source : RecordSource) (now : Nat)
  (ranges : List AddressRange) (race race' : Nat)

/-- A request leaves the same unit in every race, since the deadline depends on success alone. -/
theorem operate_raced :
    (u.operate ctx source now (.accounts ranges race')).2 =
        (u.operate ctx source now (.accounts ranges race)).2 ∧
      u.Raced ctx source ranges (u.operate ctx source now (.accounts ranges race)).1
        (u.operate ctx source now (.accounts ranges race')).1 := by
  cases hclosed : u.isClosed with
  | true =>
      rw [operate_of_closed _ _ _ _ hclosed, operate_of_closed _ _ _ _ hclosed]
      exact ⟨rfl, .same _⟩
  | false =>
      cases hkeychain : u.keychain with
      | some k =>
          obtain ⟨hsame, hraced⟩ := k.perform_raced ranges race race'
          rw [operate_of_loaded _ _ _ _ hclosed hkeychain,
            operate_of_loaded _ _ _ _ hclosed hkeychain, run_eq, run_eq, hsame, hraced.isOk_eq]
          exact ⟨rfl, .served ⟨hclosed, Or.inl hkeychain⟩ hraced⟩
      | none =>
          cases hfetch : (u.fetch ctx source).1 with
          | error e =>
              rw [operate_of_unfetched _ _ _ _ hclosed hkeychain hfetch,
                operate_of_unfetched _ _ _ _ hclosed hkeychain hfetch]
              exact ⟨rfl, .same _⟩
          | ok k =>
              obtain ⟨hsame, hraced⟩ := k.perform_raced ranges race race'
              rw [operate_of_fetched _ _ _ _ hclosed hkeychain hfetch,
                operate_of_fetched _ _ _ _ hclosed hkeychain hfetch, hsame]
              exact ⟨rfl, .served ⟨hclosed, Or.inr ⟨hkeychain, hfetch⟩⟩ hraced⟩

/-- By the clock it crashes in every race or in none. -/
theorem attempt_raced :
    (u.attempt ctx source now (.accounts ranges race')).2 =
        (u.attempt ctx source now (.accounts ranges race)).2 ∧
      Option.Rel (u.Raced ctx source ranges) (u.attempt ctx source now (.accounts ranges race)).1
        (u.attempt ctx source now (.accounts ranges race')).1 := by
  obtain ⟨hsame, hraced⟩ := u.operate_raced ctx source now ranges race race'
  cases htold : (u.operate ctx source now (.accounts ranges race)).2.isTold with
  | true =>
      rw [attempt_of_told htold, attempt_of_told (by rw [hsame]; exact htold)]
      exact ⟨hsame, .some hraced⟩
  | false =>
      rw [attempt_of_untold htold, attempt_of_untold (by rw [hsame]; exact htold), hsame]
      exact ⟨rfl, .none⟩

end PoolUnit

namespace Host

/-! ## Events in two races -/

/-- Events that differ in the race of a request for ranges, if at all. -/
inductive Event.Alike : Event → Event → Prop
  | same (event : Event) : event.Alike event
  | raced (wallet : Uuid) (place : Nat) (ranges : List AddressRange) (race race' : Nat) :
      Event.Alike (.ask wallet (.step place (.operate (.accounts ranges race))))
        (.ask wallet (.step place (.operate (.accounts ranges race'))))

/-- Two replies of a host to an event in two races: they are the same, or those of the unit that
is asked. -/
inductive Raced (h : Host) : Event → Reply → Reply → Prop
  | same (event : Event) (reply : Reply) : Raced h event reply reply
  | answered {wallet : Uuid} {place id : Nat} {u : PoolUnit} {ranges : List AddressRange}
      {answer answer' : Except WalletError Keychain.Answer} (race : Nat)
      (hid : positionOf wallet h.units place = some id) (hu : h.units[id]? = some u)
      (hraced : u.Raced h.context h.source ranges answer answer') :
      Raced h (.ask wallet (.step place (.operate (.accounts ranges race))))
        (.unit (some (.answer answer))) (.unit (some (.answer answer')))

variable {event event' : Event}

/-- What an event leaves does not depend on its race. -/
theorem play_alike (hevent : event.Alike event') (h : Host) :
    (h.play event').2 = (h.play event).2 ∧ h.Raced event (h.play event).1 (h.play event').1 := by
  cases hevent with
  | same event => exact ⟨rfl, .same _ _⟩
  | raced wallet place ranges race race' =>
      cases hid : positionOf wallet h.units place with
      | none =>
          simp only [play, ask, hid]
          exact ⟨trivial, .same _ _⟩
      | some id =>
          obtain ⟨u, hu, -⟩ := positionOf_eq_some hid
          obtain ⟨hsame, hraced⟩ :=
            u.attempt_raced h.context h.source h.now ranges race race'
          simp only [play, ask, hid, step, operate, hu, hsame, true_and]
          -- Both crash, or both answer.
          generalize (u.attempt h.context h.source h.now (.accounts ranges race)).1 = tried,
            (u.attempt h.context h.source h.now (.accounts ranges race')).1 = tried' at hraced
          cases hraced with
          | none => exact .same _ _
          | some hanswer => exact .answered race hid hu hanswer

/-- Nor does what a history leaves depend on its races. -/
theorem after_alike {history history' : List Event}
    (halike : List.Forall₂ Event.Alike history history') (h : Host) :
    h.after history' = h.after history := by
  induction halike generalizing h with
  | nil => rfl
  | cons hevent _ ih => rw [after_cons, after_cons, (play_alike hevent h).1, ih]

end Host

end Keyring
