import Keyring.Pool.Clock

/-!
# One operation of a pool unit

There are four ways an operation can go: the unit is closed and refuses it; the unit is
loaded and its keychain serves it; the unit is unloaded and its keychain cannot be
fetched; or the keychain is fetched and serves it.  The lemmas here say what each of them
answers and leaves (`operate_of_closed`, `operate_of_loaded`, `operate_of_unfetched`,
`operate_of_fetched`), and `operate_cases` that there are no others.

By the clock each of them either is what it is without a clock (`attempt_of_told`) or crashes
(`attempt_of_untold`).  Only what sets a deadline can crash: a loaded unit then keeps what its
keychain has derived (`attempt_of_loaded_of_untold`), and an unloaded one stays unloaded
(`attempt_of_unloaded_of_untold`).
-/

namespace Keyring.PoolUnit

variable {u : PoolUnit} {ctx : PoolContext} {source : RecordSource} {k : Keychain}

theorem keychain_eq_none (h : u.isLoaded = false) : u.keychain = none :=
  Option.isNone_iff_eq_none.mp (Option.isSome_eq_false_iff.mp h)

/-! ## Serving -/

/-- The keychain answers, and the idle time starts anew if it succeeds. -/
theorem run_eq (u : PoolUnit) (ctx : PoolContext) (now : Nat) (k : Keychain)
    (op : Keychain.Operation) :
    u.run ctx now k op =
      ((k.perform op).1, { u with
        keychain := some (k.perform op).2
        deadline := if (k.perform op).1.isOk then some (now + ctx.interval)
          else u.deadline }) := by
  unfold run
  cases h : (k.perform op).1 <;> simp [rearm, h, Except.isOk, Except.toBool]

/-! ## What is handed to the decryptor -/

@[simp] theorem note_keychain (u : PoolUnit) (handed : List Bytes) :
    (u.note handed).keychain = u.keychain := rfl

@[simp] theorem note_isLoaded (u : PoolUnit) (handed : List Bytes) :
    (u.note handed).isLoaded = u.isLoaded := rfl

@[simp] theorem note_isClosed (u : PoolUnit) (handed : List Bytes) :
    (u.note handed).isClosed = u.isClosed := rfl

@[simp] theorem note_deadline (u : PoolUnit) (handed : List Bytes) :
    (u.note handed).deadline = u.deadline := rfl

@[simp] theorem note_decrypted (u : PoolUnit) (handed : List Bytes) :
    (u.note handed).decrypted = u.decrypted ++ handed := rfl

/-! ## The four ways of an operation -/

section Ways

variable (ctx source) (now : Nat) (op : Keychain.Operation)

theorem operate_of_closed (h : u.isClosed = true) :
    u.operate ctx source now op = (.error (.unitClosed u.wallet.text), u) := by
  rw [operate, if_pos h]

theorem operate_of_loaded (hopen : u.isClosed = false) (hloaded : u.keychain = some k) :
    u.operate ctx source now op = u.run ctx now k op := by
  simp [operate, hopen, hloaded]

theorem operate_of_unfetched {e : WalletError} (hopen : u.isClosed = false)
    (hunloaded : u.keychain = none) (hfetch : (u.fetch ctx source).1 = .error e) :
    u.operate ctx source now op = (.error e, u.note (u.fetch ctx source).2) := by
  simp [operate, hopen, hunloaded, hfetch]

/-- The idle time starts when the keychain is fetched, whatever becomes of the operation. -/
theorem operate_of_fetched (hopen : u.isClosed = false) (hunloaded : u.keychain = none)
    (hfetch : (u.fetch ctx source).1 = .ok k) :
    u.operate ctx source now op =
      ((k.perform op).1, { u.note (u.fetch ctx source).2 with
        keychain := some (k.perform op).2
        deadline := some (now + ctx.interval) }) := by
  have hrun : u.operate ctx source now op =
      ((u.note (u.fetch ctx source).2).rearm ctx now).run ctx now k op := by
    simp [operate, hopen, hunloaded, hfetch]
  rw [hrun, run_eq]
  simp [rearm]

/-- An operation goes one of these ways. -/
theorem operate_cases (u : PoolUnit) :
    u.isClosed = true ∧
        u.operate ctx source now op = (.error (.unitClosed u.wallet.text), u) ∨
      u.isClosed = false ∧ (∃ k, u.keychain = some k ∧
        u.operate ctx source now op = u.run ctx now k op) ∨
      u.isClosed = false ∧ u.keychain = none ∧ (∃ e, (u.fetch ctx source).1 = .error e ∧
        u.operate ctx source now op = (.error e, u.note (u.fetch ctx source).2)) ∨
      u.isClosed = false ∧ u.keychain = none ∧ ∃ k, (u.fetch ctx source).1 = .ok k ∧
        u.operate ctx source now op =
          ((k.perform op).1, { u.note (u.fetch ctx source).2 with
            keychain := some (k.perform op).2
            deadline := some (now + ctx.interval) }) := by
  cases hclosed : u.isClosed with
  | true => exact Or.inl ⟨rfl, operate_of_closed ctx source now op hclosed⟩
  | false =>
      refine Or.inr ?_
      cases hkeychain : u.keychain with
      | some k =>
          exact Or.inl ⟨rfl, k, rfl, operate_of_loaded ctx source now op hclosed hkeychain⟩
      | none =>
          refine Or.inr ?_
          cases hfetch : (u.fetch ctx source).1 with
          | error e =>
              exact Or.inl ⟨rfl, rfl, e, rfl,
                operate_of_unfetched ctx source now op hclosed hkeychain hfetch⟩
          | ok k =>
              exact Or.inr ⟨rfl, rfl, k, rfl,
                operate_of_fetched ctx source now op hclosed hkeychain hfetch⟩

/-- An operation neither closes a unit nor opens it. -/
theorem operate_isClosed (u : PoolUnit) :
    (u.operate ctx source now op).2.isClosed = u.isClosed := by
  rcases operate_cases ctx source now op u with ⟨-, hresult⟩ | ⟨-, k, -, hresult⟩ |
    ⟨-, -, e, -, hresult⟩ | ⟨-, -, k, -, hresult⟩
  · rw [hresult]
  · rw [hresult, run_eq]
  · rw [hresult, note_isClosed]
  · rw [hresult]
    rfl

/-- Nor does it change whose a unit is. -/
theorem operate_owner (u : PoolUnit) :
    (u.operate ctx source now op).2.wallet = u.wallet ∧
      (u.operate ctx source now op).2.mnemonic = u.mnemonic := by
  rcases operate_cases ctx source now op u with ⟨-, hresult⟩ | ⟨-, k, -, hresult⟩ |
    ⟨-, -, e, -, hresult⟩ | ⟨-, -, k, -, hresult⟩
  · rw [hresult]
    exact ⟨rfl, rfl⟩
  · rw [hresult, run_eq]
    exact ⟨rfl, rfl⟩
  all_goals
    rw [hresult]
    exact ⟨rfl, rfl⟩

end Ways

/-! ## Operations by the clock -/

section Attempts

variable {now : Nat} {op : Keychain.Operation}

theorem isTold_of_deadline_eq_none (h : u.deadline = none) : u.isTold = true := by
  rw [isTold, h]
  rfl

theorem attempt_of_told (h : (u.operate ctx source now op).2.isTold = true) :
    u.attempt ctx source now op =
      (some (u.operate ctx source now op).1, (u.operate ctx source now op).2) :=
  if_pos h

theorem attempt_of_untold (h : (u.operate ctx source now op).2.isTold = false) :
    u.attempt ctx source now op = (none, u.interrupted (u.operate ctx source now op).2) :=
  if_neg (Bool.eq_false_iff.mp h)

/-- An operation crashes if the deadline that it would leave cannot be told. -/
theorem attempt_eq_none_iff_untold :
    (u.attempt ctx source now op).1 = none ↔ (u.operate ctx source now op).2.isTold = false := by
  cases htold : (u.operate ctx source now op).2.isTold with
  | true => simp [attempt_of_told htold]
  | false => simp [attempt_of_untold htold]

/-- What is answered is answered without a clock as well. -/
theorem attempt_of_answered (h : (u.attempt ctx source now op).1 ≠ none) :
    u.attempt ctx source now op =
      (some (u.operate ctx source now op).1, (u.operate ctx source now op).2) :=
  attempt_of_told ((Bool.not_eq_false _).mp (mt attempt_eq_none_iff_untold.mpr h))

theorem attempt_of_loaded_of_untold (hopen : u.isClosed = false) (hloaded : u.keychain = some k)
    (h : (u.operate ctx source now op).2.isTold = false) :
    u.attempt ctx source now op = (none, { u with keychain := some (k.perform op).2 }) := by
  rw [attempt_of_untold h, operate_of_loaded ctx source now op hopen hloaded, run_eq]
  simp only [interrupted, isLoaded, hloaded, Option.isSome_some, if_pos]

theorem attempt_of_unloaded_of_untold (hopen : u.isClosed = false) (hunloaded : u.keychain = none)
    (h : (u.operate ctx source now op).2.isTold = false) :
    u.attempt ctx source now op = (none, u.note (u.fetch ctx source).2) := by
  rw [attempt_of_untold h]
  cases hfetch : (u.fetch ctx source).1 with
  | error e =>
      rw [operate_of_unfetched ctx source now op hopen hunloaded hfetch]
      simp [interrupted, isLoaded, hunloaded, note]
  | ok k =>
      rw [operate_of_fetched ctx source now op hopen hunloaded hfetch]
      simp [interrupted, isLoaded, hunloaded, note]

/-! ### Loading by the clock -/

theorem attempt_of_unfetched {e : WalletError} (hopen : u.isClosed = false)
    (hunloaded : u.keychain = none) (hdeadline : u.deadline = none)
    (hfetch : (u.fetch ctx source).1 = .error e) :
    u.attempt ctx source now op = (some (.error e), u.note (u.fetch ctx source).2) := by
  have hoperate := operate_of_unfetched ctx source now op hopen hunloaded hfetch
  have htold : (u.operate ctx source now op).2.isTold = true := by
    rw [hoperate]
    exact isTold_of_deadline_eq_none hdeadline
  rw [attempt_of_told htold, hoperate]

/-- What fetching its keychain leaves of a unit that then serves an operation. -/
theorem isTold_operate_of_fetched (hopen : u.isClosed = false) (hunloaded : u.keychain = none)
    (hfetch : (u.fetch ctx source).1 = .ok k) :
    (u.operate ctx source now op).2.isTold = true ↔ now + ctx.interval < clockEnd := by
  rw [operate_of_fetched ctx source now op hopen hunloaded hfetch]
  simp [isTold]

theorem attempt_of_fetched (hopen : u.isClosed = false) (hunloaded : u.keychain = none)
    (hfetch : (u.fetch ctx source).1 = .ok k) (hrange : now + ctx.interval < clockEnd) :
    u.attempt ctx source now op =
      (some (k.perform op).1, { u.note (u.fetch ctx source).2 with
        keychain := some (k.perform op).2
        deadline := some (now + ctx.interval) }) := by
  rw [attempt_of_told ((isTold_operate_of_fetched hopen hunloaded hfetch).mpr hrange),
    operate_of_fetched ctx source now op hopen hunloaded hfetch]

theorem attempt_of_fetched_of_beyond (hopen : u.isClosed = false) (hunloaded : u.keychain = none)
    (hfetch : (u.fetch ctx source).1 = .ok k) (hbeyond : clockEnd ≤ now + ctx.interval) :
    u.attempt ctx source now op = (none, u.note (u.fetch ctx source).2) := by
  refine attempt_of_unloaded_of_untold hopen hunloaded (Bool.eq_false_iff.mpr fun htold => ?_)
  have hrange := (isTold_operate_of_fetched hopen hunloaded hfetch).mp htold
  exact absurd hrange (Nat.not_lt.mpr hbeyond)

/-- An unloaded unit is loaded if its keychain can be fetched and its deadline can be told. -/
theorem isLoaded_attempt_iff (hopen : u.isClosed = false) (hunloaded : u.keychain = none)
    (hdeadline : u.deadline = none) : (u.attempt ctx source now op).2.isLoaded = true ↔
      (u.fetch ctx source).1.isOk = true ∧ now + ctx.interval < clockEnd := by
  cases hfetch : (u.fetch ctx source).1 with
  | error e =>
      rw [attempt_of_unfetched hopen hunloaded hdeadline hfetch, note_isLoaded, isLoaded, hunloaded]
      simp [Except.isOk, Except.toBool]
  | ok k =>
      rcases Nat.lt_or_ge (now + ctx.interval) clockEnd with hrange | hbeyond
      · rw [attempt_of_fetched hopen hunloaded hfetch hrange]
        simp [isLoaded, hrange, Except.isOk, Except.toBool]
      · rw [attempt_of_fetched_of_beyond hopen hunloaded hfetch hbeyond, note_isLoaded, isLoaded,
          hunloaded]
        simp [Nat.not_lt.mpr hbeyond]

/-! ### What no operation does -/

/-- A crash loads nothing. -/
theorem isLoaded_interrupted (h : u.isLoaded = false) (later : PoolUnit) :
    (u.interrupted later).isLoaded = false := by
  simp [interrupted, isLoaded, keychain_eq_none h]

/-- A closed unit does nothing that could crash. -/
theorem attempt_of_closed (hclosed : u.isClosed = true) (htold : u.isTold = true) :
    u.attempt ctx source now op = (some (.error (.unitClosed u.wallet.text)), u) := by
  have hoperate := operate_of_closed ctx source now op hclosed
  rw [attempt_of_told (by rw [hoperate]; exact htold), hoperate]

/-- Whether it crashes or not, an operation hands the same blobs to the decryptor. -/
theorem attempt_decrypted (u : PoolUnit) (ctx : PoolContext) (source : RecordSource) (now : Nat)
    (op : Keychain.Operation) :
    (u.attempt ctx source now op).2.decrypted = (u.operate ctx source now op).2.decrypted := by
  cases htold : (u.operate ctx source now op).2.isTold with
  | true => rw [attempt_of_told htold]
  | false =>
      rw [attempt_of_untold htold]
      rfl

theorem attempt_isClosed (u : PoolUnit) (ctx : PoolContext) (source : RecordSource) (now : Nat)
    (op : Keychain.Operation) : (u.attempt ctx source now op).2.isClosed = u.isClosed := by
  rw [← operate_isClosed ctx source now op u]
  cases htold : (u.operate ctx source now op).2.isTold with
  | true => rw [attempt_of_told htold]
  | false =>
      rw [attempt_of_untold htold]
      rfl

end Attempts

end Keyring.PoolUnit
