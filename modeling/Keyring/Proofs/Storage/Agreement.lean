import Keyring.Proofs.Storage.Run

/-!
# Two repositories of one contract

A memory and a table that are asked the same answer the same, as long as no wallet is stored
twice.  They need not be asked at the same times, so this takes two comparisons: the table with a
memory that is asked at the times of the table, where all answers are equal (`Mirrors.serve`), and
this memory with the one that is asked at times of its own (`sameAnswer_serve`).  What two such
memories find is the same up to the times at which flags were changed (`rel_find?_afterRun`).

A record of a wallet that has one is where the repositories part.  The table refuses it and is as
it was, and a table answers by what is in it (`serve_congr`), so nothing shows later that it was
asked.
-/

namespace Keyring

open Storage

namespace Storage

/-! ## Records up to the time of a change -/

/-- The flag of a wallet was changed after its record was stored. -/
def Flagged (requests : List Request) (wallet : Uuid) : Prop :=
  ∃ first enabled rest, requests = first ++ .setEnabled wallet enabled :: rest ∧
    wallet ∈ inserted first

theorem Flagged.append {requests : List Request} {wallet : Uuid} (h : Flagged requests wallet)
    (more : List Request) : Flagged (requests ++ more) wallet := by
  obtain ⟨first, enabled, rest, rfl, hmem⟩ := h
  exact ⟨first, enabled, rest ++ more, by simp, hmem⟩

/-- Two records are the same, up to the time of their latest change, and this too unless it may
differ. -/
def SameUpToTime (mayDiffer : Prop) (a b : WalletRecord) : Prop :=
  b = { a with updatedAt := b.updatedAt } ∧ (¬mayDiffer → b = a)

namespace SameUpToTime

variable {p q : Prop} {a b : WalletRecord}

theorem refl (p : Prop) (a : WalletRecord) : SameUpToTime p a a :=
  ⟨rfl, fun _ => rfl⟩

theorem imp (h : SameUpToTime p a b) (hpq : p → q) : SameUpToTime q a b :=
  ⟨h.1, fun hq => h.2 (mt hpq hq)⟩

theorem withEnabled (h : SameUpToTime p a b) (hq : q) (enabled : Bool) (time time' : Timestamp) :
    SameUpToTime q (a.withEnabled enabled time) (b.withEnabled enabled time') := by
  refine ⟨?_, fun hnot => absurd hq hnot⟩
  rw [h.1]
  rfl

end SameUpToTime

variable {p q : Prop} {x y : Option WalletRecord}

theorem rel_imp (h : Option.Rel (SameUpToTime p) x y) (hpq : p → q) :
    Option.Rel (SameUpToTime q) x y := by
  cases h with
  | some hab => exact .some (hab.imp hpq)
  | none => exact .none

theorem rel_withEnabled (h : Option.Rel (SameUpToTime p) x y) (hq : x ≠ none → q)
    (enabled : Bool) (time time' : Timestamp) :
    Option.Rel (SameUpToTime q) (x.map (·.withEnabled enabled time))
      (y.map (·.withEnabled enabled time')) := by
  cases h with
  | some hab => exact .some (hab.withEnabled (hq (by simp)) enabled time time')
  | none => exact .none

theorem rel_cases (h : Option.Rel (SameUpToTime p) x y) :
    (x = none ∧ y = none) ∨ ∃ a b, x = some a ∧ y = some b ∧ SameUpToTime p a b := by
  cases h with
  | some hab => exact .inr ⟨_, _, rfl, rfl, hab⟩
  | none => exact .inl ⟨rfl, rfl⟩

/-- Two answers to a request that follows others are the same, but for the time of the latest
change where a record is found whose flag was changed. -/
def SameAnswer (before : List Request) (request : Request) (answer answer' : Answer) : Prop :=
  answer' = answer ∨ ∃ wallet a b, request = .get wallet ∧ Flagged before wallet ∧
    answer = .ok (.found a) ∧ answer' = .ok (.found b) ∧ b = { a with updatedAt := b.updatedAt }

end Storage

/-! ## Asked at different times -/

namespace MemoryRepository

/-- What is found does not depend on the times, but for the times of changed flags. -/
theorem rel_find?_afterRun (clock clock' : Nat → Timestamp) (requests : List Request)
    (wallet : Uuid) :
    Option.Rel (SameUpToTime (Flagged requests wallet)) ((afterRun clock requests).find? wallet)
      ((afterRun clock' requests).find? wallet) := by
  induction requests using List.reverseRecOn with
  | nil => exact .none
  | append_singleton requests request ih =>
      have hholds := holds_afterRun clock requests
      have hholds' := holds_afterRun clock' requests
      -- What was changed before stays changed, whatever comes next.
      have hkept := rel_imp ih (Flagged.append · [request])
      rw [afterRun, afterRun, after_concat, after_concat]
      cases request with
      | get _ => exact hkept
      | insert record =>
          -- Both memories have a record for the same wallets, so both give the same number.
          have hsize : (afterRun clock requests).size = (afterRun clock' requests).size := by
            rw [hholds.size_eq, hholds'.size_eq]
          simp only [serve, find?_insert, hsize]
          split
          · exact .some (.refl _ _)
          · exact hkept
      | setEnabled changed enabled =>
          show Option.Rel _ ((apply _ (.setEnabled changed enabled _)).find? wallet)
            ((apply _ (.setEnabled changed enabled _)).find? wallet)
          rw [find?_apply_setEnabled, find?_apply_setEnabled]
          split
          · next hsame =>
              refine rel_withEnabled ih (fun hfound => ?_) _ _ _
              have hmem : wallet ∈ inserted requests := by
                by_contra hmissing
                exact hfound (hholds.find?_eq_none_iff.mpr hmissing)
              exact ⟨requests, enabled, [], by rw [hsame], hmem⟩
          · exact hkept

/-- Two memories that were asked the same answer the same. -/
theorem sameAnswer_serve (clock clock' : Nat → Timestamp) (before : List Request)
    (now now' : Timestamp) (request : Request) :
    SameAnswer before request ((afterRun clock before).serve now request).1
      ((afterRun clock' before).serve now' request).1 := by
  have hholds := holds_afterRun clock before
  have hholds' := holds_afterRun clock' before
  cases request with
  | insert record =>
      left
      simp only [serve, insert, hholds.size_eq, hholds'.size_eq]
  | setEnabled wallet enabled =>
      left
      simp only [serve]
      rcases rel_cases (rel_find?_afterRun clock clock' before wallet) with
        ⟨hnone, hnone'⟩ | ⟨a, b, hsome, hsome', -⟩
      · rw [setEnabled_of_none hnone, setEnabled_of_none hnone']
      · rw [setEnabled_of_some hsome, setEnabled_of_some hsome']
        rfl
  | get wallet =>
      simp only [serve, get]
      rcases rel_cases (rel_find?_afterRun clock clock' before wallet) with
        ⟨hnone, hnone'⟩ | ⟨a, b, hsome, hsome', hsame⟩
      · rw [hnone, hnone']
        exact .inl rfl
      · rw [hsome, hsome']
        by_cases hflagged : Flagged before wallet
        · exact .inr ⟨wallet, a, b, rfl, hflagged, rfl, rfl, hsame.1⟩
        · rw [hsame.2 hflagged]
          exact .inl rfl

end MemoryRepository

/-! ## Asked for a second record -/

namespace RelationalRepository

variable {r r' : RelationalRepository}

/-- Answers come from the table alone, and so does what becomes of it. -/
theorem serve_congr (h : r.table = r'.table) (now : Timestamp) (request : Request) :
    (r.serve now request).1 = (r'.serve now request).1 ∧
      (r.serve now request).2.table = (r'.serve now request).2.table := by
  have hopen : r.openTable = r'.openTable := by rw [openTable, openTable, h]
  cases request with
  | get wallet => exact ⟨by rw [serve, serve, get, get, hopen], h⟩
  | insert record =>
      simp only [serve, insert, hopen]
      cases r'.openTable with
      | error e => exact ⟨rfl, h⟩
      | ok t =>
          dsimp only
          by_cases hconsistent : isConsistent (t.rows ++ [Row.ofRecord (nextId t) record]) = true
          · rw [if_pos hconsistent, if_pos hconsistent]
            exact ⟨rfl, rfl⟩
          · rw [if_neg hconsistent, if_neg hconsistent]
            exact ⟨rfl, h⟩
  | setEnabled wallet enabled =>
      simp only [serve, setEnabled, hopen]
      cases r'.openTable with
      | error e => exact ⟨rfl, h⟩
      | ok t =>
          dsimp only
          by_cases hcount : (rowsOf t wallet).length = 0
          · rw [if_pos hcount, if_pos hcount]
            exact ⟨rfl, rfl⟩
          · rw [if_neg hcount, if_neg hcount]
            exact ⟨rfl, rfl⟩

theorem after_congr (h : r.table = r'.table) (clock : Nat → Timestamp)
    (requests : List Request) :
    (after serve clock r requests).table = (after serve clock r' requests).table := by
  induction requests using List.reverseRecOn with
  | nil => exact h
  | append_singleton requests request ih =>
      rw [after_concat, after_concat]
      exact (serve_congr ih _ request).2

/-- The record of a wallet that has one is refused, and the table is as it was. -/
theorem insert_of_mem_inserted {requests : List Request} {record : WalletRecord}
    (h : record.wallet ∈ inserted requests) (clock : Nat → Timestamp) :
    (afterRun clock requests).insert record = (.error secondRow,
      { afterRun clock requests with lastChanges := 0 }) := by
  obtain ⟨m, hmirrors⟩ := exists_mirrors_afterRun clock requests
  exact hmirrors.insert_of_mem h

/-- A table changes no other record than a memory does. -/
theorem get_serve_setEnabled (clock : Nat → Timestamp) (requests : List Request) (wallet : Uuid)
    (enabled : Bool) (now : Timestamp) (other : Uuid) :
    ((afterRun clock requests).serve now (.setEnabled wallet enabled)).2.get other =
      if other = wallet then
        ((afterRun clock requests).get other).map (·.withEnabled enabled now)
      else (afterRun clock requests).get other := by
  obtain ⟨m, hmirrors⟩ := exists_mirrors_afterRun clock requests
  have hlater := (hmirrors.setEnabled wallet enabled now).2.get other
  rw [hmirrors.get, ← MemoryRepository.get_apply_setEnabled]
  exact hlater

end RelationalRepository

namespace Storage

/-- As long as no wallet is stored twice, a table and a memory answer a request in the same
way. -/
theorem sameAnswer_table (clock clock' : Nat → Timestamp) {before : List Request}
    {request : Request} (hnodup : (inserted (before ++ [request])).Nodup) (now now' : Timestamp) :
    SameAnswer before request
      ((MemoryRepository.afterRun clock before).serve now request).1
      ((RelationalRepository.afterRun clock' before).serve now' request).1 := by
  have hnew := notMem_inserted_of_nodup hnodup
  rw [inserted_append] at hnodup
  -- The table answers as the memory does that is asked at the times of the table.
  have hmirrors := RelationalRepository.mirrors_afterRun clock' hnodup.of_append_left
  rw [(hmirrors.serve now' request hnew).1]
  exact MemoryRepository.sameAnswer_serve clock clock' before now now' request

/-- **The two repositories agree.**  Take a memory, and a table that was made in a database that
was just opened.  They are asked the same requests in the same order, each by a clock of its own.

* Let no wallet be stored twice.  Then the two answers to every request are the same, but for the
  time of the latest change where a record is found whose flag was changed after it was stored.
  Records get the numbers from one on in the order in which they are stored.  A request fails
  exactly if the wallet whose record it looks up or changes was not stored before, and the error
  names this wallet.
* After any requests, a flag that is changed at some time changes the flag and the time of the
  record of its wallet and nothing else that is found, in memory and in the table.
* After any requests, the table refuses a record of a wallet that was stored before.  It answers
  whatever it is asked later, ids of new records among it, as if it had not been asked for that. -/
theorem repositories_agree :
    (∀ url maxConnections opens table,
      (RelationalRepository.connect url maxConnections opens >>= RelationalRepository.migrate) =
        .ok table → table = .fresh) ∧
    (∀ clock clock' requests before request later, (inserted requests).Nodup →
      requests = before ++ request :: later →
      let memory := MemoryRepository.afterRun clock before
      let table := RelationalRepository.afterRun clock' before
      let answer := (memory.serve (clock before.length) request).1
      let answer' := (table.serve (clock' before.length) request).1
      SameAnswer before request answer answer' ∧
        (∀ record, request = .insert record →
          answer = .ok (.stored ((inserted before).length + 1))) ∧
        ∀ e, answer = .error e ↔ ∃ wallet, request.sought? = some wallet ∧
          wallet ∉ inserted before ∧ e = .walletNotFound wallet.text) ∧
    (∀ clock requests wallet enabled now other,
      let memory := MemoryRepository.afterRun clock requests
      let table := RelationalRepository.afterRun clock requests
      (memory.serve now (.setEnabled wallet enabled)).2.get other =
        (if other = wallet then (memory.get other).map (·.withEnabled enabled now)
          else memory.get other) ∧
      (table.serve now (.setEnabled wallet enabled)).2.get other =
        if other = wallet then (table.get other).map (·.withEnabled enabled now)
          else table.get other) ∧
    (∀ clock requests record, record.wallet ∈ inserted requests →
      let table := RelationalRepository.afterRun clock requests
      let refused := (table.insert record).2
      (∃ message, (table.insert record).1 = .error (.storage message)) ∧
      ∀ clock' later now request,
        ((after RelationalRepository.serve clock' refused later).serve now request).1 =
          ((after RelationalRepository.serve clock' table later).serve now request).1) := by
  refine ⟨fun _ _ _ _ => RelationalRepository.eq_fresh_of_migrate, ?_, ?_, ?_⟩
  · rintro clock clock' requests before request later hnodup rfl
    rw [← List.singleton_append, ← List.append_assoc, inserted_append] at hnodup
    have hholds := MemoryRepository.holds_afterRun clock before
    refine ⟨sameAnswer_table clock clock' hnodup.of_append_left _ _, ?_, fun e =>
      MemoryRepository.serve_eq_error_iff hholds⟩
    rintro record rfl
    rw [inserted_append] at hnodup
    have hlength := List.toFinset_card_of_nodup hnodup.of_append_left.of_append_left
    simp only [MemoryRepository.serve, MemoryRepository.insert, hholds.size_eq, hlength]
  · intro clock requests wallet enabled now other
    exact ⟨MemoryRepository.get_apply_setEnabled _ wallet enabled now other,
      RelationalRepository.get_serve_setEnabled clock requests wallet enabled now other⟩
  · intro clock requests record hold
    have hrefused := RelationalRepository.insert_of_mem_inserted hold clock
    refine ⟨⟨_, by rw [hrefused]; rfl⟩, fun clock' later now request => ?_⟩
    refine (RelationalRepository.serve_congr ?_ now request).1
    refine RelationalRepository.after_congr ?_ clock' later
    rw [hrefused]

end Storage

end Keyring
