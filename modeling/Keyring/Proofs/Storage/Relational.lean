import Keyring.Proofs.Storage.RowIds
import Keyring.Proofs.Uuid
import Keyring.Storage.Relational

/-!
# Wallets in a table

A table that is written through its repository alone is a list of records: its rows are the rows
of records that are numbered from one on, and no two of them have the same wallet.  So it can be
read as a repository in memory with the same records (`Mirrors`).

Each operation keeps this.  A lookup is a lookup among the records (`Mirrors.get`), a changed flag
is the changed flag of a record (`Mirrors.setEnabled`), and a record of a new wallet goes behind
the others under the next number (`Mirrors.insert`).  Where the two part is the record of a wallet
that has one: memory replaces it, and the table refuses it (`Mirrors.insert_of_mem`).
-/

namespace Keyring

/-! ## Records in memory -/

namespace MemoryRepository

variable {m : MemoryRepository} {wallets : List Uuid}

/-- The record of a wallet that has none goes behind the others. -/
theorem records_insert_of_notMem (h : m.Holds wallets) {record : WalletRecord}
    (hnew : record.wallet ∉ wallets) :
    (m.insert record).2.records = m.records ++ [{ record with id := m.size + 1 }] := by
  have hkept : m.records.filter (·.wallet != record.wallet) = m.records := by
    rw [List.filter_eq_self]
    intro a ha
    refine bne_iff_ne.mpr fun hsame => hnew ?_
    rw [← h.mem_iff, ← hsame]
    exact List.mem_map_of_mem ha
  rw [insert, hkept]

/-- A changed flag changes the records of the wallet, if there is one. -/
theorem records_apply_setEnabled (m : MemoryRepository) (wallet : Uuid) (enabled : Bool)
    (now : Timestamp) :
    (m.apply (.setEnabled wallet enabled now)).records =
      m.records.map fun a => if a.wallet = wallet then a.withEnabled enabled now else a := by
  rw [apply]
  cases hfind : m.find? wallet with
  | some record =>
      rw [setEnabled_of_some hfind]
      rfl
  | none =>
      rw [setEnabled_of_none hfind]
      show m.records = _
      -- No record has the wallet, so there is none to change.
      have hother := List.find?_eq_none.mp hfind
      rw [← List.map_id m.records, List.map_map]
      refine List.map_congr_left fun a ha => ?_
      exact (if_neg fun hsame => hother a ha (beq_iff_eq.mpr hsame)).symm

/-- A changed flag is seen where the wallet is looked up, if it has a record. -/
theorem find?_apply_setEnabled (m : MemoryRepository) (wallet : Uuid) (enabled : Bool)
    (now : Timestamp) (other : Uuid) :
    (m.apply (.setEnabled wallet enabled now)).find? other =
      if other = wallet then (m.find? other).map (·.withEnabled enabled now)
      else m.find? other := by
  rw [apply]
  cases hresult : m.setEnabled wallet enabled now with
  | ok later => exact find?_of_setEnabled hresult other
  | error e =>
      show m.find? other = _
      split
      · next hsame =>
          cases hfind : m.find? other with
          | none => rfl
          | some record =>
              rw [hsame] at hfind
              rw [setEnabled_of_some hfind] at hresult
              cases hresult
      · rfl

theorem get_apply_setEnabled (m : MemoryRepository) (wallet : Uuid) (enabled : Bool)
    (now : Timestamp) (other : Uuid) :
    (m.apply (.setEnabled wallet enabled now)).get other =
      if other = wallet then (m.get other).map (·.withEnabled enabled now) else m.get other := by
  rw [get, get, find?_apply_setEnabled]
  by_cases hsame : other = wallet
  · rw [if_pos hsame, if_pos hsame]
    cases m.find? other <;> rfl
  · rw [if_neg hsame, if_neg hsame]

end MemoryRepository

/-! ## Rows -/

namespace Row

/-- A record is read back from its row, under the id of the row. -/
@[simp] theorem record?_ofRecord (id : Int) (record : WalletRecord) :
    (ofRecord id record).record? = some { record with id } := by
  simp [record?, ofRecord, Cell.toInteger?, Cell.toUuid?, Cell.toText?, Cell.toBytes?,
    Cell.toBool?, Cell.toTimestamp?]

/-- Rows are searched by wallet. -/
@[simp] theorem ofRecord_wallet_eq_iff {id : Int} {record : WalletRecord} {wallet : Uuid} :
    ofRecord id record .wallet = .text wallet.text ↔ record.wallet = wallet := by
  rw [ofRecord, Cell.text.injEq, Uuid.text_inj]

/-- Changing the cells of the flag and of its time is changing the flag of the record. -/
theorem set_ofRecord (id : Int) (record : WalletRecord) (enabled : Bool) (now : Timestamp) :
    ((ofRecord id record).set .isEnabled (.integer (if enabled then 1 else 0))).set .updatedAt
      (.time now) = ofRecord id (record.withEnabled enabled now) := by
  funext column
  cases column <;> rfl

end Row

namespace RelationalRepository

/-! ## Consistent tables -/

theorem nodup_eraseDups {α : Type} [DecidableEq α] : ∀ xs : List α, xs.eraseDups.Nodup
  | [] => List.nodup_nil
  | x :: xs => by
      rw [List.eraseDups_cons, List.nodup_cons]
      exact ⟨by simp, nodup_eraseDups (xs.filter fun y => !y == x)⟩
termination_by xs => xs.length
decreasing_by
  exact Nat.lt_succ_of_le (List.length_filter_le _ _)

/-- Nothing is erased from a list exactly if its members differ. -/
theorem length_eraseDups_eq_iff {α : Type} [DecidableEq α] {xs : List α} :
    xs.eraseDups.length = xs.length ↔ xs.Nodup := by
  have hsame : xs.eraseDups.toFinset = xs.toFinset := by
    ext x
    rw [List.mem_toFinset, List.mem_toFinset, List.mem_eraseDups]
  rw [← List.toFinset_card_of_nodup (nodup_eraseDups xs), hsame]
  exact @Multiset.toFinset_card_eq_card_iff_nodup α _ xs

/-- The rows of records, each under the id of its record. -/
def rowsFor (records : List WalletRecord) : List Row :=
  records.map fun record => Row.ofRecord record.id record

theorem map_id_rowsFor (records : List WalletRecord) :
    (rowsFor records).map (· .id) = (records.map (·.id)).map Cell.integer := by
  rw [rowsFor, List.map_map, List.map_map]
  rfl

theorem map_wallet_rowsFor (records : List WalletRecord) :
    (rowsFor records).map (· .wallet) =
      (records.map (·.wallet)).map fun wallet => Cell.text wallet.text := by
  rw [rowsFor, List.map_map, List.map_map]
  rfl

/-- The rows of records may stand together if the records differ by id and by wallet. -/
theorem isConsistent_rowsFor (records : List WalletRecord) :
    isConsistent (rowsFor records) = true ↔
      (records.map (·.id)).Nodup ∧ (records.map (·.wallet)).Nodup := by
  have hnull : (rowsFor records).all fun row => Column.all.all fun c => row c != .null := by
    rw [rowsFor, List.all_map, List.all_eq_true]
    exact fun _ _ => rfl
  have hinteger : (rowsFor records).all fun row => (row .id).toInteger?.isSome := by
    rw [rowsFor, List.all_map, List.all_eq_true]
    exact fun _ _ => rfl
  have hunique : Column.all.filter Column.isUnique = [.id, .wallet] := rfl
  have hdiffer (c : Column) :
      ((rowsFor records).map (· c)).eraseDups.length = (rowsFor records).length ↔
        ((rowsFor records).map (· c)).Nodup := by
    rw [← length_eraseDups_eq_iff, List.length_map]
  have hid : Function.Injective Cell.integer := fun _ _ => Cell.integer.inj
  have hwallet : Function.Injective fun wallet : Uuid => Cell.text wallet.text :=
    fun _ _ h => Uuid.text_inj.mp (Cell.text.inj h)
  simp only [isConsistent, hnull, hinteger, hunique, List.all_cons, List.all_nil, Bool.and_true,
    Bool.true_and, Bool.and_eq_true, beq_iff_eq, hdiffer]
  rw [map_id_rowsFor, map_wallet_rowsFor, List.nodup_map_iff hid, List.nodup_map_iff hwallet]

/-! ## Ids -/

theorem foldl_max_of_le {xs : List Int} {n : Int} (h : ∀ x ∈ xs, x ≤ n) :
    xs.foldl max n = n := by
  induction xs with
  | nil => rfl
  | cons x xs ih =>
      obtain ⟨hx, hxs⟩ := List.forall_mem_cons.mp h
      rw [List.foldl_cons, max_eq_left hx, ih hxs]

/-- The numbers from one on. -/
def numbers (n : Nat) : List Int :=
  (List.range n).map fun k : Nat => (k : Int) + 1

theorem nodup_numbers (n : Nat) : (numbers n).Nodup := by
  refine List.nodup_range.map fun j k h => ?_
  simpa using h

theorem le_of_mem_numbers {n : Nat} {id : Int} (h : id ∈ numbers n) : id ≤ n := by
  obtain ⟨k, hk, rfl⟩ := List.mem_map.mp h
  rw [List.mem_range] at hk
  omega

theorem numbers_succ (n : Nat) : numbers (n + 1) = numbers n ++ [(n : Int) + 1] := by
  rw [numbers, List.range_succ, List.map_append]
  rfl

/-- The next row is numbered behind the others. -/
theorem nextId_eq {records : List WalletRecord}
    (h : records.map (·.id) = numbers records.length) :
    nextId ⟨rowsFor records, records.length⟩ = records.length + 1 := by
  have hids : (rowsFor records).filterMap (fun row => (row .id).toInteger?) =
      records.map (·.id) := by
    rw [rowsFor, List.filterMap_map, ← List.filterMap_eq_map]
    rfl
  rw [nextId, hids, h, foldl_max_of_le fun _ => le_of_mem_numbers]

/-! ## A table that mirrors a memory -/

/-- The table holds the records of a memory, of the given wallets and numbered from one on. -/
structure Mirrors (r : RelationalRepository) (m : MemoryRepository) (wallets : List Uuid) :
    Prop where
  table_eq : r.table = some ⟨rowsFor m.records, m.size⟩
  ids : m.records.map (·.id) = numbers m.size
  holds : m.Holds wallets

/-- A repository whose table was just made. -/
def fresh : RelationalRepository :=
  { table := some {} }

/-- A table that is made in a database that was just opened is empty. -/
theorem eq_fresh_of_migrate {url : String} {maxConnections : Option UInt32}
    {opens : String → Bool} {r : RelationalRepository}
    (h : (connect url maxConnections opens >>= migrate) = .ok r) : r = fresh := by
  obtain ⟨opened, hopen, hmigrate⟩ := bind_eq_ok_iff.mp h
  have hnone : opened.table = none ∧ opened.lastChanges = 0 := by
    simp only [connect, bind_eq_ok_iff] at hopen
    obtain ⟨u, -, hopen⟩ := hopen
    split at hopen
    · cases hopen
    · split at hopen
      · cases hopen
        exact ⟨rfl, rfl⟩
      · split at hopen
        · cases hopen
        · split at hopen <;> cases hopen
          exact ⟨rfl, rfl⟩
  rw [migrate] at hmigrate
  split at hmigrate
  · cases hmigrate
  · next hwritable =>
      cases hmigrate
      rw [fresh, hnone.1, hnone.2, Bool.eq_false_of_not_eq_true hwritable]
      rfl

example (opens : String → Bool) :
    (connect "sqlite::memory:" none opens >>= migrate) = .ok fresh := rfl

namespace Mirrors

variable {r : RelationalRepository} {m : MemoryRepository} {wallets : List Uuid}

theorem fresh : RelationalRepository.fresh.Mirrors .empty [] :=
  ⟨rfl, rfl, .empty⟩

theorem openTable (h : r.Mirrors m wallets) :
    r.openTable = .ok ⟨rowsFor m.records, m.size⟩ := by
  rw [RelationalRepository.openTable, h.table_eq]

theorem rowsOf (m : MemoryRepository) (wallet : Uuid) :
    rowsOf ⟨rowsFor m.records, m.size⟩ wallet =
      rowsFor (m.records.filter (·.wallet == wallet)) := by
  rw [RelationalRepository.rowsOf, rowsFor, rowsFor, List.filter_map]
  congr 2
  funext record
  rw [Function.comp_apply, Bool.eq_iff_iff, beq_iff_eq, beq_iff_eq, Row.ofRecord_wallet_eq_iff]

/-- Records are found in the table as they are found in memory. -/
theorem get (h : r.Mirrors m wallets) (wallet : Uuid) : r.get wallet = m.get wallet := by
  rw [RelationalRepository.get, h.openTable, ok_bind, rowsOf, MemoryRepository.get,
    MemoryRepository.find?, ← List.head?_filter]
  cases m.records.filter (·.wallet == wallet) with
  | nil => rfl
  | cons record records =>
      rw [rowsFor, List.map_cons, List.head?_cons]
      simp only [Row.record?_ofRecord]
      rfl

/-- The record of a new wallet goes behind the others under the next number, as in memory. -/
theorem insert (h : r.Mirrors m wallets) {record : WalletRecord} (hnew : record.wallet ∉ wallets) :
    (r.insert record).1 = .ok (m.insert record).1 ∧
      (r.insert record).2.Mirrors (m.insert record).2 (wallets ++ [record.wallet]) := by
  have hmemory := MemoryRepository.records_insert_of_notMem h.holds hnew
  have hholds := h.holds.insert record
  have hsize : (m.insert record).2.size = m.size + 1 := by
    rw [MemoryRepository.size, hmemory, List.length_append, List.length_singleton]
    rfl
  have hids : (m.insert record).2.records.map (·.id) = numbers (m.insert record).2.size := by
    rw [hsize, numbers_succ, ← h.ids, hmemory, List.map_append]
    rfl
  have hrows : rowsFor m.records ++ [Row.ofRecord (m.size + 1) record] =
      rowsFor (m.insert record).2.records := by
    rw [hmemory, rowsFor, rowsFor, List.map_append]
    rfl
  -- The new row is numbered like no other, and its wallet is new.
  have hconsistent : isConsistent (rowsFor (m.insert record).2.records) = true := by
    rw [isConsistent_rowsFor, hids]
    exact ⟨nodup_numbers _, hholds.nodup⟩
  have hnext : nextId ⟨rowsFor m.records, m.size⟩ = m.size + 1 := nextId_eq h.ids
  simp only [RelationalRepository.insert, h.openTable, hnext, hrows, hconsistent, if_true]
  refine ⟨rfl, ?_, hids, hholds⟩
  rw [hsize]
  rfl

/-- A second record of a wallet is refused. -/
theorem insert_of_mem (h : r.Mirrors m wallets) {record : WalletRecord}
    (hold : record.wallet ∈ wallets) :
    r.insert record = (.error secondRow, { r with lastChanges := 0 }) := by
  have hnext : nextId ⟨rowsFor m.records, m.size⟩ = m.size + 1 := nextId_eq h.ids
  have hrows : rowsFor m.records ++ [Row.ofRecord (m.size + 1) record] =
      rowsFor (m.records ++ [{ record with id := m.size + 1 }]) := by
    rw [rowsFor, rowsFor, List.map_append]
    rfl
  -- The row would get a number of its own, but not a wallet of its own.
  have hrefused : isConsistent (rowsFor (m.records ++ [{ record with id := m.size + 1 }])) ≠
      true := by
    rw [Ne, isConsistent_rowsFor, List.map_append, List.map_append, not_and]
    intro _ hnodup
    have hmem := (h.holds.mem_iff _).mpr hold
    exact List.disjoint_of_nodup_append hnodup hmem List.mem_cons_self
  simp only [RelationalRepository.insert, h.openTable, hnext, hrows, if_neg hrefused]

/-- A flag is changed as in memory. -/
theorem setEnabled (h : r.Mirrors m wallets) (wallet : Uuid) (enabled : Bool) (now : Timestamp) :
    (r.setEnabled wallet enabled now).1 = (m.setEnabled wallet enabled now).map (fun _ => ()) ∧
      (r.setEnabled wallet enabled now).2.Mirrors
        (m.apply (.setEnabled wallet enabled now)) wallets := by
  have hrecords := m.records_apply_setEnabled wallet enabled now
  have hsize : (m.apply (.setEnabled wallet enabled now)).size = m.size := by
    rw [MemoryRepository.size, hrecords, List.length_map]
    rfl
  have hids : (m.apply (.setEnabled wallet enabled now)).records.map (·.id) =
      m.records.map (·.id) := by
    rw [hrecords, List.map_map]
    refine List.map_congr_left fun a _ => ?_
    rw [Function.comp_apply]
    split <;> rfl
  -- Row by row, the cells change as the fields of the records do.
  have hrows : (rowsFor m.records).map (fun row =>
      if row .wallet == .text wallet.text then
        (row.set .isEnabled (.integer (if enabled then 1 else 0))).set .updatedAt (.time now)
      else row) = rowsFor (m.apply (.setEnabled wallet enabled now)).records := by
    rw [hrecords, rowsFor, rowsFor, List.map_map, List.map_map]
    refine List.map_congr_left fun a _ => ?_
    simp only [Function.comp_apply, beq_iff_eq, Row.ofRecord_wallet_eq_iff, Row.set_ofRecord]
    split <;> rfl
  have hmirrors (changes : Nat) : Mirrors
      { r with
        table := some ⟨rowsFor (m.apply (.setEnabled wallet enabled now)).records, m.size⟩
        lastChanges := changes }
      (m.apply (.setEnabled wallet enabled now)) wallets :=
    ⟨by rw [hsize], by rw [hids, hsize, h.ids], h.holds.setEnabled wallet enabled now⟩
  simp only [RelationalRepository.setEnabled, h.openTable, hrows]
  have hcount : (RelationalRepository.rowsOf ⟨rowsFor m.records, m.size⟩ wallet).length = 0 ↔
      m.find? wallet = none := by
    rw [rowsOf, rowsFor, List.length_map, List.length_eq_zero_iff, List.filter_eq_nil_iff,
      MemoryRepository.find?, List.find?_eq_none]
  cases hfind : m.find? wallet with
  | none =>
      rw [if_pos (hcount.mpr hfind), MemoryRepository.setEnabled_of_none hfind]
      exact ⟨rfl, hmirrors _⟩
  | some record =>
      have hsome : m.find? wallet ≠ none := by simp [hfind]
      rw [if_neg (mt hcount.mp hsome), MemoryRepository.setEnabled_of_some hfind]
      exact ⟨rfl, hmirrors _⟩

end Mirrors

end RelationalRepository

end Keyring
