import Mathlib.Data.Finset.Card
import Mathlib.Data.List.Nodup
import Keyring.Proofs.Storage.Memory

/-!
# The ids of stored records

A repository numbers a record with one more than the number of records before, and replaces the
record of a wallet that has one.  So a number does not count the records that were stored, it
counts the wallets (`fst_insert_after`): a record that is replaced uses up no number, and the one
stored next gets the same number again.

What is stored after a history depends on nothing but the wallets of its records, in their order
(`Event.wallets`): the record of a wallet has the number it got where the wallet stands for the
last time (`map_id_find?_after`).  Two records have the same number if no wallet is new from the
place of the first on up to that of the second, and this takes a wallet that is repeated in front
of another one (`ids_nodup_iff`).
-/

namespace Keyring.MemoryRepository

/-! ## Histories -/

/-- What can happen to a repository. -/
inductive Event
  | insert (record : WalletRecord)
  | setEnabled (wallet : Uuid) (enabled : Bool) (now : Timestamp)

namespace Event

/-- The wallet whose record is stored. -/
def wallet? : Event → Option Uuid
  | .insert record => some record.wallet
  | .setEnabled _ _ _ => none

/-- The wallets whose records are stored, in order. -/
def wallets (history : List Event) : List Uuid :=
  history.filterMap wallet?

theorem wallets_append (first rest : List Event) :
    wallets (first ++ rest) = wallets first ++ wallets rest :=
  List.filterMap_append

theorem wallets_insert (record : WalletRecord) (history : List Event) :
    wallets (.insert record :: history) = record.wallet :: wallets history :=
  List.filterMap_cons_some rfl

end Event

/-- The repository after one event.  A flag that cannot be changed leaves it as it is. -/
def apply (r : MemoryRepository) : Event → MemoryRepository
  | .insert record => (r.insert record).2
  | .setEnabled wallet enabled now => (r.setEnabled wallet enabled now).toOption.getD r

/-- The repository after a history, the oldest event first. -/
def after (r : MemoryRepository) (history : List Event) : MemoryRepository :=
  history.foldl apply r

theorem after_append (r : MemoryRepository) (first rest : List Event) :
    r.after (first ++ rest) = (r.after first).after rest :=
  List.foldl_append

variable {r : MemoryRepository} {wallet : Uuid} {record : WalletRecord} {history : List Event}

/-! ## One record for every wallet -/

/-- There is one record for each of the given wallets and no other. -/
structure Holds (r : MemoryRepository) (wallets : List Uuid) : Prop where
  nodup : (r.records.map (·.wallet)).Nodup
  mem_iff : ∀ wallet, wallet ∈ r.records.map (·.wallet) ↔ wallet ∈ wallets

namespace Holds

variable {wallets : List Uuid}

theorem empty : Holds .empty [] where
  nodup := List.nodup_nil
  mem_iff := fun _ => Iff.rfl

theorem insert (h : r.Holds wallets) (record : WalletRecord) :
    (r.insert record).2.Holds (wallets ++ [record.wallet]) := by
  have hkept : (r.records.filter (·.wallet != record.wallet)).map (·.wallet) =
      (r.records.map (·.wallet)).filter (· != record.wallet) := by
    rw [List.filter_map]
    rfl
  have hrecords : (r.insert record).2.records.map (·.wallet) =
      (r.records.map (·.wallet)).filter (· != record.wallet) ++ [record.wallet] := by
    rw [MemoryRepository.insert, List.map_append, hkept]
    rfl
  constructor
  case nodup =>
    rw [hrecords]
    refine (h.nodup.filter _).append (List.nodup_singleton _) ?_
    simp
  case mem_iff =>
    intro wallet
    rw [hrecords, List.mem_append, List.mem_append, List.mem_filter, h.mem_iff]
    by_cases hwallet : wallet = record.wallet <;> simp [hwallet]

/-- A flag that is changed leaves the wallets as they are. -/
theorem setEnabled (h : r.Holds wallets) (wallet : Uuid) (enabled : Bool) (now : Timestamp) :
    (r.apply (.setEnabled wallet enabled now)).Holds wallets := by
  have hsame : (r.apply (.setEnabled wallet enabled now)).records.map (·.wallet) =
      r.records.map (·.wallet) := by
    rw [apply]
    cases hfind : r.find? wallet with
    | none =>
        rw [setEnabled_of_none hfind]
        rfl
    | some record =>
        rw [setEnabled_of_some hfind]
        show (r.records.map _).map _ = _
        rw [List.map_map]
        refine List.map_congr_left fun a _ => ?_
        rw [Function.comp_apply]
        split <;> rfl
  exact ⟨hsame ▸ h.nodup, fun other => hsame ▸ h.mem_iff other⟩

/-- A history adds the wallets of its records. -/
theorem after (h : r.Holds wallets) (history : List Event) :
    (r.after history).Holds (wallets ++ Event.wallets history) := by
  induction history generalizing r wallets with
  | nil =>
      rw [Event.wallets, List.filterMap_nil, List.append_nil]
      exact h
  | cons event history ih =>
      cases event with
      | insert record =>
          have hrest := ih (h.insert record)
          rwa [List.append_assoc, List.singleton_append, ← Event.wallets_insert] at hrest
      | setEnabled wallet enabled now => exact ih (h.setEnabled wallet enabled now)

theorem size_eq (h : r.Holds wallets) : r.size = wallets.toFinset.card := by
  have hsame : (r.records.map (·.wallet)).toFinset = wallets.toFinset := by
    ext wallet
    rw [List.mem_toFinset, List.mem_toFinset, h.mem_iff]
  rw [← hsame, List.toFinset_card_of_nodup h.nodup, List.length_map, size]

theorem find?_eq_none_iff (h : r.Holds wallets) : r.find? wallet = none ↔ wallet ∉ wallets := by
  rw [← h.mem_iff, find?, List.find?_eq_none, List.mem_map, not_exists]
  exact forall_congr' fun a => by simp

/-- What is stored is found for its wallet. -/
theorem find?_eq_some_iff (h : r.Holds wallets) :
    r.find? wallet = some record ↔ record ∈ r.records ∧ record.wallet = wallet := by
  constructor
  · intro hfind
    exact ⟨List.mem_of_find?_eq_some hfind, wallet_of_find? hfind⟩
  · rintro ⟨hmem, rfl⟩
    cases hfind : r.find? record.wallet with
    | none =>
        have hnone := List.find?_eq_none.mp hfind record hmem
        exact absurd (beq_self_eq_true _) hnone
    | some other =>
        have hother := List.mem_of_find?_eq_some hfind
        rw [List.inj_on_of_nodup_map h.nodup hother hmem (wallet_of_find? hfind)]

end Holds

theorem holds_after (history : List Event) :
    (MemoryRepository.empty.after history).Holds (Event.wallets history) := by
  have h := Holds.empty.after history
  rwa [List.nil_append] at h

/-! ## Numbers -/

/-- The number that a record gets behind the given wallets. -/
def nextId (wallets : List Uuid) : Int :=
  wallets.toFinset.card + 1

/-- A record is numbered behind the wallets before it. -/
theorem fst_insert_after (history : List Event) (record : WalletRecord) :
    ((MemoryRepository.empty.after history).insert record).1 = nextId (Event.wallets history) := by
  rw [nextId, ← (holds_after history).size_eq]
  rfl

theorem toFinset_subset_append (first rest : List Uuid) :
    first.toFinset ⊆ (first ++ rest).toFinset := by
  rw [List.toFinset_append]
  exact Finset.subset_union_left

theorem nextId_le (first rest : List Uuid) : nextId first ≤ nextId (first ++ rest) := by
  have hcard := Finset.card_le_card (toFinset_subset_append first rest)
  rw [nextId, nextId]
  omega

/-- Numbers go up with the wallets that are new. -/
theorem nextId_eq_iff {first rest : List Uuid} :
    nextId (first ++ rest) = nextId first ↔ ∀ wallet ∈ rest, wallet ∈ first := by
  have hsubset := toFinset_subset_append first rest
  have hcard : nextId (first ++ rest) = nextId first ↔
      (first ++ rest).toFinset.card ≤ first.toFinset.card := by
    have hle := Finset.card_le_card hsubset
    rw [nextId, nextId]
    omega
  rw [hcard]
  constructor
  · intro hle wallet hwallet
    have hsame := Finset.eq_of_subset_of_card_le hsubset hle
    rw [← List.mem_toFinset, hsame, List.mem_toFinset]
    exact List.mem_append_right _ hwallet
  · intro hold
    refine Finset.card_le_card fun wallet hwallet => ?_
    rw [List.mem_toFinset, List.mem_append] at hwallet
    rw [List.mem_toFinset]
    exact hwallet.elim id (hold wallet)

theorem nextId_lt_iff {first rest : List Uuid} :
    nextId first < nextId (first ++ rest) ↔ ∃ wallet ∈ rest, wallet ∉ first := by
  have hle := nextId_le first rest
  have hne : nextId first < nextId (first ++ rest) ↔ nextId (first ++ rest) ≠ nextId first := by
    omega
  rw [hne, Ne, nextId_eq_iff]
  simp only [not_forall, exists_prop]

/-- Nothing but a new record changes the number under which a wallet is found. -/
theorem map_id_find?_apply (r : MemoryRepository) (event : Event)
    (h : event.wallet? ≠ some wallet) :
    ((r.apply event).find? wallet).map (·.id) = (r.find? wallet).map (·.id) := by
  cases event with
  | insert record =>
      have hother : record.wallet ≠ wallet := fun heq => h (congrArg some heq)
      rw [apply, find?_insert, if_neg hother]
  | setEnabled changed enabled now =>
      rw [apply]
      cases hok : r.setEnabled changed enabled now with
      | error e => rfl
      | ok later =>
          show (later.find? wallet).map _ = _
          rw [find?_of_setEnabled hok]
          split
          · rw [Option.map_map]
            rfl
          · rfl

theorem map_id_find?_after_of_notMem (r : MemoryRepository) (h : wallet ∉ Event.wallets history) :
    ((r.after history).find? wallet).map (·.id) = (r.find? wallet).map (·.id) := by
  induction history generalizing r with
  | nil => rfl
  | cons event history ih =>
      have hevent : event.wallet? ≠ some wallet := fun heq =>
        h (List.mem_filterMap.mpr ⟨event, List.mem_cons_self, heq⟩)
      have hrest : wallet ∉ Event.wallets history := fun hmem => by
        obtain ⟨other, hother, heq⟩ := List.mem_filterMap.mp hmem
        exact h (List.mem_filterMap.mpr ⟨other, List.mem_cons_of_mem _ hother, heq⟩)
      exact (ih (r.apply event) hrest).trans (map_id_find?_apply r event hevent)

/-- The record of a wallet has the number it got where the wallet stands for the last time. -/
theorem map_id_find?_after {before later : List Uuid}
    (hsplit : Event.wallets history = before ++ wallet :: later) (hlast : wallet ∉ later) :
    ((MemoryRepository.empty.after history).find? wallet).map (·.id) = some (nextId before) := by
  obtain ⟨first, rest, rfl, rfl, hrest⟩ := List.filterMap_eq_append_iff.mp hsplit
  obtain ⟨flags, event, last, rfl, hflags, hevent, rfl⟩ := List.filterMap_eq_cons_iff.mp hrest
  cases event with
  | setEnabled _ _ _ => cases hevent
  | insert record =>
      cases hevent
      have hnone : Event.wallets flags = [] := List.filterMap_eq_nil_iff.mpr hflags
      -- The flags in between are changed before the record is stored.
      have hstored := fst_insert_after (first ++ flags) record
      rw [Event.wallets_append, hnone, List.append_nil] at hstored
      rw [← List.append_assoc, after_append]
      show ((((MemoryRepository.empty.after (first ++ flags)).insert record).2.after last).find?
        record.wallet).map (·.id) = _
      rw [map_id_find?_after_of_notMem _ hlast, find?_insert, if_pos rfl]
      exact congrArg some hstored

/-! ## Numbers of stored records -/

/-- A wallet that is repeated stands in front of no other. -/
def OnlyRepeatsItself (wallets : List Uuid) : Prop :=
  ∀ before v w later, wallets = before ++ v :: w :: later → v ∈ before → w = v

theorem OnlyRepeatsItself.eq_nil {before later : List Uuid}
    (h : OnlyRepeatsItself (before ++ wallet :: later)) (hrepeated : wallet ∈ before)
    (hlast : wallet ∉ later) : later = [] := by
  cases later with
  | nil => rfl
  | cons other later =>
      have hsame := h before wallet other later rfl hrepeated
      exact absurd (hsame ▸ List.mem_cons_self) hlast

theorem OnlyRepeatsItself.of_nodup {wallets : List Uuid} (h : wallets.Nodup) :
    OnlyRepeatsItself wallets := by
  rintro before v w later rfl hrepeated
  exact absurd List.mem_cons_self (List.disjoint_of_nodup_append h hrepeated)

theorem exists_last_of_mem {wallets : List Uuid} (h : wallet ∈ wallets) :
    ∃ before later, wallets = before ++ wallet :: later ∧ wallet ∉ later := by
  obtain ⟨front, back, hsplit, hfirst⟩ := List.eq_append_cons_of_mem (List.mem_reverse.mpr h)
  refine ⟨back.reverse, front.reverse, ?_, mt List.mem_reverse.mp hfirst⟩
  rw [← List.reverse_reverse wallets, hsplit]
  simp

/-- A stored record has the number it got where its wallet stands for the last time. -/
theorem exists_split_of_mem (h : record ∈ (MemoryRepository.empty.after history).records) :
    ∃ before later, Event.wallets history = before ++ record.wallet :: later ∧
      record.wallet ∉ later ∧ record.id = nextId before := by
  have hholds := holds_after history
  have hmem : record.wallet ∈ Event.wallets history :=
    (hholds.mem_iff _).mp (List.mem_map_of_mem h)
  obtain ⟨before, later, hsplit, hlast⟩ := exists_last_of_mem hmem
  have hid := map_id_find?_after hsplit hlast
  rw [hholds.find?_eq_some_iff.mpr ⟨h, rfl⟩] at hid
  exact ⟨before, later, hsplit, hlast, Option.some.inj hid⟩

/-- Where wallets only repeat themselves, the one that stands later has the greater number. -/
theorem nextId_ne_of_earlier {before middle later : List Uuid} {v w : Uuid}
    (h : OnlyRepeatsItself (before ++ v :: (middle ++ w :: later)))
    (hlast : v ∉ middle ++ w :: later) : nextId (before ++ v :: middle) ≠ nextId before := by
  intro heq
  have hrepeated : v ∈ before := nextId_eq_iff.mp heq v List.mem_cons_self
  exact absurd (h.eq_nil hrepeated hlast) (by simp)

theorem ids_nodup_of_onlyRepeatsItself (h : OnlyRepeatsItself (Event.wallets history)) :
    ((MemoryRepository.empty.after history).records.map (·.id)).Nodup := by
  have hholds := holds_after history
  refine (List.nodup_map_iff_inj_on (hholds.nodup.of_map _)).mpr fun a ha b hb hid => ?_
  obtain ⟨before, later, hsplit, hlast, haid⟩ := exists_split_of_mem ha
  obtain ⟨before', later', hsplit', hlast', hbid⟩ := exists_split_of_mem hb
  rw [haid, hbid] at hid
  have hwallet : a.wallet = b.wallet := by
    -- Of two different wallets one stands for the last time before the other does.
    rcases List.append_eq_append_iff.mp (hsplit.symm.trans hsplit') with
      ⟨middle, hbefore, hrest⟩ | ⟨middle, hbefore, hrest⟩
    · cases middle with
      | nil => exact (List.cons.inj hrest).1
      | cons v middle =>
          obtain ⟨rfl, rfl⟩ := List.cons.inj hrest
          rw [hsplit] at h
          exact absurd (hbefore ▸ hid.symm) (nextId_ne_of_earlier h hlast)
    · cases middle with
      | nil => exact (List.cons.inj hrest).1.symm
      | cons w middle =>
          obtain ⟨rfl, rfl⟩ := List.cons.inj hrest
          rw [hsplit'] at h
          exact absurd (hbefore ▸ hid) (nextId_ne_of_earlier h hlast')
  exact List.inj_on_of_nodup_map hholds.nodup ha hb hwallet

/-- The record of a repeated wallet shares its number with the next one. -/
theorem not_ids_nodup {before : List Uuid} {v w : Uuid}
    (hsplit : Event.wallets history = before ++ [v, w]) (hrepeated : v ∈ before) (hne : w ≠ v) :
    ¬((MemoryRepository.empty.after history).records.map (·.id)).Nodup := by
  intro hnodup
  have hholds := holds_after history
  have hlast : v ∉ [w] := by simpa using hne.symm
  have hv := map_id_find?_after hsplit hlast
  have hsplit' : Event.wallets history = (before ++ [v]) ++ w :: [] := by simpa using hsplit
  have hw := map_id_find?_after hsplit' List.not_mem_nil
  have hsame : nextId (before ++ [v]) = nextId before :=
    nextId_eq_iff.mpr (List.forall_mem_singleton.mpr hrepeated)
  rw [hsame] at hw
  obtain ⟨a, ha, haid⟩ := Option.map_eq_some_iff.mp hv
  obtain ⟨b, hb, hbid⟩ := Option.map_eq_some_iff.mp hw
  obtain ⟨hamem, rfl⟩ := hholds.find?_eq_some_iff.mp ha
  obtain ⟨hbmem, rfl⟩ := hholds.find?_eq_some_iff.mp hb
  have heq := List.inj_on_of_nodup_map hnodup hamem hbmem (haid.trans hbid.symm)
  exact hne (congrArg (·.wallet) heq).symm

/-- The numbers of the stored records differ at every moment exactly if no wallet that is repeated
stands in front of another one. -/
theorem ids_nodup_iff (history : List Event) :
    (∀ earlier later, history = earlier ++ later →
      ((MemoryRepository.empty.after earlier).records.map (·.id)).Nodup) ↔
        OnlyRepeatsItself (Event.wallets history) := by
  constructor
  · intro hnodup before v w later hsplit hrepeated
    have hsplit' : Event.wallets history = (before ++ [v, w]) ++ later := by simpa using hsplit
    obtain ⟨first, rest, hhistory, hfirst, -⟩ := List.filterMap_eq_append_iff.mp hsplit'
    by_contra hne
    exact not_ids_nodup hfirst hrepeated hne (hnodup first rest hhistory)
  · rintro h earlier later rfl
    refine ids_nodup_of_onlyRepeatsItself ?_
    rintro before v w rest hsplit
    refine h before v w (rest ++ Event.wallets later) ?_
    rw [Event.wallets_append, hsplit]
    simp

/-- **Row ids count wallets, not records.**  Take any history of records that are stored and flags
that are changed, of the same wallets or others.

* A record that is stored next gets the number of different wallets so far, and one more.
* For every wallet the record that is found has the number that its latest storing returned, and
  no record is found for any other wallet.
* The number that a later storing returns is never smaller, and it is greater exactly if some
  wallet was new from the first storing on up to the later one.
* The numbers of the stored records differ at every moment exactly if no wallet that is repeated
  is followed by another one.

In particular, if no wallet is stored twice, every number is greater than those before it, and no
two records that are stored at the same time have the same. -/
theorem row_ids_count_wallets (history : List Event) :
    (∀ next : WalletRecord, ((MemoryRepository.empty.after history).insert next).1 =
      (Event.wallets history).toFinset.card + 1) ∧
    ((∀ before record later, history = before ++ .insert record :: later →
        record.wallet ∉ Event.wallets later →
        ((MemoryRepository.empty.after history).find? record.wallet).map (·.id) =
          some ((MemoryRepository.empty.after before).insert record).1) ∧
      ∀ wallet, (MemoryRepository.empty.after history).find? wallet = none ↔
        wallet ∉ Event.wallets history) ∧
    (∀ before record later, history = before ++ .insert record :: later →
      ∀ next : WalletRecord,
        let earlierId := ((MemoryRepository.empty.after before).insert record).1
        let laterId := ((MemoryRepository.empty.after history).insert next).1
        earlierId ≤ laterId ∧
          (earlierId < laterId ↔
            ∃ wallet ∈ record.wallet :: Event.wallets later, wallet ∉ Event.wallets before)) ∧
    ((∀ earlier later, history = earlier ++ later →
        ((MemoryRepository.empty.after earlier).records.map (·.id)).Nodup) ↔
      ∀ before v w later, Event.wallets history = before ++ v :: w :: later → v ∈ before →
        w = v) ∧
    ((Event.wallets history).Nodup →
      (∀ earlier later, history = earlier ++ later →
        ((MemoryRepository.empty.after earlier).records.map (·.id)).Nodup) ∧
      ∀ before record later, history = before ++ .insert record :: later →
        ∀ next : WalletRecord, ((MemoryRepository.empty.after before).insert record).1 <
          ((MemoryRepository.empty.after history).insert next).1) := by
  have hgrow : ∀ before record later, history = before ++ .insert record :: later →
      Event.wallets history = Event.wallets before ++ record.wallet :: Event.wallets later := by
    rintro before record later rfl
    rw [Event.wallets_append, Event.wallets_insert]
  have hlt : ∀ before record later, history = before ++ .insert record :: later →
      ∀ next : WalletRecord, ((MemoryRepository.empty.after before).insert record).1 <
          ((MemoryRepository.empty.after history).insert next).1 ↔
        ∃ wallet ∈ record.wallet :: Event.wallets later, wallet ∉ Event.wallets before := by
    intro before record later hsplit next
    rw [fst_insert_after, fst_insert_after, hgrow before record later hsplit]
    exact nextId_lt_iff
  refine ⟨fst_insert_after history, ⟨?_, fun wallet => (holds_after history).find?_eq_none_iff⟩,
    ?_, ids_nodup_iff history, fun hnodup => ⟨?_, ?_⟩⟩
  · intro before record later hsplit hlast
    rw [map_id_find?_after (hgrow before record later hsplit) hlast, fst_insert_after]
  · intro before record later hsplit next
    refine ⟨?_, hlt before record later hsplit next⟩
    rw [fst_insert_after, fst_insert_after, hgrow before record later hsplit]
    exact nextId_le _ _
  · exact (ids_nodup_iff history).mpr (.of_nodup hnodup)
  · intro before record later hsplit next
    rw [hgrow before record later hsplit] at hnodup
    have hnew : record.wallet ∉ Event.wallets before := fun hmem =>
      absurd List.mem_cons_self (List.disjoint_of_nodup_append hnodup hmem)
    exact (hlt before record later hsplit next).mpr ⟨_, List.mem_cons_self, hnew⟩

/-- The record of a wallet with nothing else in it. -/
def blankRecord (wallet : Uuid) : WalletRecord :=
  ⟨0, wallet, wallet, "", [], true, true, ⟨0, 0⟩, ⟨0, 0⟩⟩

/-- A wallet that is stored twice shares its number with the next one. -/
theorem repeated_wallet_shares_id :
    let first := MemoryRepository.empty.insert (blankRecord 1)
    let second := first.2.insert (blankRecord 1)
    let third := second.2.insert (blankRecord 2)
    (first.1, second.1, third.1) = (1, 2, 2) ∧ third.2.records.map (·.id) = [2, 2] := by
  decide

end Keyring.MemoryRepository
