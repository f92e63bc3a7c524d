import Keyring.Proofs.Storage.Relational

/-!
# Runs of requests

A repository is asked to store records, to change flags and to look records up, one request after
another, each at its time.  What a memory answers and what becomes of it depend on the wallets
whose records were stored (`MemoryRepository.holds_afterRun`, `serve_eq_error_iff`).

A table that is asked at the same times answers the same, and goes on mirroring the memory, as
long as no wallet is stored twice (`Mirrors.serve`, `mirrors_afterRun`).  Whatever it is asked,
it goes on mirroring some memory (`exists_mirrors_afterRun`).
-/

namespace Keyring

namespace Storage

/-! ## Requests and runs -/

/-- What a repository is asked for. -/
inductive Request
  | insert (record : WalletRecord)
  | setEnabled (wallet : Uuid) (enabled : Bool)
  | get (wallet : Uuid)

/-- What a repository answers if it does not fail. -/
inductive Reply
  | stored (id : Int)
  | changed
  | found (record : WalletRecord)

/-- A reply, or the error with which a request fails. -/
abbrev Answer :=
  Except WalletError Reply

namespace Request

/-- The wallet whose record is to be stored. -/
def inserted? : Request → Option Uuid
  | .insert record => some record.wallet
  | _ => none

/-- The wallet whose record has to be there. -/
def sought? : Request → Option Uuid
  | .insert _ => none
  | .setEnabled wallet _ | .get wallet => some wallet

end Request

/-- The wallets whose records are to be stored, in order. -/
def inserted (requests : List Request) : List Uuid :=
  requests.filterMap Request.inserted?

@[simp] theorem inserted_setEnabled (wallet : Uuid) (enabled : Bool) :
    inserted [.setEnabled wallet enabled] = [] := rfl

@[simp] theorem inserted_get (wallet : Uuid) : inserted [.get wallet] = [] := rfl

theorem inserted_append (first rest : List Request) :
    inserted (first ++ rest) = inserted first ++ inserted rest :=
  List.filterMap_append

/-- Where no wallet is stored twice, a wallet that is stored is new. -/
theorem notMem_inserted_of_nodup {before : List Request} {request : Request}
    (h : (inserted (before ++ [request])).Nodup) :
    ∀ wallet, request.inserted? = some wallet → wallet ∉ inserted before := by
  rw [inserted_append] at h
  intro wallet hwallet hmem
  refine List.disjoint_of_nodup_append h hmem ?_
  exact List.mem_filterMap.mpr ⟨request, List.mem_singleton_self _, hwallet⟩

/-- What becomes of a repository in a run.  The request with index `n` is served at the time
`clock n`. -/
def after {σ : Type} (serve : σ → Timestamp → Request → Answer × σ) (clock : Nat → Timestamp)
    (start : σ) (requests : List Request) : σ :=
  requests.zipIdx.foldl (fun s call => (serve s (clock call.2) call.1).2) start

theorem after_concat {σ : Type} (serve : σ → Timestamp → Request → Answer × σ)
    (clock : Nat → Timestamp) (start : σ) (requests : List Request) (request : Request) :
    after serve clock start (requests ++ [request]) =
      (serve (after serve clock start requests) (clock requests.length) request).2 := by
  simp [after, List.zipIdx_append]

end Storage

open Storage

/-- Serves a request at some time. -/
def MemoryRepository.serve (m : MemoryRepository) (now : Timestamp) :
    Request → Answer × MemoryRepository
  | .insert record => (.ok (.stored (m.insert record).1), (m.insert record).2)
  | .setEnabled wallet enabled =>
    let result := m.setEnabled wallet enabled now
    (result.map fun _ => .changed, result.toOption.getD m)
  | .get wallet => ((m.get wallet).map .found, m)

/-- Serves a request at some time. -/
def RelationalRepository.serve (r : RelationalRepository) (now : Timestamp) :
    Request → Answer × RelationalRepository
  | .insert record => ((r.insert record).1.map .stored, (r.insert record).2)
  | .setEnabled wallet enabled =>
    let (result, later) := r.setEnabled wallet enabled now
    (result.map fun _ => .changed, later)
  | .get wallet => ((r.get wallet).map .found, r)

/-- The memory after a run from the start. -/
abbrev MemoryRepository.afterRun (clock : Nat → Timestamp) (requests : List Request) :
    MemoryRepository :=
  Storage.after MemoryRepository.serve clock .empty requests

/-- The table after a run from the start. -/
abbrev RelationalRepository.afterRun (clock : Nat → Timestamp) (requests : List Request) :
    RelationalRepository :=
  Storage.after RelationalRepository.serve clock .fresh requests

/-! ## Runs of a memory -/

namespace MemoryRepository

/-- A run leaves one record for each wallet that was stored. -/
theorem holds_afterRun (clock : Nat → Timestamp) (requests : List Request) :
    (afterRun clock requests).Holds (inserted requests) := by
  induction requests using List.reverseRecOn with
  | nil => exact .empty
  | append_singleton requests request ih =>
      rw [inserted_append, afterRun, after_concat]
      cases request with
      | insert record => exact ih.insert record
      | setEnabled wallet enabled =>
          rw [inserted_setEnabled, List.append_nil]
          exact ih.setEnabled wallet enabled _
      | get wallet =>
          rw [inserted_get, List.append_nil]
          exact ih

variable {m : MemoryRepository} {wallets : List Uuid} {wallet : Uuid} {request : Request}
  {now : Timestamp}

theorem serve_of_none (hsought : request.sought? = some wallet) (h : m.find? wallet = none) :
    (m.serve now request).1 = .error (.walletNotFound wallet.text) := by
  cases request with
  | insert record => cases hsought
  | setEnabled _ enabled =>
      cases hsought
      simp only [serve, setEnabled_of_none h]
      rfl
  | get _ =>
      cases hsought
      simp only [serve, get, h]
      rfl

theorem exists_serve_eq_ok (now : Timestamp)
    (h : ∀ wallet, request.sought? = some wallet → m.find? wallet ≠ none) :
    ∃ reply, (m.serve now request).1 = .ok reply := by
  cases request with
  | insert record => exact ⟨_, rfl⟩
  | setEnabled wallet enabled =>
      obtain ⟨a, ha⟩ := Option.ne_none_iff_exists'.mp (h wallet rfl)
      exact ⟨.changed, by simp only [serve, setEnabled_of_some ha]; rfl⟩
  | get wallet =>
      obtain ⟨a, ha⟩ := Option.ne_none_iff_exists'.mp (h wallet rfl)
      exact ⟨.found a, by simp only [serve, get, ha]; rfl⟩

/-- A request fails exactly if it seeks a wallet that has no record, and it says so. -/
theorem serve_eq_error_iff (h : m.Holds wallets) {e : WalletError} :
    (m.serve now request).1 = .error e ↔ ∃ wallet, request.sought? = some wallet ∧
      wallet ∉ wallets ∧ e = .walletNotFound wallet.text := by
  constructor
  · intro herror
    by_cases hall : ∀ wallet, request.sought? = some wallet → m.find? wallet ≠ none
    · obtain ⟨reply, hreply⟩ := exists_serve_eq_ok now hall
      rw [hreply] at herror
      cases herror
    · simp only [not_forall, not_not] at hall
      obtain ⟨wallet, hsought, hnone⟩ := hall
      rw [serve_of_none hsought hnone, Except.error.injEq] at herror
      exact ⟨wallet, hsought, h.find?_eq_none_iff.mp hnone, herror.symm⟩
  · rintro ⟨wallet, hsought, hmissing, rfl⟩
    exact serve_of_none hsought (h.find?_eq_none_iff.mpr hmissing)

end MemoryRepository

/-! ## Runs of a table -/

namespace RelationalRepository

variable {r : RelationalRepository} {m : MemoryRepository} {wallets : List Uuid}

/-- A request is answered as in memory, unless it stores a record of a wallet that has one. -/
theorem Mirrors.serve (h : r.Mirrors m wallets) (now : Timestamp) (request : Request)
    (hnew : ∀ wallet, request.inserted? = some wallet → wallet ∉ wallets) :
    (r.serve now request).1 = (m.serve now request).1 ∧
      (r.serve now request).2.Mirrors (m.serve now request).2
        (wallets ++ inserted [request]) := by
  cases request with
  | insert record =>
      obtain ⟨hid, hmirrors⟩ := h.insert (hnew record.wallet rfl)
      refine ⟨?_, hmirrors⟩
      rw [RelationalRepository.serve, hid]
      rfl
  | setEnabled wallet enabled =>
      obtain ⟨hresult, hmirrors⟩ := h.setEnabled wallet enabled now
      constructor
      · show ((r.setEnabled wallet enabled now).1.map fun _ => Reply.changed) =
          (m.setEnabled wallet enabled now).map fun _ => Reply.changed
        rw [hresult]
        cases m.setEnabled wallet enabled now <;> rfl
      · rw [inserted_setEnabled, List.append_nil]
        exact hmirrors
  | get wallet =>
      constructor
      · rw [RelationalRepository.serve, h.get]
        rfl
      · rw [inserted_get, List.append_nil]
        exact h

/-- Runs that store no wallet twice keep a table and a memory the same. -/
theorem mirrors_afterRun (clock : Nat → Timestamp) {requests : List Request}
    (hnodup : (inserted requests).Nodup) :
    (afterRun clock requests).Mirrors (MemoryRepository.afterRun clock requests)
      (inserted requests) := by
  induction requests using List.reverseRecOn with
  | nil => exact .fresh
  | append_singleton requests request ih =>
      have hnew := notMem_inserted_of_nodup hnodup
      rw [inserted_append] at hnodup ⊢
      rw [afterRun, MemoryRepository.afterRun, after_concat, after_concat]
      exact ((ih hnodup.of_append_left).serve _ request hnew).2

/-- Whatever a table is asked, it goes on holding the records of a memory. -/
theorem Mirrors.exists_serve (h : r.Mirrors m wallets) (now : Timestamp) (request : Request) :
    ∃ later, (r.serve now request).2.Mirrors later (wallets ++ inserted [request]) := by
  by_cases hnew : ∀ wallet, request.inserted? = some wallet → wallet ∉ wallets
  · exact ⟨_, (h.serve now request hnew).2⟩
  · -- Only a record of a wallet that has one is left, and it is refused.
    cases request with
    | setEnabled wallet enabled => exact absurd (fun _ hnone => nomatch hnone) hnew
    | get wallet => exact absurd (fun _ hnone => nomatch hnone) hnew
    | insert record =>
        have hold : record.wallet ∈ wallets := by
          by_contra hmem
          exact hnew fun wallet hwallet => Option.some.inj hwallet ▸ hmem
        refine ⟨m, ?_⟩
        rw [RelationalRepository.serve, h.insert_of_mem hold]
        refine ⟨h.table_eq, h.ids, h.holds.nodup, fun wallet => ?_⟩
        rw [h.holds.mem_iff, List.mem_append]
        refine ⟨.inl, fun hmem => hmem.elim id fun hlast => ?_⟩
        rw [List.mem_singleton.mp hlast]
        exact hold

/-- Every run leaves a table with the records of some memory. -/
theorem exists_mirrors_afterRun (clock : Nat → Timestamp) (requests : List Request) :
    ∃ m, (afterRun clock requests).Mirrors m (inserted requests) := by
  induction requests using List.reverseRecOn with
  | nil => exact ⟨_, .fresh⟩
  | append_singleton requests request ih =>
      obtain ⟨m, hmirrors⟩ := ih
      rw [inserted_append, afterRun, after_concat]
      exact hmirrors.exists_serve _ request

end RelationalRepository

end Keyring
