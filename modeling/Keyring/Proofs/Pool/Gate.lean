import Keyring.Proofs.Mnemonic.Master
import Keyring.Proofs.Pool.Lifecycle
import Keyring.Proofs.Wallet.Keychain
import Keyring.Storage.Memory
import Keyring.Storage.Relational

/-!
# The gate to a keychain

An open unit without a keychain fetches one before it does anything else, and the gate
decides whether it may.  The checks are made one after the other: the record is found, is
enabled and carries the mnemonic of the unit (`Finds`); its blob opens to bytes with the
stored fingerprint (`Opens`); these are a phrase whose seed is usable (`Admits`).
`Refuses` says which error the first check that fails is reported with.

The two are complete (`admits_or_refuses`), and fetching follows them (`fetch_of_admits`,
`fetch_of_refuses`).  A keychain that the gate admits is lost if the clock cannot tell the deadline
of the unit: the operation crashes, and the unit stays unloaded (`attempt_of_admits_of_beyond`).

A unit keeps what it hands to the decryptor.  Over a history that is one blob for every operation
of an open unit without a keychain that passes the checks of the record, and nothing else
(`Moment.Hands`).
-/

namespace Keyring.PoolUnit

/-! ## The checks -/

section Checks

variable (u : PoolUnit) (ctx : PoolContext) (source : RecordSource)

/-- A record that the unit may use. -/
structure Finds (record : WalletRecord) : Prop where
  found : source u.wallet = .ok record
  enabled : record.isEnabled = true
  carries : record.mnemonic = u.mnemonic

/-- A record whose blob opens to intact bytes. -/
structure Opens (record : WalletRecord) (bytes : Bytes) : Prop
    extends Finds u source record where
  opens : ctx.decrypt record.encryptedMnemonic = .ok bytes
  intact : Hex.encode (sha256 bytes) = (Text.trim record.fingerprint).map Char.toLower

/-- A record whose blob holds a phrase with a usable seed. -/
structure Admits (record : WalletRecord) (text : String) (m : Mnemonic) : Prop
    extends Opens u ctx source record (Bytes.ofString text) where
  reads : Mnemonic.Reads text m
  usable : KeyNode.UsableSeed m.seed

/-- The error of the first check that fails. -/
inductive Refuses : WalletError → Prop
  | unfound {e : WalletError} (h : source u.wallet = .error e) : Refuses e
  | disabled {record : WalletRecord} (found : source u.wallet = .ok record)
      (h : record.isEnabled = false) : Refuses (.walletDisabled u.wallet.text)
  | foreign {record : WalletRecord} (found : source u.wallet = .ok record)
      (enabled : record.isEnabled = true) (h : record.mnemonic ≠ u.mnemonic) :
      Refuses (.walletNotFound
        ("wallet " ++ u.wallet.text ++ " has no mnemonic " ++ u.mnemonic.text))
  | undecryptable {record : WalletRecord} {fault : DecryptionFault}
      (finds : u.Finds source record)
      (h : ctx.decrypt record.encryptedMnemonic = .error (.decryption fault)) :
      Refuses (.decryption fault)
  | unopened {record : WalletRecord} {e : WalletError} (finds : u.Finds source record)
      (other : ∀ fault, e ≠ .decryption fault)
      (h : ctx.decrypt record.encryptedMnemonic = .error e) :
      Refuses (.decryption (.other e.message))
  | tampered {record : WalletRecord} {bytes : Bytes} (finds : u.Finds source record)
      (opens : ctx.decrypt record.encryptedMnemonic = .ok bytes)
      (h : Hex.encode (sha256 bytes) ≠ (Text.trim record.fingerprint).map Char.toLower) :
      Refuses (.integrityMismatch u.wallet.text)
  | undecodable {record : WalletRecord} {bytes : Bytes}
      (opens : u.Opens ctx source record bytes) (h : ∀ text, bytes ≠ Bytes.ofString text) :
      Refuses (.mnemonic .notUtf8)
  | invalid {record : WalletRecord} {text : String} {fault : MnemonicFault}
      (opens : u.Opens ctx source record (Bytes.ofString text))
      (h : Mnemonic.ofPhrase text = .error fault) : Refuses (.mnemonic fault)
  | unusable {record : WalletRecord} {text : String} {m : Mnemonic}
      (opens : u.Opens ctx source record (Bytes.ofString text))
      (reads : Mnemonic.Reads text m) (h : ¬ KeyNode.UsableSeed m.seed) :
      Refuses (.derivation .unusableSeed)

end Checks

variable {u : PoolUnit} {ctx : PoolContext} {source : RecordSource} {record : WalletRecord}
  {bytes : Bytes} {text : String} {m : Mnemonic}

/-- If no record is usable, an error says why. -/
theorem finds_or_refuses (u : PoolUnit) (ctx : PoolContext) (source : RecordSource) :
    (∃ record, u.Finds source record) ∨ ∃ e, u.Refuses ctx source e := by
  cases hfound : source u.wallet with
  | error e => exact Or.inr ⟨e, .unfound hfound⟩
  | ok record =>
      cases henabled : record.isEnabled with
      | false => exact Or.inr ⟨_, .disabled hfound henabled⟩
      | true =>
          by_cases hcarries : record.mnemonic = u.mnemonic
          · exact Or.inl ⟨record, hfound, henabled, hcarries⟩
          · exact Or.inr ⟨_, .foreign hfound henabled hcarries⟩

theorem opens_or_refuses (ctx : PoolContext) (h : u.Finds source record) :
    (∃ bytes, u.Opens ctx source record bytes) ∨ ∃ e, u.Refuses ctx source e := by
  cases hopens : ctx.decrypt record.encryptedMnemonic with
  | error e =>
      by_cases hfault : ∃ fault, e = .decryption fault
      · obtain ⟨fault, rfl⟩ := hfault
        exact Or.inr ⟨_, .undecryptable h hopens⟩
      · exact Or.inr ⟨_, .unopened h (not_exists.mp hfault) hopens⟩
  | ok bytes =>
      by_cases hintact :
          Hex.encode (sha256 bytes) = (Text.trim record.fingerprint).map Char.toLower
      · exact Or.inl ⟨bytes, h, hopens, hintact⟩
      · exact Or.inr ⟨_, .tampered h hopens hintact⟩

/-- The checks are complete: what is not admitted is refused with some error. -/
theorem admits_or_refuses (u : PoolUnit) (ctx : PoolContext) (source : RecordSource) :
    (∃ record text m, u.Admits ctx source record text m) ∨ ∃ e, u.Refuses ctx source e := by
  rcases finds_or_refuses u ctx source with ⟨record, hfinds⟩ | hrefuses
  · rcases opens_or_refuses ctx hfinds with ⟨bytes, hopens⟩ | hrefuses
    · by_cases htext : ∃ text, bytes = Bytes.ofString text
      · obtain ⟨text, rfl⟩ := htext
        cases hphrase : Mnemonic.ofPhrase text with
        | error fault => exact Or.inr ⟨_, .invalid hopens hphrase⟩
        | ok m =>
            have hreads := Mnemonic.ofPhrase_eq_ok_iff_reads.mp hphrase
            by_cases husable : KeyNode.UsableSeed m.seed
            · exact Or.inl ⟨record, text, m, hopens, hreads, husable⟩
            · exact Or.inr ⟨_, .unusable hopens hreads husable⟩
      · exact Or.inr ⟨_, .undecodable hopens (not_exists.mp htext)⟩
    · exact Or.inr hrefuses
  · exact Or.inr hrefuses

/-! ## Fetching follows the checks -/

theorem findRecord_eq_ok_iff : u.findRecord source = .ok record ↔ u.Finds source record := by
  unfold findRecord
  constructor
  · intro h
    obtain ⟨found, hfound, h⟩ := bind_eq_ok_iff.mp h
    cases henabled : found.isEnabled with
    | false => simp [henabled] at h
    | true =>
        by_cases hcarries : found.mnemonic = u.mnemonic
        · simp only [henabled, hcarries, Bool.not_true, Bool.false_eq_true, if_false, ne_eq,
            not_true_eq_false, pure_eq_ok_iff] at h
          subst h
          exact ⟨hfound, henabled, hcarries⟩
        · simp [henabled, hcarries] at h
  · intro h
    rw [h.found]
    simp [bind, Except.bind, h.enabled, h.carries, pure, Except.pure]

theorem fetch_of_finds (h : u.Finds source record) :
    u.fetch ctx source =
      ((u.openRecord ctx record).1 >>= openPhrase ctx, [record.encryptedMnemonic]) := by
  unfold fetch
  rw [findRecord_eq_ok_iff.mpr h]
  rfl

/-- A unit that finds no record hands nothing to the decryptor. -/
theorem fetch_snd_of_not_finds (h : ∀ record, ¬ u.Finds source record) :
    (u.fetch ctx source).2 = [] := by
  unfold fetch
  split
  · rfl
  · next record hfound => exact absurd (findRecord_eq_ok_iff.mp hfound) (h record)

theorem hasFingerprint_iff {stored : String} : Mnemonic.hasFingerprint bytes stored = true ↔
    Hex.encode (sha256 bytes) = (Text.trim stored).map Char.toLower := by
  simp [Mnemonic.hasFingerprint, Mnemonic.fingerprint, Mnemonic.normalizeFingerprint]

theorem fetch_of_opens (h : u.Opens ctx source record bytes) :
    (u.fetch ctx source).1 = openPhrase ctx bytes := by
  have hopen : (u.openRecord ctx record).1 = .ok bytes := by
    simp [openRecord, PoolContext.handOver, checkOpened, h.opens, hasFingerprint_iff.mpr h.intact]
  rw [fetch_of_finds h.toFinds, hopen]
  rfl

theorem fetch_of_opens_text (h : u.Opens ctx source record (Bytes.ofString text)) :
    (u.fetch ctx source).1 = ctx.plugin.keychain text := by
  rw [fetch_of_opens h, openPhrase, Bytes.toString?_eq_some_iff.mpr rfl]

theorem fetch_of_admits (h : u.Admits ctx source record text m) :
    ∃ master, KeyNode.ofSeed m.seed ctx.plugin.params.network = .ok master ∧
      (u.fetch ctx source).1 = .ok (Keychain.ofMaster ctx.plugin.params ctx.plugin.signer
        ctx.plugin.maxRangeSize master) := by
  have hlength := m.length_seed
  have hmaster := KeyNode.ofSeed_of_usable (by omega) h.usable ctx.plugin.params.network
  refine ⟨_, hmaster, ?_⟩
  rw [fetch_of_opens_text h.toOpens]
  refine Keychain.ofPhrase_eq_ok_iff.mpr ⟨_, ?_, rfl⟩
  exact bind_eq_ok_iff.mpr ⟨m.seed, Mnemonic.seedOfPhrase_of_reads h.reads, hmaster⟩

/-- An error of another kind is reported by its message. -/
theorem asDecryption_of_ne {e : WalletError} (h : ∀ fault, e ≠ .decryption fault) :
    asDecryption e = .decryption (.other e.message) := by
  unfold asDecryption
  split
  · next fault => exact absurd rfl (h fault)
  · rfl

theorem openRecord_of_unopened {e : WalletError}
    (h : ctx.decrypt record.encryptedMnemonic = .error e) :
    (u.openRecord ctx record).1 = .error (asDecryption e) := by
  rw [openRecord, PoolContext.handOver, h]
  rfl

theorem fetch_of_refuses {e : WalletError} (h : u.Refuses ctx source e) :
    (u.fetch ctx source).1 = .error e := by
  cases h with
  | unfound h => simp [fetch, findRecord, h, bind, Except.bind]
  | disabled found h => simp [fetch, findRecord, found, h, bind, Except.bind]
  | foreign found enabled h =>
      simp [fetch, findRecord, found, enabled, h, bind, Except.bind, foreignMnemonic]
  | undecryptable finds h =>
      rw [fetch_of_finds finds, openRecord_of_unopened h]
      rfl
  | unopened finds other h =>
      rw [fetch_of_finds finds, openRecord_of_unopened h, asDecryption_of_ne other]
      rfl
  | tampered finds opens h =>
      rw [fetch_of_finds finds, openRecord, PoolContext.handOver, opens]
      simp only [checkOpened, if_neg (mt hasFingerprint_iff.mp h)]
      rfl
  -- From here on the bytes are intact, and only what they spell can be wrong.
  | @undecodable record bytes opens h =>
      have hundecoded : bytes.toString? = none := by
        rw [Option.eq_none_iff_forall_ne_some]
        exact fun text htext => h text (Bytes.toString?_eq_some_iff.mp htext)
      rw [fetch_of_opens opens, openPhrase, hundecoded]
  | invalid opens h =>
      rw [fetch_of_opens_text opens, Plugin.keychain, Keychain.ofPhrase, Mnemonic.seedOfPhrase, h]
      rfl
  | @unusable record text m opens reads h =>
      have hlength := m.length_seed
      have hmaster := KeyNode.ofSeed_of_unusable (by omega) h ctx.plugin.params.network
      rw [fetch_of_opens_text opens, Plugin.keychain, Keychain.ofPhrase]
      exact bind_eq_error_iff.mpr (Or.inr
        ⟨m.seed, Mnemonic.seedOfPhrase_of_reads reads, bind_eq_error_iff.mpr (Or.inl hmaster)⟩)

/-! ## Wallets without a record -/

theorem refuses_of_no_record {r : MemoryRepository}
    (h : ∀ record ∈ r.records, record.wallet ≠ u.wallet) :
    u.Refuses ctx r.get (.walletNotFound u.wallet.text) := by
  have hnone : r.find? u.wallet = none := by
    rw [MemoryRepository.find?, List.find?_eq_none]
    intro record hrecord
    simpa using h record hrecord
  refine .unfound ?_
  rw [MemoryRepository.get, hnone]

theorem refuses_of_no_row {r : RelationalRepository} {t : WalletTable} (htable : r.table = some t)
    (h : ∀ row ∈ t.rows, row .wallet ≠ .text u.wallet.text) :
    u.Refuses ctx r.get (.walletNotFound u.wallet.text) := by
  have hnone : RelationalRepository.rowsOf t u.wallet = [] := by
    rw [RelationalRepository.rowsOf, List.filter_eq_nil_iff]
    intro row hrow
    simpa using h row hrow
  refine .unfound ?_
  simp [RelationalRepository.get, RelationalRepository.openTable, htable, hnone, bind,
    Except.bind]

/-! ## Operations behind the gate -/

/-- A keychain is fetched if the gate admits the unit. -/
theorem isOk_fetch_iff : (u.fetch ctx source).1.isOk = true ↔
    ∃ record text m, u.Admits ctx source record text m := by
  constructor
  · intro hok
    refine (admits_or_refuses u ctx source).resolve_right ?_
    rintro ⟨e, hrefuses⟩
    rw [fetch_of_refuses hrefuses] at hok
    cases hok
  · rintro ⟨record, text, m, hadmits⟩
    obtain ⟨master, -, hfetch⟩ := fetch_of_admits hadmits
    rw [hfetch]
    rfl

section Operations

variable {now : Nat}

theorem attempt_of_admits (hopen : u.isClosed = false) (hunloaded : u.keychain = none)
    (h : u.Admits ctx source record text m) (hrange : now + ctx.interval < clockEnd) :
    ∃ master, KeyNode.ofSeed m.seed ctx.plugin.params.network = .ok master ∧ ∀ op,
      let k := Keychain.ofMaster ctx.plugin.params ctx.plugin.signer ctx.plugin.maxRangeSize
        master
      u.attempt ctx source now op =
        (some (k.perform op).1, { u with
          keychain := some (k.perform op).2
          deadline := some (now + ctx.interval)
          decrypted := u.decrypted ++ [record.encryptedMnemonic] }) := by
  obtain ⟨master, hmaster, hfetch⟩ := fetch_of_admits h
  refine ⟨master, hmaster, fun op => ?_⟩
  rw [attempt_of_fetched hopen hunloaded hfetch hrange, fetch_of_finds h.toFinds]
  rfl

/-- Its keychain is not given to a unit whose deadline cannot be told. -/
theorem attempt_of_admits_of_beyond (hopen : u.isClosed = false) (hunloaded : u.keychain = none)
    (h : u.Admits ctx source record text m) (hbeyond : clockEnd ≤ now + ctx.interval)
    (op : Keychain.Operation) :
    u.attempt ctx source now op =
      (none, { u with decrypted := u.decrypted ++ [record.encryptedMnemonic] }) := by
  obtain ⟨master, -, hfetch⟩ := fetch_of_admits h
  rw [attempt_of_fetched_of_beyond hopen hunloaded hfetch hbeyond, fetch_of_finds h.toFinds]
  rfl

theorem attempt_of_refuses {e : WalletError} (hopen : u.isClosed = false)
    (hunloaded : u.keychain = none) (hdeadline : u.deadline = none)
    (h : u.Refuses ctx source e) (op : Keychain.Operation) :
    u.attempt ctx source now op = (some (.error e), u.note (u.fetch ctx source).2) :=
  attempt_of_unfetched hopen hunloaded hdeadline (fetch_of_refuses h)

example (ctx : PoolContext) (wallet mnemonic : Uuid) :
    ({ wallet, mnemonic } : PoolUnit).attempt ctx MemoryRepository.empty.get 0 .touch =
      (some (.error (.walletNotFound wallet.text)), { wallet, mnemonic }) := rfl

/-- A unit asks the decryptor about the blob of the record it finds, and nothing else. -/
theorem fetch_congr_decrypt {decrypt : Bytes → Except WalletError Bytes}
    (h : ∀ record, u.Finds source record →
      decrypt record.encryptedMnemonic = ctx.decrypt record.encryptedMnemonic) :
    u.fetch { ctx with decrypt } source = u.fetch ctx source := by
  cases hfound : u.findRecord source with
  | error e => simp only [fetch, hfound]
  | ok record =>
      have hfinds := findRecord_eq_ok_iff.mp hfound
      have hopens : u.openRecord { ctx with decrypt } record = u.openRecord ctx record := by
        simp only [openRecord, PoolContext.handOver, h record hfinds]
      rw [fetch_of_finds hfinds, fetch_of_finds hfinds, hopens]
      rfl

theorem attempt_congr_decrypt {decrypt : Bytes → Except WalletError Bytes}
    (h : u.isClosed = false → u.keychain = none → ∀ record, u.Finds source record →
      decrypt record.encryptedMnemonic = ctx.decrypt record.encryptedMnemonic)
    (op : Keychain.Operation) :
    u.attempt { ctx with decrypt } source now op = u.attempt ctx source now op := by
  have hoperate : u.operate { ctx with decrypt } source now op =
      u.operate ctx source now op := by
    cases hclosed : u.isClosed with
    | true => rw [operate_of_closed _ _ _ _ hclosed, operate_of_closed _ _ _ _ hclosed]
    | false =>
        cases hkeychain : u.keychain with
        | some k =>
            rw [operate_of_loaded _ _ _ _ hclosed hkeychain,
              operate_of_loaded _ _ _ _ hclosed hkeychain]
            rfl
        | none =>
            simp only [operate, hclosed, hkeychain, fetch_congr_decrypt (h hclosed hkeychain)]
            rfl
  rw [attempt, attempt, hoperate]

end Operations

/-! ## What a history hands to the decryptor -/

/-- Whether an event makes a unit hand a blob to the decryptor: it is an operation that needs the
keychain of an open unit without one, and the blob is that of a record the unit may use. -/
def Hands (u : PoolUnit) (blob : Bytes) : Event → Prop
  | .operate source _ _ =>
    u.isClosed = false ∧ u.keychain = none ∧
      ∃ record, u.Finds source record ∧ record.encryptedMnemonic = blob
  | _ => False

namespace Moment

/-- The blobs that a history hands to the decryptor, the first one first: one for every event that
hands one over. -/
inductive Hands (plugin : Plugin) (interval : Nat) : Moment → List Event → List Bytes → Prop
  | nil (m : Moment) : Hands plugin interval m [] []
  | one {m : Moment} {event : Event} {history : List Event} {blob : Bytes} {blobs : List Bytes}
      (hands : m.unit.Hands blob event)
      (rest : Hands plugin interval (m.step plugin interval event) history blobs) :
      Hands plugin interval m (event :: history) (blob :: blobs)
  | none {m : Moment} {event : Event} {history : List Event} {blobs : List Bytes}
      (hands : ∀ blob, ¬ m.unit.Hands blob event)
      (rest : Hands plugin interval (m.step plugin interval event) history blobs) :
      Hands plugin interval m (event :: history) blobs

variable (plugin : Plugin) (interval : Nat)

/-- One event hands over one blob or none, and the unit keeps it. -/
theorem decrypted_step (m : Moment) (event : Event) :
    (∃ blob, m.unit.Hands blob event ∧
      (m.step plugin interval event).unit.decrypted = m.unit.decrypted ++ [blob]) ∨
    (∀ blob, ¬ m.unit.Hands blob event) ∧
      (m.step plugin interval event).unit.decrypted = m.unit.decrypted := by
  cases event with
  | operate source decrypt op =>
      simp only [step, PoolUnit.Hands, attempt_decrypted]
      -- Only the last two ways fetch the keychain of an unloaded unit.
      rcases operate_cases ⟨plugin, decrypt, interval⟩ source m.now op m.unit with
        ⟨hclosed, hresult⟩ | ⟨hopen, k, hloaded, hresult⟩ | ⟨hopen, hunloaded, e, -, hresult⟩ |
        ⟨hopen, hunloaded, k, -, hresult⟩
      · exact Or.inr ⟨by simp [hclosed], by rw [hresult]⟩
      · exact Or.inr ⟨by simp [hloaded], by rw [hresult, run_eq]⟩
      all_goals
        rw [hresult, note_decrypted]
        by_cases hfinds : ∃ record, m.unit.Finds source record
        · obtain ⟨record, hfinds⟩ := hfinds
          rw [fetch_of_finds hfinds]
          exact Or.inl ⟨_, ⟨hopen, hunloaded, record, hfinds, rfl⟩, rfl⟩
        · have hnone := not_exists.mp hfinds
          rw [fetch_snd_of_not_finds hnone, List.append_nil]
          refine Or.inr ⟨?_, rfl⟩
          rintro blob ⟨-, -, record, hfound, -⟩
          exact hnone record hfound
  | unload => exact Or.inr ⟨fun _ h => h, rfl⟩
  | unloadIfIdle =>
      refine Or.inr ⟨fun _ h => h, ?_⟩
      show (m.unit.unloadIfIdle m.now).2.decrypted = _
      rcases unloadIfIdle_cases m.unit m.now with hunload | hsame
      · rw [hunload]
        rfl
      · rw [hsame]
  | shutdown => exact Or.inr ⟨fun _ h => h, rfl⟩
  | elapse span => exact Or.inr ⟨fun _ h => h, rfl⟩

/-- So does a history, one event after the other. -/
theorem exists_hands_after (m : Moment) (history : List Event) :
    ∃ blobs, Hands plugin interval m history blobs ∧
      (m.after plugin interval history).unit.decrypted = m.unit.decrypted ++ blobs := by
  induction history generalizing m with
  | nil => exact ⟨[], .nil m, (List.append_nil _).symm⟩
  | cons event history ih =>
      obtain ⟨blobs, hblobs, hlater⟩ := ih (m.step plugin interval event)
      rcases m.decrypted_step plugin interval event with ⟨blob, hhands, hstep⟩ | ⟨hhands, hstep⟩
      · refine ⟨blob :: blobs, .one hhands hblobs, ?_⟩
        rw [after_cons, hlater, hstep, List.append_assoc, List.singleton_append]
      · exact ⟨blobs, .none hhands hblobs, by rw [after_cons, hlater, hstep]⟩

end Moment

/-! ## Main statement -/

/-- **The gate decides whether a unit loads.**  Take a new unit for a mnemonic of a wallet
after any history, with any repository and any decryptor.  If it is open and unloaded, then

* an operation leaves it loaded if and only if the gate admits it and the clock can tell the
  deadline that it would get,
* if it is admitted and the deadline can be told, the operation is served by the new keychain of
  the phrase, whether that succeeds or not; if the deadline cannot be told, the operation crashes,
  and the unit stays unloaded, without a deadline, and keeps what it handed to the decryptor,
* if it is not admitted, it is refused, and with the error of the first check that fails:
  no operation is run then, and the unit stays open and unloaded without a deadline,
* a wallet that is in neither kind of repository is refused as not found.

In every state the answer of the decryptor matters for the blob of the record that an
open, unloaded unit finds, and for no other.  Over the whole history the decryptor was handed one
blob for every operation of an open, unloaded unit that found a record, in their order, and
nothing else. -/
theorem gate_decides_loading (ctx : PoolContext) (wallet mnemonic : Uuid) (start : Nat)
    (history : List Event) (source : RecordSource) (now : Nat) :
    let new := Moment.begin wallet mnemonic start
    let u := (new.after ctx.plugin ctx.interval history).unit
    u.wallet = wallet ∧ u.mnemonic = mnemonic ∧
    (u.isClosed = false → u.keychain = none →
      (∀ op, (u.attempt ctx source now op).2.isLoaded = true ↔
        (∃ record text m, u.Admits ctx source record text m) ∧
          now + ctx.interval < clockEnd) ∧
      (∀ record text m, u.Admits ctx source record text m →
        let noted := { u with decrypted := u.decrypted ++ [record.encryptedMnemonic] }
        (now + ctx.interval < clockEnd →
          ∃ master, KeyNode.ofSeed m.seed ctx.plugin.params.network = .ok master ∧ ∀ op,
            let k := Keychain.ofMaster ctx.plugin.params ctx.plugin.signer
              ctx.plugin.maxRangeSize master
            u.attempt ctx source now op =
              (some (k.perform op).1, { noted with
                keychain := some (k.perform op).2
                deadline := some (now + ctx.interval) })) ∧
        (clockEnd ≤ now + ctx.interval → noted.isClosed = false ∧ noted.keychain = none ∧
          noted.deadline = none ∧ ∀ op, u.attempt ctx source now op = (none, noted))) ∧
      ((¬ ∃ record text m, u.Admits ctx source record text m) →
        ∃ e, u.Refuses ctx source e) ∧
      (∀ e, u.Refuses ctx source e → ∃ u' : PoolUnit,
        u'.isClosed = false ∧ u'.keychain = none ∧ u'.deadline = none ∧
          ∀ op, u.attempt ctx source now op = (some (.error e), u'))) ∧
    (∀ r : MemoryRepository, (∀ record ∈ r.records, record.wallet ≠ wallet) →
      u.Refuses ctx r.get (.walletNotFound wallet.text)) ∧
    (∀ (r : RelationalRepository) (t : WalletTable), r.table = some t →
      (∀ row ∈ t.rows, row .wallet ≠ .text wallet.text) →
      u.Refuses ctx r.get (.walletNotFound wallet.text)) ∧
    (∀ decrypt op, (u.isClosed = false → u.keychain = none → ∀ record,
        u.Finds source record →
          decrypt record.encryptedMnemonic = ctx.decrypt record.encryptedMnemonic) →
      u.attempt { ctx with decrypt } source now op = u.attempt ctx source now op) ∧
    Moment.Hands ctx.plugin ctx.interval new history u.decrypted := by
  intro new u
  have hsettled : Settled wallet mnemonic u :=
    (Settled.begin wallet mnemonic).after (m := new) ctx.plugin ctx.interval history
  refine ⟨hsettled.wallet_eq, hsettled.mnemonic_eq, ?_, ?_, ?_, ?_, ?_⟩
  · intro hopen hunloaded
    have hdeadline := hsettled.deadline_eq_none hunloaded
    refine ⟨?_, ?_, ?_, ?_⟩
    · intro op
      rw [isLoaded_attempt_iff hopen hunloaded hdeadline, isOk_fetch_iff]
    · intro record text m hadmits noted
      exact ⟨attempt_of_admits hopen hunloaded hadmits, fun hbeyond =>
        ⟨hopen, hunloaded, hdeadline,
          attempt_of_admits_of_beyond hopen hunloaded hadmits hbeyond⟩⟩
    · exact (admits_or_refuses u ctx source).resolve_left
    · intro e hrefuses
      exact ⟨u.note (u.fetch ctx source).2, hopen, hunloaded, hdeadline,
        attempt_of_refuses hopen hunloaded hdeadline hrefuses⟩
  · intro r hmissing
    rw [← hsettled.wallet_eq] at hmissing ⊢
    exact refuses_of_no_record hmissing
  · intro r t htable hmissing
    rw [← hsettled.wallet_eq] at hmissing ⊢
    exact refuses_of_no_row htable hmissing
  · intro decrypt op hagrees
    exact attempt_congr_decrypt hagrees op
  · obtain ⟨blobs, hblobs, hlater⟩ :=
      Moment.exists_hands_after ctx.plugin ctx.interval new history
    rw [show new.unit.decrypted = [] from rfl, List.nil_append] at hlater
    rw [show u.decrypted = blobs from hlater]
    exact hblobs

end Keyring.PoolUnit
