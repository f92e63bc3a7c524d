import Keyring.Proofs.Chain.Signing
import Keyring.Proofs.Pool.Lifecycle
import Keyring.Proofs.Wallet.History

/-!
# Signatures of a pool unit

A unit is asked for a signature in whatever state its history has left it: loaded with some
addresses in the cache, or unloaded, so that the keychain is fetched first.  Either way the
keychain is one that a phrase makes (`Plugin.Makes`), so the address it signs for is the one
that is derived from the phrase's master node, and every other unit with a keychain of the
phrase answers with the same address.

The signer checks a signature before it is written.  That the check speaks for the bytes as
well is what `ChainSigner.sign_eq_ok` adds to it.
-/

namespace Keyring

open Keychain (deriveEntry Sound)

/-! ## Keychains of a phrase -/

/-- A keychain of a phrase, in any state that operations can bring it to. -/
def Plugin.Makes (plugin : Plugin) (phrase : String) (k : Keychain) : Prop :=
  ∃ (fresh : Keychain) (ops : List Keychain.Operation),
    plugin.keychain phrase = .ok fresh ∧ k = fresh.after (ops.map .perform)

namespace Plugin.Makes

variable {plugin : Plugin} {phrase : String} {k : Keychain} {p : AddressPath}

theorem of_keychain (h : plugin.keychain phrase = .ok k) : plugin.Makes phrase k :=
  ⟨k, [], h, rfl⟩

theorem perform (h : plugin.Makes phrase k) (op : Keychain.Operation) :
    plugin.Makes phrase (k.perform op).2 := by
  obtain ⟨fresh, ops, hfresh, rfl⟩ := h
  refine ⟨fresh, ops ++ [op], hfresh, ?_⟩
  rw [List.map_append, Keychain.after, Keychain.after, List.foldl_append]
  rfl

/-- Its root is the master node of the phrase, its signer the one of the plugin, and what it
holds is derived from the master node. -/
theorem sound (h : plugin.Makes phrase k) :
    ∃ master, Keychain.masterOf phrase plugin.params.network = .ok master ∧
      Sound plugin.params master k ∧ k.root = some master ∧ k.signer = plugin.signer := by
  obtain ⟨fresh, ops, hfresh, rfl⟩ := h
  obtain ⟨master, hmaster, rfl⟩ := Keychain.ofPhrase_eq_ok_iff.mp hfresh
  have hloaded : Keychain.Event.unload ∉ ops.map Keychain.Event.perform := by simp
  obtain ⟨derived, hkept, -⟩ := Keychain.keeps_after hloaded
  refine ⟨master, hmaster, (Sound.of_ofMaster _ _ _ master).after _, ?_, ?_⟩
  · rw [hkept]
    rfl
  · rw [hkept]
    rfl

/-- What it keeps of a path is what is derived for it, so its cache changes no answer. -/
theorem withEntry_eq (h : plugin.Makes phrase k) {master : KeyNode}
    (hmaster : Keychain.masterOf phrase plugin.params.network = .ok master) (p : AddressPath)
    (use : AddressEntry → Except WalletError Keychain.Answer) :
    (k.withEntry p use).1 = deriveEntry plugin.params master p >>= use := by
  obtain ⟨master', hmaster', hsound, hroot, -⟩ := h.sound
  rw [hmaster] at hmaster'
  cases hmaster'
  exact hsound.withEntry_eq hroot p use

/-- It answers with the address that is derived, from its cache or anew. -/
theorem perform_address_eq (h : plugin.Makes phrase k) {master : KeyNode}
    (hmaster : Keychain.masterOf phrase plugin.params.network = .ok master) (p : AddressPath) :
    (k.perform (.address p)).1 =
      deriveEntry plugin.params master p >>= fun e => .ok (.address e.address) :=
  h.withEntry_eq hmaster p _

theorem perform_address (h : plugin.Makes phrase k) {master : KeyNode} {e : AddressEntry}
    (hmaster : Keychain.masterOf phrase plugin.params.network = .ok master)
    (hderived : deriveEntry plugin.params master p = .ok e) :
    (k.perform (.address p)).1 = .ok (.address e.address) := by
  rw [h.perform_address_eq hmaster, hderived]
  rfl

end Plugin.Makes

/-- The address of an entry is the address of a public key. -/
theorem exists_owner_of_deriveEntry {params : ChainParams} {root : KeyNode} {p : AddressPath}
    {e : AddressEntry} (h : deriveEntry params root p = .ok e) :
    ∃ owner : Secp256k1.Point, e.address = owner.address params.addressEncoding params.network := by
  obtain ⟨⟨account, leaf⟩, -, h⟩ := bind_eq_ok_iff.mp h
  obtain ⟨address, haddress, h⟩ := bind_eq_ok_iff.mp h
  obtain ⟨secret, -, h⟩ := bind_eq_ok_iff.mp h
  obtain ⟨owner, -, howner⟩ := bind_eq_ok_iff.mp haddress
  cases h
  cases howner
  exact ⟨owner, rfl⟩

/-- A keychain signs for the address it derives, and the bytes speak for that address. -/
theorem Plugin.Makes.perform_sign {plugin : Plugin} {phrase : String} {k : Keychain}
    {p : AddressPath} {payload bytes : Bytes} {address : String} (h : plugin.Makes phrase k)
    (hanswer : (k.perform (.sign p payload)).1 = .ok (.signed address bytes)) :
    plugin.signer.Signed address payload bytes ∧
      ∃ master e, Keychain.masterOf phrase plugin.params.network = .ok master ∧
        deriveEntry plugin.params master p = .ok e ∧ e.address = address := by
  obtain ⟨master, hmaster, hsound, hroot, hsigner⟩ := h.sound
  obtain ⟨e, k', hresolve, huse⟩ := Keychain.withEntry_eq_ok hanswer
  obtain ⟨signed, hsign, hpure⟩ := bind_eq_ok_iff.mp huse
  cases hpure
  have hderived := hsound.derived_of_resolve hresolve
  obtain ⟨owner, howner⟩ := exists_owner_of_deriveEntry hderived
  refine ⟨?_, master, e, hmaster, hderived, rfl⟩
  rw [howner] at hsign ⊢
  rw [← hsigner]
  exact ChainSigner.sign_eq_ok hsign

/-! ## Units with a keychain of a phrase -/

namespace PoolUnit

/-- An open unit that has a keychain of a phrase or fetches it when it is asked. -/
def Serves (u : PoolUnit) (ctx : PoolContext) (source : RecordSource) (phrase : String) : Prop :=
  u.isClosed = false ∧ ∃ k, ctx.plugin.Makes phrase k ∧
    (u.keychain = some k ∨ u.keychain = none ∧ (u.fetch ctx source).1 = .ok k)

variable {u : PoolUnit} {ctx : PoolContext} {source : RecordSource} {phrase : String}

theorem exists_phrase_of_fetch_eq_ok {k : Keychain} (h : (u.fetch ctx source).1 = .ok k) :
    ∃ phrase, ctx.plugin.Makes phrase k := by
  unfold fetch at h
  split at h
  · cases h
  · obtain ⟨bytes, -, h⟩ := bind_eq_ok_iff.mp h
    unfold openPhrase at h
    split at h
    · next text _ => exact ⟨text, .of_keychain h⟩
    · cases h

/-- Such a unit answers what the keychain answers. -/
theorem Serves.operate (h : u.Serves ctx source phrase) (now : Nat) (op : Keychain.Operation) :
    ∃ k, ctx.plugin.Makes phrase k ∧
      (u.operate ctx source now op).1 = (k.perform op).1 := by
  obtain ⟨hopen, k, hmakes, hloaded | ⟨hunloaded, hfetch⟩⟩ := h
  · refine ⟨k, hmakes, ?_⟩
    rw [operate_of_loaded ctx source now op hopen hloaded, run_eq]
  · refine ⟨k, hmakes, ?_⟩
    rw [operate_of_fetched ctx source now op hopen hunloaded hfetch]

theorem Serves.operate_address (h : u.Serves ctx source phrase) (now : Nat) {p : AddressPath}
    {master : KeyNode} {e : AddressEntry}
    (hmaster : Keychain.masterOf phrase ctx.plugin.params.network = .ok master)
    (hderived : deriveEntry ctx.plugin.params master p = .ok e) :
    (u.operate ctx source now (.address p)).1 = .ok (.address e.address) := by
  obtain ⟨k, hmakes, hanswer⟩ := h.operate now (.address p)
  rw [hanswer, hmakes.perform_address hmaster hderived]

theorem Serves.operate_sign (h : u.Serves ctx source phrase) {now : Nat} {p : AddressPath}
    {payload bytes : Bytes} {address : String}
    (hanswer : (u.operate ctx source now (.sign p payload)).1 = .ok (.signed address bytes)) :
    ctx.plugin.signer.Signed address payload bytes ∧
      ∃ master e, Keychain.masterOf phrase ctx.plugin.params.network = .ok master ∧
        deriveEntry ctx.plugin.params master p = .ok e ∧ e.address = address := by
  obtain ⟨k, hmakes, hoperate⟩ := h.operate now (.sign p payload)
  rw [hoperate] at hanswer
  exact hmakes.perform_sign hanswer

/-! ## Histories -/

/-- Every keychain that a unit has is one of some phrase. -/
def Honest (plugin : Plugin) (u : PoolUnit) : Prop :=
  ∀ k, u.keychain = some k → ∃ phrase, plugin.Makes phrase k

namespace Honest

variable {plugin : Plugin}

theorem of_unloaded (h : u.keychain = none) : Honest plugin u := by
  intro k hk
  rw [h] at hk
  cases hk

theorem operate (ctx : PoolContext) (h : Honest ctx.plugin u) (source : RecordSource)
    (now : Nat) (op : Keychain.Operation) : Honest ctx.plugin (u.operate ctx source now op).2 := by
  intro k hk
  rcases operate_cases ctx source now op u with ⟨-, hresult⟩ | ⟨-, loaded, hloaded, hresult⟩ |
    ⟨-, hunloaded, e, -, hresult⟩ | ⟨-, -, fetched, hfetch, hresult⟩
  · rw [hresult] at hk
    exact h k hk
  · rw [hresult, run_eq] at hk
    cases hk
    obtain ⟨phrase, hmakes⟩ := h loaded hloaded
    exact ⟨phrase, hmakes.perform op⟩
  · rw [hresult, note_keychain, hunloaded] at hk
    cases hk
  · rw [hresult] at hk
    cases hk
    obtain ⟨phrase, hmakes⟩ := exists_phrase_of_fetch_eq_ok hfetch
    exact ⟨phrase, hmakes.perform op⟩

/-- A crash leaves it so as well. -/
theorem attempt (ctx : PoolContext) (h : Honest ctx.plugin u) (source : RecordSource)
    (now : Nat) (op : Keychain.Operation) : Honest ctx.plugin (u.attempt ctx source now op).2 := by
  have hafter := operate ctx h source now op
  cases htold : (u.operate ctx source now op).2.isTold with
  | true =>
      rw [attempt_of_told htold]
      exact hafter
  | false =>
      rw [attempt_of_untold htold]
      intro k hk
      -- The keychain of a unit that was loaded before is the one that the operation leaves.
      rw [interrupted] at hk
      split at hk
      · exact hafter k hk
      · cases hk

/-- One event keeps it so. -/
theorem step {m : Moment} (h : Honest plugin m.unit) (interval : Nat) (event : Event) :
    Honest plugin (m.step plugin interval event).unit := by
  cases event with
  | operate source decrypt op => exact attempt ⟨plugin, decrypt, interval⟩ h source m.now op
  | unload => exact of_unloaded rfl
  | unloadIfIdle =>
      show Honest plugin (m.unit.unloadIfIdle m.now).2
      rcases unloadIfIdle_cases m.unit m.now with hunload | hsame
      · rw [hunload]
        exact of_unloaded rfl
      · rw [hsame]
        exact h
  | shutdown => exact of_unloaded rfl
  | elapse span => exact h

/-- So does a history. -/
theorem after {m : Moment} (h : Honest plugin m.unit) (interval : Nat) (history : List Event) :
    Honest plugin (m.after plugin interval history).unit := by
  induction history generalizing m with
  | nil => exact h
  | cons event history ih => exact ih (h.step interval event)

/-- An operation that succeeds was served with a keychain of some phrase. -/
theorem exists_serves (ctx : PoolContext) {now : Nat} {op : Keychain.Operation}
    {answer : Keychain.Answer} (h : Honest ctx.plugin u)
    (hanswer : (u.operate ctx source now op).1 = .ok answer) :
    ∃ phrase, u.Serves ctx source phrase := by
  rcases operate_cases ctx source now op u with ⟨-, hresult⟩ | ⟨hopen, k, hloaded, -⟩ |
    ⟨-, -, e, -, hresult⟩ | ⟨hopen, hunloaded, k, hfetch, -⟩
  · rw [hresult] at hanswer
    cases hanswer
  · obtain ⟨phrase, hmakes⟩ := h k hloaded
    exact ⟨phrase, hopen, k, hmakes, Or.inl hloaded⟩
  · rw [hresult] at hanswer
    cases hanswer
  · obtain ⟨phrase, hmakes⟩ := exists_phrase_of_fetch_eq_ok hfetch
    exact ⟨phrase, hopen, k, hmakes, Or.inr ⟨hunloaded, hfetch⟩⟩

end Honest

/-! ## Main statement -/

/-- **What a unit signs recovers to the address of the account.**  Take a unit for a chain of
any family after any history, and let it sign any payload for any path.  If it answers with an
address and bytes, then

* the unit serves some phrase, and every unit of the same parameters that serves this phrase,
  in whatever state it is, answers a request for the path with this address,
* the bytes speak for the address: those of an account chain are read back to the payload's
  transaction, whose signature recovers to the address under the digest computed from what was
  read and the chain id of the parameters; those of the other families are a container with a
  new signature for every input, each of which recovers to the address under the digest,
  encoding and network of the chain. -/
theorem signature_recovers_to_account (params : ChainParams) (pool : PoolConfig)
    (wordsCount interval : Nat) (wallet mnemonic : Uuid) (start : Nat) (history : List Event)
    (source : RecordSource) (decrypt : Bytes → Except WalletError Bytes) (path : AddressPath)
    (payload : Bytes) :
    let plugin := Plugin.ofParams params pool wordsCount
    let m := (Moment.begin wallet mnemonic start).after plugin interval history
    let ctx : PoolContext := ⟨plugin, decrypt, interval⟩
    let answer := (m.unit.operate ctx source m.now (.sign path payload)).1
    (∀ address bytes, answer = .ok (.signed address bytes) →
      (∃ phrase, m.unit.Serves ctx source phrase) ∧
      ∀ phrase, m.unit.Serves ctx source phrase →
        ∀ (ctx' : PoolContext) (source' : RecordSource) (u' : PoolUnit) (now' : Nat),
          ctx'.plugin.params = params → u'.Serves ctx' source' phrase →
            (u'.operate ctx' source' now' (.address path)).1 = .ok (.address address)) ∧
    (∀ address bytes, answer = .ok (.signed address bytes) →
      (ChainSigner.ofParams params pool.maxContainerInputs).Signed address payload bytes) := by
  intro plugin m ctx answer
  have hhonest : Honest plugin m.unit :=
    (Honest.of_unloaded rfl).after (m := .begin wallet mnemonic start) interval history
  constructor
  · intro address bytes hanswer
    refine ⟨hhonest.exists_serves ctx hanswer, ?_⟩
    intro phrase hserves ctx' source' u' now' hparams hserves'
    obtain ⟨-, master, e, hmaster, hderived, rfl⟩ := hserves.operate_sign hanswer
    have hmaster' : Keychain.masterOf phrase ctx'.plugin.params.network = .ok master :=
      hparams ▸ hmaster
    exact hserves'.operate_address now' hmaster' (hparams ▸ hderived)
  · intro address bytes hanswer
    obtain ⟨phrase, hserves⟩ := hhonest.exists_serves ctx hanswer
    exact (hserves.operate_sign hanswer).1

end PoolUnit

end Keyring
