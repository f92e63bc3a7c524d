import Mathlib.Data.List.Induction
import Keyring.Chain.Params
import Keyring.Proofs.Outcome

/-!
# What a builder is told first, and what it is told last

A builder takes its chain id and its coin type from the first call that sets them and all other
parameters from the last call that gives them.  Whether a value is set is kept apart from the
defaults, so neither the values of a preset nor a value that is equal to the default count as set
(`Told`): the first call always succeeds, and every later one is refused and leaves the builder as
it is.  Applying a configuration is nothing but such calls (`after_callsOf`).
-/

namespace Keyring.ChainBuilder

variable {b b' : ChainBuilder} {calls : List Call}

/-! ## Builders at the start -/

/-- A builder that was told nothing yet, with the defaults of a family or of a known chain. -/
inductive Starts : ChainBuilder → Prop
  | ofFamily (name : String) (family : ChainFamily) : Starts (.ofFamily name family)
  | preset {name : String} {b : ChainBuilder} (h : preset? name = some b) : Starts b

/-- Defaults do not count as set. -/
theorem Starts.unset (h : b.Starts) : b.chainId? = none ∧ b.coinType? = none := by
  cases h with
  | ofFamily name family => exact ⟨rfl, rfl⟩
  | preset h =>
      unfold preset? at h
      split at h <;> cases h <;> exact ⟨rfl, rfl⟩

/-! ## Calls -/

namespace Call

/-- The value that a call gives to the chain id, and likewise for the other parameters. -/
def chainId? : Call → Option UInt64
  | setChainId chainId => some chainId
  | _ => none

def coinType? : Call → Option UInt32
  | setCoinType coinType => some coinType
  | _ => none

def purpose? : Call → Option UInt32
  | purpose level => some level
  | _ => none

def network? : Call → Option Network
  | network name => some name
  | _ => none

def addressEncoding? : Call → Option AddressEncoding
  | addressEncoding encoding => some encoding
  | _ => none

/-- The value that is given first. -/
def first {α : Type} (value? : Call → Option α) (calls : List Call) : Option α :=
  calls.findSome? value?

/-- The value that is given last. -/
def last {α : Type} (value? : Call → Option α) (calls : List Call) : Option α :=
  calls.reverse.findSome? value?

variable {α : Type} (value? : Call → Option α) (calls : List Call) (call : Call)

theorem first_concat :
    first value? (calls ++ [call]) = (first value? calls).or (value? call) := by
  rw [first, List.findSome?_append, List.findSome?_singleton, first]

theorem last_concat : last value? (calls ++ [call]) = (value? call).or (last value? calls) := by
  rw [last, List.reverse_append, List.reverse_singleton, List.singleton_append, List.findSome?_cons,
    last]
  cases value? call <;> rfl

/-- No value is given if the call that gives values is not made. -/
theorem first_eq_none_iff {value? : Call → Option α} {tell : α → Call}
    (htell : ∀ call value, value? call = some value ↔ call = tell value) :
    first value? calls = none ↔ ∀ value, tell value ∉ calls := by
  rw [first, List.findSome?_eq_none_iff]
  constructor
  · intro h value hmem
    have hvalue := (htell (tell value) value).mpr rfl
    rw [h _ hmem] at hvalue
    cases hvalue
  · intro h call hmem
    refine Option.eq_none_iff_forall_ne_some.mpr fun value hvalue => ?_
    exact h value ((htell call value).mp hvalue ▸ hmem)

theorem exists_first_of_mem {value? : Call → Option α} {tell : α → Call} {value : α}
    (htell : ∀ call value, value? call = some value ↔ call = tell value)
    (hmem : tell value ∈ calls) : ∃ set, first value? calls = some set := by
  refine Option.ne_none_iff_exists'.mp fun hnone => ?_
  exact (first_eq_none_iff calls htell).mp hnone value hmem

theorem chainId?_eq_some_iff (call : Call) (chainId : UInt64) :
    call.chainId? = some chainId ↔ call = setChainId chainId := by
  cases call <;> simp [chainId?]

theorem coinType?_eq_some_iff (call : Call) (coinType : UInt32) :
    call.coinType? = some coinType ↔ call = setCoinType coinType := by
  cases call <;> simp [coinType?]

end Call

/-! ## One call -/

theorem call_setChainId_of_none (h : b.chainId? = none) (chainId : UInt64) :
    b.call (.setChainId chainId) = (.ok .done, { b with chainId? := some chainId }) := by
  simp only [call, setChainId, h, Option.isSome_none, Bool.false_eq_true, if_false]

theorem call_setChainId_of_some {set : UInt64} (h : b.chainId? = some set) (chainId : UInt64) :
    b.call (.setChainId chainId) = (.error (.alreadySet "chain_id"), b) := by
  simp only [call, setChainId, h, Option.isSome_some, if_true]

theorem call_setCoinType_of_none (h : b.coinType? = none) (coinType : UInt32) :
    b.call (.setCoinType coinType) = (.ok .done, { b with coinType? := some coinType }) := by
  simp only [call, setCoinType, h, Option.isSome_none, Bool.false_eq_true, if_false]

theorem call_setCoinType_of_some {set : UInt32} (h : b.coinType? = some set)
    (coinType : UInt32) :
    b.call (.setCoinType coinType) = (.error (.alreadySet "coin_type"), b) := by
  simp only [call, setCoinType, h, Option.isSome_some, if_true]

/-- All that a call does to a builder: a value is set if none is, and replaced if it may be. -/
theorem snd_call (b : ChainBuilder) (call : Call) :
    (b.call call).2 = { b with
      chainId? := b.chainId?.or call.chainId?
      coinType? := b.coinType?.or call.coinType?
      purpose := call.purpose?.getD b.purpose
      network := call.network?.getD b.network
      addressEncoding := call.addressEncoding?.getD b.addressEncoding } := by
  obtain ⟨_, _, chainId?, coinType?, _, _, _, _, _⟩ := b
  cases call with
  | setChainId chainId =>
      cases chainId? with
      | none => rw [call_setChainId_of_none rfl]; cases coinType? <;> rfl
      | some set => rw [call_setChainId_of_some rfl]; cases coinType? <;> rfl
  | setCoinType coinType =>
      cases coinType? with
      | none => rw [call_setCoinType_of_none rfl]; cases chainId? <;> rfl
      | some set => rw [call_setCoinType_of_some rfl]; cases chainId? <;> rfl
  | purpose | network | addressEncoding | build => cases chainId? <;> cases coinType? <;> rfl

/-! ## Sequences of calls -/

/-- The builder after a sequence of calls, the ones that are refused included. -/
def after (b : ChainBuilder) (calls : List Call) : ChainBuilder :=
  calls.foldl (fun b call => (b.call call).2) b

theorem after_append (b : ChainBuilder) (calls more : List Call) :
    b.after (calls ++ more) = (b.after calls).after more :=
  List.foldl_append

theorem after_concat (b : ChainBuilder) (calls : List Call) (call : Call) :
    b.after (calls ++ [call]) = ((b.after calls).call call).2 :=
  after_append b calls [call]

/-- What became of a builder `b` that was told a sequence of calls: what is set are the first
values, and what can be given again are the last ones. -/
structure Told (b : ChainBuilder) (calls : List Call) (now : ChainBuilder) : Prop where
  name_eq : now.name = b.name
  family_eq : now.family = b.family
  defaultChainId_eq : now.defaultChainId = b.defaultChainId
  defaultCoinType_eq : now.defaultCoinType = b.defaultCoinType
  chainId?_eq : now.chainId? = Call.first Call.chainId? calls
  coinType?_eq : now.coinType? = Call.first Call.coinType? calls
  purpose_eq : now.purpose = (Call.last Call.purpose? calls).getD b.purpose
  network_eq : now.network = (Call.last Call.network? calls).getD b.network
  addressEncoding_eq :
    now.addressEncoding = (Call.last Call.addressEncoding? calls).getD b.addressEncoding

namespace Told

theorem start (h : b.Starts) : b.Told [] b where
  name_eq := rfl
  family_eq := rfl
  defaultChainId_eq := rfl
  defaultCoinType_eq := rfl
  chainId?_eq := h.unset.1
  coinType?_eq := h.unset.2
  purpose_eq := rfl
  network_eq := rfl
  addressEncoding_eq := rfl

/-- One more call, whether it is refused or not. -/
theorem call (h : b.Told calls b') (call : Call) :
    b.Told (calls ++ [call]) (b'.call call).2 := by
  rw [snd_call]
  exact {
    name_eq := h.name_eq
    family_eq := h.family_eq
    defaultChainId_eq := h.defaultChainId_eq
    defaultCoinType_eq := h.defaultCoinType_eq
    chainId?_eq := by rw [Call.first_concat, h.chainId?_eq]
    coinType?_eq := by rw [Call.first_concat, h.coinType?_eq]
    purpose_eq := by rw [Call.last_concat, Option.getD_or, h.purpose_eq]
    network_eq := by rw [Call.last_concat, Option.getD_or, h.network_eq]
    addressEncoding_eq := by rw [Call.last_concat, Option.getD_or, h.addressEncoding_eq] }

theorem after (h : b.Starts) (calls : List Call) : b.Told calls (b.after calls) := by
  induction calls using List.reverseRecOn with
  | nil => exact start h
  | append_singleton calls call ih =>
      rw [after_concat]
      exact ih.call call

end Told

/-! ## Configurations -/

/-- What a builder is told by a configuration. -/
def callsOf (c : ChainConfig) : List Call :=
  (c.chainId.map .setChainId).toList ++ (c.coinType.map .setCoinType).toList ++
    (c.addressEncoding.map .addressEncoding).toList ++ [.purpose c.purpose, .network c.network]

theorem configure_eq (b : ChainBuilder) (c : ChainConfig) : b.configure c =
    c.chainId.elim (.ok b) b.setChainId >>= fun b =>
      c.coinType.elim (.ok b) b.setCoinType >>= fun b =>
        .ok { b with
          addressEncoding := c.addressEncoding.getD b.addressEncoding
          purpose := c.purpose
          network := c.network } := by
  obtain ⟨_, chainId?, coinType?, _, _, _⟩ := c
  cases chainId? <;> cases coinType? <;> rfl

/-- A value that is set if there is one is a call that is made if there is one. -/
theorem after_toList_of_elim {α : Type} {value? : Option α}
    {set : α → Except WalletError ChainBuilder} {tell : α → Call}
    (hset : ∀ value b', set value = .ok b' → (b.call (tell value)).2 = b')
    (h : value?.elim (.ok b) set = .ok b') : b.after (value?.map tell).toList = b' := by
  cases value? with
  | none => exact Except.ok.inj h
  | some value => exact hset value b' h

/-- A configuration that can be applied is applied by its calls. -/
theorem after_callsOf {c : ChainConfig} (h : b.configure c = .ok b') :
    b.after (callsOf c) = b' := by
  rw [configure_eq] at h
  obtain ⟨b₁, hchainId, h⟩ := bind_eq_ok_iff.mp h
  obtain ⟨b₂, hcoinType, h⟩ := bind_eq_ok_iff.mp h
  cases h
  have hfirst : b.after (c.chainId.map Call.setChainId).toList = b₁ :=
    after_toList_of_elim (fun _ _ hset => by rw [call, hset]) hchainId
  have hsecond : b₁.after (c.coinType.map Call.setCoinType).toList = b₂ :=
    after_toList_of_elim (fun _ _ hset => by rw [call, hset]) hcoinType
  rw [callsOf, after_append, after_append, after_append, hfirst, hsecond]
  cases c.addressEncoding <;> rfl

/-! ## Main statement -/

/-- **The first value stays where a value is set, the last one where it is given.**  Take the
builder of a family or of a known chain and any sequence of calls.  The parameters that it gives
are those of the first call that sets the chain id and of the first one that sets the coin type,
or the defaults of the builder if there is none, and those of the last calls that give the
purpose, the network and the encoding, or what was there at the start.

A call that sets the chain id or the coin type succeeds if there was none like it before, whatever
its value, and changes nothing else.  If there was one, whatever its value was, the call is refused
with the name of its own field, and the builder stays as it is.  Asking for the parameters changes
nothing. -/
theorem parameters_are_set_once (h : b.Starts) (calls : List Call) :
    let now := b.after calls
    now.build = {
      name := b.name
      family := b.family
      chainId := (Call.first Call.chainId? calls).getD b.defaultChainId
      coinType := (Call.first Call.coinType? calls).getD b.defaultCoinType
      purpose := (Call.last Call.purpose? calls).getD b.purpose
      network := (Call.last Call.network? calls).getD b.network
      addressEncoding := (Call.last Call.addressEncoding? calls).getD b.addressEncoding } ∧
    (∀ chainId,
      ((∀ value, .setChainId value ∉ calls) →
        now.call (.setChainId chainId) = (.ok .done, { now with chainId? := some chainId })) ∧
      ((∃ value, .setChainId value ∈ calls) →
        now.call (.setChainId chainId) = (.error (.alreadySet "chain_id"), now))) ∧
    (∀ coinType,
      ((∀ value, .setCoinType value ∉ calls) →
        now.call (.setCoinType coinType) = (.ok .done, { now with coinType? := some coinType })) ∧
      ((∃ value, .setCoinType value ∈ calls) →
        now.call (.setCoinType coinType) = (.error (.alreadySet "coin_type"), now))) ∧
    now.call .build = (.ok (.params now.build), now) := by
  intro now
  have htold : b.Told calls now := .after h calls
  refine ⟨?_, fun chainId => ⟨fun hnew => ?_, fun ⟨value, hmem⟩ => ?_⟩,
    fun coinType => ⟨fun hnew => ?_, fun ⟨value, hmem⟩ => ?_⟩, rfl⟩
  · rw [build, chainId, coinType, htold.name_eq, htold.family_eq, htold.chainId?_eq,
      htold.coinType?_eq, htold.defaultChainId_eq, htold.defaultCoinType_eq, htold.purpose_eq,
      htold.network_eq, htold.addressEncoding_eq]
  · refine call_setChainId_of_none ?_ chainId
    rw [htold.chainId?_eq, Call.first_eq_none_iff calls Call.chainId?_eq_some_iff]
    exact hnew
  · obtain ⟨set, hset⟩ := Call.exists_first_of_mem calls Call.chainId?_eq_some_iff hmem
    exact call_setChainId_of_some (htold.chainId?_eq.trans hset) chainId
  · refine call_setCoinType_of_none ?_ coinType
    rw [htold.coinType?_eq, Call.first_eq_none_iff calls Call.coinType?_eq_some_iff]
    exact hnew
  · obtain ⟨set, hset⟩ := Call.exists_first_of_mem calls Call.coinType?_eq_some_iff hmem
    exact call_setCoinType_of_some (htold.coinType?_eq.trans hset) coinType

/-- The chain id of a preset can be set to the value that it has, and then it is set. -/
theorem tron_chain_id_is_set_once :
    let b := { ofFamily "tron" .tron with
      defaultChainId := 728126428, defaultCoinType := 195 }
    preset? "tron" = some b ∧
      (b.call (.setChainId 728126428)).1 = .ok .done ∧
      ((b.after [.setChainId 728126428]).call (.setChainId 5)).1 =
        .error (.alreadySet "chain_id") ∧
      (b.after [.setChainId 728126428, .setChainId 5, .purpose 49, .build, .purpose 84]).build =
        ⟨"tron", .tron, 728126428, 195, 84, .mainnet, .tron⟩ := by
  intro b
  have hpreset : preset? "tron" = some b := rfl
  have hstarts : b.Starts := .preset hpreset
  obtain ⟨-, hfirst, -⟩ := parameters_are_set_once hstarts []
  obtain ⟨-, hagain, -⟩ := parameters_are_set_once hstarts [.setChainId 728126428]
  refine ⟨hpreset, ?_, ?_, (parameters_are_set_once hstarts _).1⟩
  · exact congrArg Prod.fst ((hfirst 728126428).1 fun value => List.not_mem_nil)
  · exact congrArg Prod.fst ((hagain 5).2 ⟨728126428, List.mem_singleton_self _⟩)

end Keyring.ChainBuilder
