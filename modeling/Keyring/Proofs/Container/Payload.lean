import Keyring.Proofs.Container
import Keyring.Proofs.Json.Record

/-!
# Payloads of containers

A container is written in one way and read in many: the fields may come in any order and between
others, or as the items of an array, digits may be of either case, texts may be escaped where they
need not be, and where there are no signatures the field may be missing.  Which documents are read,
and as which container, is what `Carries` says, without the steps of reading.

Since what was written is read back, all payloads of one container come down to a single one: it is
what any of them is turned into by reading and writing, and it stays as it is when this is done
again.
-/

namespace Keyring.Container

open Json Grammar

variable {tree : Tree} {c : Container} {payload : Bytes}

/-! ## Documents of containers -/

/-- A text spells bytes with two hexadecimal digits each, of either case. -/
def SpellsBytes (s : String) (b : Bytes) : Prop :=
  (Bytes.ofString s).map Hex.value? = (Hex.nibbles b).map some

/-- The signatures that are found in the place of their field. -/
inductive Signatures : Option Tree → List String → Prop
  | absent : Signatures none []
  | listed {raws : List Bytes} {texts : List String}
      (h : List.Forall₂ (fun raw s => Text.decode? raw = some s) raws texts) :
      Signatures (some (.array (raws.map .string))) texts

/-- A document holds the fields of a container. -/
inductive Carries : Tree → Container → Prop
  | mk {tree : Tree} {c : Container} {raw digits : Bytes} {s : String} {signatures : Option Tree}
      (hrecord : Tree.Record ["raw_data", "input_count", "signatures"] tree
        [some (.string raw), some (.number ⟨false, digits, none, none⟩), signatures])
      (htext : Text.decode? raw = some s) (hdata : SpellsBytes s c.rawData)
      (hcount : NumberText.digitsValue digits = c.inputCount.toNat)
      (hsignatures : Signatures signatures c.signatures) : Carries tree c

/-! ## Reading the fields -/

theorem hex?_eq_some_iff {b : Bytes} : hex? tree = some b ↔
    ∃ raw s, tree = .string raw ∧ Text.decode? raw = some s ∧ SpellsBytes s b := by
  have hdecode : ∀ s, (Hex.decode s).toOption = some b ↔ SpellsBytes s b := by
    intro s
    rw [SpellsBytes, ← Hex.decodeBytes_eq_ok_iff, Hex.decode]
    cases Hex.decodeBytes (Bytes.ofString s) <;> simp [Except.toOption]
  rw [hex?, Option.bind_eq_bind, Option.bind_eq_some_iff]
  simp only [hdecode, Tree.string?_eq_some_iff]
  constructor
  · rintro ⟨s, ⟨raw, htree, htext⟩, hdata⟩
    exact ⟨raw, s, htree, htext, hdata⟩
  · rintro ⟨raw, s, htree, htext, hdata⟩
    exact ⟨s, ⟨raw, htree, htext⟩, hdata⟩

theorem forall₂_string?_iff {items : List Tree} {texts : List String} :
    List.Forall₂ (fun item s => item.string? = some s) items texts ↔
      ∃ raws : List Bytes, items = raws.map .string ∧
        List.Forall₂ (fun raw s => Text.decode? raw = some s) raws texts := by
  constructor
  · intro h
    induction h with
    | nil => exact ⟨[], rfl, .nil⟩
    | cons hitem _ ih =>
        obtain ⟨raw, rfl, htext⟩ := Tree.string?_eq_some_iff.mp hitem
        obtain ⟨raws, rfl, hrest⟩ := ih
        exact ⟨raw :: raws, rfl, .cons htext hrest⟩
  · rintro ⟨raws, rfl, h⟩
    exact List.forall₂_map_left_iff.mpr h

theorem signatures_eq_some_iff {slot : Option Tree} {texts : List String} :
    Tree.defaulted? [] (Tree.list? Tree.string?) slot = some texts ↔ Signatures slot texts := by
  cases slot with
  | none =>
      rw [Tree.defaulted?, Option.some.injEq]
      constructor
      · rintro rfl
        exact .absent
      · rintro ⟨⟩
        rfl
  | some tree =>
      rw [Tree.defaulted?, Tree.list?_eq_some_iff]
      constructor
      · rintro ⟨items, rfl, hitems⟩
        obtain ⟨raws, rfl, htexts⟩ := forall₂_string?_iff.mp hitems
        exact .listed htexts
      · rintro ⟨⟩
        next raws htexts =>
          exact ⟨raws.map .string, rfl, forall₂_string?_iff.mpr ⟨raws, rfl, htexts⟩⟩

/-- A container is read from the three places of its fields. -/
theorem ofTree?_of_record? {rawData inputCount signatures : Option Tree}
    (h : tree.record? .refused ["raw_data", "input_count", "signatures"] =
      some [rawData, inputCount, signatures]) :
    ofTree? tree = some c ↔ Tree.required? hex? rawData = some c.rawData ∧
      Tree.required? Tree.uint32? inputCount = some c.inputCount ∧
        Tree.defaulted? [] (Tree.list? Tree.string?) signatures = some c.signatures := by
  rw [ofTree?, h]
  simp only [Option.bind_eq_bind, Option.bind_some, Option.bind_eq_some_iff, Option.pure_def,
    Option.some.injEq]
  constructor
  · rintro ⟨data, hdata, count, hcount, texts, htexts, rfl⟩
    exact ⟨hdata, hcount, htexts⟩
  · rintro ⟨hdata, hcount, htexts⟩
    exact ⟨c.rawData, hdata, c.inputCount, hcount, c.signatures, htexts, rfl⟩

theorem ofTree?_eq_some_iff : ofTree? tree = some c ↔ Carries tree c := by
  constructor
  · intro h
    obtain ⟨slots, hslots, -⟩ := Option.bind_eq_some_iff.mp h
    obtain ⟨rawData, inputCount, signatures, rfl⟩ : ∃ rawData inputCount signatures,
        slots = [rawData, inputCount, signatures] :=
      List.length_eq_three.mp (Tree.record?_eq_some_iff.mp hslots).length_eq
    obtain ⟨hdata, hcount, hsignatures⟩ := (ofTree?_of_record? hslots).mp h
    obtain ⟨rawData, rfl, hdata⟩ := Option.bind_eq_some_iff.mp hdata
    obtain ⟨inputCount, rfl, hcount⟩ := Option.bind_eq_some_iff.mp hcount
    obtain ⟨raw, s, rfl, htext, hspells⟩ := hex?_eq_some_iff.mp hdata
    obtain ⟨digits, rfl, hvalue⟩ := Tree.uint32?_eq_some_iff.mp hcount
    exact .mk (Tree.record?_eq_some_iff.mp hslots) htext hspells hvalue
      (signatures_eq_some_iff.mp hsignatures)
  · rintro ⟨hrecord, htext, hdata, hcount, hsignatures⟩
    refine (ofTree?_of_record? (Tree.record?_eq_some_iff.mpr hrecord)).mpr ⟨?_, ?_, ?_⟩
    · exact hex?_eq_some_iff.mpr ⟨_, _, rfl, htext, hdata⟩
    · exact Tree.uint32?_eq_some_iff.mpr ⟨_, rfl, hcount⟩
    · exact signatures_eq_some_iff.mpr hsignatures

/-- The payloads that are read are the spellings of documents that hold the fields. -/
theorem decode_eq_ok_iff : decode payload = .ok c ↔
    ∃ tree, Spelled (.element tree) payload ∧ Carries tree c := by
  have hread : (Tree.ofBytes? payload).bind ofTree? = some c ↔
      ∃ tree, Spelled (.element tree) payload ∧ Carries tree c := by
    rw [Option.bind_eq_some_iff]
    simp only [Tree.ofBytes?_eq_some_iff, ofTree?_eq_some_iff]
  rw [← hread, decode]
  split
  · next found hfound => rw [hfound, Except.ok.injEq, Option.some.injEq]
  · next hnone => simp [hnone]

/-! ## Main statement -/

/-- Reads a payload and writes what was read. -/
def normalize (payload : Bytes) : Except WalletError Bytes :=
  encode <$> decode payload

/-- **Containers and their payloads.**

* Every container is read back from the payload that is written for it, whatever bytes, texts and
  count it has.
* So no two containers are written alike.
* A payload is read exactly if it spells a document that holds the fields of a container, and it is
  read as this container.
* Reading a payload and writing what was read gives a payload of the same container, and doing this
  again changes nothing. -/
theorem payloads_have_normal_forms :
    (∀ c, decode (encode c) = .ok c) ∧
    (∀ c c', encode c = encode c' → c = c') ∧
    (∀ payload c, decode payload = .ok c ↔
      ∃ tree, Spelled (.element tree) payload ∧ Carries tree c) ∧
    (∀ payload c, decode payload = .ok c → ∃ normal, normalize payload = .ok normal ∧
      decode normal = .ok c ∧ normalize normal = .ok normal) := by
  refine ⟨decode_encode, ?_, fun payload c => decode_eq_ok_iff, ?_⟩
  · intro c c' h
    have hread := congrArg decode h
    rw [decode_encode, decode_encode] at hread
    exact Except.ok.inj hread
  · intro payload c h
    refine ⟨encode c, ?_, decode_encode c, ?_⟩
    · rw [normalize, h]
      rfl
    · rw [normalize, decode_encode]
      rfl

end Keyring.Container
