import Keyring.Proofs.Evm.HexFields
import Keyring.Proofs.Json.Document

/-!
# Payloads of requests

A request is read back from its payload, and of any payload it is known beforehand what becomes
of it: no request is made of what is no document, of a document without a tag (`Tagged`) and of
one with the tag of no kind, each with an error of its own.  A tag that is repeated is the last
one.  All that can still go wrong is a field, and a request that is read has the kind of the tag:
the tag is looked at twice, by two tables, which agree.
-/

namespace Keyring.Evm

open Json

/-! ## Members -/

/-- The last member with a name is the first one from behind. -/
theorem Read.member?_eq (name : String) (members : List (String × Tree)) :
    member? name members = (members.reverse.find? (·.1 == name)).map (·.2) := by
  rw [member?, Tree.valuesOf, List.getLast?_map, List.getLast?_eq_head?_reverse,
    ← List.filter_reverse, List.head?_filter]

theorem Read.members_toTree (ms : List (String × Value)) :
    members (Value.object ms).toTree = ms.map fun (name, item) => (name, item.toTree) := by
  rw [Value.toTree, members, Tree.decodeMembers?_memberTrees, Option.getD_some]

/-! ## Tags -/

/-- A document is an object whose last member with the name `type` is a text. -/
def Tagged (tree : Tree) (tag : String) : Prop :=
  ∃ before name raw after, tree = .object (before ++ (name, .string raw) :: after) ∧
    Text.decode? name = some "type" ∧ Text.decode? raw = some tag ∧
    ∀ member ∈ after, Text.decode? member.1 ≠ some "type"

variable {payload : Bytes} {tree : Tree} {tag : String}

/-- Where all names are texts, the last member named `type` is found by its name as written. -/
theorem member?_type {ms : List (Bytes × Tree)}
    (hnames : ∀ m ∈ ms, ∃ s, Text.decode? m.1 = some s) :
    Read.member? "type" (Read.members (.object ms)) =
      (ms.reverse.find? fun m => Text.decode? m.1 == some "type").map (·.2) := by
  have hnamed : Tree.decodeMembers? ms =
      some (ms.map fun m => ((Text.decode? m.1).getD "", m.2)) := by
    rw [Tree.decodeMembers?, mapM_eq_some_iff, List.forall₂_map_right_iff, List.forall₂_same]
    intro m hm
    obtain ⟨s, hs⟩ := hnames m hm
    rw [hs]
    rfl
  rw [Read.member?_eq, Read.members, hnamed, Option.getD_some, ← List.map_reverse,
    List.find?_map, Option.map_map]
  have hsame : ∀ m ∈ ms.reverse, ((Text.decode? m.1).getD "" == "type") =
      (Text.decode? m.1 == some "type") := by
    intro m hm
    obtain ⟨s, hs⟩ := hnames m (List.mem_reverse.mp hm)
    rw [hs]
    rfl
  rw [← List.head?_filter, ← List.head?_filter]
  exact congrArg (fun found => (List.head? found).map (·.2)) (List.filter_congr hsame)

/-- The tag of an object all of whose names are texts. -/
theorem tag_of_object_eq_some_iff {ms : List (Bytes × Tree)}
    (hnames : ∀ m ∈ ms, ∃ s, Text.decode? m.1 = some s) :
    (Read.member? "type" (Read.members (.object ms))).bind Tree.string? = some tag ↔
      Tagged (.object ms) tag := by
  rw [member?_type hnames]
  constructor
  · intro h
    obtain ⟨t, ht, htag⟩ := Option.bind_eq_some_iff.mp h
    obtain ⟨⟨name, t'⟩, hfound, rfl⟩ := Option.map_eq_some_iff.mp ht
    obtain ⟨htype, after, before, hsplit, hafter⟩ := List.find?_eq_some_iff_append.mp hfound
    cases t' with
    | string raw =>
        refine ⟨before.reverse, name, raw, after.reverse, ?_, by simpa using htype, htag, ?_⟩
        · rw [← List.reverse_reverse ms, hsplit]
          simp
        · intro member hmember
          simpa using hafter member (List.mem_reverse.mp hmember)
    | _ => cases htag
  · rintro ⟨before, name, raw, after, hobject, hname, hraw, hafter⟩
    obtain rfl := Tree.object.inj hobject
    have hfound : (before ++ (name, Tree.string raw) :: after).reverse.find?
        (fun m => Text.decode? m.1 == some "type") = some (name, .string raw) := by
      rw [List.find?_eq_some_iff_append]
      refine ⟨by simpa using hname, after.reverse, before.reverse, by simp, ?_⟩
      intro member hmember
      simpa using hafter member (List.mem_reverse.mp hmember)
    rw [hfound]
    exact hraw

theorem tag_eq_some_iff (h : Document payload tree) :
    (Read.member? "type" (Read.members tree)).bind Tree.string? = some tag ↔ Tagged tree tag := by
  have hreadable := h.readable 0 tree (.itself tree)
  cases tree with
  | object ms => exact tag_of_object_eq_some_iff hreadable.2
  | _ =>
      constructor
      · intro h
        cases h
      · rintro ⟨before, name, raw, after, htree, -⟩
        cases htree

theorem Kind.tag_injective {kind kind' : Kind} (h : kind.tag = kind'.tag) : kind = kind' := by
  revert h
  cases kind <;> cases kind' <;> decide

theorem Kind.ofTag_tag (kind : Kind) : ofTag kind.tag = .ok kind := by
  cases kind <;> rfl

theorem Kind.ofTag_of_ne (h : ∀ kind : Kind, kind.tag ≠ tag) :
    ofTag tag = .error (.unsupportedTransaction tag) := by
  unfold ofTag
  split
  · exact absurd rfl (h .legacy)
  · exact absurd rfl (h .accessList)
  · exact absurd rfl (h .dynamicFee)
  · rfl

theorem Read.kind?_eq_some_iff {t : Tree} {kind : Kind} :
    kind? t = some kind ↔ t.string? = some kind.tag := by
  have hfind : ∀ name, [Kind.legacy, .accessList, .dynamicFee].find? (·.tag == name) =
      some kind ↔ name = kind.tag := by
    intro name
    constructor
    · intro h
      have htag := List.find?_some h
      exact (beq_iff_eq.mp htag).symm
    · rintro rfl
      cases kind <;> rfl
  rw [kind?, Option.bind_eq_bind, Option.bind_eq_some_iff]
  constructor
  · rintro ⟨name, hname, hkind⟩
    rw [hname, (hfind name).mp hkind]
  · intro h
    exact ⟨kind.tag, h, (hfind _).mpr rfl⟩

/-- A request that is read has the kind that its tag names. -/
theorem Read.kind_of_request? {members : List (String × Tree)} {r : Request}
    (h : request? members = some r) :
    (member? "type" members).bind Tree.string? = some r.kind.tag := by
  obtain ⟨kind, hkind, h⟩ := Option.bind_eq_some_iff.mp h
  obtain ⟨t, hmember, htag⟩ := Option.bind_eq_some_iff.mp hkind
  -- Whatever the fields are, the request is built of the kind that was read.
  have hsame : r.kind = kind := by
    cases kind with
    | legacy =>
        obtain ⟨c, -, h⟩ := Option.bind_eq_some_iff.mp h
        obtain ⟨gasPrice, -, h⟩ := Option.bind_eq_some_iff.mp h
        cases h
        rfl
    | accessList =>
        obtain ⟨c, -, h⟩ := Option.bind_eq_some_iff.mp h
        obtain ⟨gasPrice, -, h⟩ := Option.bind_eq_some_iff.mp h
        obtain ⟨items, -, h⟩ := Option.bind_eq_some_iff.mp h
        cases h
        rfl
    | dynamicFee =>
        obtain ⟨c, -, h⟩ := Option.bind_eq_some_iff.mp h
        obtain ⟨maxPriorityFee, -, h⟩ := Option.bind_eq_some_iff.mp h
        obtain ⟨maxFee, -, h⟩ := Option.bind_eq_some_iff.mp h
        obtain ⟨items, -, h⟩ := Option.bind_eq_some_iff.mp h
        cases h
        rfl
  rw [hmember, hsame]
  exact kind?_eq_some_iff.mp htag

/-! ## What is read back -/

theorem Read.accessListItem?_toTree (item : AccessListItem) :
    accessListItem? (Write.accessListItem item).toTree = some item := by
  have hslots : ["address", "storageKeys"].mapM
      (Tree.slot? .lastWins
        [("address", (Value.string item.address.lowerText).toTree),
         ("storageKeys",
          (Value.array (item.storageKeys.map fun key => Write.data key.toBytes)).toTree)]) =
      some
        [some (Value.string item.address.lowerText).toTree,
         some (Value.array (item.storageKeys.map fun key => Write.data key.toBytes)).toTree] :=
    rfl
  have hkeys := Tree.list?_toTree storageKey?_data item.storageKeys
  rw [accessListItem?, Write.accessListItem, Tree.record?_toTree]
  simp only [List.map_cons, List.map_nil, hslots, Tree.required?, address?_lowerText, hkeys,
    Option.bind_eq_bind, Option.bind_some]
  rfl

theorem Read.list?_accessList (items : List AccessListItem) :
    Tree.list? accessListItem? (Write.accessList items).toTree = some items :=
  Tree.list?_toTree accessListItem?_toTree items

section Fields

variable {members : List (String × Tree)}

theorem Read.kind?_of_member {kind : Kind}
    (h : member? "type" members = some (Value.string kind.tag).toTree) :
    Tree.required? kind? (member? "type" members) = some kind := by
  rw [h]
  exact kind?_eq_some_iff.mpr (Tree.string?_toTree kind.tag)

theorem Read.call?_of_members {c : Call}
    (hnonce : member? "nonce" members = some (Value.ofNat c.nonce.toNat).toTree)
    (hgas : member? "gas" members = some (Value.ofNat c.gas.toNat).toTree)
    (hto : member? "to" members =
      some (Value.optional (fun a => .string a.lowerText) c.receiver).toTree)
    (hvalue : member? "value" members = some (Value.optional Write.amount c.value).toTree)
    (hdata : member? "data" members = some (Write.data c.data).toTree) :
    call? members = some c := by
  have hreceiver := Tree.open?_optional address?_lowerText c.receiver
  have hamount : Tree.open? amount? (some (Value.optional Write.amount c.value).toTree) =
      some c.value := Tree.open?_optional amount?_amount c.value
  have hcount : ∀ n : UInt64, Tree.uint64? (Value.ofNat n.toNat).toTree = some n :=
    Tree.uint64?_numberText
  have hbytes : Tree.defaulted? [] data? (some (Write.data c.data).toTree) = some c.data :=
    data?_data c.data
  rw [call?, hnonce, hgas, hto, hvalue, hdata, hreceiver, hamount, hbytes]
  simp only [Tree.required?, hcount, Option.bind_eq_bind, Option.bind_some]
  rfl

theorem Read.fee?_of_member {name : String} {fee : Option Word256}
    (h : member? name members = some (Value.optional Write.amount fee).toTree) :
    fee? name members = some fee := by
  rw [fee?, h]
  exact Tree.open?_optional amount?_amount fee

theorem Read.accessList?_of_member {items : List AccessListItem}
    (h : member? "access_list" members = some (Write.accessList items).toTree) :
    accessList? members = some items := by
  rw [accessList?, h]
  exact list?_accessList items

end Fields

theorem Request.request?_toValue (r : Request) :
    Read.request? (Read.members r.toValue.toTree) = some r := by
  cases r with
  | legacy c gasPrice =>
      rw [toValue, Read.members_toTree]
      -- Each field is looked up once; the list of members stays folded for that.
      set members := List.map _ _
      have hkind : Tree.required? Read.kind? (Read.member? "type" members) = some .legacy :=
        Read.kind?_of_member rfl
      have hcall : Read.call? members = some c := Read.call?_of_members rfl rfl rfl rfl rfl
      have hfee : Read.fee? "gas_price" members = some gasPrice := Read.fee?_of_member rfl
      simp only [Read.request?, hkind, hcall, hfee, Option.bind_eq_bind, Option.bind_some]
      rfl
  | accessList c gasPrice items =>
      rw [toValue, Read.members_toTree]
      set members := List.map _ _
      have hkind : Tree.required? Read.kind? (Read.member? "type" members) = some .accessList :=
        Read.kind?_of_member rfl
      have hcall : Read.call? members = some c := Read.call?_of_members rfl rfl rfl rfl rfl
      have hfee : Read.fee? "gas_price" members = some gasPrice := Read.fee?_of_member rfl
      have hitems : Read.accessList? members = some items := Read.accessList?_of_member rfl
      simp only [Read.request?, hkind, hcall, hfee, hitems, Option.bind_eq_bind,
        Option.bind_some]
      rfl
  | dynamicFee c maxPriorityFee maxFee items =>
      rw [toValue, Read.members_toTree]
      set members := List.map _ _
      have hkind : Tree.required? Read.kind? (Read.member? "type" members) = some .dynamicFee :=
        Read.kind?_of_member rfl
      have hcall : Read.call? members = some c := Read.call?_of_members rfl rfl rfl rfl rfl
      have hpriority : Read.fee? "max_priority_fee_per_gas" members = some maxPriorityFee :=
        Read.fee?_of_member rfl
      have hfee : Read.fee? "max_fee_per_gas" members = some maxFee := Read.fee?_of_member rfl
      have hitems : Read.accessList? members = some items := Read.accessList?_of_member rfl
      simp only [Read.request?, hkind, hcall, hpriority, hfee, hitems, Option.bind_eq_bind,
        Option.bind_some]
      rfl

/-! ## Written requests are read as a whole -/

theorem isStrict_accessListItem (limit : Nat) (item : AccessListItem) :
    (Write.accessListItem item).toTree.isStrict (limit + 2) = true := by
  have hkeys :
      (Value.array (item.storageKeys.map fun key => Write.data key.toBytes)).toTree.isStrict
        (limit + 1) = true := by
    rw [Tree.isStrict_array_iff, List.forall_mem_map]
    intro key _
    exact Tree.isStrict_string limit _
  rw [Write.accessListItem, Tree.isStrict_object_iff, List.forall_mem_cons,
    List.forall_mem_singleton]
  exact ⟨Tree.isStrict_string _ _, hkeys⟩

theorem isStrict_accessList (limit : Nat) (items : List AccessListItem) :
    (Write.accessList items).toTree.isStrict (limit + 3) = true := by
  rw [Write.accessList, Tree.isStrict_array_iff, List.forall_mem_map]
  intro item _
  exact isStrict_accessListItem limit item

theorem isStrict_call (limit : Nat) (kind : Kind) (c : Call) {fees : List (String × Value)}
    (hfees : ∀ fee ∈ fees, fee.2.toTree.isStrict limit = true) :
    ∀ member ∈ Write.call kind c fees, member.2.toTree.isStrict limit = true := by
  have hfront : ∀ member ∈ [("type", Value.string kind.tag), ("nonce", .ofNat c.nonce.toNat),
      ("gas", .ofNat c.gas.toNat)], member.2.toTree.isStrict limit = true := by
    rw [List.forall_mem_cons, List.forall_mem_cons, List.forall_mem_singleton]
    exact ⟨Tree.isStrict_string _ _, Tree.isStrict_ofNat _ c.nonce.toNat_lt,
      Tree.isStrict_ofNat _ c.gas.toNat_lt⟩
  have hback : ∀ member ∈ [("to", Value.optional (fun a => .string a.lowerText) c.receiver),
      ("value", .optional Write.amount c.value), ("data", Write.data c.data)],
        member.2.toTree.isStrict limit = true := by
    rw [List.forall_mem_cons, List.forall_mem_cons, List.forall_mem_singleton]
    exact ⟨Tree.isStrict_optional _ _ _, Tree.isStrict_optional _ _ _,
      Tree.isStrict_string _ _⟩
  intro member hmember
  rw [Write.call, List.mem_append, List.mem_append] at hmember
  rcases hmember with (hmember | hmember) | hmember
  · exact hfront member hmember
  · exact hfees member hmember
  · exact hback member hmember

/-- Requests are nested four levels deep at most, and their numbers have 64 bits. -/
theorem Request.isStrict_toValue (r : Request) :
    r.toValue.toTree.isStrict Tree.depthLimit = true := by
  have hfee : ∀ fee : Option Word256,
      (Value.optional Write.amount fee).toTree.isStrict 126 = true :=
    Tree.isStrict_optional 126 fun w : Word256 => "0x" ++ Hex.ofNat w.toNat
  show r.toValue.toTree.isStrict (126 + 1) = true
  cases r with
  | legacy c gasPrice =>
      rw [toValue, Tree.isStrict_object_iff]
      exact isStrict_call 126 _ c (List.forall_mem_singleton.mpr (hfee gasPrice))
  | accessList c gasPrice items =>
      rw [toValue, Tree.isStrict_object_iff, List.forall_mem_append, List.forall_mem_singleton]
      exact ⟨isStrict_call 126 _ c (List.forall_mem_singleton.mpr (hfee gasPrice)),
        isStrict_accessList 123 items⟩
  | dynamicFee c maxPriorityFee maxFee items =>
      rw [toValue, Tree.isStrict_object_iff, List.forall_mem_append, List.forall_mem_singleton]
      refine ⟨isStrict_call 126 _ c ?_, isStrict_accessList 123 items⟩
      rw [List.forall_mem_cons, List.forall_mem_singleton]
      exact ⟨hfee maxPriorityFee, hfee maxFee⟩

/-! ## Decoding -/

theorem Request.decode_of_not_document (h : ¬ ∃ tree, Document payload tree) :
    decode payload = .error (.serialization "payload is no JSON document") := by
  rw [decode, Tree.ofStrictBytes?_eq_none_iff.mpr h]

theorem Request.decode_of_untagged (h : Document payload tree) (htag : ¬ ∃ tag, Tagged tree tag) :
    decode payload = .error (.missingField "type") := by
  have hnone : (Read.member? "type" (Read.members tree)).bind Tree.string? = none := by
    rw [Option.eq_none_iff_forall_ne_some]
    intro tag hsome
    exact htag ⟨tag, (tag_eq_some_iff h).mp hsome⟩
  simp only [decode, Tree.ofStrictBytes?_eq_some_iff.mpr h, hnone]

theorem Request.decode_of_foreign_tag (h : Document payload tree) (htag : Tagged tree tag)
    (hforeign : ∀ kind : Kind, kind.tag ≠ tag) :
    decode payload = .error (.unsupportedTransaction tag) := by
  simp only [decode, Tree.ofStrictBytes?_eq_some_iff.mpr h, (tag_eq_some_iff h).mpr htag,
    Kind.ofTag_of_ne hforeign]
  rfl

/-- Behind a tag of a kind there is a request of this kind, or a field is at fault. -/
theorem Request.decode_of_kind {kind : Kind} (h : Document payload tree)
    (htag : Tagged tree kind.tag) :
    (∃ message, decode payload = .error (.serialization message)) ∨
      ∃ r, decode payload = .ok r ∧ r.kind = kind := by
  have hread := Tree.ofStrictBytes?_eq_some_iff.mpr h
  have hfound := (tag_eq_some_iff h).mpr htag
  cases hrequest : Read.request? (Read.members tree) with
  | none =>
      left
      simp only [decode, hread, hfound, Kind.ofTag_tag, hrequest]
      exact ⟨_, rfl⟩
  | some r =>
      right
      have hkind := Read.kind_of_request? hrequest
      rw [hfound, Option.some.injEq] at hkind
      simp only [decode, hread, hfound, Kind.ofTag_tag, hrequest]
      exact ⟨r, rfl, (Kind.tag_injective hkind).symm⟩

/-- A request is read back from its payload. -/
theorem Request.decode_encode (r : Request) : decode r.encode = .ok r := by
  have hread : Tree.ofStrictBytes? r.encode = some r.toValue.toTree :=
    Tree.ofStrictBytes?_bytes r.isStrict_toValue
  have hrequest := r.request?_toValue
  simp only [decode, hread, Read.kind_of_request? hrequest, hrequest, Kind.ofTag_tag]
  rfl

/-- **Payloads are read by their tag.**  A request is read back from its payload.  What is no
document is refused as such, a document without a tag for the missing field, and one with a
foreign tag by this tag.  With the tag of a kind it is read as a request of this kind, which is
read back in turn, or it is refused. -/
theorem payloads_are_read_by_tag :
    (∀ r : Request, Request.decode r.encode = .ok r) ∧
    ∀ payload,
      ((¬ ∃ tree, Document payload tree) →
        ∃ message, Request.decode payload = .error (.serialization message)) ∧
      ∀ tree, Document payload tree →
        ((¬ ∃ tag, Tagged tree tag) →
          Request.decode payload = .error (.missingField "type")) ∧
        ∀ tag, Tagged tree tag →
          ((∀ kind : Kind, kind.tag ≠ tag) →
            Request.decode payload = .error (.unsupportedTransaction tag)) ∧
          ∀ kind : Kind, kind.tag = tag →
            (∃ message, Request.decode payload = .error (.serialization message)) ∨
            ∃ r, Request.decode payload = .ok r ∧ r.kind = kind ∧
              Request.decode r.encode = .ok r := by
  refine ⟨Request.decode_encode, fun payload => ⟨fun h => ?_, fun tree h => ⟨fun htag => ?_,
    fun tag htag => ⟨fun hforeign => ?_, fun kind hkind => ?_⟩⟩⟩⟩
  · exact ⟨_, Request.decode_of_not_document h⟩
  · exact Request.decode_of_untagged h htag
  · exact Request.decode_of_foreign_tag h htag hforeign
  · obtain rfl := hkind
    rcases Request.decode_of_kind h htag with hfault | ⟨r, hread, hkind⟩
    · exact Or.inl hfault
    · exact Or.inr ⟨r, hread, hkind, Request.decode_encode r⟩

end Keyring.Evm
