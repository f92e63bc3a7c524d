import Keyring.Proofs.Bytes
import Keyring.Rlp

/-!
# Reading recursive length prefix encodings

The first byte of an item says whether the item is a string or a list and how long its
payload is, or in how many bytes that length is written.  `front?` follows it to the payload
and to what comes behind the item; `items?` reads a list's payload in the same way, until
nothing is left.

Only the form that is written is read: a length is written without leading zeros and only
where the first byte has no room for it, and a byte that stands for itself has no header.
Lengths of more than eight bytes have no header at all, so the statements here are about
encodings of less than `2 ^ 64` bytes.
-/

namespace Keyring.Rlp

/-! ## Reading -/

/-- The first `length` bytes and the bytes behind them, if there are as many. -/
def cut? (length : Nat) (b : Bytes) : Option (Bytes × Bytes) :=
  if length ≤ b.length then some (b.take length, b.drop length) else none

/-- The payload behind a first byte that is `code` above the base of its kind, and the bytes
behind the payload. -/
def payload? (code : Nat) (b : Bytes) : Option (Bytes × Bytes) :=
  if code < 56 then cut? code b
  else
    match cut? (code - 55) b with
    | some (digits, rest) =>
      let length := Bytes.toNat digits
      if 56 ≤ length ∧ Bytes.minimal length = digits then cut? length rest else none
    | none => none

/-- Whether a byte string stands for itself. -/
def isPlain : Bytes → Bool
  | [x] => x < 0x80
  | _ => false

/-- The item in front: whether it is a list, its payload, and the bytes behind it. -/
def front? : Bytes → Option (Bool × Bytes × Bytes)
  | [] => none
  | first :: b =>
    if first < 0x80 then some (false, [first], b)
    else if first < 0xc0 then
      match payload? (first.toNat - 0x80) b with
      | some (payload, rest) => if isPlain payload then none else some (false, payload, rest)
      | none => none
    else (payload? (first.toNat - 0xc0) b).map fun (payload, rest) => (true, payload, rest)

theorem length_of_cut?_eq_some {length : Nat} {b front rest : Bytes}
    (h : cut? length b = some (front, rest)) : front.length + rest.length = b.length := by
  unfold cut? at h
  split at h
  · cases h
    rw [List.length_take, List.length_drop]
    omega
  · cases h

theorem length_of_payload?_eq_some {code : Nat} {b payload rest : Bytes}
    (h : payload? code b = some (payload, rest)) : payload.length + rest.length ≤ b.length := by
  unfold payload? at h
  split at h
  · exact Nat.le_of_eq (length_of_cut?_eq_some h)
  · split at h
    · next digits behind hdigits =>
        have hbehind := length_of_cut?_eq_some hdigits
        simp only at h
        split at h
        · have hpayload := length_of_cut?_eq_some h
          omega
        · cases h
    · cases h

theorem length_of_front?_eq_some {isList : Bool} {b payload rest : Bytes}
    (h : front? b = some (isList, payload, rest)) :
    rest.length < b.length ∧ (isList = true → payload.length < b.length) := by
  cases b with
  | nil => cases h
  | cons first b =>
      simp only [front?] at h
      split at h
      · cases h
        simp
      · split at h
        · split at h
          · next hpayload =>
              have hlength := length_of_payload?_eq_some hpayload
              split at h
              · cases h
              · cases h
                simp only [List.length_cons]
                omega
          · cases h
        · obtain ⟨⟨p, r⟩, hpayload, hpair⟩ := Option.map_eq_some_iff.mp h
          cases hpair
          have hlength := length_of_payload?_eq_some hpayload
          simp only [List.length_cons]
          omega

/-- The items that a byte string is made of, one after another. -/
def items? (b : Bytes) : Option (List Rlp) :=
  match _h : front? b with
  | none => if b.isEmpty then some [] else none
  | some (false, payload, rest) => (items? rest).map (string payload :: ·)
  | some (true, payload, rest) =>
    (items? payload).bind fun inner => (items? rest).map (list inner :: ·)
termination_by b.length
decreasing_by
  · exact (length_of_front?_eq_some _h).1
  · exact (length_of_front?_eq_some _h).2 rfl
  · exact (length_of_front?_eq_some _h).1

/-- The one item that a byte string is. -/
def decode? (b : Bytes) : Option Rlp :=
  match items? b with
  | some [item] => some item
  | _ => none

theorem items?_nil : items? [] = some [] := by
  rw [items?]
  rfl

theorem items?_of_string {b payload rest : Bytes} (h : front? b = some (false, payload, rest)) :
    items? b = (items? rest).map (string payload :: ·) := by
  rw [items?]
  split <;> simp_all

theorem items?_of_list {b payload rest : Bytes} (h : front? b = some (true, payload, rest)) :
    items? b = (items? payload).bind fun inner => (items? rest).map (list inner :: ·) := by
  rw [items?]
  split <;> simp_all

/-! ## Headers -/

theorem cut?_append (front rest : Bytes) :
    cut? front.length (front ++ rest) = some (front, rest) := by
  simp [cut?]

/-- A header is a first byte and the digits of a length, if they are needed. -/
theorem header_spec (base : UInt8) {payload : Bytes} (hfits : payload.length < UInt64.size) :
    ∃ code digits, code < 64 ∧
      header base payload.length = (base + UInt8.ofNat code) :: digits ∧
      ∀ rest, payload? code (digits ++ (payload ++ rest)) = some (payload, rest) := by
  by_cases hshort : payload.length < 56
  · refine ⟨payload.length, [], by omega, by rw [header, if_pos hshort], fun rest => ?_⟩
    rw [payload?, if_pos hshort, List.nil_append, cut?_append]
  · have hpos : 0 < (Bytes.minimal payload.length).length :=
      Bytes.length_minimal_pos (by omega)
    have hle : (Bytes.minimal payload.length).length ≤ 8 := Bytes.length_minimal_le hfits
    refine ⟨55 + (Bytes.minimal payload.length).length, Bytes.minimal payload.length, by omega,
      ?_, fun rest => ?_⟩
    · rw [header, if_neg hshort, UInt8.ofNat_add, ← UInt8.add_assoc]
      rfl
    · rw [payload?, if_neg (by omega), Nat.add_sub_cancel_left, cut?_append]
      simp only [Bytes.toNat_minimal]
      rw [if_pos ⟨by omega, trivial⟩, cut?_append]

theorem toNat_first (base : UInt8) {code : Nat} (h : base.toNat + code < 256) :
    (base + UInt8.ofNat code).toNat = base.toNat + code := by
  rw [UInt8.toNat_add, UInt8.toNat_ofNat']
  omega

/-- A string has a header unless it stands for itself. -/
theorem encodeString_eq (b : Bytes) :
    encodeString b = if isPlain b then b else header 0x80 b.length ++ b := by
  rcases b with _ | ⟨x, _ | ⟨y, b⟩⟩
  · rfl
  · simp [encodeString, isPlain]
  · rfl

theorem front?_of_isPlain {b : Bytes} (h : isPlain b = true) (rest : Bytes) :
    front? (b ++ rest) = some (false, b, rest) := by
  unfold isPlain at h
  split at h
  · exact if_pos (of_decide_eq_true h)
  · cases h

theorem front?_of_string {b : Bytes} (hfits : b.length < UInt64.size) (rest : Bytes) :
    front? (encodeString b ++ rest) = some (false, b, rest) := by
  rw [encodeString_eq]
  split
  · next hplain => exact front?_of_isPlain hplain rest
  · next hplain =>
      obtain ⟨code, digits, hcode, hheader, hpayload⟩ := header_spec 0x80 hfits
      have hfirst : (0x80 + UInt8.ofNat code).toNat = 0x80 + code :=
        toNat_first 0x80 (by show 0x80 + code < 256; omega)
      have hge : ¬ 0x80 + UInt8.ofNat code < 0x80 := by
        rw [UInt8.lt_iff_toNat_lt, hfirst]
        exact Nat.not_lt.mpr (Nat.le_add_right _ _)
      have hlt : 0x80 + UInt8.ofNat code < 0xc0 := by
        rw [UInt8.lt_iff_toNat_lt, hfirst]
        show 0x80 + code < 0xc0
        omega
      rw [hheader, List.cons_append, List.cons_append, List.append_assoc, front?, if_neg hge,
        if_pos hlt, hfirst, Nat.add_sub_cancel_left, hpayload]
      exact if_neg hplain

theorem front?_of_list {b : Bytes} (hfits : b.length < UInt64.size) (rest : Bytes) :
    front? (header 0xc0 b.length ++ (b ++ rest)) = some (true, b, rest) := by
  obtain ⟨code, digits, hcode, hheader, hpayload⟩ := header_spec 0xc0 hfits
  have hfirst : (0xc0 + UInt8.ofNat code).toNat = 0xc0 + code :=
    toNat_first 0xc0 (by show 0xc0 + code < 256; omega)
  have hge : ∀ bound : UInt8, bound.toNat ≤ 0xc0 → ¬ 0xc0 + UInt8.ofNat code < bound := by
    intro bound hbound
    rw [UInt8.lt_iff_toNat_lt, hfirst]
    omega
  rw [hheader, List.cons_append, front?, if_neg (hge 0x80 (by decide)),
    if_neg (hge 0xc0 (by decide)), hfirst, Nat.add_sub_cancel_left, hpayload]
  rfl

/-! ## Reading what was written -/

theorem length_le_length_encodeString (b : Bytes) : b.length ≤ (encodeString b).length := by
  rw [encodeString_eq]
  split
  · exact Nat.le_refl _
  · rw [List.length_append]
    omega

mutual

/-- An encoded item is read back, and reading goes on behind it. -/
theorem items?_encode_append : ∀ (item : Rlp) (rest : Bytes),
    (encode item).length < UInt64.size →
      items? (encode item ++ rest) = (items? rest).map (item :: ·)
  | .string b, rest, hfits => by
      rw [encode] at hfits ⊢
      have hb : b.length < UInt64.size :=
        Nat.lt_of_le_of_lt (length_le_length_encodeString b) hfits
      exact items?_of_string (front?_of_string hb rest)
  | .list items, rest, hfits => by
      simp only [encode, List.length_append] at hfits ⊢
      have hpayload : (encodeItems items).length < UInt64.size := by omega
      have hinner : items? (encodeItems items) = some items := by
        have happend := items?_encodeItems_append items [] hpayload
        rwa [List.append_nil, items?_nil, Option.map_some, List.append_nil] at happend
      rw [List.append_assoc, items?_of_list (front?_of_list hpayload rest), hinner,
        Option.bind_some]

/-- So are encoded items one after another. -/
theorem items?_encodeItems_append : ∀ (items : List Rlp) (rest : Bytes),
    (encodeItems items).length < UInt64.size →
      items? (encodeItems items ++ rest) = (items? rest).map (items ++ ·)
  | [], rest, _ => by
      simp [encodeItems]
  | item :: items, rest, hfits => by
      simp only [encodeItems, List.length_append] at hfits ⊢
      rw [List.append_assoc, items?_encode_append item _ (by omega),
        items?_encodeItems_append items rest (by omega), Option.map_map]
      rfl

end

/-- Reading undoes writing. -/
theorem decode?_encode {item : Rlp} (hfits : (encode item).length < UInt64.size) :
    decode? (encode item) = some item := by
  have hitems := items?_encode_append item [] hfits
  rw [List.append_nil, items?_nil, Option.map_some] at hitems
  rw [decode?, hitems]

/-- The first byte of a list is no byte that stands for itself. -/
theorem encode_list_head {items : List Rlp} {first : UInt8} {rest : Bytes}
    (hfits : (encode (.list items)).length < UInt64.size)
    (h : encode (.list items) = first :: rest) : 0xc0 ≤ first.toNat := by
  have hpayload : (encodeItems items).length < UInt64.size := by
    rw [encode, List.length_append] at hfits
    omega
  obtain ⟨code, digits, hcode, hheader, -⟩ := header_spec 0xc0 hpayload
  rw [encode, hheader, List.cons_append, List.cons.injEq] at h
  rw [← h.1, toNat_first 0xc0 (by show 0xc0 + code < 256; omega)]
  exact Nat.le_add_right _ _

/-- A number is told by its item. -/
@[simp] theorem natural_inj {m n : Nat} : natural m = natural n ↔ m = n := by
  rw [natural, natural, string.injEq]
  exact ⟨Bytes.minimal_injective, congrArg Bytes.minimal⟩

end Keyring.Rlp
