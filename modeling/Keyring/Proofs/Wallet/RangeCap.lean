import Mathlib.Algebra.Order.Ring.Nat
import Mathlib.Data.List.Induction
import Keyring.Config.Basic
import Keyring.Proofs.Wallet.Ranges

/-!
# The cap on requests for ranges

A request is refused in the name of the first range that is reversed or with which it asks for
too many addresses.  Addresses are counted with 32 bits: a count that does not fit is taken for
the largest number that does (`tally`).  Below the largest cap nobody can tell, because a count
that was cut off is still beyond the cap (`tally_le_iff`).  The largest cap itself is never
exceeded: with it, only the order of the bounds is looked at.
-/

namespace Keyring

theorem AddressRange.length_span {r : AddressRange} (h : r.first ≤ r.last) :
    r.span.length = r.size := by
  rw [UInt32.le_iff_toNat_le] at h
  rw [span, List.length_map, List.length_range', size]
  omega

namespace Keychain

/-- The largest cap, which is also where counting stops. -/
def largestCap : UInt32 :=
  0xffffffff

/-- A number of addresses as it is counted. -/
def tally (n : Nat) : Nat :=
  min n largestCap.toNat

theorem tally_add_tally (m n : Nat) : tally (tally m + tally n) = tally (m + n) := by
  unfold tally
  omega

/-- The largest cap is the only one that a count cannot exceed. -/
theorem tally_le_iff {limit : UInt32} {n : Nat} :
    tally n ≤ limit.toNat ↔ (limit ≠ largestCap → n ≤ limit.toNat) := by
  have hlimit : limit.toNat ≤ largestCap.toNat := Nat.le_of_lt_succ limit.toNat_lt
  rw [tally, Ne, ← UInt32.toNat_inj]
  omega

/-- Ranges that are in order and do not ask for more addresses than the cap lets them. -/
structure WithinCap (limit : UInt32) (ranges : List AddressRange) : Prop where
  ordered : ∀ r ∈ ranges, r.first ≤ r.last
  total_le : limit ≠ largestCap → (requested ranges).length ≤ limit.toNat

variable {limit : UInt32} {ranges before after : List AddressRange} {r : AddressRange}

theorem requested_append (before after : List AddressRange) :
    requested (before ++ after) = requested before ++ requested after :=
  List.flatMap_append

theorem requested_singleton (r : AddressRange) : requested [r] = r.span := by
  rw [requested, List.flatMap_cons, List.flatMap_nil, List.append_nil]

/-- The addresses of ranges in order are those that their lists of paths hold together. -/
theorem length_requested {paths : List (List AddressPath)}
    (h : ranges.mapM AddressRange.paths = .ok paths) :
    (requested ranges).length = (paths.map List.length).sum := by
  have hordered : ∀ r ∈ ranges, ¬ r.last < r.first := by
    intro r hr hreversed
    obtain ⟨ps, hps⟩ := exists_eq_ok_of_mapM_eq_ok h hr
    obtain ⟨count, hcount, -⟩ := bind_eq_ok_iff.mp hps
    rw [AddressRange.count, if_pos hreversed] at hcount
    cases hcount
  have hspans := mapM_eq_ok_map fun r hr => AddressRange.paths_eq_span (hordered r hr)
  rw [h] at hspans
  cases hspans
  rw [requested, List.length_flatMap, List.map_map]
  rfl

namespace WithinCap

theorem nil (limit : UInt32) : WithinCap limit [] where
  ordered := by simp
  total_le := fun _ => Nat.zero_le _

theorem of_append (h : WithinCap limit (before ++ after)) : WithinCap limit before where
  ordered := fun r hr => h.ordered r (List.mem_append_left _ hr)
  total_le := by
    intro hlimit
    have htotal := h.total_le hlimit
    rw [requested_append, List.length_append] at htotal
    omega

/-- Either all of a request is within the cap, or there is a first range that is not. -/
theorem or_first_beyond (limit : UInt32) (ranges : List AddressRange) :
    WithinCap limit ranges ∨ ∃ before r after, ranges = before ++ r :: after ∧
      WithinCap limit before ∧ ¬ WithinCap limit (before ++ [r]) := by
  induction ranges using List.reverseRecOn with
  | nil => exact Or.inl (nil limit)
  | append_singleton ranges r ih =>
      rcases ih with hwithin | ⟨before, r', after, rfl, hbefore, hbeyond⟩
      · by_cases hall : WithinCap limit (ranges ++ [r])
        · exact Or.inl hall
        · exact Or.inr ⟨ranges, r, [], rfl, hwithin, hall⟩
      · -- Asking for one more range does not change which one was the first.
        refine Or.inr ⟨before, r', after ++ [r], ?_, hbefore, hbeyond⟩
        rw [List.append_assoc, List.cons_append]

end WithinCap

/-! ## One range -/

theorem checkRanges_of_reversed (h : r.last < r.first) (limit : UInt32) (total : Nat)
    (rest : List AddressRange) :
    checkRanges limit total (r :: rest) = .error (.invalidRange r.first r.last) := by
  have hcount : r.count = .error (.invalidRange r.first r.last) := if_pos h
  rw [checkRanges, hcount]
  rfl

/-- A range in order is counted, and the request goes on if it is still within the cap. -/
theorem checkRanges_of_ordered (h : r.first ≤ r.last) (limit : UInt32) (total : Nat)
    (rest : List AddressRange) :
    checkRanges limit (tally total) (r :: rest) =
      if tally (total + r.span.length) ≤ limit.toNat then
        checkRanges limit (tally (total + r.span.length)) rest
      else .error (.invalidRange r.first r.last) := by
  have hcount : r.count = .ok (UInt32.ofNat (tally r.size)) := if_neg (by simpa using h)
  have hsize : (UInt32.ofNat (tally r.size)).toNat = tally r.span.length := by
    rw [AddressRange.length_span h]
    exact UInt32.toNat_ofNat_of_lt' (Nat.lt_succ_of_le (Nat.min_le_right _ _))
  -- Both saturating additions together are one: a cut-off number stays cut off.
  have hsum : min (tally total + (UInt32.ofNat (tally r.size)).toNat) (UInt32.size - 1) =
      tally (total + r.span.length) := by
    rw [hsize]
    exact tally_add_tally total r.span.length
  rw [checkRanges, hcount]
  show (if limit.toNat < min (tally total + (UInt32.ofNat (tally r.size)).toNat) _ then _
    else _) = _
  rw [hsum]
  by_cases hbeyond : limit.toNat < tally (total + r.span.length)
  · rw [if_pos hbeyond, if_neg (Nat.not_le.mpr hbeyond)]
  · rw [if_neg hbeyond, if_pos (Nat.not_lt.mp hbeyond)]

/-! ## Requests -/

/-- What is within the cap is counted, and the rest of the request decides. -/
theorem checkRanges_append (h : WithinCap limit before) (rest : List AddressRange) :
    checkRanges limit 0 (before ++ rest) =
      checkRanges limit (tally (requested before).length) rest := by
  induction before using List.reverseRecOn generalizing rest with
  | nil => rfl
  | append_singleton before r ih =>
      have hordered : r.first ≤ r.last := h.ordered r (by simp)
      have htally := tally_le_iff.mpr h.total_le
      rw [requested_append, requested_singleton, List.length_append] at htally ⊢
      rw [List.append_assoc, List.singleton_append, ih h.of_append,
        checkRanges_of_ordered hordered, if_pos htally]

theorem checkRanges_of_within (h : WithinCap limit ranges) :
    checkRanges limit 0 ranges = .ok () := by
  have hall := checkRanges_append h []
  rw [List.append_nil] at hall
  rw [hall, checkRanges]

theorem checkRanges_of_beyond (hbefore : WithinCap limit before)
    (hbeyond : ¬ WithinCap limit (before ++ [r])) (after : List AddressRange) :
    checkRanges limit 0 (before ++ r :: after) = .error (.invalidRange r.first r.last) := by
  rw [checkRanges_append hbefore]
  by_cases hreversed : r.last < r.first
  · exact checkRanges_of_reversed hreversed limit _ after
  · have hordered : r.first ≤ r.last := by simpa using hreversed
    rw [checkRanges_of_ordered hordered, if_neg]
    intro htally
    refine hbeyond ⟨?_, ?_⟩
    · intro r' hr'
      rcases List.mem_append.mp hr' with hr' | hr'
      · exact hbefore.ordered r' hr'
      · rw [List.mem_singleton.mp hr']
        exact hordered
    · rw [requested_append, requested_singleton, List.length_append]
      exact tally_le_iff.mp htally

/-! ## Main statement -/

/-- The range of all addresses of an account and change. -/
def wholeRange : AddressRange :=
  ⟨0, 0, 0, 0xffffffff⟩

/-- **Requests beyond the cap are refused, unless the cap is the largest one.**  A request is
accepted if it is within the cap, else it is refused in the name of the first range with which
it is not.  With any cap but the largest, to be within it is to be in order and to ask for no
more addresses, counted exactly, than the cap.  The largest cap may be configured, but it holds
back nothing: two ranges of which the first alone asks for more are refused only because the
second is reversed, and in its name. -/
theorem cap_holds_below_largest (limit : UInt32) (ranges : List AddressRange) :
    (checkRanges limit 0 ranges = .ok () ↔ WithinCap limit ranges) ∧
    (∀ e, checkRanges limit 0 ranges = .error e ↔
      ∃ before r after, ranges = before ++ r :: after ∧ WithinCap limit before ∧
        ¬ WithinCap limit (before ++ [r]) ∧ e = .invalidRange r.first r.last) ∧
    (limit ≠ largestCap → (WithinCap limit ranges ↔
      (∀ r ∈ ranges, r.first ≤ r.last) ∧ (requested ranges).length ≤ limit.toNat)) ∧
    (WithinCap largestCap ranges ↔ ∀ r ∈ ranges, r.first ≤ r.last) ∧
    (∀ paths, ranges.mapM AddressRange.paths = .ok paths →
      (requested ranges).length = (paths.map List.length).sum) ∧
    (∃ c : Config, c.validate = .ok () ∧ c.pool.maxRangeSize = largestCap) ∧
    wholeRange.first ≤ wholeRange.last ∧
    largestCap.toNat < (requested [wholeRange]).length ∧
    ∀ r, r.last < r.first →
      checkRanges largestCap 0 [wholeRange, r] = .error (.invalidRange r.first r.last) := by
  refine ⟨⟨fun h => ?_, checkRanges_of_within⟩, fun e => ⟨fun h => ?_, ?_⟩, fun hlimit => ?_,
    ?_, fun paths => length_requested, ?_, by decide, ?_, fun r hreversed => ?_⟩
  · rcases WithinCap.or_first_beyond limit ranges with hwithin | ⟨before, r, after, rfl, hfirst⟩
    · exact hwithin
    · rw [checkRanges_of_beyond hfirst.1 hfirst.2] at h
      cases h
  · rcases WithinCap.or_first_beyond limit ranges with hwithin | ⟨before, r, after, hsplit, hfirst⟩
    · rw [checkRanges_of_within hwithin] at h
      cases h
    · refine ⟨before, r, after, hsplit, hfirst.1, hfirst.2, ?_⟩
      rw [hsplit, checkRanges_of_beyond hfirst.1 hfirst.2] at h
      cases h
      rfl
  · rintro ⟨before, r, after, rfl, hbefore, hbeyond, rfl⟩
    exact checkRanges_of_beyond hbefore hbeyond after
  · exact ⟨fun h => ⟨h.ordered, h.total_le hlimit⟩, fun h => ⟨h.1, fun _ => h.2⟩⟩
  · exact ⟨WithinCap.ordered, fun h => ⟨h, fun hlargest => absurd rfl hlargest⟩⟩
  · exact ⟨{ pool := { maxRangeSize := largestCap } }, rfl, rfl⟩
  · rw [requested_singleton, AddressRange.length_span (by decide)]
    decide
  · -- The first range is within the largest cap although it asks for more.
    have hwhole : WithinCap largestCap [wholeRange] :=
      ⟨by decide, fun hlargest => absurd rfl hlargest⟩
    have hboth : ¬ WithinCap largestCap ([wholeRange] ++ [r]) := by
      intro hboth
      have hordered := hboth.ordered r (by simp)
      rw [UInt32.le_iff_toNat_le] at hordered
      rw [UInt32.lt_iff_toNat_lt] at hreversed
      omega
    exact checkRanges_of_beyond hwhole hboth []

end Keychain

end Keyring
