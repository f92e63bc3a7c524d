import Mathlib.Tactic.Conv
import Keyring.Proofs.Json.Grammar

/-!
# What the scanner reads

The scanner reads what the grammar spells.  In one direction this goes by the number of calls
that are left: whatever a call gives back was spelled by the bytes that it took
(`Scan.value_sound`).  In the other it goes by the rules of the grammar, and two things have to
be said of the bytes behind what is spelled: they must not continue a number (`Ends`), since the
scanner takes all digits that it can get, and the scanner leaves the white space before them.
-/

namespace Keyring.Json

open Grammar

/-! ## White space -/

theorem skip_of_not_blank {b : UInt8} (h : isBlank b = false) (bs : Bytes) :
    skip (b :: bs) = b :: bs :=
  List.dropWhile_cons_of_neg (by simp [h])

theorem skip_gap_append {gap : Bytes} (h : Gap gap) (bs : Bytes) : skip (gap ++ bs) = skip bs :=
  List.dropWhile_append_of_pos h

theorem exists_gap (bs : Bytes) : ∃ gap, Gap gap ∧ bs = gap ++ skip bs :=
  ⟨bs.takeWhile isBlank, fun _ => List.mem_takeWhile_imp, List.takeWhile_append_dropWhile.symm⟩

theorem skip_skip (bs : Bytes) : skip (skip bs) = skip bs := by
  obtain ⟨gap, hgap, hbs⟩ := exists_gap bs
  have hskip := congrArg skip hbs
  rw [skip_gap_append hgap] at hskip
  exact hskip.symm

/-! ## Numbers -/

/-- Bytes that do not begin with a digit. -/
def NoDigit (rest : Bytes) : Prop :=
  ∀ b ∈ rest.head?, isDigit b = false

/-- Bytes that do not continue a number. -/
def Ends (rest : Bytes) : Prop :=
  ∀ b ∈ rest.head?, isDigit b = false ∧ b ≠ 0x2e ∧ b ≠ 0x65 ∧ b ≠ 0x45

theorem ends_gap_append {gap rest : Bytes} (hgap : Gap gap) (hrest : Ends rest) :
    Ends (gap ++ rest) := by
  cases gap with
  | nil => exact hrest
  | cons b gap =>
      intro x hx
      cases hx
      rcases eq_of_isBlank (hgap b List.mem_cons_self) with rfl | rfl | rfl | rfl <;> decide

namespace Scan

variable {bs rest : Bytes}

theorem digits_sound {front : Bytes} (h : digits bs = some (front, rest)) :
    Digits front ∧ NoDigit rest ∧ bs = front ++ rest := by
  simp only [digits] at h
  split_ifs at h with hempty
  obtain ⟨rfl, rfl⟩ := Prod.mk.inj (Option.some.inj h)
  refine ⟨⟨by simpa using hempty, fun _ => List.mem_takeWhile_imp⟩, ?_,
    List.takeWhile_append_dropWhile.symm⟩
  intro b hb
  have hhead := List.head?_dropWhile_not isDigit bs
  rw [Option.mem_def.mp hb] at hhead
  exact hhead

theorem digits_complete {front : Bytes} (h : Digits front) (hrest : NoDigit rest) :
    digits (front ++ rest) = some (front, rest) := by
  have htake : (front ++ rest).takeWhile isDigit = front := by
    rw [List.takeWhile_append_of_pos h.2]
    cases rest with
    | nil => simp
    | cons b rest => simp [hrest b rfl]
  have hdrop : (front ++ rest).dropWhile isDigit = rest := by
    rw [List.dropWhile_append_of_pos h.2]
    cases rest with
    | nil => simp
    | cons b rest => simp [hrest b rfl]
  simp only [digits, htake, hdrop, List.isEmpty_iff, if_neg h.1]

theorem whole_sound {front : Bytes} (h : whole bs = some (front, rest)) :
    Whole front ∧ NoDigit rest ∧ bs = front ++ rest := by
  unfold whole at h
  obtain ⟨⟨front', rest'⟩, hdigits, h⟩ := Option.bind_eq_some_iff.mp h
  obtain ⟨hfront, hrest, hbs⟩ := digits_sound hdigits
  dsimp only at h
  split at h
  · cases h
  · next hzeros =>
      cases h
      refine ⟨⟨hfront, fun hhead => ?_⟩, hrest, hbs⟩
      match front, hhead with
      | [b], hhead =>
          cases hhead
          rfl
      | b :: b' :: tail, hhead =>
          cases hhead
          exact absurd rfl (hzeros b' tail)

theorem whole_complete {front : Bytes} (h : Whole front) (hrest : NoDigit rest) :
    whole (front ++ rest) = some (front, rest) := by
  obtain ⟨hfront, hzero⟩ := h
  rw [whole, digits_complete hfront hrest]
  simp only [Option.bind_eq_bind, Option.bind_some]
  split
  · cases hzero rfl
  · rfl

theorem fraction_sound {found : Option Bytes} (h : fraction bs = some (found, rest)) :
    ∃ behind, Fraction found behind ∧ bs = behind ++ rest := by
  unfold fraction at h
  split at h
  · obtain ⟨⟨front, rest'⟩, hdigits, h⟩ := Option.bind_eq_some_iff.mp h
    cases h
    obtain ⟨hfront, -, rfl⟩ := digits_sound hdigits
    exact ⟨_, .present hfront, rfl⟩
  · cases h
    exact ⟨[], .absent, rfl⟩

theorem fraction_complete {found : Option Bytes} {behind : Bytes} (h : Fraction found behind)
    (hrest : ∀ b ∈ rest.head?, isDigit b = false ∧ b ≠ 0x2e) :
    fraction (behind ++ rest) = some (found, rest) := by
  cases h with
  | absent =>
      cases rest with
      | nil => rfl
      | cons b rest =>
          unfold fraction
          split
          · next heq =>
              cases heq
              exact absurd rfl (hrest 0x2e rfl).2
          · rfl
  | present hdigits =>
      rw [List.cons_append, fraction,
        digits_complete hdigits fun b hb => (hrest b hb).1]
      rfl

theorem exponent_sound {found : Option (Bool × Bytes)} (h : exponent bs = some (found, rest)) :
    ∃ power, Exponent found power ∧ bs = power ++ rest := by
  unfold exponent at h
  split at h
  · next e tail =>
      split_ifs at h with he
      · obtain ⟨⟨front, rest'⟩, hdigits, h⟩ := Option.bind_eq_some_iff.mp h
        cases h
        split at hdigits
        · obtain ⟨hfront, -, rfl⟩ := digits_sound hdigits
          exact ⟨_, .plus he hfront, rfl⟩
        · obtain ⟨hfront, -, rfl⟩ := digits_sound hdigits
          exact ⟨_, .minus he hfront, rfl⟩
        · obtain ⟨hfront, -, rfl⟩ := digits_sound hdigits
          exact ⟨_, .unsigned he hfront, rfl⟩
      · cases h
        exact ⟨[], .absent, rfl⟩
  · cases h
    exact ⟨[], .absent, rfl⟩

theorem exponent_complete {found : Option (Bool × Bytes)} {power : Bytes}
    (h : Exponent found power) (hrest : Ends rest) :
    exponent (power ++ rest) = some (found, rest) := by
  have hnoDigit : NoDigit rest := fun b hb => (hrest b hb).1
  cases h with
  | absent =>
      cases rest with
      | nil => rfl
      | cons e rest =>
          have hletter : ¬ (e = 0x65 ∨ e = 0x45) := not_or.mpr (hrest e rfl).2.2
          exact if_neg hletter
  | plus he hdigits =>
      have hread := digits_complete hdigits hnoDigit
      simp only [List.cons_append, exponent, if_pos he, hread, Option.bind_eq_bind,
        Option.bind_some]
      rfl
  | minus he hdigits =>
      have hread := digits_complete hdigits hnoDigit
      simp only [List.cons_append, exponent, if_pos he, hread, Option.bind_eq_bind,
        Option.bind_some]
      rfl
  | unsigned he hdigits =>
      have hread := digits_complete hdigits hnoDigit
      obtain ⟨b, tail, rfl⟩ := List.exists_cons_of_ne_nil hdigits.1
      have hb := hdigits.2 b List.mem_cons_self
      simp only [List.cons_append, exponent, if_pos he] at hread ⊢
      split
      · next heq => exact absurd (List.cons.inj heq).1 (ne_of_isDigit hb rfl)
      · next heq => exact absurd (List.cons.inj heq).1 (ne_of_isDigit hb rfl)
      · rw [hread]
        rfl

theorem number_sound {text : NumberText} (h : number bs = some (text, rest)) :
    ∃ spelling, Number text spelling ∧ bs = spelling ++ rest := by
  unfold number at h
  split at h
  next negative behind hsign =>
    have hbs : bs = sign negative ++ behind := by
      split at hsign <;> cases hsign <;> rfl
    obtain ⟨⟨front, rest₁⟩, hwhole, h⟩ := Option.bind_eq_some_iff.mp h
    obtain ⟨⟨found, rest₂⟩, hfraction, h⟩ := Option.bind_eq_some_iff.mp h
    obtain ⟨⟨scale, rest₃⟩, hexponent, h⟩ := Option.bind_eq_some_iff.mp h
    cases h
    obtain ⟨hfront, -, rfl⟩ := whole_sound hwhole
    obtain ⟨point, hpoint, rfl⟩ := fraction_sound hfraction
    obtain ⟨power, hpower, rfl⟩ := exponent_sound hexponent
    refine ⟨_, .mk hfront hpoint hpower, ?_⟩
    simp only [hbs, List.append_assoc]

theorem number_complete {text : NumberText} {spelling : Bytes} (h : Number text spelling)
    (hrest : Ends rest) : number (spelling ++ rest) = some (text, rest) := by
  obtain @⟨negative, front, behind, power, found, scale, hwhole, hfraction, hexponent⟩ := h
  -- Each part of the number is followed by something that does not continue it.
  have hpower : ∀ b ∈ (power ++ rest).head?, isDigit b = false ∧ b ≠ 0x2e := by
    cases hexponent with
    | absent => exact fun b hb => ⟨(hrest b hb).1, (hrest b hb).2.1⟩
    | unsigned he _ | plus he _ | minus he _ =>
        intro b hb
        cases hb
        rcases he with rfl | rfl <;> decide
  have hbehind : NoDigit (behind ++ (power ++ rest)) := by
    cases hfraction with
    | absent => exact fun b hb => (hpower b hb).1
    | present =>
        intro b hb
        cases hb
        rfl
  have hfront := whole_complete hwhole hbehind
  have hread : number (sign negative ++ (front ++ (behind ++ (power ++ rest)))) =
      some (⟨negative, front, found, scale⟩, rest) := by
    unfold number
    split
    next negative' behind' hsign =>
      have hstart : negative' = negative ∧ behind' = front ++ (behind ++ (power ++ rest)) := by
        cases negative with
        | true =>
            cases hsign
            exact ⟨rfl, rfl⟩
        | false =>
            obtain ⟨b, tail, rfl, hb⟩ := hwhole.exists_digit
            split at hsign
            · next heq => exact absurd (List.cons.inj heq).1 (ne_of_isDigit hb rfl)
            · cases hsign
              exact ⟨rfl, rfl⟩
      obtain ⟨rfl, rfl⟩ := hstart
      simp only [hfront, fraction_complete hfraction hpower, exponent_complete hexponent hrest,
        Option.bind_eq_bind, Option.bind_some]
      rfl
  simpa only [List.append_assoc] using hread

/-! ## Strings -/

theorem string_cons_of_plain {b : UInt8} (h : Plain b) (rest : Bytes) :
    string (b :: rest) = (string rest).map fun (inside, rest) => (b :: inside, rest) := by
  obtain ⟨hquote, hbackslash, hcontrol⟩ := h
  conv_lhs => rw [string.eq_def]
  split
  · next heq => cases heq
  · next heq => exact absurd (List.cons.inj heq).1 hquote
  · next heq => exact absurd (List.cons.inj heq).1 hbackslash
  · next heq => exact absurd (List.cons.inj heq).1 hbackslash
  · next heq =>
      cases heq
      rw [if_neg (not_or.mpr ⟨hbackslash, hcontrol⟩)]
      exact Option.map_eq_bind.symm

theorem string_sound {inside : Bytes} (h : string bs = some (inside, rest)) :
    Inside inside ∧ bs = inside ++ 0x22 :: rest := by
  fun_induction string bs generalizing inside rest with
  | case1 => cases h
  | case2 tail =>
      cases h
      exact ⟨.nil, rfl⟩
  | case3 a b c d tail ih =>
      obtain ⟨n, hn, h⟩ := Option.bind_eq_some_iff.mp h
      obtain ⟨⟨inside', rest'⟩, htail, h⟩ := Option.bind_eq_some_iff.mp h
      cases h
      obtain ⟨hinside, rfl⟩ := ih htail
      exact ⟨.digits hn hinside, rfl⟩
  | case4 e tail _ ih =>
      obtain ⟨x, hx, h⟩ := Option.bind_eq_some_iff.mp h
      obtain ⟨⟨inside', rest'⟩, htail, h⟩ := Option.bind_eq_some_iff.mp h
      cases h
      obtain ⟨hinside, rfl⟩ := ih htail
      exact ⟨.letter hx hinside, rfl⟩
  | case5 b tail _ _ _ hbad => cases h
  | case6 b tail hquote _ _ hgood ih =>
      obtain ⟨⟨inside', rest'⟩, htail, h⟩ := Option.bind_eq_some_iff.mp h
      cases h
      obtain ⟨hinside, rfl⟩ := ih htail
      obtain ⟨hbackslash, hcontrol⟩ := not_or.mp hgood
      exact ⟨.plain ⟨hquote, hbackslash, hcontrol⟩ hinside, rfl⟩

theorem string_complete {inside : Bytes} (h : Inside inside) (rest : Bytes) :
    string (inside ++ 0x22 :: rest) = some (inside, rest) := by
  induction h with
  | nil => rfl
  | plain hb _ ih => rw [List.cons_append, string_cons_of_plain hb, ih, Option.map_some]
  | letter he _ ih =>
      -- A `u` starts four digits and is no letter of its own, so the cases do not overlap.
      have hu : ∀ {e x : UInt8}, Text.simpleEscape? e = some x → e ≠ 0x75 := by
        rintro e x he rfl
        cases he
      conv_lhs => rw [List.cons_append, List.cons_append, string.eq_def]
      split
      · next heq => cases heq
      · next heq => cases heq
      · next heq => exact absurd (List.cons.inj (List.cons.inj heq).2).1 (hu he)
      · next heq =>
          cases heq
          rw [he, ih]
          rfl
      · next hletter heq =>
          cases heq
          exact (hletter _ _ rfl rfl).elim
  | digits hn _ ih =>
      simp only [List.cons_append, string, hn, ih, Option.bind_eq_bind, Option.bind_some]
      rfl

/-! ## Values: what is read was spelled -/

/-- Nothing that is read depends on the white space before it. -/
theorem value_skip (fuel : Nat) (bs : Bytes) : value fuel (skip bs) = value fuel bs := by
  cases fuel with
  | zero => rfl
  | succ fuel => rw [value, value, skip_skip]

theorem items_skip (fuel : Nat) (bs : Bytes) : items fuel (skip bs) = items fuel bs := by
  cases fuel with
  | zero => rfl
  | succ fuel => rw [items, items, value_skip]

theorem members_skip (fuel : Nat) (bs : Bytes) : members fuel (skip bs) = members fuel bs := by
  cases fuel with
  | zero => rfl
  | succ fuel => rw [members, members, skip_skip]

/-- What a call for a value, for items or for members gives back was spelled by the bytes it
took: those before `rest`, and before the bracket or brace that closes the items or members. -/
structure Sound (fuel : Nat) : Prop where
  value_sound {bs rest : Bytes} {tree : Tree} (h : value fuel bs = some (tree, rest)) :
    ∃ gap core, Gap gap ∧ Spelled (.value tree) core ∧ bs = gap ++ (core ++ rest)
  items_sound {bs rest : Bytes} {trees : List Tree} (h : items fuel bs = some (trees, rest)) :
    ∃ core, Spelled (.items trees) core ∧ bs = core ++ 0x5d :: rest
  members_sound {bs rest : Bytes} {found : List (Bytes × Tree)}
    (h : members fuel bs = some (found, rest)) :
    ∃ core, Spelled (.members found) core ∧ bs = core ++ 0x7d :: rest

/-- A value and the white space behind it, up to what stands there. -/
theorem Sound.element_sound {fuel : Nat} (hfuel : Sound fuel) {bs rest : Bytes} {tree : Tree}
    (h : value fuel bs = some (tree, rest)) :
    ∃ core, Spelled (.element tree) core ∧ bs = core ++ skip rest := by
  obtain ⟨gap, core, hgap, hcore, rfl⟩ := hfuel.value_sound h
  obtain ⟨after, hafter, hrest⟩ := exists_gap rest
  refine ⟨_, .element hgap hcore hafter, ?_⟩
  rw [List.append_assoc, List.append_assoc, ← hrest]

theorem Sound.value_step {fuel : Nat} (hfuel : Sound fuel) {bs rest : Bytes} {tree : Tree}
    (h : value (fuel + 1) bs = some (tree, rest)) :
    ∃ core, Spelled (.value tree) core ∧ skip bs = core ++ rest := by
  rw [value] at h
  split at h
  · next inner hopen =>
      rw [hopen]
      obtain ⟨gap, hgap, hinner⟩ := exists_gap inner
      split at h
      · next hclose =>
          cases h
          refine ⟨_, .emptyObject hgap, ?_⟩
          rw [hinner, hclose]
          simp
      · next hclose =>
          obtain ⟨⟨found, rest'⟩, hmembers, h⟩ := Option.bind_eq_some_iff.mp h
          cases h
          obtain ⟨core, hcore, hskip⟩ := hfuel.members_sound hmembers
          refine ⟨_, .object (hcore.gap_append_members hgap), ?_⟩
          rw [hinner, hskip]
          simp
  · next inner hopen =>
      rw [hopen]
      obtain ⟨gap, hgap, hinner⟩ := exists_gap inner
      split at h
      · next hclose =>
          cases h
          refine ⟨_, .emptyArray hgap, ?_⟩
          rw [hinner, hclose]
          simp
      · next hclose =>
          obtain ⟨⟨found, rest'⟩, hitems, h⟩ := Option.bind_eq_some_iff.mp h
          cases h
          obtain ⟨core, hcore, hskip⟩ := hfuel.items_sound hitems
          refine ⟨_, .array (hcore.gap_append_items hgap), ?_⟩
          rw [hinner, hskip]
          simp
  · next inner hopen =>
      rw [hopen]
      obtain ⟨⟨raw, rest'⟩, hstring, h⟩ := Option.bind_eq_some_iff.mp h
      cases h
      obtain ⟨hinside, rfl⟩ := string_sound hstring
      exact ⟨_, .string hinside, by simp⟩
  · next inner hopen =>
      cases h
      exact ⟨_, .null, hopen⟩
  · next inner hopen =>
      cases h
      exact ⟨_, .yes, hopen⟩
  · next inner hopen =>
      cases h
      exact ⟨_, .no, hopen⟩
  · obtain ⟨⟨text, rest'⟩, hnumber, h⟩ := Option.bind_eq_some_iff.mp h
    cases h
    obtain ⟨core, hcore, hskip⟩ := number_sound hnumber
    exact ⟨core, .number hcore, hskip⟩

theorem Sound.items_step {fuel : Nat} (hfuel : Sound fuel) {bs rest : Bytes}
    {trees : List Tree} (h : items (fuel + 1) bs = some (trees, rest)) :
    ∃ core, Spelled (.items trees) core ∧ bs = core ++ 0x5d :: rest := by
  rw [items] at h
  obtain ⟨⟨item, rest₁⟩, hitem, hbehind⟩ := Option.bind_eq_some_iff.mp h
  obtain ⟨core, hcore, hbs⟩ := hfuel.element_sound hitem
  dsimp only at hbehind
  split at hbehind
  · next rest₂ hcomma =>
      obtain ⟨⟨others, rest₃⟩, hothers, hpair⟩ := Option.bind_eq_some_iff.mp hbehind
      cases hpair
      obtain ⟨more, hmore, rfl⟩ := hfuel.items_sound hothers
      refine ⟨_, .moreItems hcore hmore, ?_⟩
      rw [hbs, hcomma]
      simp
  · next rest₂ hclose =>
      cases hbehind
      exact ⟨core, .lastItem hcore, by rw [hbs, hclose]⟩
  · cases hbehind

theorem Sound.members_step {fuel : Nat} (hfuel : Sound fuel) {bs rest : Bytes}
    {found : List (Bytes × Tree)} (h : members (fuel + 1) bs = some (found, rest)) :
    ∃ core, Spelled (.members found) core ∧ bs = core ++ 0x7d :: rest := by
  obtain ⟨before, hbefore, hbs⟩ := exists_gap bs
  rw [members] at h
  split at h
  · next inner hquote =>
      obtain ⟨⟨name, rest₁⟩, hname, hbehind⟩ := Option.bind_eq_some_iff.mp h
      obtain ⟨hinside, hinner⟩ := string_sound hname
      obtain ⟨between, hbetween, hrest₁⟩ := exists_gap rest₁
      dsimp only at hbehind
      split at hbehind
      · next rest₂ hcolon =>
          obtain ⟨⟨item, rest₃⟩, hitem, hbehind⟩ := Option.bind_eq_some_iff.mp hbehind
          obtain ⟨core, hcore, hrest₂⟩ := hfuel.element_sound hitem
          dsimp only at hbehind
          split at hbehind
          · next rest₄ hcomma =>
              obtain ⟨⟨others, rest₅⟩, hothers, hpair⟩ := Option.bind_eq_some_iff.mp hbehind
              cases hpair
              obtain ⟨more, hmore, rfl⟩ := hfuel.members_sound hothers
              refine ⟨_, .moreMembers hbefore hinside hbetween hcore hmore, ?_⟩
              rw [hbs, hquote, hinner, hrest₁, hcolon, hrest₂, hcomma]
              simp
          · next rest₄ hclose =>
              cases hbehind
              refine ⟨_, .lastMember hbefore hinside hbetween hcore, ?_⟩
              rw [hbs, hquote, hinner, hrest₁, hcolon, hrest₂, hclose]
              simp
          · cases hbehind
      · cases hbehind
  · cases h

/-- By the number of calls that are left. -/
theorem sound (fuel : Nat) : Sound fuel := by
  induction fuel with
  | zero => constructor <;> intro bs rest found h <;> cases h
  | succ fuel ih =>
      refine ⟨?_, ih.items_step, ih.members_step⟩
      intro bs rest tree h
      obtain ⟨gap, hgap, hbs⟩ := exists_gap bs
      obtain ⟨core, hcore, hskip⟩ := ih.value_step h
      exact ⟨gap, core, hgap, hcore, by rw [← hskip, ← hbs]⟩

/-! ## Values: what is spelled is read -/

/-- What stands behind an item or a member, or behind a document: a comma, a closing bracket or
brace, or nothing. -/
def Closes (rest : Bytes) : Prop :=
  ∀ b ∈ rest.head?, b = 0x2c ∨ b = 0x5d ∨ b = 0x7d

theorem Closes.ends (h : Closes rest) : Ends rest := by
  intro b hb
  rcases h b hb with rfl | rfl | rfl <;> decide

theorem Closes.skip_eq (h : Closes rest) : skip rest = rest := by
  cases rest with
  | nil => rfl
  | cons b rest =>
      refine skip_of_not_blank ?_ rest
      rcases h b rfl with rfl | rfl | rfl <;> rfl

theorem closes_cons {b : UInt8} (h : b = 0x2c ∨ b = 0x5d ∨ b = 0x7d) (rest : Bytes) :
    Closes (b :: rest) := by
  intro x hx
  cases hx
  exact h

theorem value_gap_append {gap : Bytes} (h : Gap gap) (fuel : Nat) (bs : Bytes) :
    value fuel (gap ++ bs) = value fuel bs := by
  rw [← value_skip, skip_gap_append h, value_skip]

/-- No other value begins with a minus sign or a digit. -/
theorem value_cons_of_digit (fuel : Nat) {b : UInt8} (h : b = 0x2d ∨ isDigit b = true)
    (bs : Bytes) :
    value (fuel + 1) (b :: bs) =
      (number (b :: bs)).map fun (text, rest) => (.number text, rest) := by
  have hne : ∀ {x : UInt8}, x ≠ 0x2d ∧ isDigit x = false → b ≠ x := by
    rintro x ⟨hminus, hdigit⟩ rfl
    rw [hdigit] at h
    exact h.elim hminus Bool.false_ne_true
  have hblank : isBlank b = false := by
    refine Bool.eq_false_iff.mpr fun hblank => ?_
    rcases eq_of_isBlank hblank with rfl | rfl | rfl | rfl <;> exact absurd h (by decide)
  rw [value, skip_of_not_blank hblank]
  split
  -- The six other beginnings are a brace, a bracket, a quotation mark and three letters.
  iterate 6
    next heq => exact absurd (List.cons.inj heq).1 (hne (by decide))
  exact Option.map_eq_bind.symm

theorem value_array (fuel : Nat) (h : ∀ tail, skip bs ≠ 0x5d :: tail) :
    value (fuel + 1) (0x5b :: bs) =
      (items fuel bs).map fun (items, rest) => (.array items, rest) := by
  rw [value, skip_of_not_blank (by decide)]
  simp only [items_skip]
  exact Option.map_eq_bind.symm

theorem value_object (fuel : Nat) (h : ∀ tail, skip bs ≠ 0x7d :: tail) :
    value (fuel + 1) (0x7b :: bs) =
      (members fuel bs).map fun (members, rest) => (.object members, rest) := by
  rw [value, skip_of_not_blank (by decide)]
  simp only [members_skip]
  exact Option.map_eq_bind.symm

section Steps

variable {fuel : Nat} {more after : Bytes} {item : Tree}

theorem items_last (h : value fuel bs = some (item, after)) (hafter : skip after = 0x5d :: rest) :
    items (fuel + 1) bs = some ([item], rest) := by
  simp only [items, h, hafter, Option.bind_eq_bind, Option.bind_some]

theorem items_more {others : List Tree} (h : value fuel bs = some (item, after))
    (hafter : skip after = 0x2c :: more) (hmore : items fuel more = some (others, rest)) :
    items (fuel + 1) bs = some (item :: others, rest) := by
  simp only [items, h, hafter, hmore, Option.bind_eq_bind, Option.bind_some]
  rfl

variable {before name between : Bytes} (hbefore : Gap before) (hname : Inside name)
  (hbetween : Gap between)
include hbefore hname hbetween

theorem members_last (h : value fuel bs = some (item, after))
    (hafter : skip after = 0x7d :: rest) :
    members (fuel + 1) (before ++ 0x22 :: (name ++ 0x22 :: (between ++ 0x3a :: bs))) =
      some ([(name, item)], rest) := by
  simp only [members, skip_gap_append hbefore, string_complete hname, skip_gap_append hbetween,
    skip_of_not_blank (show isBlank 0x22 = false from rfl),
    skip_of_not_blank (show isBlank 0x3a = false from rfl), h, hafter, Option.bind_eq_bind,
    Option.bind_some]

theorem members_more {others : List (Bytes × Tree)} (h : value fuel bs = some (item, after))
    (hafter : skip after = 0x2c :: more) (hmore : members fuel more = some (others, rest)) :
    members (fuel + 1) (before ++ 0x22 :: (name ++ 0x22 :: (between ++ 0x3a :: bs))) =
      some ((name, item) :: others, rest) := by
  simp only [members, skip_gap_append hbefore, string_complete hname, skip_gap_append hbetween,
    skip_of_not_blank (show isBlank 0x22 = false from rfl),
    skip_of_not_blank (show isBlank 0x3a = false from rfl), h, hafter, hmore,
    Option.bind_eq_bind, Option.bind_some]
  rfl

end Steps

/-- How a part is read, if there are calls enough. -/
def Complete : Part → Bytes → Prop
  | .value tree, bs => ∀ (fuel : Nat) (rest : Bytes), 2 * bs.length ≤ fuel → Ends rest →
      value fuel (bs ++ rest) = some (tree, rest)
  | .element tree, bs => ∀ (fuel : Nat) (rest : Bytes), 2 * bs.length ≤ fuel → Closes rest →
      ∃ after, value fuel (bs ++ rest) = some (tree, after) ∧ skip after = rest
  | .items trees, bs => ∀ (fuel : Nat) (rest : Bytes), 2 * bs.length + 1 ≤ fuel →
      items fuel (bs ++ 0x5d :: rest) = some (trees, rest)
  | .members found, bs => ∀ (fuel : Nat) (rest : Bytes), 2 * bs.length + 1 ≤ fuel →
      members fuel (bs ++ 0x7d :: rest) = some (found, rest)

theorem exists_call {b : UInt8} {fuel : Nat} (h : 2 * (b :: bs).length ≤ fuel) :
    ∃ fuel', fuel = fuel' + 1 ∧ 2 * bs.length + 1 ≤ fuel' := by
  rw [List.length_cons] at h
  exact ⟨fuel - 1, by omega, by omega⟩

theorem complete {part : Part} (h : Spelled part bs) : Complete part bs := by
  induction h with
  | null | yes | no =>
      intro fuel rest hfuel hrest
      obtain ⟨fuel, rfl, -⟩ := exists_call hfuel
      rfl
  | number h =>
      intro fuel rest hfuel hrest
      obtain ⟨b, tail, rfl, hb⟩ := h.exists_first
      obtain ⟨fuel, rfl, -⟩ := exists_call hfuel
      rw [List.cons_append, value_cons_of_digit fuel hb, ← List.cons_append,
        number_complete h hrest]
      rfl
  | string h =>
      intro fuel rest hfuel hrest
      obtain ⟨fuel, rfl, -⟩ := exists_call hfuel
      rw [List.cons_append, List.append_assoc, value, skip_of_not_blank (by decide)]
      simp only [List.singleton_append, string_complete h, Option.bind_eq_bind, Option.bind_some]
      rfl
  | emptyArray h =>
      intro fuel rest hfuel hrest
      obtain ⟨fuel, rfl, -⟩ := exists_call hfuel
      rw [List.cons_append, List.append_assoc, value, skip_of_not_blank (by decide)]
      simp only [List.singleton_append, skip_gap_append h,
        skip_of_not_blank (show isBlank 0x5d = false from rfl)]
  | array h ih =>
      intro fuel rest hfuel hrest
      obtain ⟨fuel, rfl, hinner⟩ := exists_call hfuel
      rw [List.length_append, List.length_singleton] at hinner
      rw [List.cons_append, List.append_assoc, List.singleton_append, value_array,
        ih fuel rest (by omega)]
      · rfl
      · -- The first byte behind the bracket is that of the first item.
        obtain ⟨gap, b, tail, rfl, hgap, hblank, hne⟩ := h.items_starts
        intro tail' heq
        rw [List.append_assoc, skip_gap_append hgap, List.cons_append,
          skip_of_not_blank hblank] at heq
        exact hne (List.cons.inj heq).1
  | emptyObject h =>
      intro fuel rest hfuel hrest
      obtain ⟨fuel, rfl, -⟩ := exists_call hfuel
      rw [List.cons_append, List.append_assoc, value, skip_of_not_blank (by decide)]
      simp only [List.singleton_append, skip_gap_append h,
        skip_of_not_blank (show isBlank 0x7d = false from rfl)]
  | object h ih =>
      intro fuel rest hfuel hrest
      obtain ⟨fuel, rfl, hinner⟩ := exists_call hfuel
      rw [List.length_append, List.length_singleton] at hinner
      rw [List.cons_append, List.append_assoc, List.singleton_append, value_object,
        ih fuel rest (by omega)]
      · rfl
      · -- The first byte behind the brace is the quotation mark before the first name.
        obtain ⟨gap, tail, rfl, hgap⟩ := h.members_starts
        intro tail' heq
        rw [List.append_assoc, skip_gap_append hgap, List.cons_append,
          skip_of_not_blank (by decide)] at heq
        cases heq
  | @element tree before core after hbefore h hafter ih =>
      intro fuel rest hfuel hrest
      rw [List.length_append, List.length_append] at hfuel
      -- The white space behind the value is left to whoever looks at what follows.
      refine ⟨after ++ rest, ?_, ?_⟩
      · rw [List.append_assoc, List.append_assoc, value_gap_append hbefore]
        exact ih fuel _ (by omega) (ends_gap_append hafter hrest.ends)
      · rw [skip_gap_append hafter, hrest.skip_eq]
  | lastItem h ih =>
      intro fuel rest hfuel
      obtain ⟨fuel, rfl⟩ : ∃ fuel', fuel = fuel' + 1 := ⟨fuel - 1, by omega⟩
      obtain ⟨after, hitem, hafter⟩ :=
        ih fuel (0x5d :: rest) (by omega) (closes_cons (.inr (.inl rfl)) rest)
      exact items_last hitem hafter
  | moreItems h hmore ih ihmore =>
      intro fuel rest hfuel
      rw [List.length_append, List.length_cons] at hfuel
      obtain ⟨fuel, rfl⟩ : ∃ fuel', fuel = fuel' + 1 := ⟨fuel - 1, by omega⟩
      rw [List.append_assoc, List.cons_append]
      obtain ⟨after, hitem, hafter⟩ := ih fuel _ (by omega) (closes_cons (.inl rfl) _)
      exact items_more hitem hafter (ihmore fuel rest (by omega))
  | lastMember hbefore hname hbetween h ih =>
      intro fuel rest hfuel
      simp only [List.length_append, List.length_cons] at hfuel
      obtain ⟨fuel, rfl⟩ : ∃ fuel', fuel = fuel' + 1 := ⟨fuel - 1, by omega⟩
      obtain ⟨after, hitem, hafter⟩ :=
        ih fuel (0x7d :: rest) (by omega) (closes_cons (.inr (.inr rfl)) rest)
      simpa only [List.append_assoc, List.cons_append] using
        members_last hbefore hname hbetween hitem hafter
  | moreMembers hbefore hname hbetween h hmore ih ihmore =>
      intro fuel rest hfuel
      simp only [List.length_append, List.length_cons] at hfuel
      obtain ⟨fuel, rfl⟩ : ∃ fuel', fuel = fuel' + 1 := ⟨fuel - 1, by omega⟩
      obtain ⟨after, hitem, hafter⟩ := ih fuel _ (by omega) (closes_cons (.inl rfl) _)
      simpa only [List.append_assoc, List.cons_append] using
        members_more hbefore hname hbetween hitem hafter (ihmore fuel rest (by omega))

end Scan

/-- **A document is read exactly if the grammar spells it**, and it is read as what is spelled. -/
theorem Tree.ofBytes?_eq_some_iff {bs : Bytes} {tree : Tree} :
    ofBytes? bs = some tree ↔ Spelled (.element tree) bs := by
  constructor
  · intro h
    unfold ofBytes? at h
    split at h
    · next found rest hvalue =>
        split_ifs at h with hempty
        cases h
        obtain ⟨core, hcore, hbs⟩ := (Scan.sound _).element_sound hvalue
        rw [List.isEmpty_iff.mp hempty, List.append_nil] at hbs
        rw [hbs]
        exact hcore
    · cases h
  · intro h
    have hends : Scan.Closes [] := fun b hb => by cases hb
    obtain ⟨after, hvalue, hafter⟩ :=
      Scan.complete h (2 * bs.length + 2) [] (by omega) hends
    rw [List.append_nil] at hvalue
    rw [ofBytes?, hvalue]
    simp only [hafter]
    rfl

end Keyring.Json
