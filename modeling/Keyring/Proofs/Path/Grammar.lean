import Mathlib.Data.List.Forall2
import Mathlib.Data.List.TakeWhile
import Keyring.Proofs.Path.Text

/-!
# Which texts are read as paths

In the standard form of a path there is one marker behind each hardened level, no marker behind
the other two, and nothing else but digits in a level.  Every such text is read.  So are some
others: all markers at the end of a level are dropped together, and a number may have a plus sign
in front of it.  `LevelText.Reads` says for one level what is read, and a text is read as a path
exactly if five such levels spell it (`ofText_eq_ok_iff`).

What sets the standard form apart can be told from the text alone, since no character of a path
is a marker except for those behind its levels (`ReadLevels.countP_isMarker`): it has no plus
sign, and of the three markers that there have to be it has no more.
-/

namespace Keyring.Bip44Path

open Text

/-! ## Levels -/

/-- The three pieces that a level is written in. -/
structure LevelText where
  sign : List Char
  digits : List Char
  markers : List Char

namespace LevelText

/-- The pieces one behind the other. -/
def chars (t : LevelText) : List Char :=
  t.sign ++ t.digits ++ t.markers

/-- A level that is read as a number: digits that spell it, behind a plus sign or not, and in
front of markers exactly if the level is hardened. -/
structure Reads (t : LevelText) (hardened : Bool) (n : UInt32) : Prop where
  sign_eq : t.sign = [] ∨ t.sign = ['+']
  digits_ne_nil : t.digits ≠ []
  isDigit : ∀ c ∈ t.digits, c.isDigit = true
  value_eq : Nat.ofDigitChars 10 t.digits 0 = n.toNat
  marked : ∀ c ∈ t.markers, isMarker c = true
  hardened_iff : t.markers ≠ [] ↔ hardened = true

/-- A level without a sign, and with no more than one marker. -/
structure IsStandard (t : LevelText) : Prop where
  sign_eq : t.sign = []
  length_markers : t.markers.length ≤ 1

variable {t : LevelText} {hardened : Bool} {n : UInt32}

theorem Reads.natural?_digits (h : t.Reads hardened n) : natural? t.digits = some n.toNat :=
  natural?_eq_some_iff.mpr ⟨h.digits_ne_nil, h.isDigit, h.value_eq⟩

/-- The sign and the digits of a level end with a digit. -/
theorem Reads.isMarker_getLast (h : t.Reads hardened n) :
    ∀ c ∈ (t.sign ++ t.digits).getLast?, isMarker c = false := by
  intro c hc
  rw [List.getLast?_append_of_ne_nil _ h.digits_ne_nil] at hc
  exact isMarker_of_isDigit (h.isDigit c (List.mem_of_getLast? hc))

end LevelText

variable {part : List Char} {hardened : Bool} {n : UInt32}

/-- A part of a text ends with its markers, as many as there are. -/
theorem exists_body_markers (part : List Char) :
    ∃ body markers, part = body ++ markers ∧ (∀ c ∈ body.getLast?, isMarker c = false) ∧
      ∀ c ∈ markers, isMarker c = true := by
  refine ⟨(part.reverse.dropWhile isMarker).reverse, (part.reverse.takeWhile isMarker).reverse,
    ?_, ?_, ?_⟩
  · rw [← List.reverse_append, List.takeWhile_append_dropWhile, List.reverse_reverse]
  · intro c hc
    have hhead := List.head?_dropWhile_not isMarker part.reverse
    rw [List.getLast?_reverse, Option.mem_def] at hc
    rwa [hc] at hhead
  · intro c hc
    exact List.mem_takeWhile_imp (List.mem_reverse.mp hc)

/-- A part of a text is read as a level exactly if it can be written as one. -/
theorem level?_eq_some_iff : level? hardened part = some n ↔
    ∃ t : LevelText, part = t.chars ∧ t.Reads hardened n := by
  constructor
  · intro h
    obtain ⟨body, markers, rfl, hbody, hmarkers⟩ := exists_body_markers part
    rw [level?_append hbody hmarkers] at h
    split at h
    · next hhardened =>
        obtain ⟨sign, digits, rfl, hsign, hdigits⟩ := uint32?_eq_some_iff.mp h
        obtain ⟨hne, hisDigit, hvalue⟩ := natural?_eq_some_iff.mp hdigits
        refine ⟨⟨sign, digits, markers⟩, rfl, hsign, hne, hisDigit, hvalue, hmarkers, ?_⟩
        rw [← hhardened]
        cases markers <;> simp
    · cases h
  · rintro ⟨t, rfl, ht⟩
    have hhardened : (!t.markers.isEmpty) = hardened := by
      have hiff := ht.hardened_iff
      cases hmarkers : t.markers <;> cases hardened <;> simp_all
    rw [LevelText.chars, level?_append ht.isMarker_getLast ht.marked, if_pos hhardened]
    exact uint32?_eq_some_iff.mpr ⟨t.sign, t.digits, rfl, ht.sign_eq, ht.natural?_digits⟩

namespace LevelText

variable {t : LevelText}

theorem Reads.slash_notMem_chars (h : t.Reads hardened n) : '/' ∉ t.chars := by
  rw [chars, List.mem_append, List.mem_append, not_or, not_or]
  refine ⟨⟨fun hmem => ?_, fun hmem => absurd (h.isDigit _ hmem) (by decide)⟩,
    fun hmem => absurd (h.marked _ hmem) (by decide)⟩
  rcases h.sign_eq with hsign | hsign <;> rw [hsign] at hmem <;> revert hmem <;> decide

theorem Reads.plus_mem_chars_iff (h : t.Reads hardened n) : '+' ∈ t.chars ↔ t.sign ≠ [] := by
  have hdigits : '+' ∉ t.digits := fun hmem => absurd (h.isDigit _ hmem) (by decide)
  have hmarkers : '+' ∉ t.markers := fun hmem => absurd (h.marked _ hmem) (by decide)
  rw [chars, List.mem_append, List.mem_append, or_iff_left hmarkers, or_iff_left hdigits]
  rcases h.sign_eq with hsign | hsign <;> rw [hsign] <;> decide

/-- The characters of a level that are markers are those behind it. -/
theorem Reads.countP_chars (h : t.Reads hardened n) :
    t.chars.countP isMarker = t.markers.length := by
  have hsign : t.sign.countP isMarker = 0 := by
    rcases h.sign_eq with hsign | hsign <;> rw [hsign] <;> decide
  have hdigits : t.digits.countP isMarker = 0 := List.countP_eq_zero.mpr fun c hc => by
    rw [isMarker_of_isDigit (h.isDigit c hc)]
    exact Bool.false_ne_true
  rw [chars, List.countP_append, List.countP_append, hsign, hdigits,
    List.countP_eq_length.mpr h.marked]
  omega

/-- A level has the markers that it needs, and has no others exactly if there is one at most. -/
theorem Reads.length_markers (h : t.Reads hardened n) :
    hardened.toNat ≤ t.markers.length ∧
      (t.markers.length = hardened.toNat ↔ t.markers.length ≤ 1) := by
  have hpos : 0 < t.markers.length ↔ hardened = true := by
    rw [List.length_pos_iff, h.hardened_iff]
  cases hardened with
  | true =>
      have := hpos.mpr rfl
      rw [Bool.toNat_true]
      omega
  | false =>
      have := mt hpos.mp Bool.false_ne_true
      rw [Bool.toNat_false]
      omega

end LevelText

/-! ## Paths -/

/-- The levels of a path from the purpose down, and which of them are hardened. -/
def marked (p : Bip44Path) : List (Bool × UInt32) :=
  [(true, p.purpose), (true, p.coinType), (true, p.account), (false, p.change),
    (false, p.addressIndex)]

/-- The texts of levels are read as these levels, one as one. -/
def ReadLevels (texts : List LevelText) (levels : List (Bool × UInt32)) : Prop :=
  List.Forall₂ (fun t level => t.Reads level.1 level.2) texts levels

/-- A text that consists of `m` and a level behind each slash, one for every level of a path. -/
structure Spelled (texts : List LevelText) (s : String) (p : Bip44Path) : Prop where
  toList_eq : s.toList = 'm' :: texts.flatMap fun t => '/' :: t.chars
  reads : ReadLevels texts p.marked

/-- A text of a path in its standard form. -/
def Standard (s : String) (p : Bip44Path) : Prop :=
  ∃ texts, Spelled texts s p ∧ ∀ t ∈ texts, t.IsStandard

theorem ofText_eq_ok {s : String} {p : Bip44Path} :
    ofText s = .ok p ↔ ofParts? (split '/' s.toList) = some p := by
  unfold ofText
  split
  · next q hq => rw [hq, Except.ok.injEq, Option.some.injEq]
  · next hnone =>
      rw [hnone]
      exact ⟨nofun, nofun⟩

theorem ofParts?_eq_some_iff {parts : List (List Char)} {p : Bip44Path} :
    ofParts? parts = some p ↔ ∃ rest, parts = ['m'] :: rest ∧
      List.Forall₂ (fun part level => level? level.1 part = some level.2) rest p.marked := by
  constructor
  · intro h
    unfold ofParts? at h
    split at h
    · next a b c d e =>
        simp only [Option.bind_eq_bind, Option.bind_eq_some_iff, Option.pure_def,
          Option.some.injEq] at h
        obtain ⟨purpose, ha, coinType, hb, account, hc, change, hd, index, he, rfl⟩ := h
        exact ⟨[a, b, c, d, e], rfl,
          .cons ha (.cons hb (.cons hc (.cons hd (.cons he .nil))))⟩
    · cases h
  · rintro ⟨rest, rfl, hrest⟩
    rcases hrest with - | ⟨ha, - | ⟨hb, - | ⟨hc, - | ⟨hd, - | ⟨he, - | -⟩⟩⟩⟩⟩
    rw [ofParts?, ha, hb, hc, hd, he]
    rfl

/-- Parts are read as levels exactly if they can be written as texts of these levels. -/
theorem forall₂_level?_iff {parts : List (List Char)} {levels : List (Bool × UInt32)} :
    List.Forall₂ (fun part level => level? level.1 part = some level.2) parts levels ↔
      ∃ texts, parts = texts.map LevelText.chars ∧ ReadLevels texts levels := by
  constructor
  · intro h
    induction h with
    | nil => exact ⟨[], rfl, .nil⟩
    | cons hpart _ ih =>
        obtain ⟨t, rfl, ht⟩ := level?_eq_some_iff.mp hpart
        obtain ⟨texts, rfl, htexts⟩ := ih
        exact ⟨t :: texts, rfl, .cons ht htexts⟩
  · rintro ⟨texts, rfl, h⟩
    rw [List.forall₂_map_left_iff]
    exact h.imp fun t level ht => level?_eq_some_iff.mpr ⟨t, rfl, ht⟩

theorem ReadLevels.slash_notMem {texts : List LevelText} {levels : List (Bool × UInt32)}
    (h : ReadLevels texts levels) : ∀ part ∈ texts.map LevelText.chars, '/' ∉ part := by
  induction h with
  | nil => exact List.forall_mem_nil _
  | cons ht _ ih => exact List.forall_mem_cons.mpr ⟨ht.slash_notMem_chars, ih⟩

/-- A text is read as a path exactly if levels spell it that are read as those of the path. -/
theorem ofText_eq_ok_iff {s : String} {p : Bip44Path} :
    ofText s = .ok p ↔ ∃ texts, Spelled texts s p := by
  rw [ofText_eq_ok, ofParts?_eq_some_iff]
  constructor
  · rintro ⟨parts, hparts, hlevels⟩
    obtain ⟨texts, rfl, hreads⟩ := forall₂_level?_iff.mp hlevels
    obtain ⟨htoList, -⟩ := split_eq_iff.mp hparts
    rw [List.flatMap_map] at htoList
    exact ⟨texts, htoList, hreads⟩
  · rintro ⟨texts, htoList, hreads⟩
    refine ⟨texts.map LevelText.chars, split_eq_iff.mpr ⟨?_, ?_⟩,
      forall₂_level?_iff.mpr ⟨texts, rfl, hreads⟩⟩
    · rw [List.flatMap_map]
      exact htoList
    · exact List.forall_mem_cons.mpr ⟨by decide, hreads.slash_notMem⟩

theorem ofText_eq_error {s : String} (h : ∀ p, ofText s ≠ .ok p) :
    ofText s = .error (.derivation (.malformedPath s)) := by
  unfold ofText at h ⊢
  split
  · next p hp => exact absurd (by rw [hp]) (h p)
  · rfl

/-! ## The standard form -/

variable {texts : List LevelText} {levels : List (Bool × UInt32)}

theorem ReadLevels.plus_notMem_iff (h : ReadLevels texts levels) :
    ('+' ∉ texts.flatMap fun t => '/' :: t.chars) ↔ ∀ t ∈ texts, t.sign = [] := by
  induction h with
  | nil => simp
  | cons ht _ ih =>
      rw [List.flatMap_cons, List.mem_append, not_or, ih, List.forall_mem_cons, List.mem_cons,
        ht.plus_mem_chars_iff, not_or, not_not]
      exact and_congr_left fun _ => and_iff_right (by decide)

theorem ReadLevels.countP_cons {t : LevelText} {level : Bool × UInt32}
    (h : t.Reads level.1 level.2) :
    ((t :: texts).flatMap fun t => '/' :: t.chars).countP isMarker =
      t.markers.length + (texts.flatMap fun t => '/' :: t.chars).countP isMarker := by
  have hslash : isMarker '/' = false := by decide
  rw [List.flatMap_cons, List.countP_append, List.countP_cons, hslash, h.countP_chars]
  rfl

/-- Among the levels of a text there are the markers that have to be there, and no others exactly
if no level has two. -/
theorem ReadLevels.countP_isMarker (h : ReadLevels texts levels) :
    levels.countP (·.1) ≤ (texts.flatMap fun t => '/' :: t.chars).countP isMarker ∧
      ((texts.flatMap fun t => '/' :: t.chars).countP isMarker = levels.countP (·.1) ↔
        ∀ t ∈ texts, t.markers.length ≤ 1) := by
  induction h with
  | nil => simp
  | @cons t level texts levels ht _ ih =>
      obtain ⟨hle, heq⟩ := ih
      obtain ⟨hle', heq'⟩ := ht.length_markers
      have hcount : (level :: levels).countP (·.1) = level.1.toNat + levels.countP (·.1) := by
        rw [List.countP_cons, Nat.add_comm]
        cases level.1 <;> rfl
      rw [ReadLevels.countP_cons ht, hcount, List.forall_mem_cons, ← heq, ← heq']
      omega

/-- The standard form of a path is what is read without a plus sign and with three markers. -/
theorem standard_iff {s : String} {p : Bip44Path} :
    Standard s p ↔ ofText s = .ok p ∧ '+' ∉ s.toList ∧ s.toList.countP isMarker = 3 := by
  -- Of a text that is spelled by levels this is a property of each level.
  have hspelled : ∀ texts, Spelled texts s p →
      (('+' ∉ s.toList ∧ s.toList.countP isMarker = 3) ↔ ∀ t ∈ texts, t.IsStandard) := by
    rintro texts ⟨htoList, hreads⟩
    have hm : isMarker 'm' = false := by decide
    have hplus : ('+' ∉ s.toList) ↔ ∀ t ∈ texts, t.sign = [] := by
      rw [htoList, List.mem_cons, not_or, hreads.plus_notMem_iff]
      exact and_iff_right (by decide)
    have hcount : s.toList.countP isMarker = 3 ↔ ∀ t ∈ texts, t.markers.length ≤ 1 := by
      rw [htoList, List.countP_cons, hm]
      exact hreads.countP_isMarker.2
    rw [hplus, hcount]
    exact ⟨fun ⟨hsign, hmarkers⟩ t ht => ⟨hsign t ht, hmarkers t ht⟩,
      fun h => ⟨fun t ht => (h t ht).sign_eq, fun t ht => (h t ht).length_markers⟩⟩
  constructor
  · rintro ⟨texts, htexts, hstandard⟩
    exact ⟨ofText_eq_ok_iff.mpr ⟨texts, htexts⟩, (hspelled texts htexts).mpr hstandard⟩
  · rintro ⟨hread, hform⟩
    obtain ⟨texts, htexts⟩ := ofText_eq_ok_iff.mp hread
    exact ⟨texts, htexts, (hspelled texts htexts).mp hform⟩

/-- **What is read as a path, and what of it is in standard form.**  A text is read as a path
exactly if it consists of `m` and five levels behind slashes, each of them the digits of its
number with at most one plus sign in front of them and any number of markers behind them, some
for the first three and none for the last two.  Every other text is refused as malformed.  In the
standard form, with one marker behind each of the first three levels and no sign at all, are the
texts among them that have no plus sign and three markers. -/
theorem texts_read_as_paths (s : String) :
    (∀ p, ofText s = .ok p ↔ ∃ texts, Spelled texts s p) ∧
    ((∀ p, ofText s ≠ .ok p) ↔ ofText s = .error (.derivation (.malformedPath s))) ∧
    (∀ p, Standard s p ↔ ofText s = .ok p ∧ '+' ∉ s.toList ∧ s.toList.countP isMarker = 3) := by
  refine ⟨fun p => ofText_eq_ok_iff, ⟨ofText_eq_error, fun herror p hok => ?_⟩,
    fun p => standard_iff⟩
  cases hok.symm.trans herror

/-- A level with two markers and a level with a sign are read, in a text that is not in the
standard form of any path. -/
theorem read_beside_standard_form :
    (ofText "m/44''/60'/0'/0/0" = .ok ⟨44, 60, 0, 0, 0⟩ ∧
      ∀ p, ¬Standard "m/44''/60'/0'/0/0" p) ∧
    (ofText "m/44'/60'/0'/0/+5" = .ok ⟨44, 60, 0, 0, 5⟩ ∧
      ∀ p, ¬Standard "m/44'/60'/0'/0/+5" p) := by
  refine ⟨⟨by rfl, fun p hstandard => ?_⟩, ⟨by rfl, fun p hstandard => ?_⟩⟩
  · obtain ⟨-, -, hcount⟩ := standard_iff.mp hstandard
    exact absurd hcount (by decide)
  · obtain ⟨-, hplus, -⟩ := standard_iff.mp hstandard
    exact absurd hplus (by decide)

end Keyring.Bip44Path
