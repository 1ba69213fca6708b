import Mathlib
import StatusPage.Locale.Number
import StatusPage.Proofs.Binary64.Nearest
import StatusPage.Proofs.Text.Digits

namespace StatusPage.Locale

theorem not_isDigit_groupSeparator (locale : Locale) : ¬ locale.groupSeparator.isDigit := by
  cases locale <;> decide

theorem not_isDigit_decimalSeparator (locale : Locale) : ¬ locale.decimalSeparator.isDigit := by
  cases locale <;> decide

theorem separators_ne (locale : Locale) : locale.groupSeparator ≠ locale.decimalSeparator := by
  cases locale <;> decide

theorem toList_formatNat (locale : Locale) (n : ℕ) :
    (locale.formatNat n).toList = locale.digits n := String.toList_ofList

theorem filter_digits (locale : Locale) (n : ℕ) :
    (locale.digits n).filter (· ≠ locale.groupSeparator) = Nat.toDigits 10 n := by
  have absent : locale.groupSeparator ∉ Nat.toDigits 10 n := fun member =>
    locale.not_isDigit_groupSeparator
      (Nat.isDigit_of_mem_toDigits (by decide) (by decide) member)
  rw [digits, Text.filter_group absent]

theorem natural?_formatNat (locale : Locale) (n : ℕ) :
    Text.natural? ((locale.formatNat n).toList.filter (· ≠ locale.groupSeparator)) = some n := by
  rw [toList_formatNat, filter_digits, Text.natural?_toDigits]

theorem formatFloat_of_not_isFinite (locale : Locale) {x : Binary64} (other : ¬ x.IsFinite) :
    locale.formatFloat x ∈ ["NaN", "-∞", "∞"] := by
  rw [formatFloat, Binary64.magnitude, if_neg (show ¬ x.field < Binary64.infinityField from other)]
  by_cases infinite : x.field = Binary64.infinityField
  · rw [if_pos infinite]
    dsimp only
    cases x.negative <;> decide
  · rw [if_neg infinite]
    exact List.mem_cons_self

/-- Read a number without a sign. Group separators are passed over wherever they stand before the
    decimal separator. -/
def readMagnitude? (locale : Locale) (text : List Char) : Option ℚ :=
  let whole := text.takeWhile (· ≠ locale.decimalSeparator)
  let fraction := (text.dropWhile (· ≠ locale.decimalSeparator)).drop 1
  (Text.natural? (whole.filter (· ≠ locale.groupSeparator) ++ fraction)).map fun digits : ℕ =>
    digits / 10 ^ fraction.length

def readNumber? (locale : Locale) : List Char → Option ℚ
  | '-' :: text => (locale.readMagnitude? text).map (- ·)
  | text => locale.readMagnitude? text

/-- How a number of thousandths is set: the digits of the whole part in groups, and those behind the
    decimal separator without the zeros at their end. -/
structure Numeral (thousandths : ℕ) where
  groups : List (List Char)
  fraction : List Char
  inThrees : Text.InThrees groups
  whole : groups.flatten = Nat.toDigits 10 (thousandths / 1000)
  isFraction : Text.IsFraction 3 (thousandths % 1000) fraction

namespace Numeral

variable {n : ℕ}

def wholeText (locale : Locale) (numeral : Numeral n) : List Char :=
  [locale.groupSeparator].intercalate numeral.groups

def fractionText (locale : Locale) (numeral : Numeral n) : List Char :=
  if numeral.fraction = [] then [] else locale.decimalSeparator :: numeral.fraction

def text (locale : Locale) (numeral : Numeral n) : List Char :=
  numeral.wholeText locale ++ numeral.fractionText locale

variable (locale : Locale) (numeral : Numeral n)

theorem isDigit_of_mem_groups {c : Char} (member : c ∈ numeral.groups.flatten) : c.isDigit := by
  rw [numeral.whole] at member
  exact Nat.isDigit_of_mem_toDigits (by decide) (by decide) member

theorem fraction_eq_nil_iff : numeral.fraction = [] ↔ n % 1000 = 0 := numeral.isFraction.eq_nil_iff

theorem mem_text {c : Char} (member : c ∈ numeral.text locale) :
    c.isDigit ∨ c = locale.groupSeparator ∨ c = locale.decimalSeparator := by
  rcases List.mem_append.mp member with whole | fraction
  · rcases mem_of_mem_intercalate whole with separator | digit
    · exact .inr (.inl (List.mem_singleton.mp separator))
    · exact .inl (numeral.isDigit_of_mem_groups digit)
  · rw [fractionText] at fraction
    split at fraction
    · exact absurd fraction List.not_mem_nil
    · rcases List.mem_cons.mp fraction with separator | digit
      · exact .inr (.inr separator)
      · exact .inl (numeral.isFraction.isDigit digit)

theorem isDigit_of_getLast? {c : Char} (last : c ∈ (numeral.text locale).getLast?) :
    c.isDigit := by
  by_cases whole : numeral.fraction = []
  · rw [text, fractionText, if_pos whole, List.append_nil, wholeText,
      getLast?_intercalate (Text.ne_nil_of_inThrees numeral.inThrees)] at last
    exact numeral.isDigit_of_mem_groups (List.mem_of_getLast? last)
  · obtain ⟨digit, behind⟩ := Option.isSome_iff_exists.mp (List.getLast?_isSome.mpr whole)
    rw [text, fractionText, if_neg whole, List.getLast?_append, List.getLast?_cons, behind] at last
    cases last
    exact numeral.isFraction.isDigit (List.mem_of_getLast? behind)

theorem splitAt_decimalSeparator :
    (numeral.text locale).takeWhile (· ≠ locale.decimalSeparator) = numeral.wholeText locale ∧
      (numeral.text locale).dropWhile (· ≠ locale.decimalSeparator) =
        numeral.fractionText locale := by
  have other : ∀ c ∈ numeral.wholeText locale, decide (c ≠ locale.decimalSeparator) := by
    intro c member
    rw [decide_eq_true_eq]
    rintro rfl
    rcases mem_of_mem_intercalate member with separator | digit
    · exact locale.separators_ne (List.mem_singleton.mp separator).symm
    · exact locale.not_isDigit_decimalSeparator (numeral.isDigit_of_mem_groups digit)
  rw [text, List.takeWhile_append_of_pos other, List.dropWhile_append_of_pos other, fractionText]
  split <;> simp

theorem filter_wholeText : (numeral.wholeText locale).filter (· ≠ locale.groupSeparator) =
    Nat.toDigits 10 (n / 1000) := by
  have absent : locale.groupSeparator ∉ numeral.groups.flatten := fun member =>
    locale.not_isDigit_groupSeparator (numeral.isDigit_of_mem_groups member)
  rw [wholeText, filter_intercalate absent, numeral.whole]

theorem readMagnitude?_text :
    locale.readMagnitude? (numeral.text locale) = some ((n : ℚ) / 1000) := by
  obtain ⟨whole, behind⟩ := numeral.splitAt_decimalSeparator locale
  have fraction : (numeral.fractionText locale).drop 1 = numeral.fraction := by
    rw [fractionText]
    split
    next none => rw [none, List.drop_nil]
    next => rfl
  have digits : Text.natural? (Nat.toDigits 10 (n / 1000) ++ numeral.fraction) =
      some (10 ^ numeral.fraction.length * (n / 1000) +
        Nat.ofDigitChars 10 numeral.fraction 0) := by
    have all : (Nat.toDigits 10 (n / 1000) ++ numeral.fraction).all Char.isDigit := by
      rw [List.all_append, Bool.and_eq_true, List.all_eq_true, List.all_eq_true]
      exact ⟨fun _ => Nat.isDigit_of_mem_toDigits (by decide) (by decide),
        fun _ => numeral.isFraction.isDigit⟩
    rw [Text.natural?, if_pos ⟨by simp [Nat.toDigits_ne_nil], all⟩, Nat.ofDigitChars_append,
      Nat.ofDigitChars_eq_ofDigitChars_zero, Nat.ofDigitChars_ten_toDigits]
  have parts := numeral.isFraction.value (by decide) (Nat.mod_lt n (by decide))
  have sum : ((n / 1000 : ℕ) : ℚ) + (n % 1000 : ℕ) / 10 ^ 3 = n / 1000 := by
    have whole : ((n / 1000 : ℕ) : ℚ) * 1000 + (n % 1000 : ℕ) = n := by
      exact_mod_cast Nat.div_add_mod' n 1000
    linarith
  rw [readMagnitude?, whole, behind, fraction, filter_wholeText, digits, Option.map_some,
    Nat.cast_add, Nat.cast_mul, Nat.cast_pow, add_div, Nat.cast_ofNat,
    mul_div_cancel_left₀ _ (by positivity), parts, sum]

theorem head_text : ∃ c rest, numeral.text locale = c :: rest ∧ c.isDigit := by
  cases groups : numeral.groups with
  | nil =>
    have threes := numeral.inThrees
    rw [groups] at threes
    exact absurd threes id
  | cons first rest =>
    have some := Text.ne_nil_of_inThrees numeral.inThrees first (by simp [groups])
    obtain ⟨c, more, rfl⟩ := List.exists_cons_of_ne_nil some
    refine ⟨c, _, by rw [text, wholeText, groups, intercalate_cons]; rfl, ?_⟩
    exact numeral.isDigit_of_mem_groups (by simp [groups])

theorem readNumber?_text (negative : Bool) :
    locale.readNumber? ((if negative then ['-'] else []) ++ numeral.text locale) =
      some (Binary64.signed negative (n / 1000)) := by
  have magnitude := numeral.readMagnitude?_text locale
  cases negative with
  | true =>
    rw [if_pos rfl, List.singleton_append, readNumber?, magnitude]
    rfl
  | false =>
    obtain ⟨c, rest, text, digit⟩ := numeral.head_text locale
    have other : c ≠ '-' := by
      rintro rfl
      simp at digit
    rw [text] at magnitude ⊢
    rw [if_neg Bool.false_ne_true, List.nil_append, readNumber?, magnitude]
    · rfl
    · intro text same
      exact other (List.cons.inj same).1

end Numeral

theorem thousandths_eq (locale : Locale) (n : ℕ) :
    locale.thousandths n = locale.digits (n / 1000) ++
      if Text.fraction 3 (n % 1000) = [] then []
      else locale.decimalSeparator :: Text.fraction 3 (n % 1000) := by
  rw [thousandths]
  cases Text.fraction 3 (n % 1000) with
  | nil => exact (List.append_nil _).symm
  | cons digit digits => rfl

theorem exists_numeral_thousandths (locale : Locale) (n : ℕ) :
    ∃ numeral : Numeral n, locale.thousandths n = numeral.text locale := by
  obtain ⟨groups, inThrees, whole, grouped⟩ :=
    Text.group_inThrees locale.groupSeparator (Nat.toDigits_ne_nil (b := 10) (n := n / 1000))
  have isFraction : Text.IsFraction 3 (n % 1000) (Text.fraction 3 (n % 1000)) :=
    Text.isFraction_fraction (by decide) (Nat.mod_lt n (by decide))
  refine ⟨⟨groups, Text.fraction 3 (n % 1000), inThrees, whole, isFraction⟩, ?_⟩
  rw [thousandths_eq, digits, grouped]
  rfl

theorem toList_formatFloat (locale : Locale) {x : Binary64} (finite : x.IsFinite) :
    (locale.formatFloat x).toList =
      (if x.negative then ['-'] else []) ++ locale.thousandths
        (roundDiv (Binary64.unitsOfField x.field * 1000) Binary64.unitsPerOne) := by
  rw [formatFloat, Binary64.magnitude_of_isFinite finite]
  dsimp only
  rw [String.toList_ofList]
  split <;> rfl

/-- A finite double is written for the nearest number of thousandths: its sign, the whole part in
    groups of three digits and the places behind the decimal separator that are not trailing zeros,
    if there are any. -/
theorem formatFloat_finite (locale : Locale) {x : Binary64} (finite : x.IsFinite) :
    ∃ n, NearestNat (|x.value| * 1000) n ∧ ∃ numeral : Numeral n,
      (locale.formatFloat x).toList =
        (if x.negative then ['-'] else []) ++ numeral.text locale ∧
      (numeral.fraction = [] ↔ n % 1000 = 0) ∧
      locale.readNumber? (locale.formatFloat x).toList =
        some (Binary64.signed x.negative (n / 1000)) ∧
      ∃ c ∈ (locale.formatFloat x).toList.getLast?, c.isDigit := by
  let n := roundDiv (Binary64.unitsOfField x.field * 1000) Binary64.unitsPerOne
  have nearest : NearestNat (|x.value| * 1000) n := by
    have rounded := roundDiv_nearest (Binary64.unitsOfField x.field * 1000)
      Binary64.unitsPerOne_pos
    rwa [Nat.cast_mul, mul_div_right_comm, ← x.abs_value] at rounded
  obtain ⟨numeral, written⟩ := locale.exists_numeral_thousandths n
  have text : (locale.formatFloat x).toList =
      (if x.negative then ['-'] else []) ++ numeral.text locale := by
    rw [formatFloat, Binary64.magnitude_of_isFinite finite, String.toList_ofList, ← written]
    split <;> rfl
  refine ⟨n, nearest, numeral, text, numeral.fraction_eq_nil_iff, ?_, ?_⟩
  · rw [text, numeral.readNumber?_text]
  · obtain ⟨c, rest, cons, -⟩ := numeral.head_text locale
    obtain ⟨last, behind⟩ := Option.isSome_iff_exists.mp
      (List.getLast?_isSome.mpr (cons ▸ List.cons_ne_nil c rest))
    refine ⟨last, ?_, numeral.isDigit_of_getLast? locale behind⟩
    rw [text, List.getLast?_append, behind]
    rfl

theorem formatFloat_tie : (Binary64.ofBits 0xC132D68710000000).IsFinite ∧
    Locale.enUS.formatFloat (.ofBits 0xC132D68710000000) = "-1,234,567.062" ∧
    ∃ n, NearestNat (|(Binary64.ofBits 0xC132D68710000000).value| * 1000) n ∧
      Locale.enUS.readNumber? "-1,234,567.062".toList = some (Binary64.signed true (n / 1000)) := by
  have finite : (Binary64.ofBits 0xC132D68710000000).IsFinite := by decide
  have text : Locale.enUS.formatFloat (.ofBits 0xC132D68710000000) = "-1,234,567.062" := by
    decide +kernel
  obtain ⟨n, nearest, -, -, -, read, -⟩ := formatFloat_finite .enUS finite
  rw [text] at read
  exact ⟨finite, text, n, nearest, read⟩

end StatusPage.Locale
