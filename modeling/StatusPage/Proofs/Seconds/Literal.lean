import Mathlib
import StatusPage.Proofs.Binary64.Literal
import StatusPage.Proofs.Binary64.Whole
import StatusPage.Seconds

namespace StatusPage

theorem Text.natural?_eq_none {text : List Char} (other : ∃ c ∈ text, ¬ c.isDigit) :
    natural? text = none := by
  obtain ⟨c, member, digit⟩ := other
  apply if_neg
  rintro ⟨-, all⟩
  exact digit (List.all_eq_true.mp all c member)

namespace Seconds

open Binary64

theorem ofBinary64_ok_iff (x : Binary64) (n : ℕ) :
    ofBinary64 x = .ok n ↔ n < wordLimit ∧ x.IsFinite ∧ x.value = n := by
  by_cases finite : x.IsFinite
  · rw [ofBinary64, magnitude_of_isFinite finite]
    by_cases whole : unitsOfField x.field % unitsPerOne = 0
    · have units := (Nat.div_mul_cancel (Nat.dvd_of_mod_eq_zero whole)).symm
      rw [value_of_units units, signed_eq_natCast_iff]
      dsimp only
      rw [if_neg (not_not.mpr whole)]
      split_ifs with negative large
      · simp [negative]
      · simp only [false_iff]
        omega
      · rw [Except.ok.injEq]
        have sign : x.negative → unitsOfField x.field / unitsPerOne = 0 := by
          intro sign
          by_contra nonzero
          exact negative ⟨sign, nonzero⟩
        constructor
        · rintro rfl
          exact ⟨Nat.not_le.mp large, finite, rfl, sign⟩
        · exact fun both => both.2.2.1
    · dsimp only
      rw [if_pos whole]
      simp only [reduceCtorEq, false_iff]
      rintro ⟨-, -, same⟩
      have size : |x.value| = n := by rw [same, Nat.abs_cast]
      rw [units_of_abs_value size, Nat.mul_mod_left] at whole
      exact whole rfl
  · have refused : ofBinary64 x ≠ .ok n := by
      rw [ofBinary64, magnitude, if_neg (show ¬ x.field < infinityField from finite)]
      split_ifs <;> simp
    simp [refused, finite]

theorem unsigned?_text (sign : Sign) {c : Char} {rest : List Char} (plus : c ≠ '+') :
    Text.unsigned? (sign.text ++ c :: rest) =
      if sign.isMinus then none else Text.natural? (c :: rest) := by
  cases sign with
  | absent => simp [Sign.text, Sign.isMinus, Text.unsigned?, plus]
  | plus => rfl
  | minus => exact Text.natural?_eq_none ⟨'-', by simp, by decide⟩

theorem signed?_text (sign : Sign) {c : Char} {rest : List Char} (minus : c ≠ '-')
    (plus : c ≠ '+') : Text.signed? (sign.text ++ c :: rest) =
      (Text.natural? (c :: rest)).map fun n : ℕ => if sign.isMinus then -(n : ℤ) else n := by
  cases sign with
  | absent =>
    have natural : Text.unsigned? (c :: rest) = Text.natural? (c :: rest) :=
      unsigned?_text .absent plus
    simp [Sign.text, Sign.isMinus, Text.signed?, minus, natural]
  | plus => rfl
  | minus => rfl

end Seconds

namespace Binary64.Literal

variable {literal : Literal}

def isInteger (literal : Literal) : Bool := literal.fraction.isNone && literal.exponent.isNone

theorem isInteger_iff : literal.isInteger ↔ literal.fraction = none ∧ literal.exponent = none := by
  simp [isInteger]

theorem natural?_of_isInteger (integer : literal.isInteger) :
    Text.natural? literal.body = some literal.digits := by
  obtain ⟨fraction, exponent⟩ := isInteger_iff.mp integer
  have isDigit := literal.isDigit
  have written := literal.written
  rw [fraction, Option.getD_none, List.append_nil] at isDigit written
  have body : literal.body = literal.whole := by
    simp [body, fractionText, exponentText, fraction, exponent]
  have digits : literal.digits = Nat.ofDigitChars 10 literal.whole 0 := by
    simp [digits, fraction]
  rw [body, digits, Text.natural?, if_pos ⟨written, List.all_eq_true.mpr isDigit⟩]

theorem value_of_isInteger (integer : literal.isInteger) :
    literal.value = signed literal.sign.isMinus literal.digits := by
  obtain ⟨fraction, exponent⟩ := isInteger_iff.mp integer
  simp [Literal.value, power, fraction, exponent]

theorem natural?_of_not_isInteger (other : ¬ literal.isInteger) :
    Text.natural? literal.body = none := by
  rw [isInteger_iff] at other
  apply Text.natural?_eq_none
  cases fraction : literal.fraction with
  | some digits => exact ⟨'.', by simp [body, fractionText, fraction], by decide⟩
  | none =>
    obtain ⟨exponent, present⟩ := Option.ne_none_iff_exists'.mp fun none => other ⟨fraction, none⟩
    refine ⟨exponent.mark, by simp [body, exponentText, present, Exponent.text], ?_⟩
    rcases exponent.isMark with mark | mark <;> rw [mark] <;> decide

theorem not_isBlank_of_mem_text {c : Char} (member : c ∈ literal.text) : ¬ Text.isBlank c := by
  intro blank
  rcases literal.inDecimal_of_mem_text member with digit | rfl | lower | rfl | rfl
  · exact Text.not_isDigit_of_isBlank blank digit
  · exact absurd blank (by decide)
  · rw [Text.toLower_of_isBlank blank] at lower
    subst lower
    exact absurd blank (by decide)
  · exact absurd blank (by decide)
  · exact absurd blank (by decide)

end Binary64.Literal

namespace Seconds

open Binary64

theorem ofInteger?_text (literal : Literal) : ofInteger? literal.text =
    match Text.natural? literal.body with
    | none => none
    | some n =>
      if literal.sign.isMinus then
        if n ≤ (-leastSigned).toNat then some (ofInt (-n)) else none
      else if n < wordLimit then some (.ok n) else none := by
  obtain ⟨c, rest, body, first⟩ := literal.body_cons
  obtain ⟨minus, plus⟩ := not_sign_of_isDigit_or_point first
  rw [ofInteger?, Literal.text, body, unsigned?_text _ plus, signed?_text _ minus plus]
  cases Text.natural? (c :: rest) with
  | none => cases literal.sign.isMinus <;> rfl
  | some n =>
    cases literal.sign.isMinus with
    | true =>
      have range : leastSigned ≤ -(n : ℤ) ∧ -(n : ℤ) < -leastSigned ↔
          n ≤ (-leastSigned).toNat := by
        simp only [leastSigned]
        omega
      simp only [↓reduceIte, Option.filter_none, Option.map_some, Option.filter_some,
        decide_eq_true_eq, range]
      split_ifs <;> rfl
    | false =>
      have range : leastSigned ≤ (n : ℤ) ∧ (n : ℤ) < -leastSigned → n < wordLimit := by
        simp only [leastSigned, wordLimit]
        omega
      simp only [Bool.false_eq_true, ↓reduceIte, Option.map_some, Option.filter_some,
        decide_eq_true_eq]
      by_cases fits : n < wordLimit
      · rw [if_pos fits, if_pos fits]
      · rw [if_neg fits, if_neg fits, if_neg (mt range fits)]
        rfl

variable {before behind : List Char}

theorem read_text (literal : Literal) (blankBefore : ∀ c ∈ before, Text.isBlank c)
    (blankBehind : ∀ c ∈ behind, Text.isBlank c) :
    read (String.ofList (before ++ literal.text ++ behind)) =
      match ofInteger? literal.text with
      | some result => result.mapError .refused
      | none => (ofBinary64 (ofDecimal literal.sign.isMinus literal.digits literal.power)).mapError
          .refused := by
  have head : ∀ c ∈ literal.text.head?, ¬ Text.isBlank c := fun c head =>
    literal.not_isBlank_of_mem_text (List.mem_of_mem_head? head)
  have last : ∀ c ∈ literal.text.getLast?, ¬ Text.isBlank c := fun c last =>
    literal.not_isBlank_of_mem_text (List.mem_of_getLast? last)
  have written : literal.text ≠ [] := by
    obtain ⟨c, rest, body, -⟩ := literal.body_cons
    simp [Literal.text, body]
  rewrite [read, String.toList_ofList, Text.trim_of_blanks head last blankBefore blankBehind,
    if_neg written, literal.ofLiteral_text]
  cases ofInteger? literal.text <;> rfl

theorem mapError_ok_iff {result : Except FormatError ℕ} {n : ℕ} :
    result.mapError Failure.refused = .ok n ↔ result = .ok n := by
  cases result <;> simp [Except.mapError]

theorem ofDecimal_ok_iff (literal : Literal) {n : ℕ} :
    ofBinary64 (ofDecimal literal.sign.isMinus literal.digits literal.power) = .ok n ↔
      n < wordLimit ∧ RoundsTo literal.value n := by
  rw [ofBinary64_ok_iff, literal.ofLiteral_rounds.roundsTo_iff]

theorem not_roundsTo_of_large {n digits : ℕ} (fits : n < wordLimit) (large : wordLimit ≤ digits) :
    ¬ RoundsTo digits n := by
  intro rounds
  have least : (2 ^ 64 : ℚ) ≤ |(digits : ℚ)| := by
    rw [Nat.abs_cast]
    exact_mod_cast large
  have bound := rounds.two_pow_le least
  simp only [wordLimit] at fits
  omega

theorem not_roundsTo_of_negative {n digits : ℕ} (some : 0 < digits) :
    ¬ RoundsTo (-digits) n := by
  intro rounds
  have one : (1 : ℚ) ≤ digits := by exact_mod_cast some
  have least : (2 ^ 0 : ℚ) ≤ |-(digits : ℚ)| := by
    rwa [abs_neg, Nat.abs_cast, pow_zero]
  have positive := rounds.two_pow_le least
  have zero := rounds.eq_zero (by linarith)
  omega

theorem ofInt_neg_ok_iff {digits n : ℕ} : ofInt (-digits) = .ok n ↔ digits = n ∧ digits = 0 := by
  by_cases zero : digits = 0
  · subst zero
    simp [ofInt]
  · rw [ofInt, if_pos (show -(digits : ℤ) < 0 by omega)]
    simp [zero]

theorem read_integer {literal : Literal} (integer : literal.isInteger)
    (blankBefore : ∀ c ∈ before, Text.isBlank c) (blankBehind : ∀ c ∈ behind, Text.isBlank c)
    (n : ℕ) :
    read (String.ofList (before ++ literal.text ++ behind)) = .ok n ↔
      n < wordLimit ∧ literal.value = n := by
  have double := ofDecimal_ok_iff literal (n := n)
  rw [literal.value_of_isInteger integer] at double ⊢
  rw [read_text literal blankBefore blankBehind, ofInteger?_text,
    literal.natural?_of_isInteger integer, signed_eq_natCast_iff]
  dsimp only
  cases sign : literal.sign.isMinus with
  | true =>
    rw [if_pos rfl]
    by_cases fits : literal.digits ≤ (-leastSigned).toNat
    · rw [if_pos fits]
      dsimp only
      rw [mapError_ok_iff, ofInt_neg_ok_iff]
      simp only [wordLimit, forall_const]
      omega
    · have some : 0 < literal.digits := Nat.zero_lt_of_lt (Nat.not_le.mp fits)
      have refused := not_roundsTo_of_negative (n := n) some
      rw [sign, signed, if_pos rfl] at double
      rw [if_neg fits]
      dsimp only
      rw [mapError_ok_iff, double]
      simp [refused, some.ne']
  | false =>
    rw [if_neg Bool.false_ne_true]
    by_cases fits : literal.digits < wordLimit
    · rw [if_pos fits]
      simp only [Except.mapError, Except.ok.injEq, Bool.false_eq_true, false_implies, and_true]
      omega
    · rw [sign, signed, if_neg Bool.false_ne_true] at double
      rw [if_neg fits]
      dsimp only
      rw [mapError_ok_iff, double]
      have large := Nat.not_lt.mp fits
      constructor
      · rintro ⟨word, rounds⟩
        exact absurd rounds (not_roundsTo_of_large word large)
      · rintro ⟨word, same, -⟩
        omega

theorem read_other {literal : Literal} (other : ¬ literal.isInteger)
    (blankBefore : ∀ c ∈ before, Text.isBlank c) (blankBehind : ∀ c ∈ behind, Text.isBlank c)
    (n : ℕ) :
    read (String.ofList (before ++ literal.text ++ behind)) = .ok n ↔
      n < wordLimit ∧ RoundsTo literal.value n := by
  rw [read_text literal blankBefore blankBehind, ofInteger?_text,
    literal.natural?_of_not_isInteger other]
  dsimp only
  rw [mapError_ok_iff, ofDecimal_ok_iff]

end Seconds

namespace Binary64.Literal

/-- A literal whose digits and size a double can hold. -/
structure Short (literal : Literal) : Prop where
  digits : literal.digits < 2 ^ 53
  most : |literal.value| < 2 ^ 53
  least : literal.value ≠ 0 → 1 ≤ |literal.value| * unitsPerOne

variable {literal : Literal}

theorem Short.ratio (short : literal.Short) :
    ∃ k d : ℕ, k < 2 ^ 53 ∧ 0 < d ∧ |literal.value| = k / d := by
  have size : |literal.value| = literal.digits * 10 ^ literal.power := abs_signed (by positivity)
  cases exponent : literal.power with
  | ofNat power =>
    have whole : |literal.value| = (literal.digits * 10 ^ power : ℕ) := by
      rw [size, exponent]
      push_cast
      simp
    refine ⟨literal.digits * 10 ^ power, 1, ?_, one_pos, by rw [whole, Nat.cast_one, div_one]⟩
    have most := short.most
    rw [whole] at most
    exact_mod_cast most
  | negSucc power =>
    refine ⟨literal.digits, 10 ^ (power + 1), short.digits, by positivity, ?_⟩
    rw [size, exponent, zpow_negSucc, ← div_eq_mul_inv]
    push_cast
    rfl

theorem Short.roundsTo_iff (short : literal.Short) {n : ℕ} :
    RoundsTo literal.value n ↔ literal.value = n := by
  constructor
  · rintro ⟨x, rounds, finite, whole⟩
    obtain ⟨k, d, few, pos, ratio⟩ := short.ratio
    have size : |x.value| = n := by rw [whole, Nat.abs_cast]
    have same := rounds.abs_eq_of_short finite pos few ratio short.least size
    rw [rounds.eq_of_abs (same.trans size.symm), whole]
  · intro whole
    have rounds := literal.ofLiteral_rounds
    have size : |literal.value| = n := by rw [whole, Nat.abs_cast]
    have small : n < 2 ^ 53 := by
      have most := short.most
      rw [size] at most
      exact_mod_cast most
    rw [rounds.roundsTo_iff]
    obtain ⟨finite, value⟩ := rounds.value_of_natCast small size
    exact ⟨finite, value.trans whole⟩

end Binary64.Literal

namespace Seconds

open Binary64

variable {before behind : List Char}

/-- A literal is a second count when its number is one, but with a point or a power of ten it is
    rounded to a double first. That makes no difference to a short literal. -/
theorem read_literal (literal : Literal) (blankBefore : ∀ c ∈ before, Text.isBlank c)
    (blankBehind : ∀ c ∈ behind, Text.isBlank c) (n : ℕ) :
    (read (String.ofList (before ++ literal.text ++ behind)) = .ok n ↔ n < wordLimit ∧
      if literal.isInteger then literal.value = n else RoundsTo literal.value n) ∧
    (literal.Short → (read (String.ofList (before ++ literal.text ++ behind)) = .ok n ↔
      n < wordLimit ∧ literal.value = n)) := by
  by_cases integer : literal.isInteger
  · have exactly := read_integer integer blankBefore blankBehind n
    rw [if_pos integer]
    exact ⟨exactly, fun _ => exactly⟩
  · have rounded := read_other integer blankBefore blankBehind n
    rw [if_neg integer]
    refine ⟨rounded, ?_⟩
    intro short
    rw [rounded, short.roundsTo_iff]

def fifteenHundred : Literal where
  sign := .plus
  whole := ['1']
  fraction := some ['5', '0']
  exponent := some ⟨'e', .absent, ['3'], by decide, by simp, by decide⟩
  isDigit := List.all_eq_true.mp rfl
  written := by decide

theorem read_fifteenHundred : (∀ c ∈ [' '], Text.isBlank c) ∧ fifteenHundred.Short ∧
    read " +1.50e3 " = .ok 1500 := by
  have value : fifteenHundred.value = 1500 := by
    have digits : fifteenHundred.digits = 150 := by decide
    have power : fifteenHundred.power = 1 := by decide
    have sign : fifteenHundred.sign.isMinus = false := rfl
    norm_num [Literal.value, digits, power, sign, signed]
  have short : fifteenHundred.Short := by
    have one : (1 : ℚ) ≤ unitsPerOne := Nat.one_le_cast.mpr unitsPerOne_pos
    refine ⟨by decide, ?_, ?_⟩
    · norm_num [value]
    · intro
      rw [value]
      norm_num
      linarith
  have read := (read_literal fifteenHundred Text.blank_space Text.blank_space 1500).2 short
  exact ⟨Text.blank_space, short, read.mpr ⟨by decide, value⟩⟩

def twoTo53AndHalf : Literal where
  sign := .absent
  whole := "9007199254740992".toList
  fraction := some ['5']
  exponent := none
  isDigit := List.all_eq_true.mp rfl
  written := by decide

/-- Behind `2 ^ 53` a fraction is lost without a word, and so is an odd number before `.0`. -/
theorem read_beyond_doubles : read "9007199254740992.5" = .ok 9007199254740992 ∧
    read "9007199254740993.0" = .ok 9007199254740992 ∧
    ¬ ∀ (literal : Literal) (before behind : List Char), (∀ c ∈ before, Text.isBlank c) →
      (∀ c ∈ behind, Text.isBlank c) → ∀ n,
        (read (String.ofList (before ++ literal.text ++ behind)) = .ok n ↔
          n < wordLimit ∧ literal.value = n) := by
  have half : read "9007199254740992.5" = .ok 9007199254740992 := by decide +kernel
  have odd : read "9007199254740993.0" = .ok 9007199254740992 := by decide +kernel
  refine ⟨half, odd, ?_⟩
  intro exactly
  have whole := ((exactly twoTo53AndHalf [] [] Text.blank_nil Text.blank_nil _).mp half).2
  have digits : twoTo53AndHalf.digits = 90071992547409925 := by decide +kernel
  have power : twoTo53AndHalf.power = -1 := by decide
  have sign : twoTo53AndHalf.sign.isMinus = false := rfl
  norm_num [Literal.value, digits, power, sign, signed] at whole

end Seconds

end StatusPage
