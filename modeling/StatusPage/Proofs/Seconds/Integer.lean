import Mathlib
import StatusPage.Proofs.Binary64.Range
import StatusPage.Proofs.Seconds.Literal

namespace StatusPage

namespace Binary64.Literal

variable {literal : Literal}

def integer (literal : Literal) : ℤ :=
  if literal.sign.isMinus then -literal.digits else literal.digits

theorem value_eq_integer (integer : literal.isInteger) : literal.value = literal.integer := by
  rw [literal.value_of_isInteger integer, signed, Literal.integer]
  split <;> simp

end Binary64.Literal

namespace Seconds

open Binary64

variable {x : Binary64}

theorem ofBinary64_of_units (finite : x.IsFinite) {k : ℕ}
    (units : unitsOfField x.field = k * unitsPerOne) :
    ofBinary64 x =
      if x.negative ∧ k ≠ 0 then .error (.negativeSeconds (max leastSigned (-k)))
      else if wordLimit ≤ k then .error (outOfRange x)
      else .ok k := by
  have whole : unitsOfField x.field % unitsPerOne = 0 := by rw [units, Nat.mul_mod_left]
  have count : unitsOfField x.field / unitsPerOne = k := by
    rw [units, Nat.mul_div_cancel _ unitsPerOne_pos]
  rw [ofBinary64, magnitude_of_isFinite finite]
  dsimp only
  rw [if_neg (not_not.mpr whole), count]

theorem ofBinary64_of_infinite (infinite : x.field = infinityField) :
    ofBinary64 x = .error (outOfRange x) := by
  have magnitude : x.magnitude = .infinite := by
    rw [Binary64.magnitude, if_neg (by omega), if_pos infinite]
  rw [ofBinary64, magnitude]

theorem isFinite_iff_of_rounds {v : ℤ} (rounds : Rounds v x) :
    x.IsFinite ↔ |v| < overflowBound := by
  rw [rounds.isFinite_iff]
  exact_mod_cast Iff.rfl

theorem ofBinary64_of_rounds_large {exact : ℚ} (rounds : Rounds exact x) (finite : x.IsFinite)
    (large : wordLimit ≤ exact) : ofBinary64 x = .error (outOfRange x) := by
  have least : (2 ^ 64 : ℚ) ≤ exact := by exact_mod_cast large
  have above : 0 < exact := by linarith
  obtain ⟨k, most, units⟩ :=
    rounds.exists_whole_of_large finite (by decide) (least.trans (le_abs_self exact))
  rw [ofBinary64_of_units finite units, if_neg fun both => rounds.positive above both.1,
    if_pos (show wordLimit ≤ k from most)]

theorem ofBinary64_of_large {v : ℤ} (rounds : Rounds v x) (large : wordLimit ≤ v) :
    ofBinary64 x = .error (outOfRange x) := by
  by_cases finite : x.IsFinite
  · exact ofBinary64_of_rounds_large rounds finite (by exact_mod_cast large)
  · exact ofBinary64_of_infinite (rounds.field_of_not_isFinite finite)

theorem ofBinary64_of_negative {v : ℤ} (rounds : Rounds v x) (large : v ≤ leastSigned) :
    ofBinary64 x =
      if -overflowBound < v then .error (.negativeSeconds leastSigned)
      else .error (outOfRange x) := by
  have negative : v < 0 := large.trans_lt (by decide)
  have range : x.IsFinite ↔ -overflowBound < v := by
    rw [isFinite_iff_of_rounds rounds, abs_of_neg negative, neg_lt]
  by_cases finite : x.IsFinite
  · have sign : x.negative := rounds.negative (by exact_mod_cast negative)
    have least : (2 ^ 63 : ℚ) ≤ |(v : ℚ)| := by
      have size : 2 ^ 63 ≤ |v| := (le_neg_of_le_neg large).trans (neg_le_abs v)
      exact_mod_cast size
    obtain ⟨k, most, units⟩ := rounds.exists_whole_of_large finite (by decide) least
    have below : -(k : ℤ) ≤ leastSigned := by
      simp only [leastSigned]
      omega
    rw [ofBinary64_of_units finite units, if_pos ⟨sign, by omega⟩, if_pos (range.mp finite),
      max_eq_left below]
  · rw [if_neg (mt range.mpr finite)]
    exact ofBinary64_of_infinite (rounds.field_of_not_isFinite finite)

theorem negative_word_or_double {n : ℕ} (some : 0 < n) (rounds : Rounds (-(n : ℤ) : ℤ) x) :
    (if n ≤ (-leastSigned).toNat then ofInt (-n) else ofBinary64 x) =
      if -overflowBound < -(n : ℤ) then .error (.negativeSeconds (max (-(n : ℤ)) leastSigned))
      else .error (outOfRange x) := by
  have negative : -(n : ℤ) < 0 := by omega
  by_cases fits : n ≤ (-leastSigned).toNat
  · have word : leastSigned ≤ -n := by
      simp only [leastSigned] at fits ⊢
      omega
    have least : -leastSigned < overflowBound :=
      (by decide : -leastSigned < 2 ^ 64).trans_le (two_pow_le_overflowBound (by decide))
    rw [if_pos fits, ofInt, if_pos negative, if_pos (by omega), max_eq_left word]
  · have large : -(n : ℤ) ≤ leastSigned := by
      simp only [leastSigned] at fits ⊢
      omega
    rw [if_neg fits, ofBinary64_of_negative rounds large, max_eq_right large]

variable {literal : Literal} {before behind : List Char}

theorem read_word_or_double (integer : literal.isInteger)
    (blankBefore : ∀ c ∈ before, Text.isBlank c) (blankBehind : ∀ c ∈ behind, Text.isBlank c) :
    let x := ofDecimal literal.sign.isMinus literal.digits literal.power
    read (String.ofList (before ++ literal.text ++ behind)) =
      Except.mapError .refused (
        if literal.sign.isMinus then
          if literal.digits ≤ (-leastSigned).toNat then ofInt (-literal.digits) else ofBinary64 x
        else if literal.digits < wordLimit then .ok literal.digits else ofBinary64 x) := by
  intro x
  rw [read_text literal blankBefore blankBehind, ofInteger?_text,
    literal.natural?_of_isInteger integer]
  dsimp only
  split_ifs <;> rfl

/-- An integer of any length is taken as it stands when it is a second count, and is refused for
    what is wrong with it when it is none. -/
theorem read_of_isInteger (integer : literal.isInteger)
    (blankBefore : ∀ c ∈ before, Text.isBlank c) (blankBehind : ∀ c ∈ behind, Text.isBlank c) :
    ∃ x, Rounds literal.integer x ∧
      read (String.ofList (before ++ literal.text ++ behind)) =
        if 0 ≤ literal.integer ∧ literal.integer < wordLimit then .ok literal.integer.toNat
        else if literal.integer < 0 ∧ -overflowBound < literal.integer then
          .error (.refused (.negativeSeconds (max literal.integer leastSigned)))
        else .error (.refused (outOfRange x)) := by
  have rounds := literal.ofLiteral_rounds
  rw [literal.value_eq_integer integer] at rounds
  refine ⟨_, rounds, ?_⟩
  rw [read_word_or_double integer blankBefore blankBehind]
  generalize ofDecimal literal.sign.isMinus literal.digits literal.power = x at rounds ⊢
  cases sign : literal.sign.isMinus with
  | true =>
    have value : literal.integer = -literal.digits := if_pos sign
    rw [value] at rounds ⊢
    rw [if_pos rfl]
    by_cases zero : literal.digits = 0
    · rw [zero]
      rfl
    · have negative : -(literal.digits : ℤ) < 0 := by omega
      rw [negative_word_or_double (Nat.pos_of_ne_zero zero) rounds,
        if_neg (show ¬ (0 ≤ -(literal.digits : ℤ) ∧ _) by omega)]
      simp only [negative, true_and]
      split_ifs <;> rfl
  | false =>
    have value : literal.integer = literal.digits := if_neg (ne_true_of_eq_false sign)
    rw [value] at rounds ⊢
    rw [if_neg Bool.false_ne_true]
    by_cases fits : literal.digits < wordLimit
    · rw [if_pos fits, if_pos (by omega), Int.toNat_natCast]
      rfl
    · rw [if_neg fits, if_neg (by omega), if_neg (by omega), ofBinary64_of_large rounds (by omega)]
      rfl

def belowWords : Literal where
  sign := .minus
  whole := "009223372036854775809".toList
  fraction := none
  exponent := none
  isDigit := List.all_eq_true.mp rfl
  written := by decide

theorem read_of_isInteger_below_words : belowWords.isInteger ∧ (∀ c ∈ [' '], Text.isBlank c) ∧
    read " -009223372036854775809 " = .error (.refused (.negativeSeconds (-2 ^ 63))) := by
  have integer : belowWords.isInteger := rfl
  have value : belowWords.integer = -(2 ^ 63 + 1) := by decide +kernel
  have finite : -overflowBound < -(2 ^ 63 + 1) :=
    neg_lt_neg ((by decide : (2 ^ 63 + 1 : ℤ) < 2 ^ 64).trans_le
      (two_pow_le_overflowBound (by decide)))
  obtain ⟨x, -, read⟩ := read_of_isInteger integer Text.blank_space Text.blank_space
  rw [value, if_neg (by decide), if_pos ⟨by decide, finite⟩] at read
  exact ⟨integer, Text.blank_space, read⟩

example : read "18446744073709551616" =
    .error (.refused (.outOfRange "18446744073709552000 seconds")) := by decide +kernel

end Seconds

end StatusPage
