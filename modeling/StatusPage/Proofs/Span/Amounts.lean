import Mathlib
import StatusPage.Proofs.Span.Lengths

namespace StatusPage.Span

def goOn (value : ℕ) (chars : List Char) : ℕ :=
  Nat.ofDigitChars 10 (chars.filter Char.isDigit) value

theorem goOn_nil (value : ℕ) : goOn value [] = value := rfl

theorem goOn_append (value : ℕ) (chars more : List Char) :
    goOn value (chars ++ more) = goOn (goOn value chars) more := by
  rw [goOn, List.filter_append, Nat.ofDigitChars_append]
  rfl

theorem goOn_digit (value : ℕ) {c : Char} (digit : c.isDigit) :
    goOn value [c] = value * 10 + digitValue c := by
  rw [goOn, List.filter_cons_of_pos digit, List.filter_nil, Nat.ofDigitChars_cons, Nat.mul_comm]
  rfl

theorem goOn_other (value : ℕ) {c : Char} (other : ¬ c.isDigit) : goOn value [c] = value := by
  rw [goOn, List.filter_cons_of_neg other]
  rfl

theorem goOn_cons (value : ℕ) (c : Char) (chars : List Char) :
    goOn value (c :: chars) = goOn (goOn value [c]) chars :=
  goOn_append value [c] chars

theorem le_goOn (value : ℕ) (chars : List Char) : value ≤ goOn value chars := by
  rw [goOn, Nat.ofDigitChars_eq_ofDigitChars_zero]
  have scale : 1 * value ≤ 10 ^ (chars.filter Char.isDigit).length * value :=
    Nat.mul_le_mul_right value (Nat.pos_of_ne_zero (by simp))
  omega

theorem goOn_of_isDigit {digits : List Char} (digit : ∀ c ∈ digits, c.isDigit) (value : ℕ) :
    goOn value digits = Nat.ofDigitChars 10 digits value := by
  rw [goOn, List.filter_eq_self.mpr digit]

theorem goOn_of_isBlank {blanks : List Char} (blank : ∀ c ∈ blanks, Text.isBlank c) (value : ℕ) :
    goOn value blanks = value := by
  have none : blanks.filter Char.isDigit = [] :=
    List.filter_eq_nil_iff.mpr fun c member => Text.not_isDigit_of_isBlank (blank c member)
  rw [goOn, none]
  rfl

def Fraction.value (part : Fraction) : ℚ := part.numerator / part.denominator

def Fraction.goOn (part : Fraction) (chars : List Char) : Fraction :=
  ⟨Span.goOn part.numerator chars, part.denominator * 10 ^ chars.countP Char.isDigit⟩

theorem Fraction.goOn_append (part : Fraction) (chars more : List Char) :
    part.goOn (chars ++ more) = (part.goOn chars).goOn more := by
  simp only [goOn, Span.goOn_append, List.countP_append, Nat.pow_add, Nat.mul_assoc]

theorem Fraction.goOn_digit (part : Fraction) {c : Char} (digit : c.isDigit) :
    part.goOn [c] = ⟨part.numerator * 10 + digitValue c, part.denominator * 10⟩ := by
  simp [goOn, Span.goOn_digit _ digit, digit]

theorem Fraction.goOn_other (part : Fraction) {c : Char} (other : ¬ c.isDigit) :
    part.goOn [c] = part := by
  simp [goOn, Span.goOn_other _ other, other]

def InNumber (c : Char) : Prop := c.isDigit ∨ Text.isBlank c

instance (c : Char) : Decidable (InNumber c) := inferInstanceAs (Decidable (_ ∨ _))

theorem inNumber_of_none : ∀ chars ∈ (none : Option (List Char)), ∀ c ∈ chars, InNumber c := by
  simp

/-- A written number with blanks around it: a digit, more of them with blanks in between, and more
    of both behind a decimal point if there is one. -/
structure Numeral where
  before : List Char
  first : Char
  more : List Char
  places : Option (List Char)
  blankBefore : ∀ c ∈ before, Text.isBlank c
  isDigit : first.isDigit
  inNumber : ∀ c ∈ more, InNumber c
  inPlaces : ∀ chars ∈ places, ∀ c ∈ chars, InNumber c

namespace Numeral

def point (numeral : Numeral) : List Char := numeral.places.elim [] ('.' :: ·)

def text (numeral : Numeral) : List Char :=
  numeral.before ++ numeral.first :: (numeral.more ++ numeral.point)

def value (numeral : Numeral) : ℕ := goOn (digitValue numeral.first) numeral.more

def part (numeral : Numeral) : Option Fraction := numeral.places.map (Fraction.goOn ⟨0, 1⟩)

theorem first_lt (numeral : Numeral) : digitValue numeral.first < wordLimit := by
  have bounds := Char.isDigit_iff_toNat.mp numeral.isDigit
  have limit : 10 ≤ wordLimit := by decide
  simp only [Char.reduceToNat, digitValue] at bounds ⊢
  omega

/-- The value and the power of ten below the fraction fit machine words. -/
def Readable (numeral : Numeral) : Prop :=
  numeral.value < wordLimit ∧ ∀ part ∈ numeral.part, part.denominator < wordLimit

instance (numeral : Numeral) : Decidable numeral.Readable := inferInstanceAs (Decidable (_ ∧ _))

def Placed (numeral : Numeral) : Prop := ∀ chars ∈ numeral.places, ∃ c ∈ chars, c.isDigit

theorem placed_iff {numeral : Numeral} {part : Fraction} (present : numeral.part = some part) :
    numeral.Placed ↔ part.denominator ≠ 1 := by
  obtain ⟨chars, places, rfl⟩ := Option.map_eq_some_iff.mp present
  simp [Placed, places, Fraction.goOn, List.countP_eq_zero]

theorem denominator_pos {numeral : Numeral} {part : Fraction}
    (present : part ∈ numeral.part) : 0 < part.denominator := by
  obtain ⟨chars, -, rfl⟩ := Option.map_eq_some_iff.mp present
  simp [Fraction.goOn]

def number (numeral : Numeral) : ℚ := numeral.value + numeral.part.elim 0 Fraction.value

def push (numeral : Numeral) (c : Char) (inside : InNumber c) : Numeral :=
  { numeral with
    more := if numeral.places = none then numeral.more ++ [c] else numeral.more
    places := numeral.places.map (· ++ [c])
    inNumber := by
      split
      · intro d member
        rcases List.mem_append.mp member with earlier | last
        · exact numeral.inNumber d earlier
        · rwa [List.mem_singleton.mp last]
      · exact numeral.inNumber
    inPlaces := by
      intro chars same d member
      obtain ⟨earlier, present, rfl⟩ := Option.map_eq_some_iff.mp same
      rcases List.mem_append.mp member with earlier | last
      · exact numeral.inPlaces _ present d earlier
      · rwa [List.mem_singleton.mp last] }

theorem push_text (numeral : Numeral) {c : Char} (inside : InNumber c) :
    (numeral.push c inside).text = numeral.text ++ [c] := by
  cases places : numeral.places with
  | none => simp [text, point, push, places]
  | some chars => simp [text, point, push, places]

theorem push_part (numeral : Numeral) {c : Char} (inside : InNumber c) :
    (numeral.push c inside).part = numeral.part.map (·.goOn [c]) := by
  cases places : numeral.places with
  | none => simp [part, push, places]
  | some chars => simp [part, push, places, Fraction.goOn_append]

theorem push_value (numeral : Numeral) {c : Char} (inside : InNumber c) :
    (numeral.push c inside).value =
      if numeral.places = none then goOn numeral.value [c] else numeral.value := by
  cases places : numeral.places with
  | none => simp [value, push, places, goOn_append]
  | some chars => simp [value, push, places]

def start (before : List Char) (first : Char) (blank : ∀ c ∈ before, Text.isBlank c)
    (isDigit : first.isDigit) : Numeral :=
  ⟨before, first, [], none, blank, isDigit, by simp, inNumber_of_none⟩

end Numeral

structure Amount extends Numeral where
  unit : TimeUnit
  name : String
  named : name ∈ unit.names
  placed : toNumeral.Placed

namespace Amount

def text (amount : Amount) : List Char := amount.toNumeral.text ++ amount.name.toList

def lengths (amount : Amount) : List (Option Scale) :=
  if amount.Readable then amount.unit.lengths amount.value amount.part else [none]

/-- The time that is written, whether it can be added or not. -/
def nanoseconds (amount : Amount) : ℚ := amount.number * amount.unit.scale.nanoseconds

end Amount

end StatusPage.Span

namespace StatusPage

theorem Span.Fraction.of?_eq_some {part : Fraction} {scale n : ℕ} (some : 0 < part.denominator)
    (found : part.of? scale = .some n) :
    (n : ℚ) = part.value * scale := by
  obtain ⟨⟨-, whole⟩, quotient⟩ := Option.ite_none_right_eq_some.mp found
  have nonzero : (part.denominator : ℚ) ≠ 0 := by exact_mod_cast some.ne'
  rw [← Option.some.inj quotient, Nat.cast_div whole nonzero, Nat.cast_mul, Fraction.value]
  ring

namespace TimeUnit

theorem length?_nanoseconds {unit : TimeUnit} {value : ℕ} {length : Scale}
    (found : unit.length? value = some length) :
    length.nanoseconds = value * unit.scale.nanoseconds := by
  obtain ⟨-, scaled⟩ := Option.ite_none_right_eq_some.mp found
  rw [← Option.some.inj scaled, Scale.nanoseconds, Scale.nanoseconds, Nat.mul_add, Nat.mul_assoc]

theorem partLength?_nanoseconds {unit : TimeUnit} {part : Span.Fraction} {length : Scale}
    (some : 0 < part.denominator) (found : unit.partLength? part = .some length) :
    (length.nanoseconds : ℚ) = part.value * unit.scale.nanoseconds := by
  simp only [partLength?, Option.bind_eq_bind, Option.bind_eq_some_iff, Option.pure_def,
    Option.some.injEq] at found
  obtain ⟨scale, split, seconds, whole, nanos, rest, rfl⟩ := found
  rw [← nanoseconds_fractionScale split]
  simp only [Scale.nanoseconds, Nat.cast_add, Nat.cast_mul,
    Span.Fraction.of?_eq_some some whole, Span.Fraction.of?_eq_some some rest]
  ring

end TimeUnit

namespace Span

theorem Amount.sum_lengths {amount : Amount} {known : List Scale}
    (same : amount.lengths = known.map some) :
    (((known.map Scale.nanoseconds).sum : ℕ) : ℚ) = amount.nanoseconds := by
  unfold lengths at same
  by_cases readable : amount.Readable
  · rw [if_pos readable, TimeUnit.lengths] at same
    unfold nanoseconds Numeral.number
    obtain ⟨first, rest, rfl⟩ : ∃ first rest, known = first :: rest := by
      cases known with
      | nil => simp at same
      | cons first rest => exact ⟨first, rest, rfl⟩
    obtain ⟨whole, parts⟩ := List.cons.inj (same.trans (List.map_cons ..))
    rw [List.map_cons, List.sum_cons, TimeUnit.length?_nanoseconds whole]
    cases present : amount.part with
    | none =>
      rw [present] at parts
      obtain rfl := List.map_eq_nil_iff.mp parts.symm
      simp
    | some part =>
      rw [present, Option.toList_some, List.map_singleton] at parts
      obtain ⟨length, rfl, fraction⟩ := List.map_eq_singleton_iff.mp parts.symm
      have exactly := TimeUnit.partLength?_nanoseconds (Numeral.denominator_pos present)
        fraction.symm
      simp only [List.map_singleton, List.sum_singleton, Nat.cast_add, Nat.cast_mul, exactly,
        Option.elim_some]
      ring
  · rw [if_neg readable] at same
    obtain ⟨length, -, absurd⟩ := List.map_eq_singleton_iff.mp same.symm
    cases absurd

/-- Amounts that can be added up come to exactly the time that is written. -/
theorem addLengths_exact {amounts : List Amount} {total : Span}
    (added : zero.addLengths (amounts.flatMap Amount.lengths) = .ok total) :
    (total.nanoseconds : ℚ) = (amounts.map Amount.nanoseconds).sum := by
  obtain ⟨known, same, -, exactly⟩ := addLengths_ok_iff.mp added
  rw [exactly]
  clear exactly added
  induction amounts generalizing known with
  | nil =>
    obtain rfl := List.map_eq_nil_iff.mp same.symm
    simp
  | cons amount amounts ih =>
    rw [List.flatMap_cons] at same
    obtain ⟨front, behind, rfl, first, rest⟩ := List.map_eq_append_iff.mp same.symm
    rw [List.map_append, List.sum_append, Nat.cast_add, Amount.sum_lengths first.symm,
      ih behind rest.symm, List.map_cons, List.sum_cons]

end Span

end StatusPage
