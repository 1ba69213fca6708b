import Mathlib
import StatusPage.Binary64.Literal
import StatusPage.Proofs.Binary64.Decimal
import StatusPage.Proofs.Text.Blank

namespace StatusPage.Binary64

inductive Sign where
  | absent
  | plus
  | minus
deriving DecidableEq

namespace Sign

def text : Sign → List Char
  | .absent => []
  | .plus => ['+']
  | .minus => ['-']

def isMinus (sign : Sign) : Bool := sign = .minus

end Sign

structure Exponent where
  mark : Char
  sign : Sign
  digits : List Char
  isMark : mark = 'e' ∨ mark = 'E'
  isDigit : ∀ c ∈ digits, c.isDigit
  written : digits ≠ []

namespace Exponent

def text (exponent : Exponent) : List Char :=
  exponent.mark :: (exponent.sign.text ++ exponent.digits)

def power (exponent : Exponent) : ℤ :=
  let power : ℤ := Nat.ofDigitChars 10 exponent.digits 0
  if exponent.sign.isMinus then -power else power

end Exponent

/-- A decimal literal: digits with a point somewhere or none, a sign before them and a power of ten
    behind them. -/
structure Literal where
  sign : Sign
  whole : List Char
  fraction : Option (List Char)
  exponent : Option Exponent
  isDigit : ∀ c ∈ whole ++ fraction.getD [], c.isDigit
  written : whole ++ fraction.getD [] ≠ []

namespace Literal

def fractionText (literal : Literal) : List Char := literal.fraction.elim [] ('.' :: ·)

def exponentText (literal : Literal) : List Char := literal.exponent.elim [] Exponent.text

def body (literal : Literal) : List Char :=
  literal.whole ++ (literal.fractionText ++ literal.exponentText)

def text (literal : Literal) : List Char := literal.sign.text ++ literal.body

def digits (literal : Literal) : ℕ :=
  Nat.ofDigitChars 10 (literal.whole ++ literal.fraction.getD []) 0

def power (literal : Literal) : ℤ :=
  literal.exponent.elim 0 Exponent.power - (literal.fraction.getD []).length

def value (literal : Literal) : ℚ :=
  signed literal.sign.isMinus (literal.digits * 10 ^ literal.power)

end Literal

theorem not_sign_of_isDigit_or_point {c : Char} (first : c.isDigit ∨ c = '.') :
    c ≠ '-' ∧ c ≠ '+' := by
  rcases first with digit | rfl
  · constructor <;> rintro rfl <;> simp at digit
  · decide

theorem splitSign_text (sign : Sign) {c : Char} {rest : List Char} (minus : c ≠ '-')
    (plus : c ≠ '+') : splitSign (sign.text ++ c :: rest) = (sign.isMinus, c :: rest) := by
  cases sign with
  | absent => simp [Sign.text, splitSign, Sign.isMinus, minus, plus]
  | plus => rfl
  | minus => rfl

theorem takeWhile_digits {digits rest : List Char} (isDigit : ∀ c ∈ digits, c.isDigit)
    (ends : ∀ c ∈ rest.head?, ¬ c.isDigit) :
    (digits ++ rest).takeWhile Char.isDigit = digits ∧
      (digits ++ rest).dropWhile Char.isDigit = rest := by
  rw [List.takeWhile_append_of_pos isDigit, List.dropWhile_append_of_pos isDigit]
  cases rest with
  | nil => simp
  | cons c rest =>
    rw [List.takeWhile_cons_of_neg (ends c rfl), List.dropWhile_cons_of_neg (ends c rfl)]
    simp

theorem splitPoint_without {digits rest : List Char} (isDigit : ∀ c ∈ digits, c.isDigit)
    (ends : ∀ c ∈ rest.head?, ¬ c.isDigit ∧ c ≠ '.') :
    splitPoint (digits ++ rest) = (digits, [], rest) := by
  obtain ⟨taken, dropped⟩ := takeWhile_digits isDigit fun c head => (ends c head).1
  rw [splitPoint, taken, dropped]
  cases rest with
  | nil => rfl
  | cons c rest => simp [(ends c rfl).2]

theorem splitPoint_with {digits fraction rest : List Char} (isDigit : ∀ c ∈ digits, c.isDigit)
    (places : ∀ c ∈ fraction, c.isDigit) (ends : ∀ c ∈ rest.head?, ¬ c.isDigit) :
    splitPoint (digits ++ '.' :: (fraction ++ rest)) = (digits, fraction, rest) := by
  have point : ∀ c ∈ ('.' :: (fraction ++ rest)).head?, ¬ c.isDigit := by
    rintro c ⟨⟩
    decide
  obtain ⟨taken, dropped⟩ := takeWhile_digits isDigit point
  obtain ⟨part, behind⟩ := takeWhile_digits places ends
  simp only [splitPoint, taken, dropped, part, behind]

theorem Exponent.toLower_mark (exponent : Exponent) : exponent.mark.toLower = 'e' := by
  rcases exponent.isMark with mark | mark <;> rw [mark] <;> rfl

theorem exponent?_text (exponent : Exponent) :
    exponent? exponent.text = some exponent.power := by
  have lower := exponent.toLower_mark
  obtain ⟨mark, sign, digits, isMark, isDigit, written⟩ := exponent
  obtain ⟨c, rest, rfl⟩ := List.exists_cons_of_ne_nil written
  obtain ⟨minus, plus⟩ := not_sign_of_isDigit_or_point (.inl (isDigit c (by simp)))
  have all : (c :: rest).all Char.isDigit := List.all_eq_true.mpr isDigit
  rw [Exponent.text, exponent?, splitSign_text sign minus plus]
  dsimp only
  rw [if_pos ⟨lower, written, all⟩]
  rfl

namespace Literal

variable (literal : Literal)

theorem exponent?_exponentText : exponent? literal.exponentText =
    some (literal.exponent.elim 0 Exponent.power) := by
  rw [exponentText]
  cases literal.exponent with
  | none => rfl
  | some exponent => exact exponent?_text exponent

theorem head_exponentText : ∀ c ∈ literal.exponentText.head?, ¬ c.isDigit ∧ c ≠ '.' := by
  rw [exponentText]
  cases literal.exponent with
  | none => simp
  | some exponent =>
    intro c same
    obtain rfl : exponent.mark = c := by simpa [Exponent.text] using same
    rcases exponent.isMark with mark | mark <;> rw [mark] <;> decide

theorem splitPoint_body :
    splitPoint literal.body = (literal.whole, literal.fraction.getD [], literal.exponentText) := by
  have ends := literal.head_exponentText
  have isDigit := literal.isDigit
  rw [body, fractionText]
  cases fraction : literal.fraction with
  | none =>
    rw [fraction, Option.getD_none, List.append_nil] at isDigit
    exact splitPoint_without isDigit ends
  | some digits =>
    rw [fraction, Option.getD_some] at isDigit
    exact splitPoint_with (fun c member => isDigit c (List.mem_append_left _ member))
      (fun c member => isDigit c (List.mem_append_right _ member)) fun c head => (ends c head).1

theorem decimal?_body (negative : Bool) :
    decimal? negative literal.body = some (ofDecimal negative literal.digits literal.power) := by
  have some : ¬ (literal.whole = [] ∧ literal.fraction.getD [] = []) := by
    rintro ⟨whole, fraction⟩
    exact literal.written (by rw [whole, fraction]; rfl)
  rw [decimal?, splitPoint_body]
  dsimp only
  rw [if_neg some, exponent?_exponentText]
  rfl

theorem body_cons : ∃ c rest, literal.body = c :: rest ∧ (c.isDigit ∨ c = '.') := by
  have isDigit := literal.isDigit
  have written := literal.written
  rw [body, fractionText]
  cases whole : literal.whole with
  | cons c rest => exact ⟨c, _, rfl, .inl (isDigit c (by simp [whole]))⟩
  | nil =>
    cases fraction : literal.fraction with
    | none => simp [whole, fraction] at written
    | some digits => exact ⟨'.', _, rfl, .inr rfl⟩

/-- A literal is read for the double that its number is rounded to. -/
theorem ofLiteral_text : ofLiteral literal.text =
    .ok (ofDecimal literal.sign.isMinus literal.digits literal.power) := by
  have decimal := literal.decimal?_body literal.sign.isMinus
  obtain ⟨c, rest, body, first⟩ := literal.body_cons
  obtain ⟨minus, plus⟩ := not_sign_of_isDigit_or_point first
  have lower : c.toLower = c ∧ c ≠ 'i' ∧ c ≠ 'n' := by
    rcases first with digit | rfl
    · refine ⟨Text.toLower_of_isDigit digit, ?_, ?_⟩ <;> rintro rfl <;> simp at digit
    · decide
  have word (letter : Char) (letters : List Char) (other : c ≠ letter) :
      String.ofList ((c :: rest).map Char.toLower) ≠ String.ofList (letter :: letters) := by
    intro same
    have chars := String.ofList_injective same
    rw [List.map_cons, lower.1] at chars
    exact other (List.cons.inj chars).1
  have infinite := fun letters => word 'i' letters lower.2.1
  have nan := fun letters => word 'n' letters lower.2.2
  rw [body] at decimal
  rw [text, body, ofLiteral, if_neg (by simp), splitSign_text literal.sign minus plus]
  dsimp only
  rw [if_neg (not_or.mpr ⟨infinite _, infinite _⟩), if_neg (nan _), decimal]

theorem ofLiteral_rounds :
    Rounds literal.value (ofDecimal literal.sign.isMinus literal.digits literal.power) :=
  ofDecimal_rounds ..

end Literal

section Characters

variable {c : Char}

def InDecimal (c : Char) : Prop := c.isDigit ∨ c = '.' ∨ c.toLower = 'e' ∨ c = '-' ∨ c = '+'

instance (c : Char) : Decidable (InDecimal c) := inferInstanceAs (Decidable (_ ∨ _))

theorem inDecimal_of_mem_sign {sign : Sign} (member : c ∈ sign.text) : InDecimal c := by
  cases sign with
  | absent => exact absurd member List.not_mem_nil
  | plus =>
    rw [List.mem_singleton.mp member]
    decide
  | minus =>
    rw [List.mem_singleton.mp member]
    decide

theorem Literal.inDecimal_of_mem_text (literal : Literal) (member : c ∈ literal.text) :
    InDecimal c := by
  have isDigit := literal.isDigit
  simp only [text, body, fractionText, exponentText, List.mem_append] at member isDigit
  rcases member with sign | whole | fraction | exponent
  · exact inDecimal_of_mem_sign sign
  · exact .inl (isDigit c (.inl whole))
  · cases present : literal.fraction with
    | none => simp [present] at fraction
    | some digits =>
      rw [present] at fraction isDigit
      rcases List.mem_cons.mp fraction with point | digit
      · exact .inr (.inl point)
      · exact .inl (isDigit c (.inr digit))
  · cases present : literal.exponent with
    | none => simp [present] at exponent
    | some power =>
      simp only [present, Option.elim_some, Exponent.text, List.mem_cons, List.mem_append]
        at exponent
      rcases exponent with rfl | sign | digit
      · exact .inr (.inr (.inl power.toLower_mark))
      · exact inDecimal_of_mem_sign sign
      · exact .inl (power.isDigit c digit)

end Characters

end StatusPage.Binary64
