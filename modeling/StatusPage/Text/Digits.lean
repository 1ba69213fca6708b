import StatusPage.Text.Blank

namespace StatusPage.Text

def natural? (text : List Char) : Option Nat :=
  if text ≠ [] ∧ text.all Char.isDigit then some (Nat.ofDigitChars 10 text 0) else none

theorem natural?_toDigits (n : Nat) : natural? (Nat.toDigits 10 n) = some n := by
  have digits : (Nat.toDigits 10 n).all Char.isDigit := by
    simpa using fun c member => Nat.isDigit_of_mem_toDigits (by decide) (by decide) member
  simp [natural?, Nat.toDigits_ne_nil, digits, Nat.ofDigitChars_ten_toDigits]

def unsigned? : List Char → Option Nat
  | '+' :: digits => natural? digits
  | digits => natural? digits

def signed? : List Char → Option Int
  | '-' :: digits => (natural? digits).map fun n : Nat => -(n : Int)
  | digits => (unsigned? digits).map fun n : Nat => (n : Int)

/-- The digits behind a decimal separator for `part / 10 ^ places`: leading zeros are written,
    trailing ones are not. -/
def fraction (places part : Nat) : List Char :=
  dropRight '0' ((Nat.toDigits 10 part).leftpad places '0')

def group (separator : Char) : List Char → List Char
  | [] => []
  | digit :: rest =>
    if rest ≠ [] ∧ rest.length % 3 = 0 then digit :: separator :: group separator rest
    else digit :: group separator rest

end StatusPage.Text
