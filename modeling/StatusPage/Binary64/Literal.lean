import StatusPage.Binary64.Rounding

namespace StatusPage.Binary64

inductive LiteralError where
  | empty
  | invalid
deriving DecidableEq

def LiteralError.message : LiteralError → String
  | .empty => "cannot parse float from empty string"
  | .invalid => "invalid float literal"

def splitSign : List Char → Bool × List Char
  | '-' :: rest => (true, rest)
  | '+' :: rest => (false, rest)
  | rest => (false, rest)

def exponent? : List Char → Option Int
  | [] => some 0
  | mark :: rest =>
    let (negative, digits) := splitSign rest
    if mark.toLower = 'e' ∧ digits ≠ [] ∧ digits.all Char.isDigit then
      let power : Int := Nat.ofDigitChars 10 digits 0
      some (if negative then -power else power)
    else none

def splitPoint (text : List Char) : List Char × List Char × List Char :=
  let whole := text.takeWhile Char.isDigit
  match text.dropWhile Char.isDigit with
  | '.' :: rest => (whole, rest.takeWhile Char.isDigit, rest.dropWhile Char.isDigit)
  | rest => (whole, [], rest)

def decimal? (negative : Bool) (text : List Char) : Option Binary64 :=
  let (whole, fraction, rest) := splitPoint text
  if whole = [] ∧ fraction = [] then none
  else (exponent? rest).map fun exponent =>
    ofDecimal negative (Nat.ofDigitChars 10 (whole ++ fraction) 0) (exponent - fraction.length)

/-- Read a literal: a decimal or one of the words for infinity and no number, in any case. -/
def ofLiteral (text : List Char) : Except LiteralError Binary64 :=
  if text = [] then .error .empty
  else
    let (negative, rest) := splitSign text
    let word := String.ofList (rest.map Char.toLower)
    if word = "inf" ∨ word = "infinity" then .ok (infinity negative)
    else if word = "nan" then .ok nan
    else match decimal? negative rest with
      | some x => .ok x
      | none => .error .invalid

end StatusPage.Binary64
