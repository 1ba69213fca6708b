import StatusPage.Binary64.Rounding
import StatusPage.Text.Digits

namespace StatusPage.Binary64

def decimalScale : Nat := Nat.pow 10 400

structure Decimal where
  digits : Nat
  exponent : Int

/-- The neighbour of a magnitude on the grid of `10 ^ step` scaled units that reads back as the same
    double. Of two the nearer is taken, of two equally near the upper. -/
def neighbour? (units step : Nat) : Option Decimal :=
  let spacing := unitsPerOne * Nat.pow 10 step
  let lower := units * decimalScale / spacing
  let readsBack (digits : Nat) : Bool :=
    (ofDecimal false digits (step - 400)).magnitude = .finite units
  let nearLower : Bool := 2 * (units * decimalScale) < (2 * lower + 1) * spacing
  if readsBack lower && (nearLower || !readsBack (lower + 1)) then some ⟨lower, step - 400⟩
  else if readsBack (lower + 1) then some ⟨lower + 1, step - 400⟩
  else none

def shortest (units : Nat) : Decimal :=
  let length := (Nat.toDigits 10 (units * decimalScale / unitsPerOne)).length
  let grids := (List.range 17).map fun dropped => length - 1 - dropped
  (grids.findSome? (neighbour? units)).getD ⟨units * decimalScale / unitsPerOne, -400⟩

def Decimal.text (decimal : Decimal) : List Char :=
  match decimal.exponent with
  | .ofNat power => Nat.toDigits 10 (decimal.digits * Nat.pow 10 power)
  | .negSucc power =>
    let places := power + 1
    let whole := Nat.toDigits 10 (decimal.digits / Nat.pow 10 places)
    match Text.fraction places (decimal.digits % Nat.pow 10 places) with
    | [] => whole
    | digits => whole ++ '.' :: digits

def text (x : Binary64) : String :=
  match x.magnitude with
  | .nan => "NaN"
  | .infinite => if x.negative then "-inf" else "inf"
  | .finite units =>
    let digits := if units = 0 then "0" else String.ofList (shortest units).text
    if x.negative then "-" ++ digits else digits

end StatusPage.Binary64
