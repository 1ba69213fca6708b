import StatusPage.Binary64.Rounding
import StatusPage.Locale.Basic
import StatusPage.Text.Digits

namespace StatusPage.Locale

def digits (locale : Locale) (n : Nat) : List Char :=
  Text.group locale.groupSeparator (Nat.toDigits 10 n)

def formatNat (locale : Locale) (n : Nat) : String := String.ofList (locale.digits n)

def formatInt (locale : Locale) (n : Int) : String :=
  if n < 0 then "-" ++ locale.formatNat n.natAbs else locale.formatNat n.natAbs

def thousandths (locale : Locale) (n : Nat) : List Char :=
  match Text.fraction 3 (n % 1000) with
  | [] => locale.digits (n / 1000)
  | fraction => locale.digits (n / 1000) ++ locale.decimalSeparator :: fraction

/-- A double rounded to thousandths. The sign is written also where nothing but zero is left. -/
def formatFloat (locale : Locale) (x : Binary64) : String :=
  match x.magnitude with
  | .nan => "NaN"
  | .infinite => if x.negative then "-∞" else "∞"
  | .finite units =>
    let text := locale.thousandths (roundDiv (units * 1000) Binary64.unitsPerOne)
    String.ofList (if x.negative then '-' :: text else text)

end StatusPage.Locale
