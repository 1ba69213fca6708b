import StatusPage.Binary64.Rounding
import StatusPage.Json.Text
import StatusPage.Word

namespace StatusPage.Json

def collect (value : Nat) : List Char → Nat × Nat
  | [] => (value, 0)
  | digit :: digits =>
    let longer := value * 10 + (digit.toNat - '0'.toNat)
    if longer < wordLimit then ((collect longer digits).1, (collect longer digits).2 + 1)
    else (value, 0)

/-- Whether a number is beyond the doubles. Its leading digits are rounded to a double before they
    are multiplied by the power of ten. -/
def isTooLarge (whole fraction : List Char) (exponent : Int) : Bool :=
  let (leading, kept) := collect 0 whole
  let (leading, keptFraction) := collect leading fraction
  let power : Int := exponent + (whole.length - kept : Nat) - keptFraction
  leading ≠ 0 && 0 ≤ power && (308 < power ||
    (Binary64.productOf (.ofRatio false leading 1) (.ofDecimal false 1 power)).magnitude =
      .infinite)

def missing (rest : List Char) : Fault := if rest = [] then .truncated else .malformed

def readExponent : List Char → Except Fault Int
  | 'e' :: text | 'E' :: text =>
    let digits := match text with
      | '+' :: digits | '-' :: digits => digits
      | digits => digits
    let power := digits.takeWhile Char.isDigit
    if power = [] then .error (missing digits)
    else .ok ((if text.head? = some '-' then -1 else 1) * Nat.ofDigitChars 10 power 0)
  | _ => .ok 0

def numberFault (text : List Char) : Fault :=
  let whole := text.takeWhile Char.isDigit
  let rest := text.dropWhile Char.isDigit
  if whole = [] then missing rest
  else if whole.head? = some '0' ∧ whole ≠ ['0'] then .malformed
  else
    let (fraction, rest) := match rest with
      | '.' :: rest => (some (rest.takeWhile Char.isDigit), rest.dropWhile Char.isDigit)
      | rest => (none, rest)
    if fraction = some [] then missing rest
    else match readExponent rest with
      | .error fault => fault
      | .ok exponent =>
        if isTooLarge whole (fraction.getD []) exponent then .malformed else .mismatched

def faultBehind {α : Type} : Except Fault α → Fault
  | .error fault => fault
  | .ok _ => .mismatched

/-- The fault of a value of another kind than the one asked for. What is wrong with the value itself
    comes first, as far as it is read: a word, a string or a number to its end, an array or an
    object not at all. -/
def unexpected : List Char → Fault
  | [] => .truncated
  | 'n' :: text => faultBehind (readWord "ull".toList text)
  | 't' :: text => faultBehind (readWord "rue".toList text)
  | 'f' :: text => faultBehind (readWord "alse".toList text)
  | '"' :: text => faultBehind (readText .plain [] text)
  | '[' :: _ | '\x7b' :: _ => .mismatched
  | '-' :: text => numberFault text
  | c :: text => if c.isDigit then numberFault (c :: text) else .malformed

def readString (text : List Char) : Except Fault (String × List Char) :=
  match skipBlanks text with
  | '"' :: text => do
    let (value, rest) ← readText .plain [] text
    return (String.ofList value, rest)
  | text => .error (unexpected text)

def readName (text : List Char) : Except Fault (String × List Char) :=
  match skipBlanks text with
  | [] => .error .truncated
  | '"' :: text => do
    let (name, rest) ← readText .plain [] text
    return (String.ofList name, rest)
  | _ :: _ => .error .malformed

def readOptional (text : List Char) : Except Fault (Option String × List Char) :=
  match skipBlanks text with
  | 'n' :: text => do return (none, ← readWord "ull".toList text)
  | text => do
    let (value, rest) ← readString text
    return (some value, rest)

def readNull (text : List Char) : Except Fault (List Char) :=
  match skipBlanks text with
  | 'n' :: text => readWord "ull".toList text
  | text => .error (unexpected text)

def readMark (mark : Char) (text : List Char) : Except Fault (List Char) :=
  match skipBlanks text with
  | [] => .error .truncated
  | c :: text => if c = mark then .ok text else .error .malformed

def readEnd (text : List Char) : Except Fault Unit :=
  if skipBlanks text = [] then .ok () else .error .malformed

end StatusPage.Json
