import StatusPage.Span.Unit
import StatusPage.Text.Blank
import StatusPage.Text.Digits

namespace StatusPage.Span

structure Fraction where
  numerator : Nat
  denominator : Nat
deriving DecidableEq

def Fraction.of (part : Fraction) (scale : Nat) : Except (Failure ReadError) Nat := do
  let product ← checked (part.numerator * scale)
  if product % part.denominator = 0 then .ok (product / part.denominator)
  else .error (.refused .numberOverflow)

def addWhole (total : Span) (unit : TimeUnit) (value : Nat) : Except (Failure ReadError) Span := do
  total.add (← checked (value * unit.scale.seconds)) (← checked (value * unit.scale.nanos))

def addFraction (total : Span) (unit : TimeUnit) (part : Fraction) :
    Except (Failure ReadError) Span :=
  match unit.fractionScale? with
  | none => .error (.refused .numberOverflow)
  | some scale => do total.add (← part.of scale.seconds) (← part.of scale.nanos)

def addTerm (total : Span) (value : Nat) (part : Option Fraction) (name : List Char) :
    Except (Failure ReadError) Span :=
  match TimeUnit.ofName? (String.ofList name) with
  | none => .error (.refused (.unknownUnit (String.ofList name) value))
  | some unit => do
    let total ← total.addWhole unit value
    match part with
    | none => .ok total
    | some part => total.addFraction unit part

inductive Stage where
  | start
  /-- Between two terms; the offset is where the gap goes on behind its first blank. -/
  | gap (since : Nat)
  | whole (value : Nat)
  /-- Behind the decimal point; the offset is where a fault in the fraction is reported. -/
  | fraction (value : Nat) (part : Fraction) (fault : Nat)
  | unit (value : Nat) (part : Option Fraction) (name : List Char)
deriving DecidableEq

structure Reader where
  total : Span
  offset : Nat
  stage : Stage
deriving DecidableEq

def Reader.fresh : Reader := ⟨zero, 0, .start⟩

def isUnitLetter (c : Char) : Bool := c.isAlpha || c = 'µ'

def digitValue (c : Char) : Nat := c.toNat - '0'.toNat

def firstDigit (waiting : Stage) (since : Nat) (c : Char) : Except (Failure ReadError) Stage :=
  if c.isDigit then .ok (.whole (digitValue c))
  else if Text.isBlank c then .ok waiting
  else .error (.refused (.numberExpected since))

/-- The stage behind one more character, with the total that goes with it. A blank inside a number
    is passed over; one inside a unit ends it. -/
def advance (total : Span) (offset : Nat) (c : Char) :
    Stage → Except (Failure ReadError) (Span × Stage)
  | .start => do return (total, ← firstDigit .start 0 c)
  | .gap since => do return (total, ← firstDigit (.gap since) since c)
  | .whole value =>
    if c.isDigit then do return (total, .whole (← checked (value * 10 + digitValue c)))
    else if Text.isBlank c then .ok (total, .whole value)
    else if isUnitLetter c then .ok (total, .unit value none [c])
    else if c = '.' then .ok (total, .fraction value ⟨0, 1⟩ offset)
    else .error (.refused (.invalidCharacter offset))
  | .fraction value part fault =>
    if c.isDigit then do
      let denominator ← checked (part.denominator * 10)
      let part := ⟨part.numerator * 10 + digitValue c, denominator⟩
      return (total, .fraction value part (offset + 1))
    else if Text.isBlank c then .ok (total, .fraction value part (offset + c.utf8Size))
    else if isUnitLetter c ∧ part.denominator ≠ 1 then .ok (total, .unit value (some part) [c])
    else .error (.refused (.invalidCharacter fault))
  | .unit value part name =>
    if c.isDigit then do return (← total.addTerm value part name, .whole (digitValue c))
    else if Text.isBlank c then do
      return (← total.addTerm value part name, .gap (offset + c.utf8Size))
    else if isUnitLetter c then .ok (total, .unit value part (name ++ [c]))
    else .error (.refused (.invalidCharacter offset))

def Reader.step (reader : Reader) (c : Char) : Except (Failure ReadError) Reader := do
  let (total, stage) ← advance reader.total reader.offset c reader.stage
  return ⟨total, reader.offset + c.utf8Size, stage⟩

def Reader.finish (reader : Reader) : Except (Failure ReadError) Span :=
  match reader.stage with
  | .start => .error (.refused .empty)
  | .gap _ => .ok reader.total
  | .whole value => .error (.refused (.unknownUnit "" value))
  | .fraction value part fault =>
    if part.denominator = 1 then .error (.refused (.invalidCharacter fault))
    else .error (.refused (.unknownUnit "" value))
  | .unit value part name => reader.total.addTerm value part name

/-- Read terms such as `1h 30min` or `2.5s` and add them up. A zero needs no unit when it stands
    alone. -/
def read (text : List Char) : Except (Failure ReadError) Span :=
  if text = ['0'] then .ok zero
  else do (← text.foldlM Reader.step .fresh).finish

end StatusPage.Span
