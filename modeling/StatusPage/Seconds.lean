import StatusPage.Binary64.Literal
import StatusPage.Span.Reader
import StatusPage.Uptime

namespace StatusPage.Seconds

def ofInt (value : Int) : Except FormatError Nat :=
  if value < 0 then .error (.negativeSeconds value) else .ok value.toNat

def ofHost (uptime : Except IoError Int) : Except FormatError Nat :=
  match uptime with
  | .ok seconds => ofInt seconds
  | .error reason => .error (.io reason)

def format (value : Int) : Except FormatError String :=
  (ofInt value).map (Uptime.format .faithful)

def outOfRange (x : Binary64) : FormatError := .outOfRange (x.text ++ " seconds")

def ofBinary64 (x : Binary64) : Except FormatError Nat :=
  match x.magnitude with
  | .nan => .error (.invalidInput "NaN is not a second count")
  | .infinite => .error (outOfRange x)
  | .finite units =>
    let value := units / Binary64.unitsPerOne
    if units % Binary64.unitsPerOne ≠ 0 then .error (.notAnInteger x)
    else if x.negative ∧ value ≠ 0 then .error (.negativeSeconds (max leastSigned (-value)))
    else if wordLimit ≤ value then .error (outOfRange x)
    else .ok value

def ofSpan (span : Span) : Except FormatError Nat :=
  if span.subsecond = 0 then .ok span.seconds else .error (.notAnInteger span.toBinary64)

def ofInteger? (text : List Char) : Option (Except FormatError Nat) :=
  match (Text.unsigned? text).filter (· < wordLimit) with
  | some value => some (.ok value)
  | none => ((Text.signed? text).filter fun n => leastSigned ≤ n ∧ n < -leastSigned).map ofInt

/-- A text that is no number is taken for a length of time, and cited when it is none. -/
def ofSpanText (text : List Char) : Except (Failure FormatError) Nat :=
  match Span.read text with
  | .ok span => (ofSpan span).mapError .refused
  | .error failure =>
    .error (failure.map fun reason =>
      .invalidInput ("'" ++ String.ofList text ++ "': " ++ reason.message))

def read (text : String) : Except (Failure FormatError) Nat :=
  let trimmed := Text.trim text.toList
  if trimmed = [] then .error (.refused (.invalidInput "empty second count"))
  else match ofInteger? trimmed with
    | some result => result.mapError .refused
    | none =>
      match Binary64.ofLiteral trimmed with
      | .ok x => (ofBinary64 x).mapError .refused
      | .error _ => ofSpanText trimmed

end StatusPage.Seconds
