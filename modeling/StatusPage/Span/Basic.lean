import StatusPage.Binary64.Rounding
import StatusPage.Error
import StatusPage.Word

namespace StatusPage

def nanosPerSecond : Nat := 1000000000

/-- A length of time to the nanosecond, of fewer than `2 ^ 64` whole seconds. -/
structure Span where
  nanoseconds : Nat
  fits : nanoseconds < wordLimit * nanosPerSecond
deriving DecidableEq

namespace Span

def zero : Span := ⟨0, by decide⟩

def seconds (span : Span) : Nat := span.nanoseconds / nanosPerSecond

def subsecond (span : Span) : Nat := span.nanoseconds % nanosPerSecond

/-- The length in seconds; the whole seconds and the rest are rounded before they are added. -/
def toBinary64 (span : Span) : Binary64 :=
  (Binary64.ofRatio false span.seconds 1).sumOf
    (Binary64.ofRatio false span.subsecond nanosPerSecond)

/-- Why a text is not a length of time; offsets count bytes. -/
inductive ReadError where
  | invalidCharacter (offset : Nat)
  | numberExpected (offset : Nat)
  | unknownUnit (name : String) (value : Nat)
  | numberOverflow
  | empty
deriving DecidableEq

def ReadError.message : ReadError → String
  | .invalidCharacter offset => "invalid character at " ++ toString offset
  | .numberExpected offset => "expected number at " ++ toString offset
  | .unknownUnit "" value =>
    "time unit needed, for example " ++ toString value ++ "sec or " ++ toString value ++ "ms"
  | .unknownUnit name _ =>
    "unknown time unit \"" ++ name ++ "\", supported units: ns, us/µs, ms, sec, min, hours, " ++
      "days, weeks, months, years (and few variations)"
  | .numberOverflow =>
    "number is too large or cannot be represented without a lack of precision " ++
      "(values below 1ns are not supported)"
  | .empty => "value was empty"

def checked (n : Nat) : Except (Failure ReadError) Nat :=
  if n < wordLimit then .ok n else .error (.refused .numberOverflow)

/-- Add seconds and nanoseconds. A sum that is too long is refused, with one exception: when the
    nanoseconds make exactly one more second and that second is the one too many, the reading is
    abandoned. -/
def add (span : Span) (seconds nanos : Nat) : Except (Failure ReadError) Span :=
  let total := span.nanoseconds + seconds * nanosPerSecond + nanos
  if wordLimit ≤ span.subsecond + nanos then .error (.refused .numberOverflow)
  else if fits : total < wordLimit * nanosPerSecond then .ok ⟨total, fits⟩
  else if span.subsecond + nanos = nanosPerSecond ∧ span.seconds + seconds + 1 = wordLimit then
    .error .abandoned
  else .error (.refused .numberOverflow)

end Span

end StatusPage
