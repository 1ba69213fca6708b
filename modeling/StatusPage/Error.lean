import StatusPage.Binary64.Shortest
import StatusPage.SystemError

namespace StatusPage

inductive IoError where
  | fullBuffer
  | notText
  | os (code : Int)
  | other (text : String)
deriving DecidableEq

def IoError.message : IoError → String
  | .fullBuffer => "failed to write whole buffer"
  | .notText => "stream did not contain valid UTF-8"
  | .os code => systemErrorText code ++ " (os error " ++ toString code ++ ")"
  | .other text => text

inductive FormatError where
  | negativeSeconds (value : Int)
  | notAnInteger (value : Binary64)
  | outOfRange (what : String)
  | invalidInput (what : String)
  | unknownLocale (tag : String)
  | unsupported (what : String)
  | io (error : IoError)
deriving DecidableEq

def FormatError.message : FormatError → String
  | .negativeSeconds value => "Seconds must not be negative, got " ++ toString value
  | .notAnInteger value => "Seconds must be a whole number, got " ++ value.text
  | .outOfRange what => "Value out of range: " ++ what
  | .invalidInput what => "Invalid input: " ++ what
  | .unknownLocale tag => "Unknown locale '" ++ tag ++ "'"
  | .unsupported what => "Not supported on this platform: " ++ what
  | .io error => "I/O error: " ++ error.message

/-- How a computation ends without a value: it refuses its input for a reason, or it is abandoned
    where a quantity leaves the range that it is kept in. -/
inductive Failure (ε : Type) where
  | refused (reason : ε)
  | abandoned
deriving DecidableEq

def Failure.map {ε δ : Type} (f : ε → δ) : Failure ε → Failure δ
  | .refused reason => .refused (f reason)
  | .abandoned => .abandoned

theorem exists_of_bind_ok {α β ε : Type} {first : Except ε α} {second : α → Except ε β}
    {result : β} (succeeds : first.bind second = .ok result) :
    ∃ value, first = .ok value ∧ second value = .ok result := by
  cases first with
  | error => cases succeeds
  | ok value => exact ⟨value, rfl, succeeds⟩

end StatusPage
