import StatusPage.Locale.Environment
import StatusPage.Span.Delta
import StatusPage.Span.Reader
import StatusPage.Uptime

namespace StatusPage

structure Settings where
  locale : Option String
  style : Uptime.Style
  confirmTimeout : String
deriving DecidableEq

inductive TimeoutError where
  | unreadable (text : String) (reason : Span.ReadError)
  | zero (text : String)
  | outOfRange
deriving DecidableEq

namespace TimeoutError

def message : TimeoutError → String
  | .unreadable text _ => "Invalid confirm_timeout '" ++ text ++ "'"
  | .zero text => "confirm_timeout must be longer than zero, got '" ++ text ++ "'"
  | .outOfRange => "Source duration value is out of range for the target type"

def cause? : TimeoutError → Option String
  | .unreadable _ reason => some reason.message
  | _ => none

end TimeoutError

namespace Settings

def default : Settings := ⟨none, .faithful, "2s"⟩

def timeout (settings : Settings) : Except (Failure TimeoutError) Delta :=
  match Span.read settings.confirmTimeout.toList with
  | .error failure => .error (failure.map (.unreadable settings.confirmTimeout))
  | .ok span =>
    if span = .zero then .error (.refused (.zero settings.confirmTimeout))
    else match Delta.ofSpan? span with
      | some delta => .ok delta
      | none => .error (.refused .outOfRange)

/-- The locale of a request. What the request or the settings name has to be a locale, what the
    environment names need not. -/
def resolveLocale (settings : Settings) (requested : Option String) (environment : Environment) :
    Except FormatError Locale :=
  match requested <|> settings.locale with
  | some name => Locale.ofName name
  | none => .ok ((Locale.ofEnvironment environment).found.getD .default)

end Settings

end StatusPage
