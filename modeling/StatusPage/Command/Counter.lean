import StatusPage.Binary64.Literal
import StatusPage.Text.Blank

namespace StatusPage

inductive CounterError where
  | noValue (argument : String)
  | noLabel (argument : String)
  | badValue (argument : String) (reason : Binary64.LiteralError)
deriving DecidableEq

def CounterError.message : CounterError → String
  | .noValue argument => "expected label=value, got '" ++ argument ++ "'"
  | .noLabel argument => "missing label in '" ++ argument ++ "'"
  | .badValue argument reason => "invalid value in '" ++ argument ++ "': " ++ reason.message

def readCounter (argument : String) : Except CounterError (String × Binary64) :=
  let text := argument.toList
  match text.dropWhile (· ≠ '=') with
  | [] => .error (.noValue argument)
  | _ :: value =>
    let label := Text.trim (text.takeWhile (· ≠ '='))
    if label = [] then .error (.noLabel argument)
    else match Binary64.ofLiteral (Text.trim value) with
      | .ok x => .ok (String.ofList label, x)
      | .error reason => .error (.badValue argument reason)

end StatusPage
