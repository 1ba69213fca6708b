import StatusPage.Settings.Store

namespace StatusPage

inductive CommandError where
  | format (error : FormatError)
  | timeout (error : TimeoutError)
  | io (reason : IoError)
  | settings (fault : Json.Fault)
deriving DecidableEq

namespace CommandError

def ofLoad : Settings.LoadError → CommandError
  | .io reason => .io reason
  | .json fault => .settings fault

def message : CommandError → String
  | .format error => error.message
  | .timeout error => error.message
  | .io reason => reason.message
  | .settings _ => "Failed to parse " ++ Settings.path "$HOME"

def cause? : CommandError → Option String
  | .format (.io reason) => some reason.message
  | .timeout error => error.cause?
  | _ => none

/-- The report of a failure. For broken settings it leaves `$HOME` as it is and names no cause, so
    that it depends neither on the home directory nor on the words of the reader. -/
def text (error : CommandError) : String :=
  match error, error.cause? with
  | .settings _, _ => "Error: " ++ error.message
  | _, none => "Error: " ++ error.message ++ "\n"
  | _, some cause => "Error: " ++ error.message ++ "\n\nCaused by:\n    " ++ cause ++ "\n"

end CommandError

end StatusPage
