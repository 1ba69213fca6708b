import StatusPage.Report.Basic
import StatusPage.Report.Sink

namespace StatusPage

inductive Output where
  | uptime (seconds : Nat) (style : Uptime.Style)
  | number (value : Binary64) (locale : Locale)
  | report (block : Report)
deriving DecidableEq

namespace Output

def lines : Output → List String
  | .uptime seconds style => [Uptime.format style seconds]
  | .number value locale => [locale.formatFloat value]
  | .report block => block.lines

def join (lines : List String) : String := String.join (lines.map (· ++ "\n"))

def text (output : Output) : String := join output.lines

def pieces : Output → List String
  | .uptime seconds style => [Uptime.format style seconds, "\n"]
  | .number value locale => [locale.formatFloat value, "\n"]
  | .report block => block.pieces

/-- Write one thing after another into the same buffer, also behind a failure; each result goes with
    the buffer behind it. -/
def writeAll (sink : Sink) : List Output → List (Except IoError Unit × Sink)
  | [] => []
  | output :: outputs =>
    let written := sink.writePieces output.pieces
    written :: writeAll written.2 outputs

end Output

end StatusPage
