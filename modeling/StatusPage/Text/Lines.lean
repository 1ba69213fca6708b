import StatusPage.Error
import StatusPage.Text.Bytes

namespace StatusPage.Text

def dropReturn (line : List UInt8) : List UInt8 :=
  if line.getLast? = some 0x0D then line.dropLast else line

/-- The lines of a stream. A carriage return before a line feed goes with it; what stands behind
    the last line feed is a line unless it is empty. -/
def lines (bytes : List UInt8) : List (List UInt8) :=
  let pieces := bytes.splitOn 0x0A
  let last := pieces.getLastD []
  pieces.dropLast.map dropReturn ++ if last = [] then [] else [last]

def readLine (line : List UInt8) : Except IoError String :=
  match decode? line with
  | some text => .ok text
  | none => .error .notText

end StatusPage.Text
