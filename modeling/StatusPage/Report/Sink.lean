import StatusPage.Error
import StatusPage.Text.Bytes

namespace StatusPage

structure Sink where
  limit : Nat
  written : List UInt8
deriving DecidableEq

namespace Sink

def empty (limit : Nat) : Sink := ⟨limit, []⟩

def room (sink : Sink) : Nat := sink.limit - sink.written.length

/-- Write as much as fits; it is a failure when that is not all. -/
def write (sink : Sink) (bytes : List UInt8) : Except IoError Unit × Sink :=
  (if bytes.length ≤ sink.room then .ok () else .error .fullBuffer,
    { sink with written := sink.written ++ bytes.take sink.room })

def writePieces (sink : Sink) : List String → Except IoError Unit × Sink
  | [] => (.ok (), sink)
  | piece :: pieces =>
    match sink.write (Text.encode piece) with
    | (.ok (), sink) => sink.writePieces pieces
    | failed => failed

end Sink

end StatusPage
