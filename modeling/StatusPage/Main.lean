import Std.Time.DateTime.Timestamp
import StatusPage.Command.Run

namespace StatusPage.Main

def ioError : IO.Error → IoError
  | .permissionDenied _ code _ | .inappropriateType _ code _ | .invalidArgument _ code _
  | .noSuchThing _ code _ | .resourceExhausted _ code _ | .noFileOrDirectory _ code _
  | .hardwareFault code _ | .otherError code _ => .os code.toNat
  | error => .other (toString error)

def stored : IO Settings.Stored := do
  let home := (← IO.getEnv "HOME").getD "/"
  try
    return .file (← IO.FS.readBinFile (Settings.path home)).data.toList
  catch
    | .noFileOrDirectory .. => return .absent
    | error => return .unreadable (ioError error)

def environment : IO Environment := do
  let lcAll ← IO.getEnv LocaleVariable.lcAll.name
  let lcNumeric ← IO.getEnv LocaleVariable.lcNumeric.name
  let lang ← IO.getEnv LocaleVariable.lang.name
  return fun
    | .lcAll => lcAll
    | .lcNumeric => lcNumeric
    | .lang => lang

def uptime : IO (Except IoError Int) := do
  try
    let text ← IO.FS.readFile "/proc/uptime"
    match Text.signed? (text.toList.takeWhile Char.isDigit) with
    | some seconds => return .ok seconds
    | none => return .error .notText
  catch error => return .error (ioError error)

def now : IO Instant := do
  return ⟨(← Std.Time.Timestamp.now).toNanosecondsSinceUnixEpoch.val⟩

def put (lines : List String) : IO Unit := do
  let output ← IO.getStdout
  output.putStr (Output.join lines)
  output.flush

partial def nextBytes (input : IO.FS.Stream) (read : List UInt8) : IO (List UInt8) := do
  match (← input.read 1).data.toList with
  | [] => return read
  | byte :: _ =>
    if byte = 0x0A then return read ++ [byte] else nextBytes input (read ++ [byte])

def nextLine (input : IO.FS.Stream) : IO (Option Line) := do
  try
    return (Text.lines (← nextBytes input [])).head?.map Text.readLine
  catch error => return some (.error (ioError error))

partial def session (input : IO.FS.Stream) (window : String) (button : Button) : IO SessionEnd := do
  match ← nextLine input with
  | none => return .finished
  | some line =>
    let (printed, next) := Session.step window button (← now) line
    put printed
    match next with
    | .inl ending => return ending
    | .inr button => session input window button

def finish (run : Run) : IO UInt32 := do
  put run.printed
  match run.ending with
  | .failed error => IO.eprint error.text
  | .misused reason => reason.message?.forM IO.eprintln
  | .finished | .abandoned => pure ()
  return run.ending.exitCode.toUInt32

def perform (invocation : Command.Invocation) (settings : Settings) : IO UInt32 := do
  match invocation.command, Command.openSession settings with
  | .restart, .ok (window, button) =>
    put [Session.greeting button]
    finish (.ofSession ⟨[], ← session (← IO.getStdin) window button⟩)
  | command, _ =>
    let environment ← environment
    for record in command.records settings environment do
      if invocation.verbose ∨ record.level = "WARN" then
        IO.eprintln (record.level ++ " " ++ record.message)
    finish (command.perform settings ⟨environment, ← uptime, [], fun _ => ⟨0⟩⟩)

end StatusPage.Main

open StatusPage StatusPage.Main in
def main (arguments : List String) : IO UInt32 := do
  match Command.read (arguments.map .whole) with
  | .error usage => finish (.ofUsage usage)
  | .ok invocation =>
    match Settings.load (← stored) with
    | .error error => finish (.failed (.ofLoad error))
    | .ok settings => perform invocation settings
