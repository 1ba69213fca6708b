import StatusPage.Command.Arguments
import StatusPage.Command.Error
import StatusPage.Report.Output
import StatusPage.Restart.Session
import StatusPage.Seconds
import StatusPage.Span.Printer
import StatusPage.Text.Lines

namespace StatusPage

structure Host where
  environment : Environment
  uptime : Except IoError Int
  input : List UInt8
  clock : Nat → Instant

inductive Ending where
  | finished
  | failed (error : CommandError)
  | misused (reason : Misuse)
  | abandoned
deriving DecidableEq

def Ending.exitCode : Ending → Nat
  | .finished => 0
  | .failed _ => 1
  | .misused _ => 2
  | .abandoned => 101

structure Run where
  printed : List String
  ending : Ending
deriving DecidableEq

def Command.help : List String :=
  ["Usage: [-v] uptime [--trim] [SECONDS]", "       [-v] number [-l LOCALE] VALUE",
    "       [-v] status [-l LOCALE] [--counter LABEL=VALUE]...", "       [-v] restart"]

namespace Run

def ofUsage : Usage → Run
  | .misuse reason => ⟨[], .misused reason⟩
  | .help => ⟨Command.help, .finished⟩

def failed (error : CommandError) : Run := ⟨[], .failed error⟩

def ofOutput : Except (Failure CommandError) Output → Run
  | .ok output => ⟨output.lines, .finished⟩
  | .error (.refused error) => failed error
  | .error .abandoned => ⟨[], .abandoned⟩

def ofSession (session : Session) : Run where
  printed := session.printed
  ending := match session.ending with
    | .finished => .finished
    | .unreadable reason => .failed (.io reason)
    | .abandoned => .abandoned

end Run

namespace Command

def refusal (error : FormatError) : Failure CommandError := .refused (.format error)

def uptimeSeconds (host : Host) : Option String → Except (Failure CommandError) Nat
  | some text => (Seconds.read text).mapError (·.map .format)
  | none => (Seconds.ofHost host.uptime).mapError refusal

def openSession (settings : Settings) : Except (Failure CommandError) (String × Button) :=
  match settings.timeout with
  | .error failure => .error (failure.map .timeout)
  | .ok timeout =>
    match timeout.toSpan? with
    | none => .error (.refused (.timeout .outOfRange))
    | some window => .ok (window.text, .new timeout)

def runSession (settings : Settings) (input : List UInt8) (clock : Nat → Instant) : Run :=
  match openSession settings with
  | .error .abandoned => ⟨[], .abandoned⟩
  | .error (.refused error) => .failed error
  | .ok (window, button) =>
    let lines := (Text.lines input).map Text.readLine
    .ofSession ((Session.run window clock button 0 lines).after [Session.greeting button])

def perform (command : Command) (settings : Settings) (host : Host) : Run :=
  match command with
  | .uptime seconds trim => .ofOutput do
    let total ← uptimeSeconds host seconds
    return .uptime total (if trim then .trimmed else settings.style)
  | .number value locale => .ofOutput do
    return .number value
      (← (settings.resolveLocale locale host.environment).mapError refusal)
  | .status locale counters => .ofOutput do
    let locale ← (settings.resolveLocale locale host.environment).mapError refusal
    let seconds ← (Seconds.ofHost host.uptime).mapError refusal
    return .report ⟨locale, settings.style, seconds, counters⟩
  | .restart => runSession settings host.input host.clock

/-- What the log says about the search for a locale. Records of anything else (the settings, the
    uptime of the host, a button, a restart) are left out. -/
def records (command : Command) (settings : Settings) (environment : Environment) :
    List LocaleRecord :=
  match command with
  | .number _ locale | .status locale _ =>
    if (locale <|> settings.locale).isSome then [] else (Locale.ofEnvironment environment).records
  | .uptime .. | .restart => []

def run (arguments : List (List UInt8)) (stored : Settings.Stored) (host : Host) : Run :=
  match read (arguments.map .ofBytes) with
  | .error usage => .ofUsage usage
  | .ok invocation =>
    match Settings.load stored with
    | .error error => .failed (.ofLoad error)
    | .ok settings => invocation.command.perform settings host

end Command

end StatusPage
