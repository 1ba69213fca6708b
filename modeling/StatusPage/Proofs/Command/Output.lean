import StatusPage.Command.Run
import StatusPage.Proofs.Command.Counters
import StatusPage.Proofs.Report.Cut

namespace StatusPage

def Run.stdout (run : Run) : String := Output.join run.printed

namespace Command

open Settings (Stored load)

variable {arguments : List (List UInt8)} {texts : List String} {invocation : Invocation}
  {settings : Settings} {host : Host} {command : Command} {output : Output}

/-- The arguments are texts, and together they are a command. -/
def Reads (arguments : List (List UInt8)) (texts : List String) (invocation : Invocation) : Prop :=
  arguments.mapM Text.decode? = some texts ∧ read (texts.map .whole) = .ok invocation

def MisusedFor (reason : Misuse) (arguments : List (List UInt8)) : Prop :=
  read (arguments.map .ofBytes) = .error (.misuse reason)

def Misused (arguments : List (List UInt8)) : Prop := ∃ reason, MisusedFor reason arguments

theorem Argument.ofBytes_eq_whole_iff {bytes : List UInt8} {text : String} :
    ofBytes bytes = .whole text ↔ Text.decode? bytes = some text := by
  unfold ofBytes
  cases Text.decode? bytes <;> simp

theorem map_ofBytes_iff :
    arguments.map Argument.ofBytes = texts.map .whole ↔ arguments.mapM Text.decode? = some texts := by
  induction arguments generalizing texts with
  | nil => cases texts <;> simp
  | cons bytes arguments ih =>
    cases texts with
    | nil => simp [Option.bind_eq_some_iff]
    | cons text texts => simp [Argument.ofBytes_eq_whole_iff, ih, Option.bind_eq_some_iff]

theorem mapM_decode?_encode (texts : List String) :
    (texts.map Text.encode).mapM Text.decode? = some texts := by
  induction texts with
  | nil => rfl
  | cons text texts ih => simp [Text.decode?_encode, ih]

theorem exists_reads (read : read (arguments.map .ofBytes) = .ok invocation) :
    ∃ texts, Reads arguments texts invocation := by
  obtain ⟨texts, whole⟩ := exists_texts_of_readFrom read
  exact ⟨texts, map_ofBytes_iff.mp whole, whole ▸ read⟩

example : read ([Text.encode "--help", [0xFF]].map .ofBytes) = .error .help := by decide +kernel

example : read ([Text.encode "status", Text.encode "-h" ++ [0xFF]].map .ofBytes) = .error .help := by
  decide +kernel

theorem Reads.read (reads : Reads arguments texts invocation) :
    Command.read (arguments.map .ofBytes) = .ok invocation := by
  rw [map_ofBytes_iff.mpr reads.1]
  exact reads.2

theorem run_of_loaded {stored : Stored} (reads : Reads arguments texts invocation)
    (loaded : load stored = .ok settings) (host : Host) :
    run arguments stored host = invocation.command.perform settings host := by
  simp only [run, reads.read, loaded]

theorem run_of_not_loaded {stored : Stored} {reason : Settings.LoadError}
    (reads : Reads arguments texts invocation) (broken : load stored = .error reason)
    (host : Host) : run arguments stored host = .failed (.ofLoad reason) := by
  simp only [run, reads.read, broken]

theorem run_of_misused {reason : Misuse} (misused : MisusedFor reason arguments) (stored : Stored)
    (host : Host) : run arguments stored host = ⟨[], .misused reason⟩ := by
  rw [MisusedFor] at misused
  simp only [run, misused, Run.ofUsage]

def isOneShot : Command → Bool
  | .uptime .. | .number .. | .status .. => true
  | .restart => false

/-- What a command has to print, from its own arguments, the settings and the host. -/
inductive Shows (settings : Settings) (host : Host) : Command → Output → Prop where
  | uptime {text : String} {seconds : Nat} (trim : Bool) (given : Seconds.read text = .ok seconds) :
    Shows settings host (.uptime (some text) trim)
      (.uptime seconds (if trim then .trimmed else settings.style))
  | hostUptime {seconds : Nat} (trim : Bool) (asked : Seconds.ofHost host.uptime = .ok seconds) :
    Shows settings host (.uptime none trim)
      (.uptime seconds (if trim then .trimmed else settings.style))
  | number {requested : Option String} {locale : Locale} (value : Binary64)
      (resolved : settings.resolveLocale requested host.environment = .ok locale) :
    Shows settings host (.number value requested) (.number value locale)
  | status {requested : Option String} {locale : Locale} {seconds : Nat}
      (counters : List (String × Binary64))
      (resolved : settings.resolveLocale requested host.environment = .ok locale)
      (asked : Seconds.ofHost host.uptime = .ok seconds) :
    Shows settings host (.status requested counters)
      (.report ⟨locale, settings.style, seconds, counters⟩)

theorem mapError_bind_ok {α β δ ε : Type} {first : Except ε α} {f : ε → δ}
    {second : α → Except δ β} {result : β} :
    (first.mapError f >>= second) = .ok result ↔
      ∃ value, first = .ok value ∧ second value = .ok result := by
  cases first with
  | error reason => simp [Except.mapError, Bind.bind, Except.bind]
  | ok value => simp [Except.mapError, Bind.bind, Except.bind]

theorem perform_eq_ofOutput (oneShot : command.isOneShot) :
    ∃ result, command.perform settings host = .ofOutput result ∧
      ∀ output, result = .ok output ↔ Shows settings host command output := by
  cases command with
  | uptime given trim =>
    refine ⟨_, rfl, fun output => ?_⟩
    cases given with
    | some text =>
      simp only [uptimeSeconds, mapError_bind_ok]
      constructor
      · rintro ⟨seconds, read, shown⟩
        cases shown
        exact .uptime trim read
      · intro shows
        cases shows with
        | uptime _ read => exact ⟨_, read, rfl⟩
    | none =>
      simp only [uptimeSeconds, mapError_bind_ok]
      constructor
      · rintro ⟨seconds, asked, shown⟩
        cases shown
        exact .hostUptime trim asked
      · intro shows
        cases shows with
        | hostUptime _ asked => exact ⟨_, asked, rfl⟩
  | number value requested =>
    refine ⟨_, rfl, fun output => ?_⟩
    simp only [mapError_bind_ok]
    constructor
    · rintro ⟨locale, resolved, shown⟩
      cases shown
      exact .number value resolved
    · intro shows
      cases shows with
      | number _ resolved => exact ⟨_, resolved, rfl⟩
  | status requested counters =>
    refine ⟨_, rfl, fun output => ?_⟩
    simp only [mapError_bind_ok]
    constructor
    · rintro ⟨locale, resolved, seconds, asked, shown⟩
      cases shown
      exact .status counters resolved asked
    · intro shows
      cases shows with
      | status _ resolved asked => exact ⟨_, resolved, _, asked, rfl⟩
  | restart => cases oneShot

theorem Shows.unique {other : Output} (oneShot : command.isOneShot)
    (shows : Shows settings host command output) (also : Shows settings host command other) :
    output = other := by
  obtain ⟨result, -, shown⟩ := perform_eq_ofOutput oneShot
  exact Except.ok.inj (((shown output).mpr shows).symm.trans ((shown other).mpr also))

theorem perform_of_shows (oneShot : command.isOneShot)
    (shows : Shows settings host command output) :
    command.perform settings host = ⟨output.lines, .finished⟩ := by
  obtain ⟨result, performed, shown⟩ := perform_eq_ofOutput oneShot
  rw [performed, (shown output).mpr shows]
  rfl

theorem perform_of_not_shows (oneShot : command.isOneShot)
    (fails : ¬ ∃ output, Shows settings host command output) :
    (command.perform settings host).printed = [] ∧
      (command.perform settings host).ending.exitCode ≠ 0 := by
  obtain ⟨result, performed, shown⟩ := perform_eq_ofOutput oneShot
  rw [performed]
  cases result with
  | ok output => exact absurd ⟨output, (shown output).mp rfl⟩ fails
  | error failure =>
    cases failure with
    | refused error => exact ⟨rfl, Nat.one_ne_zero⟩
    | abandoned => exact ⟨rfl, by decide⟩

theorem run_of_shows {stored : Stored} (reads : Reads arguments texts invocation)
    (oneShot : invocation.command.isOneShot) (loaded : load stored = .ok settings)
    (shows : Shows settings host invocation.command output) :
    run arguments stored host = ⟨output.lines, .finished⟩ := by
  rw [run_of_loaded reads loaded]
  exact perform_of_shows oneShot shows

theorem run_of_not_shows {stored : Stored} (reads : Reads arguments texts invocation)
    (oneShot : invocation.command.isOneShot)
    (fails : ¬ ∃ settings output, load stored = .ok settings ∧
      Shows settings host invocation.command output) :
    (run arguments stored host).printed = [] ∧ (run arguments stored host).ending.exitCode ≠ 0 := by
  cases loaded : load stored with
  | error reason =>
    rw [run_of_not_loaded reads loaded]
    exact ⟨rfl, Nat.one_ne_zero⟩
  | ok settings =>
    rw [run_of_loaded reads loaded]
    apply perform_of_not_shows oneShot
    intro found
    obtain ⟨output, shows⟩ := found
    exact fails ⟨settings, output, loaded, shows⟩

theorem stdout_of_printed_nil {run : Run} (nothing : run.printed = []) : run.stdout = "" := by
  rw [Run.stdout, nothing]
  rfl

/-- A command other than a restart prints the whole of its output or, when it fails for any reason,
    nothing at all. The counters of a status are those of the command line, in their order. -/
theorem oneShot_all_or_nothing (arguments : List (List UInt8)) (stored : Stored) (host : Host) :
    (Misused arguments →
      (run arguments stored host).ending.exitCode = 2 ∧ (run arguments stored host).stdout = "") ∧
    ∀ texts invocation, Reads arguments texts invocation → invocation.command.isOneShot →
      ((∃ settings output, load stored = .ok settings ∧
          Shows settings host invocation.command output ∧
          (run arguments stored host).ending.exitCode = 0 ∧
          (run arguments stored host).stdout = String.join output.pieces) ∨
        ((¬ ∃ settings output, load stored = .ok settings ∧
            Shows settings host invocation.command output) ∧
          (run arguments stored host).ending.exitCode ≠ 0 ∧
          (run arguments stored host).stdout = "")) ∧
      ∀ requested counters, invocation.command = .status requested counters →
        (counterTexts false texts).map readCounter = counters.map .ok := by
  refine ⟨fun misused => ?_, fun texts invocation reads oneShot => ⟨?_, ?_⟩⟩
  · obtain ⟨reason, misused⟩ := misused
    rw [run_of_misused misused]
    exact ⟨rfl, rfl⟩
  · by_cases found : ∃ settings output, load stored = .ok settings ∧
        Shows settings host invocation.command output
    · obtain ⟨settings, output, loaded, shows⟩ := found
      refine .inl ⟨settings, output, loaded, shows, ?_⟩
      rw [run_of_shows reads oneShot loaded shows, output.join_pieces]
      exact ⟨rfl, rfl⟩
    · obtain ⟨nothing, failed⟩ := run_of_not_shows reads oneShot found
      exact .inr ⟨found, failed, stdout_of_printed_nil nothing⟩
  · intro requested counters status
    exact readFrom_counters reads.2 status

theorem oneShot_all_or_nothing_counters :
    let texts := ["-v", "status", "--counter=a=1.5", "-l", "de", "--counter", "--counter=-2"]
    let counters := [("a", .ofBits 0x3FF8000000000000), ("--counter", .ofBits 0xC000000000000000)]
    let host : Host := ⟨fun _ => none, .ok 61, [], fun _ => ⟨0⟩⟩
    Reads (texts.map Text.encode) texts ⟨true, .status (some "de") counters⟩ ∧
      (counterTexts false texts).map readCounter = counters.map .ok ∧
      (run (texts.map Text.encode) .absent host).stdout =
        "Status\n======\nUptime:        1 minutes, 1 seconds\nUptime (secs): 61\n" ++
          "a:             1,5\n--counter:     -2\n" := by
  intro texts counters host
  have command : read (texts.map .whole) = .ok ⟨true, .status (some "de") counters⟩ := by
    decide +kernel
  have reads : Reads (texts.map Text.encode) texts ⟨true, .status (some "de") counters⟩ :=
    ⟨mapM_decode?_encode texts, command⟩
  have shows : Shows .default host (.status (some "de") counters)
      (.report ⟨.deDE, .faithful, 61, counters⟩) :=
    .status counters (by decide +kernel) (by decide +kernel)
  obtain ⟨all | nothing, ordered⟩ :=
    (oneShot_all_or_nothing (texts.map Text.encode) .absent host).2 texts _ reads rfl
  · obtain ⟨settings, output, loaded, shown, -, printed⟩ := all
    cases loaded
    obtain rfl := shown.unique rfl shows
    exact ⟨reads, ordered _ _ rfl, printed.trans (by decide +kernel)⟩
  · exact absurd ⟨_, _, rfl, shows⟩ nothing.1

end Command

end StatusPage
