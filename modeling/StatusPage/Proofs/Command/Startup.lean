import StatusPage.Proofs.Command.Output

namespace StatusPage

/-- Something lies where the settings should be, but no settings can be read from it. -/
def Settings.Stored.Broken : Settings.Stored → Prop
  | .absent => False
  | .directory | .unreadable _ => True
  | .file content => ∀ text, Text.decode? content = some text →
      ∀ settings, Settings.ofJson text ≠ .ok settings

theorem Settings.Stored.broken_iff {stored : Stored} :
    stored.Broken ↔ ∃ reason, load stored = .error reason := by
  cases stored with
  | absent => simp [Broken, load]
  | directory => simp [Broken, load]
  | unreadable reason => simp [Broken, load]
  | file content =>
    cases decoded : Text.decode? content with
    | none => simp [Broken, load, decoded]
    | some text =>
      cases read : ofJson text with
      | error fault => simp [Broken, load, decoded, read, Except.mapError]
      | ok settings => simp [Broken, load, decoded, read, Except.mapError]

def Run.stderr? (run : Run) : Option String :=
  match run.ending with
  | .failed error => some error.text
  | .finished | .misused _ | .abandoned => none

theorem Run.ofOutput_ne_two (result : Except (Failure CommandError) Output) :
    (ofOutput result).ending.exitCode ≠ 2 := by
  cases result with
  | ok output => exact nofun
  | error failure =>
    cases failure with
    | refused error => exact nofun
    | abandoned => exact nofun

theorem Run.ofSession_ne_two (session : Session) : (ofSession session).ending.exitCode ≠ 2 := by
  obtain ⟨printed, ending⟩ := session
  cases ending <;> exact nofun

namespace Command

open Settings (Stored load)

variable {arguments : List (List UInt8)} {texts : List String} {invocation : Invocation}

theorem runSession_ne_two (settings : Settings) (input : List UInt8) (clock : Nat → Instant) :
    (runSession settings input clock).ending.exitCode ≠ 2 := by
  rw [runSession]
  split
  · exact nofun
  · exact nofun
  · exact Run.ofSession_ne_two _

theorem perform_ne_two (command : Command) (settings : Settings) (host : Host) :
    (command.perform settings host).ending.exitCode ≠ 2 := by
  cases command with
  | uptime seconds trim => exact Run.ofOutput_ne_two _
  | number value requested => exact Run.ofOutput_ne_two _
  | status requested counters => exact Run.ofOutput_ne_two _
  | restart => exact runSession_ne_two settings host.input host.clock

theorem exitCode_eq_two_iff (arguments : List (List UInt8)) (stored : Stored) (host : Host) :
    (run arguments stored host).ending.exitCode = 2 ↔ Misused arguments := by
  constructor
  · intro refused
    cases command : read (arguments.map .ofBytes) with
    | error usage =>
      cases usage with
      | misuse reason => exact ⟨reason, command⟩
      | help => simp [run, command, Run.ofUsage, Ending.exitCode] at refused
    | ok invocation =>
      obtain ⟨texts, reads⟩ := exists_reads command
      cases loaded : load stored with
      | error reason =>
        rw [run_of_not_loaded reads loaded] at refused
        cases refused
      | ok settings =>
        rw [run_of_loaded reads loaded] at refused
        exact absurd refused (perform_ne_two invocation.command settings host)
  · intro misused
    obtain ⟨reason, misused⟩ := misused
    rw [run_of_misused misused]
    rfl

/-- The arguments are refused before anything else is looked at, and settings that are broken end a
    run before its command has a say: all commands fail on them alike. -/
theorem startup_order (arguments others : List (List UInt8)) (stored rivalStored : Stored)
    (host rival : Host) :
    ((run arguments stored host).ending.exitCode = 2 ↔
      (run arguments rivalStored rival).ending.exitCode = 2) ∧
    ∀ texts invocation otherTexts other, Reads arguments texts invocation →
      Reads others otherTexts other → stored.Broken →
      run arguments stored host = run others stored rival ∧
        (run arguments stored host).ending.exitCode = 1 ∧
        (run arguments stored host).stdout = "" ∧
        ∃ reason, load stored = .error reason ∧
          (run arguments stored host).stderr? = some (CommandError.ofLoad reason).text ∧
          (run others stored rival).stderr? = some (CommandError.ofLoad reason).text := by
  constructor
  · simp only [exitCode_eq_two_iff]
  · intro texts invocation otherTexts other reads readsOther broken
    obtain ⟨reason, failed⟩ := Stored.broken_iff.mp broken
    rw [run_of_not_loaded reads failed, run_of_not_loaded readsOther failed]
    exact ⟨rfl, rfl, rfl, reason, failed, rfl, rfl⟩

theorem startup_order_broken_json :
    let arguments := ["uptime", "18446744073709551615s1000ms"].map Text.encode
    let others := ["number", "-l", "xx", "-5"].map Text.encode
    let stored : Stored := .file (Text.encode "\x7b\"uptime_style\":\"soon\"\x7d")
    let host : Host := ⟨fun _ => none, .ok 61, [], fun _ => ⟨0⟩⟩
    let rival : Host := ⟨fun _ => some "C", .error (.os 14), [0x0A], fun _ => .last⟩
    (run arguments .absent host).ending = .abandoned ∧
      (run others .absent rival).ending = .failed (.format (.unknownLocale "xx")) ∧
      stored.Broken ∧
      run arguments stored host = run others stored rival ∧
      (run others stored rival).ending.exitCode = 1 ∧
      (run others stored rival).stderr? =
        some "Error: Failed to parse $HOME/.upfmt/config.json" := by
  intro arguments others stored host rival
  have reads : Reads arguments ["uptime", "18446744073709551615s1000ms"]
      ⟨false, .uptime (some "18446744073709551615s1000ms") false⟩ :=
    ⟨mapM_decode?_encode _, by decide +kernel⟩
  have readsOther : Reads others ["number", "-l", "xx", "-5"]
      ⟨false, .number (.ofBits 0xC014000000000000) (some "xx")⟩ :=
    ⟨mapM_decode?_encode _, by decide +kernel⟩
  have failed : load stored = .error (.json .mismatched) := by decide +kernel
  have broken : stored.Broken := Stored.broken_iff.mpr ⟨_, failed⟩
  obtain ⟨same, code, -, reason, found, -, text⟩ :=
    (startup_order arguments others stored .absent host rival).2 _ _ _ _ reads readsOther broken
  obtain rfl : reason = .json .mismatched := Except.error.inj (found.symm.trans failed)
  refine ⟨?_, ?_, broken, same, same ▸ code, text⟩
  · rw [run_of_loaded reads rfl]
    decide +kernel
  · rw [run_of_loaded readsOther rfl]
    decide +kernel

end Command

end StatusPage
