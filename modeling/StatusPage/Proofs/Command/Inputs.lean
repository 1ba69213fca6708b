import StatusPage.Proofs.Command.Output

namespace StatusPage

variable {settings other : Settings} {host rival : Host} {requested : Option String}
  {command : Command}

theorem Settings.timeout_eq (same : settings.confirmTimeout = other.confirmTimeout) :
    settings.timeout = other.timeout := by
  rw [Settings.timeout, Settings.timeout, same]

namespace Command

open Settings (Stored load)

/-- The places where a locale is looked for hold the same, as far as they are reached: the settings
    where no locale is requested, and the environment where the settings name none either. -/
def SameLocale (requested : Option String) (settings other : Settings) (host rival : Host) : Prop :=
  requested = none → settings.locale = other.locale ∧
    (settings.locale = none → host.environment = rival.environment)

/-- All that a command takes from the settings and from the host is the same. -/
def SameInputs (command : Command) (settings other : Settings) (host rival : Host) : Prop :=
  match command with
  | .uptime seconds trim =>
    (seconds = none → host.uptime = rival.uptime) ∧ (trim = false → settings.style = other.style)
  | .number _ requested => SameLocale requested settings other host rival
  | .status requested _ =>
    settings.style = other.style ∧ host.uptime = rival.uptime ∧
      SameLocale requested settings other host rival
  | .restart =>
    settings.confirmTimeout = other.confirmTimeout ∧ host.input = rival.input ∧
      host.clock = rival.clock

theorem SameLocale.named (same : SameLocale requested settings other host rival) :
    (requested <|> settings.locale) = (requested <|> other.locale) := by
  cases requested with
  | some name => rfl
  | none => exact (same rfl).1

theorem SameLocale.environment (same : SameLocale requested settings other host rival)
    (unnamed : (requested <|> settings.locale) = none) : host.environment = rival.environment := by
  cases requested with
  | some name => cases unnamed
  | none => exact (same rfl).2 unnamed

theorem SameLocale.resolveLocale (same : SameLocale requested settings other host rival) :
    settings.resolveLocale requested host.environment =
      other.resolveLocale requested rival.environment := by
  unfold Settings.resolveLocale
  rw [← same.named]
  cases named : requested <|> settings.locale with
  | some name => rfl
  | none => rw [same.environment named]

theorem SameInputs.perform (same : SameInputs command settings other host rival) :
    command.perform settings host = command.perform other rival := by
  cases command with
  | uptime seconds trim =>
    obtain ⟨uptime, style⟩ := same
    have total : uptimeSeconds host seconds = uptimeSeconds rival seconds := by
      cases seconds with
      | some text => rfl
      | none => rw [uptimeSeconds, uptimeSeconds, uptime rfl]
    have effective : (if trim then .trimmed else settings.style) =
        if trim then .trimmed else other.style := by
      cases trim with
      | true => rfl
      | false => exact style rfl
    rw [Command.perform, Command.perform, total, effective]
  | number value requested => rw [Command.perform, Command.perform, same.resolveLocale]
  | status requested counters =>
    obtain ⟨style, uptime, locale⟩ := same
    rw [Command.perform, Command.perform, locale.resolveLocale, uptime, style]
  | restart =>
    obtain ⟨timeout, input, clock⟩ := same
    have opened : openSession settings = openSession other := by
      rw [openSession, openSession, Settings.timeout_eq timeout]
    rw [Command.perform, Command.perform, runSession, runSession, opened, input, clock]

theorem SameInputs.records (same : SameInputs command settings other host rival) :
    command.records settings host.environment = command.records other rival.environment := by
  have searched {requested : Option String}
      (locale : SameLocale requested settings other host rival) :
      (if (requested <|> settings.locale).isSome then []
        else (Locale.ofEnvironment host.environment).records) =
      if (requested <|> other.locale).isSome then []
        else (Locale.ofEnvironment rival.environment).records := by
    rw [← locale.named]
    cases named : requested <|> settings.locale with
    | some name => rfl
    | none => rw [locale.environment named]
  cases command with
  | uptime seconds trim => rfl
  | number value requested => exact searched same
  | status requested counters => exact searched same.2.2
  | restart => rfl

/-- Two runs give the same answer when their arguments are the same and so is all that the command
    takes from the settings and from the host. What it does not take may be anything, also settings
    that name no locale and no length of time. -/
theorem run_of_sameInputs {arguments : List (List UInt8)} {stored rivalStored : Stored}
    (loaded : load stored = .ok settings) (loadedOther : load rivalStored = .ok other)
    (same : ∀ texts invocation, Reads arguments texts invocation →
      SameInputs invocation.command settings other host rival) :
    run arguments stored host = run arguments rivalStored rival ∧
    ∀ texts invocation, Reads arguments texts invocation →
      invocation.command.records settings host.environment =
        invocation.command.records other rival.environment := by
  refine ⟨?_, fun texts invocation reads => (same texts invocation reads).records⟩
  cases command : read (arguments.map .ofBytes) with
  | error usage => simp only [run, command]
  | ok invocation =>
    obtain ⟨texts, reads⟩ := exists_reads command
    rw [run_of_loaded reads loaded, run_of_loaded reads loadedOther]
    exact (same texts invocation reads).perform

theorem run_of_sameInputs_invalid_settings :
    let arguments := ["status", "-l", "fr"].map Text.encode
    let stored : Stored := .file (Text.encode
      "\x7b\"locale\":\"xx\",\"uptime_style\":\"trimmed\",\"confirm_timeout\":\"soon\"\x7d")
    let host : Host := ⟨fun _ => some "xx", .ok 1200000, [0x0A], fun _ => .last⟩
    let rivalStored : Stored := .file (Text.encode "[null, \"trimmed\"]")
    let rival : Host := ⟨fun _ => none, .ok 1200000, [], fun _ => ⟨0⟩⟩
    load stored = .ok ⟨some "xx", .trimmed, "soon"⟩ ∧
      load rivalStored = .ok ⟨none, .trimmed, "2s"⟩ ∧
      run arguments stored host = run arguments rivalStored rival ∧
      run arguments stored host =
        ⟨["Status", "======", "Uptime:        13 days, 21 hours, 20 minutes",
          "Uptime (secs): 1\u202F200\u202F000"], .finished⟩ := by
  intro arguments stored host rivalStored rival
  have loaded : load stored = .ok ⟨some "xx", .trimmed, "soon"⟩ := by decide +kernel
  have loadedOther : load rivalStored = .ok ⟨none, .trimmed, "2s"⟩ := by decide +kernel
  have command : read (["status", "-l", "fr"].map .whole) =
      .ok ⟨false, .status (some "fr") []⟩ := by decide +kernel
  have same : ∀ texts invocation, Reads arguments texts invocation →
      SameInputs invocation.command ⟨some "xx", .trimmed, "soon"⟩ ⟨none, .trimmed, "2s"⟩
        host rival := by
    intro texts invocation reads
    obtain ⟨decoded, accepted⟩ := reads
    rw [mapM_decode?_encode] at decoded
    cases decoded
    rw [command] at accepted
    cases accepted
    exact ⟨rfl, rfl, by simp [SameLocale]⟩
  have agree := (run_of_sameInputs loaded loadedOther same).1
  refine ⟨loaded, loadedOther, agree, agree.trans ?_⟩
  decide +kernel

end Command

end StatusPage
