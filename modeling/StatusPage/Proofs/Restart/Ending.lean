import StatusPage.Proofs.Command.Output
import StatusPage.Proofs.Restart.Transcript
import StatusPage.Proofs.Span.Terms

namespace StatusPage

namespace Session

variable {window : String} {timeout : Delta} {clock : Nat → Instant} {lines : List Line}

theorem Underway.le_length {n : Nat} (underway : Underway timeout clock lines n) :
    n ≤ lines.length := by
  cases n with
  | zero => exact Nat.zero_le _
  | succ n =>
    obtain ⟨line, present, -⟩ := (underway n (Nat.lt_succ_self n)).1
    exact (List.getElem?_eq_some_iff.mp present).1

theorem exists_last (timeout : Delta) (clock : Nat → Instant) (lines : List Line) :
    ∃ n, Underway timeout clock lines n ∧ ¬ Underway timeout clock lines (n + 1) := by
  by_contra endless
  have always : ∀ n, Underway timeout clock lines n := by
    intro n
    induction n with
    | zero =>
      intro i below
      omega
    | succ n ih =>
      by_contra stopped
      exact endless ⟨n, ih, stopped⟩
  have bound := (always (lines.length + 1)).le_length
  omega

section Stop

variable (window : String) {n : Nat} (underway : Underway timeout clock lines n)

include underway

theorem run_of_end (last : lines[n]? = none) :
    run window clock (.new timeout) 0 lines =
      ⟨(List.range n).flatMap (prompts window), .finished⟩ := by
  rw [run_of_underway window underway, List.drop_eq_nil_iff.mpr (List.getElem?_eq_none_iff.mp last)]
  simp [run, after]

theorem run_of_quit {line : String} (present : lines[n]? = some (.ok line)) (quit : isQuit line) :
    run window clock (.new timeout) 0 lines =
      ⟨(List.range n).flatMap (prompts window), .finished⟩ := by
  obtain ⟨bound, here⟩ := List.getElem?_eq_some_iff.mp present
  rw [run_of_underway window underway, List.drop_eq_getElem_cons bound, here,
    run_of_stop (step_of_quit quit)]
  simp [after]

theorem run_of_timeless {line : String} (present : lines[n]? = some (.ok line))
    (goesOn : ¬ isQuit line) (timeless : ¬ (clock n).isReading) :
    run window clock (.new timeout) 0 lines =
      ⟨(List.range n).flatMap (prompts window), .abandoned⟩ := by
  obtain ⟨bound, here⟩ := List.getElem?_eq_some_iff.mp present
  have responded : respond window (awaiting timeout clock n) (clock n) = ([], .inl .abandoned) := by
    rw [respond, if_pos timeless]
  rw [run_of_underway window underway, List.drop_eq_getElem_cons bound, here,
    run_of_stop ((step_of_goesOn goesOn).trans responded)]
  simp [after]

end Stop

theorem ending_unreadable_iff (window : String) (reason : IoError) :
    (run window clock (.new timeout) 0 lines).ending = .unreadable reason ↔
      ∃ n, Underway timeout clock lines n ∧ lines[n]? = some (.error reason) := by
  constructor
  · intro ending
    obtain ⟨n, underway, stopped⟩ := exists_last timeout clock lines
    rcases here : lines[n]? with _ | other | line
    · rw [run_of_end window underway here] at ending
      cases ending
    · rw [run_of_unreadable window underway here] at ending
      cases ending
      exact ⟨n, underway, here⟩
    · by_cases quit : isQuit line
      · rw [run_of_quit window underway here quit] at ending
        cases ending
      · have click : IsClick (.ok line) := ⟨line, rfl, quit⟩
        by_cases reading : (clock n).isReading
        · by_cases isEarly : early timeout clock n
          · rw [run_of_confirmation window underway here click reading isEarly] at ending
            cases ending
          · by_cases inside : ((clock n).plus timeout).inCalendar
            · exact absurd (underway.succ here click ⟨reading, isEarly, inside⟩) stopped
            · rw [run_of_beyond window underway here click reading isEarly inside] at ending
              cases ending
        · rw [run_of_timeless window underway here quit reading] at ending
          cases ending
  · intro found
    obtain ⟨n, underway, here⟩ := found
    rw [run_of_unreadable window underway here]

end Session

namespace Settings

theorem timeout_ok_iff_of_pos (settings : Settings) (timeout : Delta) :
    settings.timeout = .ok timeout ↔
      ∃ span, Span.read settings.confirmTimeout.toList = .ok span ∧ 0 < span.nanoseconds ∧
        span.nanoseconds ≤ Delta.limit ∧ timeout.nanoseconds = span.nanoseconds := by
  have pos : ∀ span : Span, span ≠ .zero ↔ 0 < span.nanoseconds := by
    intro span
    rw [Nat.pos_iff_ne_zero]
    exact not_congr ⟨congrArg Span.nanoseconds, fun none => Span.ext_nanoseconds none⟩
  have same : ∀ span : Span, timeout = ⟨span.nanoseconds⟩ ↔
      timeout.nanoseconds = span.nanoseconds := by
    intro span
    cases timeout
    exact Delta.mk.injEq _ _ ▸ Iff.rfl
  simp only [timeout_ok_iff, pos, same]

theorem toSpan?_timeout {settings : Settings} {timeout : Delta} {span : Span}
    (accepted : settings.timeout = .ok timeout)
    (read : Span.read settings.confirmTimeout.toList = .ok span) :
    timeout.toSpan? = some span := by
  obtain ⟨other, read', -, -, rfl⟩ := (timeout_ok_iff settings timeout).mp accepted
  obtain rfl := Except.ok.inj (read'.symm.trans read)
  exact Delta.toSpan?_of_span other

end Settings

namespace Command

variable {settings : Settings} {timeout : Delta} {input : List UInt8} {clock : Nat → Instant}

/-- A session reaches a line that is no text, with clicks before it that all arm the button. -/
def MeetsBytes (timeout : Delta) (clock : Nat → Instant) (input : List UInt8) (n : Nat) : Prop :=
  Session.Underway timeout clock (inputLines input) n ∧
    ∃ bytes, (Text.lines input)[n]? = some bytes ∧ Text.decode? bytes = none

theorem inputLines_error_iff {n : Nat} {reason : IoError} :
    (inputLines input)[n]? = some (.error reason) ↔ reason = .notText ∧
      ∃ bytes, (Text.lines input)[n]? = some bytes ∧ Text.decode? bytes = none := by
  have unread : ∀ bytes, Text.readLine bytes = .error reason ↔
      reason = .notText ∧ Text.decode? bytes = none := by
    intro bytes
    unfold Text.readLine
    cases Text.decode? bytes with
    | none => simp [eq_comm]
    | some text => simp
  simp only [inputLines, List.getElem?_map, Option.map_eq_some_iff, unread]
  tauto

theorem ofSession_exitCode_one_iff (session : Session) :
    (Run.ofSession session).ending.exitCode = 1 ↔
      ∃ reason, session.ending = .unreadable reason := by
  cases ending : session.ending <;> simp [Run.ofSession, ending, Ending.exitCode]

theorem runSession_of_refused {reason : TimeoutError}
    (refused : settings.timeout = .error (.refused reason)) (input : List UInt8)
    (clock : Nat → Instant) : runSession settings input clock = .failed (.timeout reason) := by
  simp [runSession, openSession, refused, Failure.map]

theorem runSession_of_abandoned (abandoned : settings.timeout = .error .abandoned)
    (input : List UInt8) (clock : Nat → Instant) :
    runSession settings input clock = ⟨[], .abandoned⟩ := by
  simp [runSession, openSession, abandoned, Failure.map]

theorem runSession_fails_iff (accepted : settings.timeout = .ok timeout) :
    (runSession settings input clock).ending.exitCode = 1 ↔
      ∃ n, MeetsBytes timeout clock input n := by
  obtain ⟨window, -, session⟩ := runSession_of_timeout accepted input clock
  rw [session, ofSession_exitCode_one_iff]
  constructor
  · intro failed
    obtain ⟨reason, ending⟩ := failed
    obtain ⟨n, underway, here⟩ := (Session.ending_unreadable_iff window.text reason).mp ending
    exact ⟨n, underway, (inputLines_error_iff.mp here).2⟩
  · intro met
    obtain ⟨n, underway, bytes⟩ := met
    have here := inputLines_error_iff.mpr ⟨rfl, bytes⟩
    exact ⟨.notText, (Session.ending_unreadable_iff window.text _).mpr ⟨n, underway, here⟩⟩

theorem runSession_of_meetsBytes {window : Span} {n : Nat}
    (accepted : settings.timeout = .ok timeout) (length : timeout.toSpan? = some window)
    (met : MeetsBytes timeout clock input n) :
    runSession settings input clock =
      ⟨Session.greeting (.new timeout) :: (List.range n).flatMap (Session.prompts window.text),
        .failed (.io .notText)⟩ := by
  obtain ⟨window', length', session⟩ := runSession_of_timeout accepted input clock
  obtain rfl := Option.some.inj (length'.symm.trans length)
  have here := inputLines_error_iff.mpr ⟨rfl, met.2⟩
  rw [session, Session.run_of_unreadable _ met.1 here]
  rfl

theorem runSession_of_take {window : Span} {front : List UInt8} {n : Nat}
    (accepted : settings.timeout = .ok timeout) (length : timeout.toSpan? = some window)
    (underway : Session.Underway timeout clock (inputLines input) n)
    (before : Text.lines front = (Text.lines input).take n) :
    runSession settings front clock =
      ⟨Session.greeting (.new timeout) :: (List.range n).flatMap (Session.prompts window.text),
        .finished⟩ := by
  obtain ⟨window', length', session⟩ := runSession_of_timeout accepted front clock
  obtain rfl := Option.some.inj (length'.symm.trans length)
  have lines : inputLines front = (inputLines input).take n := by
    rw [inputLines, inputLines, before, List.map_take]
  have alone : Session.Underway timeout clock (inputLines front) n := by
    intro i below
    rw [lines, List.getElem?_take_of_lt below]
    exact underway i below
  have last : (inputLines front)[n]? = none := by
    rw [lines]
    exact List.getElem?_eq_none (List.length_take_le n _)
  rw [session, Session.run_of_end _ alone last]
  rfl

/-- A timeout is the length of time that its text is read as, to the nanosecond, when that is longer
    than zero and not too long, and it goes back into one. So a restart fails only for the want of
    a timeout, before it prints anything, or at a line that is no text, behind all that the lines
    before it print. -/
theorem restart_fails_iff (settings : Settings) :
    (∀ timeout, settings.timeout = .ok timeout ↔
      ∃ span, Span.read settings.confirmTimeout.toList = .ok span ∧ 0 < span.nanoseconds ∧
        span.nanoseconds ≤ Delta.limit ∧ timeout.nanoseconds = span.nanoseconds) ∧
    (∀ timeout, settings.timeout = .ok timeout → 0 < timeout.nanoseconds ∧
      ∀ span, Span.read settings.confirmTimeout.toList = .ok span →
        timeout.toSpan? = some span) ∧
    ∀ arguments texts verbose stored, Reads arguments texts ⟨verbose, .restart⟩ →
      Settings.load stored = .ok settings → ∀ host,
      ((run arguments stored host).ending.exitCode = 1 ↔
        (∃ reason, settings.timeout = .error (.refused reason)) ∨
        ∃ timeout n, settings.timeout = .ok timeout ∧
          MeetsBytes timeout host.clock host.input n) ∧
      (∀ reason, settings.timeout = .error (.refused reason) →
        run arguments stored host = ⟨[], .failed (.timeout reason)⟩) ∧
      ∀ timeout window n, settings.timeout = .ok timeout → timeout.toSpan? = some window →
        MeetsBytes timeout host.clock host.input n →
        run arguments stored host =
          ⟨Session.greeting (.new timeout) ::
            (List.range n).flatMap (Session.prompts window.text), .failed (.io .notText)⟩ ∧
        ∀ front, Text.lines front = (Text.lines host.input).take n →
          run arguments stored { host with input := front } =
            { run arguments stored host with ending := .finished } := by
  refine ⟨settings.timeout_ok_iff_of_pos, ?_, ?_⟩
  · intro timeout accepted
    obtain ⟨span, -, pos, -, same⟩ := (settings.timeout_ok_iff_of_pos timeout).mp accepted
    exact ⟨by omega, fun other read => Settings.toSpan?_timeout accepted read⟩
  · intro arguments texts verbose stored reads loaded host
    have runs : ∀ host : Host, run arguments stored host =
        runSession settings host.input host.clock := run_of_loaded reads loaded
    simp only [runs]
    refine ⟨?_, fun reason refused => runSession_of_refused refused _ _, ?_⟩
    · cases result : settings.timeout with
      | ok timeout => simp [runSession_fails_iff result]
      | error failure =>
        cases failure with
        | refused reason => simp [runSession_of_refused result, Run.failed, Ending.exitCode]
        | abandoned => simp [runSession_of_abandoned result, Ending.exitCode]
    · intro timeout window n accepted length met
      rw [runSession_of_meetsBytes accepted length met]
      exact ⟨rfl, fun front before => runSession_of_take accepted length met.1 before⟩

theorem restart_fails_iff_behind_click :
    let host : Host := ⟨fun _ => none, .ok 0, [0x0A, 0xFF, 0x0A], fun _ => ⟨0⟩⟩
    let arguments := ["restart"].map Text.encode
    Reads arguments ["restart"] ⟨false, .restart⟩ ∧
      Settings.default.timeout = .ok Button.defaultTimeout ∧
      MeetsBytes Button.defaultTimeout host.clock host.input 1 ∧
      (run arguments .absent host).ending.exitCode = 1 ∧
      run arguments .absent host =
        ⟨["[Restart...] Press Enter to click, 'q' to quit",
          "[Confirm] Click again within 2s to restart"], .failed (.io .notText)⟩ := by
  intro host arguments
  have reads : Reads arguments ["restart"] ⟨false, .restart⟩ :=
    ⟨mapM_decode?_encode ["restart"], by decide +kernel⟩
  have accepted : Settings.default.timeout = .ok Button.defaultTimeout := by cbv
  have met : MeetsBytes Button.defaultTimeout host.clock host.input 1 := by
    refine ⟨?_, [0xFF], by cbv, by cbv⟩
    intro i below
    obtain rfl : i = 0 := by omega
    exact ⟨⟨.ok "", by cbv, "", rfl, by decide⟩, by decide, by decide, by decide⟩
  have length : Button.defaultTimeout.toSpan? = some ⟨2000000000, by decide⟩ := by decide
  obtain ⟨fails, -, output⟩ :=
    (restart_fails_iff Settings.default).2.2 arguments ["restart"] false .absent reads rfl host
  have text : Span.text ⟨2000000000, by decide⟩ = "2s" := by decide
  have printed := (output _ _ 1 accepted length met).1
  rw [text] at printed
  exact ⟨reads, accepted, met, fails.mpr (.inr ⟨_, 1, accepted, met⟩), printed⟩

end Command

end StatusPage
