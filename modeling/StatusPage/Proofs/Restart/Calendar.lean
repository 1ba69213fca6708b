import StatusPage.Proofs.Restart.Transcript

namespace StatusPage

namespace Instant

def lastOf9999 : Instant := ⟨nanosOf 253402300799 999999999⟩

/-- A time from the start of 1970 to the end of the year 9999. -/
def FourDigits (time : Instant) : Prop :=
  0 ≤ time.nanoseconds ∧ time.nanoseconds ≤ lastOf9999.nanoseconds

instance (time : Instant) : Decidable time.FourDigits := inferInstanceAs (Decidable (_ ∧ _))

theorem FourDigits.isReading {time : Instant} (fourDigits : time.FourDigits) : time.isReading := by
  obtain ⟨first, last⟩ := fourDigits
  have order : lastOf9999.nanoseconds ≤ Instant.last.nanoseconds := by decide
  simp only [Instant.isReading, Bool.and_eq_true, decide_eq_true_eq]
  omega

theorem inCalendar_iff (time : Instant) :
    time.inCalendar ↔
      first.nanoseconds ≤ time.nanoseconds ∧ time.nanoseconds ≤ last.nanoseconds := by
  simp [inCalendar]

theorem FourDigits.inCalendar_plus_iff {time : Instant} {delta : Delta}
    (fourDigits : time.FourDigits) (forward : 0 ≤ delta.nanoseconds) :
    (time.plus delta).inCalendar ↔ time.nanoseconds + delta.nanoseconds ≤ last.nanoseconds := by
  have start := fourDigits.1
  have order : first.nanoseconds ≤ 0 := by decide
  rw [inCalendar_iff, plus]
  simp only
  omega

end Instant

theorem Settings.timeout_nonneg {settings : Settings} {timeout : Delta}
    (accepted : settings.timeout = .ok timeout) : 0 ≤ timeout.nanoseconds := by
  obtain ⟨window, -, -, -, rfl⟩ := (timeout_ok_iff settings timeout).mp accepted
  exact Int.natCast_nonneg _

theorem Button.click_new_of_fourDigits {timeout : Delta} {now : Instant}
    (forward : 0 ≤ timeout.nanoseconds) (fourDigits : now.FourDigits) :
    (new timeout).click now =
      if now.nanoseconds + timeout.nanoseconds ≤ Instant.last.nanoseconds then
        (.armed, ⟨timeout, .pending (now.plus timeout)⟩)
      else (.abandoned, new timeout) := by
  have closed : ¬ (new timeout).Open now := by simp [Open, new]
  rw [click_of_closed closed]
  simp only [new, reset, fourDigits.inCalendar_plus_iff forward]

namespace Session

variable {window : String} {timeout : Delta} {clock : Nat → Instant} {lines : List Line}

/-- A click of a session that is reached, and whose deadline would lie outside the calendar. -/
def Overruns (timeout : Delta) (clock : Nat → Instant) (lines : List Line) (i : Nat) : Prop :=
  i < prompted timeout clock lines ∧ (∀ j ≤ i, ∃ text, lines[j]? = some (.ok text)) ∧
    ¬ ((clock i).plus timeout).inCalendar

theorem present_of_isClick {i : Nat} (found : ∃ line, lines[i]? = some line ∧ IsClick line) :
    ∃ text, lines[i]? = some (.ok text) := by
  obtain ⟨_, present, text, rfl, -⟩ := found
  exact ⟨text, present⟩

theorem run_progress (window : String) (readings : ∀ i, (clock i).isReading) (n : Nat)
    (bound : n ≤ prompted timeout clock lines) :
    Underway timeout clock lines n ∨
      (∃ i < n, Overruns timeout clock lines i ∧
        (run window clock (.new timeout) 0 lines).ending = .abandoned) ∨
      (∃ i < n, ∃ reason, lines[i]? = some (.error reason) ∧ Underway timeout clock lines i) := by
  have most := prompted_le timeout clock lines
  induction n with
  | zero => exact .inl fun i below => absurd below (by omega)
  | succ n ih =>
    rcases ih (by omega) with underway | ⟨i, below, stopped⟩ | ⟨i, below, stopped⟩
    · have counted : n < clicks lines := by omega
      obtain ⟨line, present⟩ := present_of_lt_clicks counted
      cases line with
      | error reason => exact .inr (.inr ⟨n, by omega, reason, present, underway⟩)
      | ok text =>
        have late : ¬ early timeout clock n := late_of_lt_prompted bound
        have click := isClick_of_lt_clicks counted present
        by_cases inside : ((clock n).plus timeout).inCalendar
        · exact .inl (underway.succ present click ⟨readings n, late, inside⟩)
        · have readable : ∀ i ≤ n, ∃ text, lines[i]? = some (.ok text) := by
            intro i below
            rcases Nat.lt_or_eq_of_le below with before | rfl
            · exact present_of_isClick (underway i before).1
            · exact ⟨text, present⟩
          have ending := run_of_beyond window underway present click (readings n) late inside
          exact .inr (.inl ⟨n, by omega, ⟨bound, readable, inside⟩, ending⟩)
    · exact .inr (.inl ⟨i, by omega, stopped⟩)
    · exact .inr (.inr ⟨i, by omega, stopped⟩)

theorem early_prompted (fewer : prompted timeout clock lines < clicks lines) :
    early timeout clock (prompted timeout clock lines) := by
  cases found : confirmation? timeout clock lines with
  | none => simp [prompted, found] at fewer
  | some k => simpa [prompted, found] using ((confirmation?_eq_some_iff k).mp found).1

theorem ending_of_underway (window : String) (readings : ∀ i, (clock i).isReading)
    (underway : Underway timeout clock lines (prompted timeout clock lines)) :
    (run window clock (.new timeout) 0 lines).ending = .finished ∨
      ∃ reason, (run window clock (.new timeout) 0 lines).ending = .unreadable reason := by
  rcases Nat.lt_or_eq_of_le (prompted_le timeout clock lines) with fewer | all
  · obtain ⟨line, present⟩ := present_of_lt_clicks fewer
    cases line with
    | error reason => exact .inr ⟨reason, by rw [run_of_unreadable window underway present]⟩
    | ok text =>
      have click := isClick_of_lt_clicks fewer present
      have isEarly := early_prompted fewer
      exact .inl (by rw [run_of_confirmation window underway present click (readings _) isEarly])
  · rw [all] at underway
    exact .inl (by rw [run_of_all_clicks window underway rfl])

theorem ending_abandoned_iff (window : String) (readings : ∀ i, (clock i).isReading) :
    (run window clock (.new timeout) 0 lines).ending = .abandoned ↔
      ∃ i, Overruns timeout clock lines i := by
  rcases run_progress window readings _ (Nat.le_refl (prompted timeout clock lines)) with
    underway | ⟨i, -, overruns, ending⟩ | ⟨n, -, reason, unreadable, underway⟩
  · have inside : ¬ ∃ i, Overruns timeout clock lines i := by
      intro found
      obtain ⟨i, below, -, beyond⟩ := found
      exact beyond (underway i below).2.inside
    rcases ending_of_underway window readings underway with ending | ⟨reason, ending⟩ <;>
      simp [ending, inside]
  · exact ⟨fun _ => ⟨i, overruns⟩, fun _ => ending⟩
  · have inside : ¬ ∃ i, Overruns timeout clock lines i := by
      intro found
      obtain ⟨i, -, readable, beyond⟩ := found
      rcases Nat.lt_or_ge i n with before | behind
      · exact beyond (underway i before).2.inside
      · obtain ⟨text, present⟩ := readable n behind
        simp [unreadable] at present
    simp [run_of_unreadable window underway unreadable, inside]

end Session

namespace Command

theorem exitCode_eq_iff (ending : Ending) : ending.exitCode = 101 ↔ ending = .abandoned := by
  cases ending <;> simp [Ending.exitCode]

theorem ofSession_abandoned_iff (session : Session) :
    (Run.ofSession session).ending = .abandoned ↔ session.ending = .abandoned := by
  cases ending : session.ending <;> simp [Run.ofSession, ending]

theorem runSession_abandoned_iff {settings : Settings} {timeout : Delta}
    (accepted : settings.timeout = .ok timeout) (input : List UInt8) {clock : Nat → Instant}
    (readings : ∀ i, (clock i).isReading) :
    (runSession settings input clock).ending.exitCode = 101 ↔
      ∃ i, Session.Overruns timeout clock (inputLines input) i := by
  obtain ⟨window, -, session⟩ := runSession_of_timeout accepted input clock
  rw [exitCode_eq_iff, session, ofSession_abandoned_iff]
  exact Session.ending_abandoned_iff window.text readings

theorem runSession_overrun_iff {settings : Settings} {timeout : Delta}
    (accepted : settings.timeout = .ok timeout) (input : List UInt8) {clock : Nat → Instant}
    (fourDigits : ∀ i, (clock i).FourDigits) :
    (runSession settings input clock).ending.exitCode = 101 ↔
      ∃ i, i < Session.prompted timeout clock (inputLines input) ∧
        (∀ j ≤ i, ∃ text, (inputLines input)[j]? = some (.ok text)) ∧
        Instant.last.nanoseconds < (clock i).nanoseconds + timeout.nanoseconds := by
  have forward := Settings.timeout_nonneg accepted
  rw [runSession_abandoned_iff accepted input fun i => (fourDigits i).isReading]
  unfold Session.Overruns
  simp only [(fourDigits _).inCalendar_plus_iff forward, Int.not_le]

/-- Up to the year 9999 an accepted timeout can be used at a time exactly when the calendar does not
    end before it is over. The longest timeout that can be used at all of these times is the span
    from the end of that year to the end of the calendar. -/
theorem accepted_timeout_usable {settings : Settings} {timeout : Delta}
    (accepted : settings.timeout = .ok timeout) :
    (∀ now : Instant, now.FourDigits → (Button.new timeout).click now =
      if now.nanoseconds + timeout.nanoseconds ≤ Instant.last.nanoseconds then
        (.armed, ⟨timeout, .pending (now.plus timeout)⟩)
      else (.abandoned, .new timeout)) ∧
    (∀ (input : List UInt8) (clock : Nat → Instant), (∀ i, (clock i).FourDigits) →
      ((runSession settings input clock).ending.exitCode = 101 ↔
        ∃ i, i < Session.prompted timeout clock (inputLines input) ∧
          (∀ j ≤ i, ∃ text, (inputLines input)[j]? = some (.ok text)) ∧
          Instant.last.nanoseconds < (clock i).nanoseconds + timeout.nanoseconds)) ∧
    (((∀ now : Instant, now.FourDigits → (Button.new timeout).click now =
        (.armed, ⟨timeout, .pending (now.plus timeout)⟩)) ∧
      ∀ (input : List UInt8) (clock : Nat → Instant), (∀ i, (clock i).FourDigits) →
        (runSession settings input clock).ending.exitCode ≠ 101) ↔
      timeout.nanoseconds ≤ nanosOf 7956864576000 0) := by
  have forward := Settings.timeout_nonneg accepted
  have clicked := fun (now : Instant) (fourDigits : now.FourDigits) =>
    Button.click_new_of_fourDigits forward fourDigits
  have rest : Instant.lastOf9999.nanoseconds + nanosOf 7956864576000 0 =
      Instant.last.nanoseconds := by decide
  refine ⟨clicked, fun input clock => runSession_overrun_iff accepted input, ?_, ?_⟩
  · intro usable
    obtain ⟨armed, -⟩ := usable
    have last : Instant.lastOf9999.FourDigits := by decide
    by_cases fits :
        Instant.lastOf9999.nanoseconds + timeout.nanoseconds ≤ Instant.last.nanoseconds
    · omega
    · have outcomes := (armed _ last).symm.trans (clicked _ last)
      simp [fits] at outcomes
  · intro short
    have fits : ∀ now : Instant, now.FourDigits →
        now.nanoseconds + timeout.nanoseconds ≤ Instant.last.nanoseconds := by
      intro now fourDigits
      have upper := fourDigits.2
      omega
    constructor
    · intro now fourDigits
      rw [clicked now fourDigits, if_pos (fits now fourDigits)]
    · intro input clock fourDigits exit
      obtain ⟨i, -, -, beyond⟩ := (runSession_overrun_iff accepted input fourDigits).mp exit
      have inside := fits _ (fourDigits i)
      omega

theorem accepted_timeout_usable_two_seconds :
    Settings.default.timeout = .ok Button.defaultTimeout ∧ Instant.lastOf9999.FourDigits ∧
      (Button.new Button.defaultTimeout).click Instant.lastOf9999 =
        (.armed, ⟨Button.defaultTimeout, .pending ⟨nanosOf 253402300801 999999999⟩⟩) ∧
      (runSession Settings.default [0x0A] fun _ => Instant.lastOf9999).ending.exitCode ≠ 101 := by
  have accepted : Settings.default.timeout = .ok Button.defaultTimeout := by cbv
  have last : Instant.lastOf9999.FourDigits := by decide
  obtain ⟨armed, finished⟩ := (accepted_timeout_usable accepted).2.2.mpr (by decide)
  exact ⟨accepted, last, armed _ last, finished [0x0A] _ fun _ => last⟩

/-- A timeout of 280000 years is accepted, and the first click of 2023 is too late for it. -/
theorem accepted_timeout_abandoned :
    let settings : Settings := ⟨none, .faithful, "280000y"⟩
    let timeout : Delta := ⟨nanosOf 8836128000000 0⟩
    let now : Instant := ⟨nanosOf 1672567200 0⟩
    settings.timeout = .ok timeout ∧ now.FourDigits ∧
      (Button.new timeout).click now = (.abandoned, .new timeout) ∧
      (runSession settings [0x0A] fun _ => now).ending.exitCode = 101 := by
  intro settings timeout now
  have accepted : settings.timeout = .ok timeout := by cbv
  have fourDigits : now.FourDigits := by decide
  have overruns : Session.Overruns timeout (fun _ => now) (inputLines [0x0A]) 0 := by
    refine ⟨by cbv, ?_, by decide⟩
    intro j bound
    obtain rfl : j = 0 := by omega
    exact ⟨"", by cbv⟩
  exact ⟨accepted, fourDigits, by decide,
    (runSession_abandoned_iff accepted [0x0A] fun _ => fourDigits.isReading).mpr ⟨0, overruns⟩⟩

end Command

end StatusPage
