import Mathlib
import StatusPage.Proofs.Restart.Clicks
import StatusPage.Proofs.Restart.Timeout

namespace StatusPage.Session

variable {window : String} {timeout : Delta} {clock : Nat → Instant} {lines : List Line}

def quits : Line → Bool
  | .ok text => isQuit text
  | .error _ => false

/-- The number of lines before the first one that quits, or of all lines if none does. -/
def clicks (lines : List Line) : Nat := lines.findIdx quits

def confirmation? (timeout : Delta) (clock : Nat → Instant) (lines : List Line) : Option Nat :=
  (List.range (clicks lines)).find? (early timeout clock)

/-- The number of clicks before the one that confirms, or of all clicks if none does. -/
def prompted (timeout : Delta) (clock : Nat → Instant) (lines : List Line) : Nat :=
  (confirmation? timeout clock lines).getD (clicks lines)

def transcript (window : String) (timeout : Delta) (clock : Nat → Instant) (lines : List Line) :
    List String :=
  "[Restart...] Press Enter to click, 'q' to quit" ::
    ((List.range (prompted timeout clock lines)).flatMap (prompts window) ++
      if (confirmation? timeout clock lines).isSome then ["Restart requested (/restart)"] else [])

theorem confirmation?_eq_some_iff (k : Nat) :
    confirmation? timeout clock lines = some k ↔
      early timeout clock k ∧ k < clicks lines ∧ ∀ i < k, ¬ early timeout clock i := by
  simp [confirmation?]

theorem prompted_le (timeout : Delta) (clock : Nat → Instant) (lines : List Line) :
    prompted timeout clock lines ≤ clicks lines := by
  cases found : confirmation? timeout clock lines with
  | none => simp [prompted, found]
  | some k =>
    have below := ((confirmation?_eq_some_iff k).mp found).2.1
    simp only [prompted, found, Option.getD_some]
    omega

theorem late_of_lt_prompted {i : Nat} (below : i < prompted timeout clock lines) :
    ¬ early timeout clock i := by
  cases found : confirmation? timeout clock lines with
  | none =>
    simp only [prompted, found, Option.getD_none] at below
    simp only [confirmation?, List.find?_eq_none, List.mem_range] at found
    exact found i below
  | some k =>
    simp only [prompted, found, Option.getD_some] at below
    exact ((confirmation?_eq_some_iff k).mp found).2.2 i below

theorem present_of_lt_clicks {i : Nat} (below : i < clicks lines) :
    ∃ line, lines[i]? = some line := by
  have bound : clicks lines ≤ lines.length := List.findIdx_le_length
  exact ⟨_, List.getElem?_eq_getElem (by omega)⟩

theorem isClick_of_lt_clicks {i : Nat} {text : String} (below : i < clicks lines)
    (present : lines[i]? = some (.ok text)) : IsClick (.ok text) := by
  obtain ⟨bound, here⟩ := List.getElem?_eq_some_iff.mp present
  have goesOn : quits lines[i] = false := List.not_of_lt_findIdx below
  rw [here, quits] at goesOn
  exact ⟨text, rfl, by simp [goesOn]⟩

theorem run_of_all_clicks (window : String) {other : List Line}
    (underway : Underway timeout clock other (clicks lines))
    (same : other[clicks lines]? = lines[clicks lines]?) :
    run window clock (.new timeout) 0 other =
      ⟨(List.range (clicks lines)).flatMap (prompts window), .finished⟩ := by
  rw [run_of_underway window underway]
  have head : (other.drop (clicks lines)).head? = lines[clicks lines]? := by
    rw [List.head?_drop, same]
  cases rest : other.drop (clicks lines) with
  | nil => simp [run, after]
  | cons line rest =>
    rw [rest] at head
    obtain ⟨bound, here⟩ := List.getElem?_eq_some_iff.mp head.symm
    have quitting : quits line := here ▸ List.findIdx_getElem
    cases line with
    | error reason => simp [quits] at quitting
    | ok text =>
      rw [quits] at quitting
      rw [run_of_stop (step_of_quit quitting)]
      simp [after]

theorem run_transcript {other : List Line}
    (same : other.take (prompted timeout clock lines + 1) =
      lines.take (prompted timeout clock lines + 1))
    (readable : ∀ i < clicks lines, i ≤ prompted timeout clock lines →
      ∃ text, lines[i]? = some (.ok text))
    (readings : ∀ i < clicks lines, i ≤ prompted timeout clock lines → (clock i).isReading)
    (inside : ∀ i < prompted timeout clock lines, ((clock i).plus timeout).inCalendar) :
    (run window clock (.new timeout) 0 other).after [greeting (.new timeout)] =
      ⟨transcript window timeout clock lines, .finished⟩ := by
  have most := prompted_le timeout clock lines
  have agree : ∀ i ≤ prompted timeout clock lines, other[i]? = lines[i]? := by
    intro i bound
    rw [← List.getElem?_take_of_lt (Nat.lt_succ_of_le bound), same,
      List.getElem?_take_of_lt (Nat.lt_succ_of_le bound)]
  have click : ∀ i ≤ prompted timeout clock lines, i < clicks lines →
      ∃ line, other[i]? = some line ∧ IsClick line := by
    intro i bound below
    obtain ⟨text, present⟩ := readable i below bound
    exact ⟨_, (agree i bound).trans present, isClick_of_lt_clicks below present⟩
  have underway : Underway timeout clock other (prompted timeout clock lines) := fun i below =>
    ⟨click i (by omega) (by omega),
      readings i (by omega) (by omega), late_of_lt_prompted below, inside i below⟩
  cases found : confirmation? timeout clock lines with
  | none =>
    have all : prompted timeout clock lines = clicks lines := by simp [prompted, found]
    rw [all] at underway agree
    rw [run_of_all_clicks window underway (agree _ (by omega)), transcript, all, found]
    simp [after]
    rfl
  | some k =>
    have here : prompted timeout clock lines = k := by simp [prompted, found]
    obtain ⟨isEarly, below, -⟩ := (confirmation?_eq_some_iff k).mp found
    obtain ⟨line, present, isClick⟩ := click k (by omega) below
    rw [here] at underway
    rw [run_of_confirmation window underway present isClick (readings k below (by omega)) isEarly,
      transcript, here, found]
    rfl

end StatusPage.Session

namespace StatusPage.Command

def inputLines (input : List UInt8) : List Line := (Text.lines input).map Text.readLine

theorem runSession_of_timeout {settings : Settings} {timeout : Delta}
    (accepted : settings.timeout = .ok timeout) (input : List UInt8) (clock : Nat → Instant) :
    ∃ window, timeout.toSpan? = some window ∧
      runSession settings input clock =
        .ofSession ((Session.run window.text clock (.new timeout) 0 (inputLines input)).after
          [Session.greeting (.new timeout)]) := by
  obtain ⟨window, length, opened⟩ := Settings.openSession_of_timeout accepted
  exact ⟨window, length, by simp [runSession, opened, inputLines]⟩

open Session in
/-- A session confirms at the first click that comes within the timeout of the one before it, if
    there is one before the line that quits. It prints a prompt for each click before that, and
    nothing behind the last line that it reads has any effect. -/
theorem session_transcript {settings : Settings} {timeout : Delta}
    (accepted : settings.timeout = .ok timeout) (input : List UInt8) (clock : Nat → Instant)
    (readable : ∀ i < clicks (inputLines input), i ≤ prompted timeout clock (inputLines input) →
      ∃ text, (inputLines input)[i]? = some (.ok text))
    (readings : ∀ i < clicks (inputLines input), i ≤ prompted timeout clock (inputLines input) →
      (clock i).isReading)
    (inside : ∀ i < prompted timeout clock (inputLines input),
      ((clock i).plus timeout).inCalendar) :
    ∃ window, timeout.toSpan? = some window ∧
      runSession settings input clock =
        ⟨transcript window.text timeout clock (inputLines input), .finished⟩ ∧
      ∀ other, (Text.lines other).take (prompted timeout clock (inputLines input) + 1) =
          (Text.lines input).take (prompted timeout clock (inputLines input) + 1) →
        runSession settings other clock = runSession settings input clock := by
  obtain ⟨window, length, -⟩ := runSession_of_timeout accepted input clock
  have printed : ∀ other, (Text.lines other).take (prompted timeout clock (inputLines input) + 1) =
      (Text.lines input).take (prompted timeout clock (inputLines input) + 1) →
      runSession settings other clock =
        ⟨transcript window.text timeout clock (inputLines input), .finished⟩ := by
    intro other same
    obtain ⟨window', length', session⟩ := runSession_of_timeout accepted other clock
    obtain rfl : window' = window := by simpa [length'] using length
    have lines : (inputLines other).take (prompted timeout clock (inputLines input) + 1) =
        (inputLines input).take (prompted timeout clock (inputLines input) + 1) := by
      simp only [inputLines, ← List.map_take] at same ⊢
      rw [same]
    rw [session, run_transcript lines readable readings inside]
    rfl
  refine ⟨window, length, printed input rfl, ?_⟩
  intro other same
  rw [printed other same, printed input rfl]

theorem session_transcript_two_seconds :
    Settings.default.timeout = .ok Button.defaultTimeout ∧
      ∃ window, Button.defaultTimeout.toSpan? = some window ∧
        runSession Settings.default [0x0A, 0x0A, 0xFF] (fun i => ⟨nanosOf i 0⟩) =
          ⟨["[Restart...] Press Enter to click, 'q' to quit",
            "[Confirm] Click again within " ++ window.text ++ " to restart",
            "Restart requested (/restart)"], .finished⟩ := by
  have accepted : Settings.default.timeout = .ok Button.defaultTimeout := by cbv
  let lines := inputLines [0x0A, 0x0A, 0xFF]
  let clock : Nat → Instant := fun i => ⟨nanosOf i 0⟩
  have first : Session.prompted Button.defaultTimeout clock lines = 1 := by cbv
  have upTo : ∀ i ≤ Session.prompted Button.defaultTimeout clock lines, i = 0 ∨ i = 1 := by
    rw [first]
    omega
  have readable : ∀ i ≤ Session.prompted Button.defaultTimeout clock lines,
      ∃ text, lines[i]? = some (.ok text) := by
    intro i bound
    rcases upTo i bound with rfl | rfl
    · exact ⟨"", by cbv⟩
    · exact ⟨"", by cbv⟩
  have readings : ∀ i ≤ Session.prompted Button.defaultTimeout clock lines,
      (clock i).isReading ∧ ((clock i).plus Button.defaultTimeout).inCalendar := by
    intro i bound
    rcases upTo i bound with rfl | rfl <;> decide
  obtain ⟨window, length, printed, -⟩ := session_transcript accepted [0x0A, 0x0A, 0xFF] clock
    (fun i _ bound => readable i bound) (fun i _ bound => (readings i bound).1)
    (fun i below => (readings i (Nat.le_of_lt below)).2)
  have text : Session.transcript window.text Button.defaultTimeout clock lines =
      ["[Restart...] Press Enter to click, 'q' to quit",
        "[Confirm] Click again within " ++ window.text ++ " to restart",
        "Restart requested (/restart)"] := by
    have found : Session.confirmation? Button.defaultTimeout clock lines = some 1 := by cbv
    simp [Session.transcript, first, found, Session.prompts, List.range_succ]
  exact ⟨accepted, window, length, printed.trans (by rw [text])⟩

/-- A clock that is set to the last second of 1969 has no reading, and the session is abandoned. -/
theorem session_before_1970 :
    let input : List UInt8 := [0x0A, 0x0A, 0x0A]
    let clock : Nat → Instant := fun _ => ⟨nanosOf (-1) 0⟩
    Settings.default.timeout = .ok Button.defaultTimeout ∧
      inputLines input = [.ok "", .ok "", .ok ""] ∧
      (∀ i, ((clock i).plus Button.defaultTimeout).inCalendar) ∧
      (runSession Settings.default input clock).ending.exitCode = 101 ∧
      ∀ window, runSession Settings.default input clock ≠
        ⟨Session.transcript window Button.defaultTimeout clock (inputLines input), .finished⟩ := by
  intro input clock
  have accepted : Settings.default.timeout = .ok Button.defaultTimeout := by cbv
  have lines : inputLines input = [.ok "", .ok "", .ok ""] := by cbv
  have ending : (runSession Settings.default input clock).ending = .abandoned := by
    obtain ⟨window, -, session⟩ := runSession_of_timeout accepted input clock
    have stepped : Session.step window.text (.new Button.defaultTimeout) (clock 0) (.ok "") =
        ([], .inl .abandoned) := rfl
    rw [session, lines, Session.run_of_stop stepped]
    rfl
  refine ⟨accepted, lines, fun _ => by decide, by rw [ending]; rfl, ?_⟩
  intro window same
  rw [same] at ending
  simp at ending

end StatusPage.Command
