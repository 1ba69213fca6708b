import StatusPage.Proofs.Restart.Steps
import StatusPage.Restart.Session

namespace StatusPage.Session

variable {window : String} {timeout : Delta} {clock : Nat → Instant} {lines : List Line}

/-- A click comes early when the timeout of the one before it has not passed. -/
def early (timeout : Delta) (clock : Nat → Instant) (i : Nat) : Bool :=
  1 ≤ i && (clock i).nanoseconds < ((clock (i - 1)).plus timeout).nanoseconds

/-- The button before a click when every one before it has armed the button. -/
def awaiting (timeout : Delta) (clock : Nat → Instant) : Nat → Button
  | 0 => .new timeout
  | i + 1 => ⟨timeout, .pending ((clock i).plus timeout)⟩

def prompts (window : String) (i : Nat) : List String :=
  (if 1 ≤ i then ["[Restart...] Confirmation timed out"] else []) ++
    ["[Confirm] Click again within " ++ window ++ " to restart"]

theorem awaiting_timeout (i : Nat) : (awaiting timeout clock i).timeout = timeout := by
  cases i <;> rfl

theorem awaiting_open_iff (i : Nat) :
    (awaiting timeout clock i).Open (clock i) ↔ early timeout clock i := by
  cases i with
  | zero => simp [awaiting, Button.Open, Button.new, early]
  | succ i => simp [awaiting, Button.Open, early]

theorem notice_awaiting {i : Nat} (late : ¬ early timeout clock i) :
    notice (awaiting timeout clock i) (clock i) =
      if 1 ≤ i then ["[Restart...] Confirmation timed out"] else [] := by
  have closed := mt (awaiting_open_iff i).mp late
  cases i with
  | zero => rfl
  | succ i =>
    have passed : ((clock i).plus timeout).nanoseconds ≤ (clock (i + 1)).nanoseconds := by
      simpa [early] using late
    simp only [notice, Button.tick_of_closed closed]
    simp [awaiting, Button.expired, passed, say, Button.reset, Button.label]

theorem respond_of_early (window : String) {i : Nat} (reading : (clock i).isReading)
    (isEarly : early timeout clock i) :
    respond window (awaiting timeout clock i) (clock i) =
      (["Restart requested (/restart)"], .inl .finished) := by
  have isOpen := (awaiting_open_iff i).mpr isEarly
  have quiet : notice (awaiting timeout clock i) (clock i) = [] := by
    obtain ⟨deadline, pending, ahead⟩ := isOpen
    have running : ¬ deadline.nanoseconds ≤ (clock i).nanoseconds := by omega
    simp [notice, Button.expired, pending, running]
  simp [respond, reading, Button.click_of_open isOpen, quiet, Button.target]

theorem click_of_late {i : Nat} (late : ¬ early timeout clock i) :
    (awaiting timeout clock i).click (clock i) =
      if ((clock i).plus timeout).inCalendar then (.armed, awaiting timeout clock (i + 1))
      else (.abandoned, (awaiting timeout clock i).reset) := by
  have closed := mt (awaiting_open_iff i).mp late
  simp only [Button.click_of_closed closed, awaiting_timeout]
  rfl

theorem say_awaiting_succ (i : Nat) :
    say (awaiting timeout clock (i + 1)) ("Click again within " ++ window ++ " to restart") =
      "[Confirm] Click again within " ++ window ++ " to restart" := by
  simp only [say, ← String.append_assoc]
  rfl

theorem respond_of_late (window : String) {i : Nat} (reading : (clock i).isReading)
    (late : ¬ early timeout clock i) (inside : ((clock i).plus timeout).inCalendar) :
    respond window (awaiting timeout clock i) (clock i) =
      (prompts window i, .inr (awaiting timeout clock (i + 1))) := by
  simp only [respond, reading, click_of_late late, inside, notice_awaiting late, prompts,
    not_true_eq_false, ite_true, ite_false]
  rw [say_awaiting_succ]

theorem respond_of_beyond (window : String) {i : Nat} (reading : (clock i).isReading)
    (late : ¬ early timeout clock i) (beyond : ¬ ((clock i).plus timeout).inCalendar) :
    respond window (awaiting timeout clock i) (clock i) =
      (if 1 ≤ i then ["[Restart...] Confirmation timed out"] else [], .inl .abandoned) := by
  simp [respond, reading, click_of_late late, beyond, notice_awaiting late]

theorem after_after (first second : List String) (session : Session) :
    (session.after second).after first = session.after (first ++ second) := by
  simp [after]

theorem step_of_goesOn {button : Button} {now : Instant} {line : String} (goesOn : ¬ isQuit line) :
    step window button now (.ok line) = respond window button now :=
  if_neg goesOn

theorem step_of_quit {button : Button} {now : Instant} {line : String} (quit : isQuit line) :
    step window button now (.ok line) = ([], .inl .finished) :=
  if_pos quit

theorem run_of_stop {button : Button} {i : Nat} {line : Line} {rest : List Line}
    {printed : List String} {ending : SessionEnd}
    (stepped : step window button (clock i) line = (printed, .inl ending)) :
    run window clock button i (line :: rest) = ⟨printed, ending⟩ := by
  rw [run, stepped]

theorem run_of_next {button next : Button} {i : Nat} {line : Line} {rest : List Line}
    {printed : List String}
    (stepped : step window button (clock i) line = (printed, .inr next)) :
    run window clock button i (line :: rest) =
      (run window clock next (i + 1) rest).after printed := by
  rw [run, stepped]

def IsClick (line : Line) : Prop := ∃ text, line = .ok text ∧ ¬ isQuit text

structure Arms (timeout : Delta) (clock : Nat → Instant) (i : Nat) : Prop where
  reading : (clock i).isReading
  late : ¬ early timeout clock i
  inside : ((clock i).plus timeout).inCalendar

def Underway (timeout : Delta) (clock : Nat → Instant) (lines : List Line) (n : Nat) : Prop :=
  ∀ i < n, (∃ line, lines[i]? = some line ∧ IsClick line) ∧ Arms timeout clock i

theorem Underway.before {m n : Nat} (underway : Underway timeout clock lines n) (bound : m ≤ n) :
    Underway timeout clock lines m :=
  fun i below => underway i (by omega)

theorem Underway.succ {n : Nat} {line : Line} (underway : Underway timeout clock lines n)
    (present : lines[n]? = some line) (click : IsClick line) (arms : Arms timeout clock n) :
    Underway timeout clock lines (n + 1) := by
  intro i below
  rcases Nat.lt_succ_iff_lt_or_eq.mp below with before | rfl
  · exact underway i before
  · exact ⟨⟨line, present, click⟩, arms⟩

theorem run_of_underway (window : String) {n : Nat} (underway : Underway timeout clock lines n) :
    run window clock (.new timeout) 0 lines =
      (run window clock (awaiting timeout clock n) n (lines.drop n)).after
        ((List.range n).flatMap (prompts window)) := by
  -- By induction on the clicks taken: `awaiting` is the button that they leave behind.
  induction n with
  | zero => simp [after, awaiting]
  | succ n ih =>
    obtain ⟨⟨_, present, text, rfl, goesOn⟩, arm⟩ := underway n (by omega)
    obtain ⟨bound, here⟩ := List.getElem?_eq_some_iff.mp present
    have stepped := (step_of_goesOn goesOn).trans
      (respond_of_late window arm.reading arm.late arm.inside)
    rw [ih (underway.before (by omega)), List.drop_eq_getElem_cons bound, here,
      run_of_next stepped]
    simp only [after_after, List.range_succ, List.flatMap_append, List.flatMap_singleton]

section Stop

variable (window : String) {n : Nat} (underway : Underway timeout clock lines n)

include underway

theorem run_of_unreadable {reason : IoError} (unreadable : lines[n]? = some (.error reason)) :
    run window clock (.new timeout) 0 lines =
      ⟨(List.range n).flatMap (prompts window), .unreadable reason⟩ := by
  obtain ⟨bound, here⟩ := List.getElem?_eq_some_iff.mp unreadable
  rw [run_of_underway window underway, List.drop_eq_getElem_cons bound, here, run_of_stop rfl]
  simp [after]

theorem run_of_confirmation {line : Line} (present : lines[n]? = some line) (click : IsClick line)
    (reading : (clock n).isReading) (isEarly : early timeout clock n) :
    run window clock (.new timeout) 0 lines =
      ⟨(List.range n).flatMap (prompts window) ++ ["Restart requested (/restart)"], .finished⟩ := by
  obtain ⟨text, rfl, goesOn⟩ := click
  obtain ⟨bound, here⟩ := List.getElem?_eq_some_iff.mp present
  have stepped := (step_of_goesOn goesOn).trans (respond_of_early window reading isEarly)
  rw [run_of_underway window underway, List.drop_eq_getElem_cons bound, here,
    run_of_stop stepped]
  rfl

theorem run_of_beyond {line : Line} (present : lines[n]? = some line) (click : IsClick line)
    (reading : (clock n).isReading) (late : ¬ early timeout clock n)
    (beyond : ¬ ((clock n).plus timeout).inCalendar) :
    (run window clock (.new timeout) 0 lines).ending = .abandoned := by
  obtain ⟨text, rfl, goesOn⟩ := click
  obtain ⟨bound, here⟩ := List.getElem?_eq_some_iff.mp present
  have stepped := (step_of_goesOn goesOn).trans (respond_of_beyond window reading late beyond)
  rw [run_of_underway window underway, List.drop_eq_getElem_cons bound, here,
    run_of_stop stepped]
  rfl

end Stop

end StatusPage.Session
