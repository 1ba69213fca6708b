import StatusPage.Proofs.Restart.Transcript
import StatusPage.Proofs.Span.Printing

namespace StatusPage

namespace Session

def prompt (window : String) : String := "[Confirm] Click again within " ++ window ++ " to restart"

theorem between_injective {front behind first second : String}
    (same : front ++ first ++ behind = front ++ second ++ behind) : first = second := by
  have chars := congrArg String.toList same
  simp only [String.toList_append, List.append_assoc] at chars
  exact String.toList_injective (List.append_cancel_right (List.append_cancel_left chars))

theorem prefix_between (front text behind : String) :
    front.toList <+: (front ++ text ++ behind).toList := by
  simp only [String.toList_append, List.append_assoc]
  exact List.prefix_append _ _

theorem prompt_ne {window line : String}
    (other : ¬ "[Confirm] Click again within ".toList <+: line.toList) : prompt window ≠ line := by
  intro same
  subst same
  exact other (prefix_between _ _ _)

theorem greeting_new (timeout : Delta) :
    greeting (.new timeout) = "[Restart...] Press Enter to click, 'q' to quit" := rfl

def Printable (window : String) (line : String) : Prop :=
  line = "[Restart...] Confirmation timed out" ∨ line = prompt window ∨
    line = "Restart requested (/restart)"

theorem Printable.of_prompt {window text : String} (printable : Printable window (prompt text)) :
    text = window := by
  rcases printable with same | same | same
  · exact absurd same (prompt_ne (by decide))
  · exact between_injective same
  · exact absurd same (prompt_ne (by decide))

variable {window : String} {button : Button} {now : Instant} {clock : Nat → Instant}

theorem printable_of_mem_notice {line : String} (member : line ∈ notice button now) :
    Printable window line := by
  unfold notice at member
  by_cases expired : button.expired now
  · have closed : ¬ button.Open now := by
      intro isOpen
      obtain ⟨deadline, pending, early⟩ := isOpen
      simp [Button.expired, pending] at expired
      omega
    rw [if_pos expired, Button.tick_of_closed closed] at member
    exact .inl (List.mem_singleton.mp member)
  · rw [if_neg expired] at member
    exact absurd member List.not_mem_nil

theorem printable_of_mem_respond {line : String}
    (member : line ∈ (respond window button now).1) : Printable window line := by
  unfold respond at member
  by_cases reading : now.isReading
  · rw [if_neg (not_not_intro reading)] at member
    by_cases isOpen : button.Open now
    · rw [Button.click_of_open isOpen] at member
      rcases List.mem_append.mp member with noticed | requested
      · exact printable_of_mem_notice noticed
      · exact .inr (.inr (List.mem_singleton.mp requested))
    · rw [Button.click_of_closed isOpen] at member
      by_cases inside : (now.plus button.timeout).inCalendar
      · rw [if_pos inside] at member
        rcases List.mem_append.mp member with noticed | prompted
        · exact printable_of_mem_notice noticed
        · rw [List.mem_singleton] at prompted
          have said := @say_awaiting_succ window button.timeout (fun _ => now) 0
          exact .inr (.inl (prompted.trans said))
      · rw [if_neg inside] at member
        exact printable_of_mem_notice member
  · rw [if_pos reading] at member
    exact absurd member List.not_mem_nil

theorem printable_of_mem_step {first : Line} {line : String}
    (member : line ∈ (step window button now first).1) : Printable window line := by
  cases first with
  | error reason => exact absurd member List.not_mem_nil
  | ok text =>
    by_cases quits : isQuit text
    · rw [step_of_quit quits] at member
      exact absurd member List.not_mem_nil
    · rw [step_of_goesOn quits] at member
      exact printable_of_mem_respond member

theorem printable_of_mem_run {lines : List Line} {reading : Nat} {line : String}
    (member : line ∈ (run window clock button reading lines).printed) : Printable window line := by
  induction lines generalizing button reading with
  | nil => exact absurd member List.not_mem_nil
  | cons first rest ih =>
    have answered := @printable_of_mem_step window button (clock reading) first
    rcases stepped : step window button (clock reading) first with ⟨printed, ending | next⟩
    · rw [stepped] at answered
      rw [run_of_stop stepped] at member
      exact answered member
    · rw [stepped] at answered
      rw [run_of_next stepped] at member
      rcases List.mem_append.mp member with now | later
      · exact answered now
      · exact ih later

end Session

namespace Settings

theorem timeout_text {settings : Settings} {timeout : Delta} {window : Span}
    (accepted : settings.timeout = .ok timeout) (length : timeout.toSpan? = some window)
    (other : Settings) (printed : other.confirmTimeout = window.text) :
    other.timeout = .ok timeout := by
  obtain ⟨span, -, nonzero, fits, rfl⟩ := (timeout_ok_iff settings timeout).mp accepted
  obtain rfl : span = window := by simpa [Delta.toSpan?_of_span] using length
  exact (timeout_ok_iff other _).mpr
    ⟨span, by rw [printed, Span.read_text], nonzero, fits, rfl⟩

end Settings

namespace Command

open Session in
/-- A restart session announces its timeout: the window in its prompts, which it prints from the
    first click on, is read back as a timeout to exactly the one that is configured. -/
theorem announced_window_reads_back {settings : Settings} {timeout : Delta}
    (accepted : settings.timeout = .ok timeout) :
    ∃ window, timeout.toSpan? = some window ∧
      openSession settings = .ok (window.text, .new timeout) ∧
      (∀ other : Settings, other.confirmTimeout = window.text → other.timeout = .ok timeout) ∧
      ∀ input clock,
        (∀ text, "[Confirm] Click again within " ++ text ++ " to restart" ∈
          (runSession settings input clock).printed → text = window.text) ∧
        (Underway timeout clock (inputLines input) 1 →
          "[Confirm] Click again within " ++ window.text ++ " to restart" ∈
            (runSession settings input clock).printed) := by
  obtain ⟨window, length, opened⟩ := Settings.openSession_of_timeout accepted
  refine ⟨window, length, opened, Settings.timeout_text accepted length, ?_⟩
  intro input clock
  obtain ⟨window', length', session⟩ := runSession_of_timeout accepted input clock
  obtain rfl : window' = window := by simpa [length'] using length
  rw [session]
  constructor
  · intro text member
    rcases List.mem_cons.mp member with greeted | later
    · exact absurd (greeted.trans (greeting_new timeout)) (prompt_ne (by decide))
    · exact (printable_of_mem_run later).of_prompt
  · intro first
    rw [run_of_underway window'.text first]
    apply List.mem_append_right
    apply List.mem_append_left
    exact List.mem_singleton_self _

theorem announced_window_reads_back_day :
    let settings : Settings := { Settings.default with confirmTimeout := "90061s 1500us 7ns" }
    let window := "1day 1h 1m 1s 1ms 500us 7ns"
    settings.timeout = .ok ⟨nanosOf 90061 1500007⟩ ∧
      "[Confirm] Click again within " ++ window ++ " to restart" ∈
        (runSession settings [0x0A] fun _ => ⟨0⟩).printed ∧
      { settings with confirmTimeout := window }.timeout = .ok ⟨nanosOf 90061 1500007⟩ := by
  intro settings window
  have accepted : settings.timeout = .ok ⟨nanosOf 90061 1500007⟩ := by cbv
  obtain ⟨span, length, -, reads, prompted⟩ := announced_window_reads_back accepted
  have text : span.text = window := by
    have length' : Delta.toSpan? ⟨nanosOf 90061 1500007⟩ = some ⟨90061001500007, by decide⟩ := by
      decide
    obtain rfl := Option.some.inj (length'.symm.trans length)
    decide
  rw [text] at reads prompted
  have first : Session.Underway ⟨nanosOf 90061 1500007⟩ (fun _ => ⟨0⟩) (inputLines [0x0A]) 1 := by
    intro i below
    obtain rfl : i = 0 := by omega
    exact ⟨⟨.ok "", by cbv, "", rfl, by decide⟩, by decide, by decide, by decide⟩
  exact ⟨accepted, (prompted [0x0A] fun _ => ⟨0⟩).2 first, reads _ rfl⟩

end Command

end StatusPage
