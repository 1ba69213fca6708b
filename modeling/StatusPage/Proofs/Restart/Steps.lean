import StatusPage.Restart.Button

namespace StatusPage.Button

/-- A click at the time would be a confirmation. -/
def Open (button : Button) (now : Instant) : Prop :=
  ∃ deadline, button.state = .pending deadline ∧ now.nanoseconds < deadline.nanoseconds

theorem tick_of_open {button : Button} {now : Instant} (isOpen : button.Open now) :
    button.tick now = button := by
  obtain ⟨deadline, pending, early⟩ := isOpen
  have running : ¬ deadline.nanoseconds ≤ now.nanoseconds := by omega
  simp [tick, expired, pending, running]

theorem tick_of_closed {button : Button} {now : Instant} (closed : ¬ button.Open now) :
    button.tick now = button.reset := by
  cases state : button.state with
  | idle =>
    have same : button.reset = button := by rw [reset, ← state]
    simp [tick, expired, state, same]
  | pending deadline =>
    have passed : deadline.nanoseconds ≤ now.nanoseconds := by
      by_cases early : now.nanoseconds < deadline.nanoseconds
      · exact absurd ⟨deadline, state, early⟩ closed
      · omega
    simp [tick, expired, state, passed]

theorem click_of_open {button : Button} {now : Instant} (isOpen : button.Open now) :
    button.click now = (.confirmed, button.reset) := by
  have still := tick_of_open isOpen
  obtain ⟨deadline, pending, -⟩ := isOpen
  simp [click, still, pending]

theorem click_of_closed {button : Button} {now : Instant} (closed : ¬ button.Open now) :
    button.click now =
      if (now.plus button.timeout).inCalendar then
        (.armed, ⟨button.timeout, .pending (now.plus button.timeout)⟩)
      else (.abandoned, button.reset) := by
  simp only [click, tick_of_closed closed, reset]

theorem step_timeout (button : Button) (step : Step) :
    (button.step step).2.timeout = button.timeout := by
  cases step with
  | click now =>
    by_cases isOpen : button.Open now
    · simp [Button.step, click_of_open isOpen, reset]
    · simp only [Button.step, click_of_closed isOpen]
      split <;> rfl
  | tick now =>
    by_cases isOpen : button.Open now
    · simp [Button.step, tick_of_open isOpen]
    · simp [Button.step, tick_of_closed isOpen, reset]
  | reset => rfl

theorem step_confirmed_iff (button : Button) (step : Step) :
    (button.step step).1 = .clicked .confirmed ↔
      ∃ now, step = .click now ∧ button.Open now := by
  cases step with
  | click now =>
    by_cases isOpen : button.Open now
    · simp [Button.step, click_of_open isOpen, isOpen]
    · simp only [Button.step, click_of_closed isOpen]
      split <;> simp [isOpen]
  | tick now => simp [Button.step]
  | reset => simp [Button.step]

theorem step_abandoned_iff (button : Button) (step : Step) :
    (button.step step).1 = .clicked .abandoned ↔
      ∃ now, step = .click now ∧ ¬ button.Open now ∧
        ¬ (now.plus button.timeout).inCalendar := by
  cases step with
  | click now =>
    by_cases isOpen : button.Open now
    · simp [Button.step, click_of_open isOpen, isOpen]
    · simp only [Button.step, click_of_closed isOpen]
      split <;> simp_all
  | tick now => simp [Button.step]
  | reset => simp [Button.step]

theorem step_abandoned_idle {button : Button} {step : Step}
    (abandoned : (button.step step).1 = .clicked .abandoned) :
    (button.step step).2.state = .idle := by
  obtain ⟨now, rfl, closed, outside⟩ := (step_abandoned_iff _ _).mp abandoned
  simp [Button.step, click_of_closed closed, outside, reset]

theorem step_pending_iff (button : Button) (step : Step) (deadline : Instant) :
    (button.step step).2.state = .pending deadline ↔
      (∃ now, step = .click now ∧ (button.step step).1 = .clicked .armed ∧
        deadline = now.plus button.timeout) ∨
      (∃ now, step = .tick now ∧ now.nanoseconds < deadline.nanoseconds ∧
        button.state = .pending deadline) := by
  cases step with
  | click now =>
    by_cases isOpen : button.Open now
    · simp [Button.step, click_of_open isOpen, reset]
    · simp only [Button.step, click_of_closed isOpen]
      split <;> simp [reset, eq_comm]
  | tick now =>
    by_cases isOpen : button.Open now
    · have still := tick_of_open isOpen
      obtain ⟨due, pending, early⟩ := isOpen
      have same : due = deadline → now.nanoseconds < deadline.nanoseconds := by
        intro same
        subst same
        exact early
      simpa [Button.step, still, pending] using same
    · have unmet : button.state = .pending deadline →
          ¬ now.nanoseconds < deadline.nanoseconds :=
        fun pending early => isOpen ⟨deadline, pending, early⟩
      simp only [Button.step, tick_of_closed isOpen, reset]
      grind
  | reset => simp [Button.step, reset]

def run (button : Button) : List Step → Button
  | [] => button
  | step :: steps => (button.step step).2.run steps

theorem run_timeout (button : Button) (steps : List Step) :
    (button.run steps).timeout = button.timeout := by
  induction steps generalizing button with
  | nil => rfl
  | cons step steps ih => rw [run, ih, step_timeout]

theorem run_append (button : Button) (first second : List Step) :
    button.run (first ++ second) = (button.run first).run second := by
  induction first generalizing button with
  | nil => rfl
  | cons step steps ih => exact ih _

theorem trace_getElem? (button : Button) (steps : List Step) (i : Nat) :
    (button.trace steps)[i]? = steps[i]?.map (button.run (steps.take i)).step := by
  induction steps generalizing button i with
  | nil => rfl
  | cons step steps ih =>
    cases i with
    | zero => rfl
    | succ i => simpa [trace, run] using ih _ i

theorem run_take_succ {button : Button} {steps : List Step} {i : Nat} {step : Step}
    (present : steps[i]? = some step) :
    button.run (steps.take (i + 1)) = ((button.run (steps.take i)).step step).2 := by
  rw [List.take_add_one, present, run_append]
  rfl

end StatusPage.Button
