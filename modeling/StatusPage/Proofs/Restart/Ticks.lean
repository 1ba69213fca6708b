import StatusPage.Proofs.Restart.Steps

namespace StatusPage.Button

variable {button other : Button} {now later : Instant} {steps : List Step}

def Step.time? : Step → Option Instant
  | .click now | .tick now => some now
  | .reset => none

def Step.isTick : Step → Bool
  | .tick _ => true
  | .click _ | .reset => false

def Answer.isTick : Answer → Bool
  | .ticked _ => true
  | .clicked _ | .wasReset => false

def times (steps : List Step) : List Instant := steps.filterMap Step.time?

def Ordered (steps : List Step) : Prop :=
  (times steps).Pairwise fun now later => now.nanoseconds ≤ later.nanoseconds

instance (steps : List Step) : Decidable (Ordered steps) :=
  inferInstanceAs (Decidable (List.Pairwise _ _))

def withoutTicks (steps : List Step) : List Step := steps.filter fun step => !step.isTick

def outcome? (place : Answer × Button) : Option (ClickOutcome × ButtonState) :=
  match place.1 with
  | .clicked outcome => some (outcome, place.2.state)
  | .ticked _ | .wasReset => none

def clicks (places : List (Answer × Button)) : List (ClickOutcome × ButtonState) :=
  places.filterMap outcome?

theorem step_isTick (button : Button) (step : Step) :
    (button.step step).1.isTick = step.isTick := by
  cases step <;> rfl

theorem Ordered.tail {step : Step} (ordered : Ordered (step :: steps)) : Ordered steps := by
  cases step with
  | click now => exact (List.pairwise_cons.mp ordered).2
  | tick now => exact (List.pairwise_cons.mp ordered).2
  | reset => exact ordered

theorem Open.of_later (isOpen : button.Open later) (order : now.nanoseconds ≤ later.nanoseconds) :
    button.Open now := by
  obtain ⟨deadline, pending, early⟩ := isOpen
  exact ⟨deadline, pending, by omega⟩

theorem not_open_reset (button : Button) (now : Instant) : ¬ button.reset.Open now := by
  intro isOpen
  obtain ⟨deadline, pending, -⟩ := isOpen
  cases pending

theorem tick_tick (button : Button) (order : now.nanoseconds ≤ later.nanoseconds) :
    (button.tick now).tick later = button.tick later := by
  by_cases isOpen : button.Open now
  · rw [tick_of_open isOpen]
  · have stillClosed : ¬ button.Open later := fun isLater => isOpen (isLater.of_later order)
    rw [tick_of_closed isOpen, tick_of_closed stillClosed,
      tick_of_closed (not_open_reset button later), reset, reset]

/-- Two buttons that are the same as soon as one of the times has come, although one of them may
    still wait for a confirmation that the other has given up. -/
structure Alike (times : List Instant) (button other : Button) : Prop where
  timeout : button.timeout = other.timeout
  ticked : ∀ now ∈ times, button.tick now = other.tick now

theorem Alike.refl (times : List Instant) (button : Button) : Alike times button button :=
  ⟨rfl, fun _ _ => rfl⟩

theorem Alike.step {step : Step} (alike : Alike (times (step :: steps)) button other)
    (noTick : step.isTick = false) : other.step step = button.step step := by
  cases step with
  | click now =>
    have same := alike.ticked now (by simp [times, Step.time?])
    simp only [Button.step, Button.click, same]
  | tick now => cases noTick
  | reset => simp only [Button.step, Button.reset, alike.timeout]

theorem Alike.tick {times : List Instant} (alike : Alike (now :: times) button other)
    (order : ∀ later ∈ times, now.nanoseconds ≤ later.nanoseconds) :
    Alike times (button.tick now) other where
  timeout := (step_timeout button (.tick now)).trans alike.timeout
  ticked later member := by
    rw [tick_tick button (order later member)]
    exact alike.ticked later (List.mem_cons_of_mem _ member)

theorem Alike.trace_withoutTicks (alike : Alike (times steps) button other)
    (ordered : Ordered steps) :
    other.trace (withoutTicks steps) =
      (button.trace steps).filter fun place => !place.1.isTick := by
  -- By induction on the steps: a tick keeps the buttons alike for the times behind it, and a click
  -- or a reset makes them the same.
  induction steps generalizing button other with
  | nil => rfl
  | cons step steps ih =>
    cases isTick : step.isTick with
    | true =>
      cases step with
      | click now => cases isTick
      | tick now => exact ih (alike.tick (List.pairwise_cons.mp ordered).1) ordered.tail
      | reset => cases isTick
    | false =>
      have rest := ih (.refl _ (button.step step).2) ordered.tail
      rw [withoutTicks, List.filter_cons_of_pos (by simp [isTick]), trace, trace,
        List.filter_cons_of_pos (by simp [step_isTick, isTick]), alike.step isTick, ← rest,
        withoutTicks]

theorem clicks_filter (places : List (Answer × Button)) :
    clicks (places.filter fun place => !place.1.isTick) = clicks places := by
  rw [clicks, clicks, List.filterMap_filter]
  congr 1
  funext place
  cases answer : place.1 <;> simp [outcome?, answer, Answer.isTick]

/-- While time does not run backwards, clicks do not depend on the ticks around them. Neither the
    outcome of a click nor the state behind it changes where all ticks are left out, or where other
    ticks stand in their place. -/
theorem clicks_without_ticks (button : Button) (ordered : Ordered steps) :
    clicks (button.trace (withoutTicks steps)) = clicks (button.trace steps) ∧
    ∀ more, Ordered more → withoutTicks more = withoutTicks steps →
      clicks (button.trace more) = clicks (button.trace steps) := by
  have dropped {steps : List Step} (ordered : Ordered steps) :
      clicks (button.trace (withoutTicks steps)) = clicks (button.trace steps) := by
    rw [(Alike.refl _ button).trace_withoutTicks ordered, clicks_filter]
  refine ⟨dropped ordered, ?_⟩
  intro more inOrder same
  rw [← dropped inOrder, same, dropped ordered]

theorem clicks_without_ticks_late_click :
    let steps : List Step := [.click ⟨0⟩, .tick ⟨nanosOf 2 0⟩, .click ⟨nanosOf 2 0⟩,
      .tick ⟨nanosOf 2 1⟩, .click ⟨nanosOf 3 0⟩, .click .last]
    let more : List Step := [.click ⟨0⟩, .tick ⟨nanosOf 1 0⟩, .click ⟨nanosOf 2 0⟩,
      .click ⟨nanosOf 3 0⟩, .tick ⟨nanosOf 3 0⟩, .tick .last, .click .last]
    let outcomes := [(.armed, .pending ⟨nanosOf 2 0⟩), (.armed, .pending ⟨nanosOf 4 0⟩),
      (.confirmed, .idle), (.abandoned, .idle)]
    Ordered steps ∧ Ordered more ∧ withoutTicks more = withoutTicks steps ∧
      clicks ((new defaultTimeout).trace steps) = outcomes ∧
      clicks ((new defaultTimeout).trace (withoutTicks steps)) = outcomes ∧
      clicks ((new defaultTimeout).trace more) = outcomes := by
  intro steps more outcomes
  have ordered : Ordered steps := by decide
  have inOrder : Ordered more := by decide
  have same : withoutTicks more = withoutTicks steps := by decide
  have clicked : clicks ((new defaultTimeout).trace steps) = outcomes := by decide
  obtain ⟨dropped, replaced⟩ := clicks_without_ticks (new defaultTimeout) ordered
  exact ⟨ordered, inOrder, same, clicked, dropped.trans clicked,
    (replaced more inOrder same).trans clicked⟩

example : let steps : List Step := [.click ⟨0⟩, .tick ⟨nanosOf 3 0⟩, .click ⟨nanosOf 1 0⟩]
    clicks ((new defaultTimeout).trace steps) ≠
      clicks ((new defaultTimeout).trace (withoutTicks steps)) := by decide

end StatusPage.Button
