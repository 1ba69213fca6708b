import StatusPage.Proofs.Restart.Steps

namespace StatusPage.Button

variable {timeout : Delta} {steps : List Step}

def answer? (timeout : Delta) (steps : List Step) (i : Nat) : Option Answer :=
  ((new timeout).trace steps)[i]?.map fun place => place.1

def state? (timeout : Delta) (steps : List Step) (i : Nat) : Option ButtonState :=
  ((new timeout).trace steps)[i]?.map fun place => place.2.state

/-- Step `j` of a run is a click that armed the button, and nothing between it and step `i` has
    undone that: no click, no reset, and no tick once the deadline had come. -/
structure ArmedSince (timeout : Delta) (steps : List Step) (i j : Nat) (time : Instant) : Prop where
  earlier : j < i
  click : steps[j]? = some (.click time)
  armed : answer? timeout steps j = some (.clicked .armed)
  noClick : ∀ k now, j < k → k < i → steps[k]? ≠ some (.click now)
  noReset : ∀ k, j < k → k < i → steps[k]? ≠ some .reset
  ticks : ∀ k now, j < k → k < i → steps[k]? = some (.tick now) →
    now.nanoseconds < (time.plus timeout).nanoseconds

theorem answer?_of_present {i : Nat} {step : Step} (present : steps[i]? = some step) :
    answer? timeout steps i = some (((new timeout).run (steps.take i)).step step).1 := by
  simp [answer?, trace_getElem?, present]

theorem state?_of_present {i : Nat} {step : Step} (present : steps[i]? = some step) :
    state? timeout steps i = some ((new timeout).run (steps.take (i + 1))).state := by
  simp [state?, trace_getElem?, present, run_take_succ present]

theorem present_of_answer {i : Nat} {answer : Answer}
    (answered : answer? timeout steps i = some answer) :
    ∃ step, steps[i]? = some step ∧
      (((new timeout).run (steps.take i)).step step).1 = answer := by
  cases present : steps[i]? with
  | none => simp [answer?, trace_getElem?, present] at answered
  | some step =>
    rw [answer?_of_present present, Option.some.injEq] at answered
    exact ⟨step, rfl, answered⟩

theorem ArmedSince.lower {i j : Nat} {time : Instant}
    (armed : ArmedSince timeout steps (i + 1) j time) (before : j < i) :
    ArmedSince timeout steps i j time where
  earlier := before
  click := armed.click
  armed := armed.armed
  noClick k now above below := armed.noClick k now above (by omega)
  noReset k above below := armed.noReset k above (by omega)
  ticks k now above below := armed.ticks k now above (by omega)

theorem armedSince_succ {i j : Nat} {step : Step} {time : Instant}
    (present : steps[i]? = some step) :
    ArmedSince timeout steps (i + 1) j time ↔
      (j = i ∧ step = .click time ∧ answer? timeout steps i = some (.clicked .armed)) ∨
      (∃ now, step = .tick now ∧ now.nanoseconds < (time.plus timeout).nanoseconds ∧
        ArmedSince timeout steps i j time) := by
  constructor
  · intro armed
    rcases Nat.lt_succ_iff_lt_or_eq.mp armed.earlier with before | rfl
    · right
      cases step with
      | click now => exact absurd present (armed.noClick i now before (by omega))
      | tick now =>
        exact ⟨now, rfl, armed.ticks i now before (by omega) present, armed.lower before⟩
      | reset => exact absurd present (armed.noReset i before (by omega))
    · left
      have same := armed.click
      rw [present, Option.some.injEq] at same
      exact ⟨rfl, same, armed.armed⟩
  · intro step
    rcases step with ⟨rfl, rfl, answered⟩ | ⟨last, rfl, early, armed⟩
    · refine ⟨by omega, present, answered, ?_, ?_, ?_⟩ <;> intros <;> omega
    · have before := armed.earlier
      refine ⟨by omega, armed.click, armed.armed, ?_, ?_, ?_⟩
      · intro k now above below
        rcases Nat.lt_succ_iff_lt_or_eq.mp below with inside | rfl
        · exact armed.noClick k now above inside
        · simp [present]
      · intro k above below
        rcases Nat.lt_succ_iff_lt_or_eq.mp below with inside | rfl
        · exact armed.noReset k above inside
        · simp [present]
      · intro k now above below tick
        rcases Nat.lt_succ_iff_lt_or_eq.mp below with inside | rfl
        · exact armed.ticks k now above inside tick
        · rw [present, Option.some.injEq, Step.tick.injEq] at tick
          exact tick ▸ early

theorem run_pending_iff (i : Nat) (bound : i ≤ steps.length) (deadline : Instant) :
    ((new timeout).run (steps.take i)).state = .pending deadline ↔
      ∃ j time, ArmedSince timeout steps i j time ∧ deadline = time.plus timeout := by
  -- By induction on the steps taken: a step either arms the button or keeps its deadline, and
  -- the last arming click moves along in the same two cases.
  induction i with
  | zero =>
    constructor
    · intro pending
      simp [run, new] at pending
    · intro found
      obtain ⟨j, time, armed, -⟩ := found
      exact absurd armed.earlier (by omega)
  | succ i ih =>
    have present : steps[i]? = some steps[i] := List.getElem?_eq_getElem (by omega)
    have kept : ((new timeout).run (steps.take i)).timeout = timeout := run_timeout _ _
    rw [run_take_succ present, step_pending_iff, kept, ih (by omega)]
    simp only [armedSince_succ present, answer?_of_present present, Option.some.injEq]
    constructor
    · intro way
      rcases way with ⟨now, click, answered, rfl⟩ | ⟨now, tick, early, j, time, armed, rfl⟩
      · exact ⟨i, now, .inl ⟨rfl, click, answered⟩, rfl⟩
      · exact ⟨j, time, .inr ⟨now, tick, early, armed⟩, rfl⟩
    · intro found
      obtain ⟨j, time, way, rfl⟩ := found
      rcases way with ⟨rfl, click, answered⟩ | ⟨now, tick, early, armed⟩
      · exact .inl ⟨time, click, answered, rfl⟩
      · exact .inr ⟨now, tick, early, j, time, armed, rfl⟩

theorem open_iff (i : Nat) (bound : i ≤ steps.length) (now : Instant) :
    ((new timeout).run (steps.take i)).Open now ↔
      ∃ j time, ArmedSince timeout steps i j time ∧
        now.nanoseconds < (time.plus timeout).nanoseconds := by
  simp only [Open, run_pending_iff i bound]
  grind

theorem state?_pending_iff (i : Nat) (deadline : Instant) :
    state? timeout steps i = some (.pending deadline) ↔
      i < steps.length ∧
      ∃ j time, ArmedSince timeout steps (i + 1) j time ∧ deadline = time.plus timeout := by
  by_cases bound : i < steps.length
  · rw [state?_of_present (List.getElem?_eq_getElem bound), Option.some.injEq,
      run_pending_iff (i + 1) bound]
    simp [bound]
  · simp [state?, trace_getElem?, bound]

theorem answer?_confirmed_iff (i : Nat) :
    answer? timeout steps i = some (.clicked .confirmed) ↔
      ∃ now, steps[i]? = some (.click now) ∧ ∃ j time, ArmedSince timeout steps i j time ∧
        now.nanoseconds < (time.plus timeout).nanoseconds := by
  constructor
  · intro answered
    obtain ⟨step, present, confirmed⟩ := present_of_answer answered
    obtain ⟨now, rfl, isOpen⟩ := (step_confirmed_iff _ _).mp confirmed
    have bound := (List.getElem?_eq_some_iff.mp present).1
    exact ⟨now, present, (open_iff i (by omega) now).mp isOpen⟩
  · intro found
    obtain ⟨now, present, armed⟩ := found
    have bound := (List.getElem?_eq_some_iff.mp present).1
    rw [answer?_of_present present, Option.some.injEq, step_confirmed_iff]
    exact ⟨now, rfl, (open_iff i (by omega) now).mpr armed⟩

theorem answer?_abandoned_iff (i : Nat) :
    answer? timeout steps i = some (.clicked .abandoned) ↔
      ∃ now, steps[i]? = some (.click now) ∧ ¬ (now.plus timeout).inCalendar ∧
        ¬ ∃ j time, ArmedSince timeout steps i j time ∧
          now.nanoseconds < (time.plus timeout).nanoseconds := by
  have kept : ((new timeout).run (steps.take i)).timeout = timeout := run_timeout _ _
  constructor
  · intro answered
    obtain ⟨step, present, abandoned⟩ := present_of_answer answered
    obtain ⟨now, rfl, closed, outside⟩ := (step_abandoned_iff _ _).mp abandoned
    have bound := (List.getElem?_eq_some_iff.mp present).1
    rw [open_iff i (by omega)] at closed
    exact ⟨now, present, kept ▸ outside, closed⟩
  · intro found
    obtain ⟨now, present, outside, closed⟩ := found
    have bound := (List.getElem?_eq_some_iff.mp present).1
    rw [← open_iff i (by omega)] at closed
    rw [answer?_of_present present, Option.some.injEq, step_abandoned_iff, kept]
    exact ⟨now, rfl, closed, outside⟩

theorem ArmedSince.behind_abandoned {i j l : Nat} {time : Instant}
    (armed : ArmedSince timeout steps l j time) (later : i < l)
    (abandoned : answer? timeout steps i = some (.clicked .abandoned)) : i < j := by
  obtain ⟨now, present, -⟩ := (answer?_abandoned_iff i).mp abandoned
  rcases Nat.lt_trichotomy j i with before | rfl | behind
  · exact absurd present (armed.noClick i now before later)
  · simp [armed.armed] at abandoned
  · exact behind

theorem state?_of_abandoned {i : Nat}
    (abandoned : answer? timeout steps i = some (.clicked .abandoned)) :
    state? timeout steps i = some .idle := by
  obtain ⟨step, present, answered⟩ := present_of_answer abandoned
  rw [state?_of_present present, run_take_succ present, step_abandoned_idle answered]

/-- A click confirms exactly when an earlier one holds at its time, and the button is pending
    exactly behind such a click, with its deadline. A click whose deadline would lie outside the
    calendar leaves nothing behind that a later one could confirm. -/
theorem arming_history (timeout : Delta) (steps : List Step) (i : Nat) :
    (answer? timeout steps i = some (.clicked .confirmed) ↔
      ∃ now, steps[i]? = some (.click now) ∧ ∃ j time, ArmedSince timeout steps i j time ∧
        now.nanoseconds < (time.plus timeout).nanoseconds) ∧
    (∀ deadline, state? timeout steps i = some (.pending deadline) ↔
      i < steps.length ∧
      ∃ j time, ArmedSince timeout steps (i + 1) j time ∧ deadline = time.plus timeout) ∧
    (answer? timeout steps i = some (.clicked .abandoned) ↔
      ∃ now, steps[i]? = some (.click now) ∧ ¬ (now.plus timeout).inCalendar ∧
        ¬ ∃ j time, ArmedSince timeout steps i j time ∧
          now.nanoseconds < (time.plus timeout).nanoseconds) ∧
    (answer? timeout steps i = some (.clicked .abandoned) →
      state? timeout steps i = some .idle ∧
      ∀ l j time, i < l → ArmedSince timeout steps l j time → i < j) := by
  refine ⟨answer?_confirmed_iff i, state?_pending_iff i, answer?_abandoned_iff i, ?_⟩
  intro abandoned
  refine ⟨state?_of_abandoned abandoned, ?_⟩
  intro l j time later armed
  exact armed.behind_abandoned later abandoned

theorem arming_history_behind_end_of_calendar :
    let steps : List Step :=
      [.click .last, .click ⟨0⟩, .tick ⟨nanosOf 1 0⟩, .click ⟨nanosOf 1 500000000⟩]
    state? defaultTimeout steps 0 = some .idle ∧
      ∃ j time, ArmedSince defaultTimeout steps 3 j time ∧ 0 < j := by
  intro steps
  have abandoned := (arming_history defaultTimeout steps 0).2.2.2 (by decide)
  obtain ⟨now, -, j, time, armed, -⟩ := (arming_history defaultTimeout steps 3).1.mp (by decide)
  exact ⟨abandoned.1, j, time, armed, abandoned.2 3 j time (by decide) armed⟩

end StatusPage.Button
