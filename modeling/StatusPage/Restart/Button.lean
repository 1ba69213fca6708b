import StatusPage.Clock

namespace StatusPage

inductive ButtonState where
  | idle
  | pending (deadline : Instant)
deriving DecidableEq

inductive ClickOutcome where
  | armed
  | confirmed
  /-- The deadline would lie outside the calendar. -/
  | abandoned
deriving DecidableEq

structure Button where
  timeout : Delta
  state : ButtonState
deriving DecidableEq

namespace Button

def new (timeout : Delta) : Button := ⟨timeout, .idle⟩

def defaultTimeout : Delta := ⟨nanosOf 2 0⟩

def target : String := "/restart"

def label (button : Button) : String :=
  match button.state with
  | .idle => "Restart..."
  | .pending _ => "Confirm"

def expired (button : Button) (now : Instant) : Bool :=
  match button.state with
  | .idle => false
  | .pending deadline => deadline.nanoseconds ≤ now.nanoseconds

def reset (button : Button) : Button := { button with state := .idle }

def tick (button : Button) (now : Instant) : Button :=
  if button.expired now then button.reset else button

/-- The first click sets a deadline, the second before the deadline confirms. -/
def click (button : Button) (now : Instant) : ClickOutcome × Button :=
  let button := button.tick now
  match button.state with
  | .pending _ => (.confirmed, button.reset)
  | .idle =>
    let deadline := now.plus button.timeout
    if deadline.inCalendar then (.armed, { button with state := .pending deadline })
    else (.abandoned, button)

inductive Step where
  | click (now : Instant)
  | tick (now : Instant)
  | reset
deriving DecidableEq

inductive Answer where
  | clicked (outcome : ClickOutcome)
  | ticked (expired : Bool)
  | wasReset
deriving DecidableEq

def step (button : Button) : Step → Answer × Button
  | .click now => let (outcome, next) := button.click now; (.clicked outcome, next)
  | .tick now => (.ticked (button.expired now), button.tick now)
  | .reset => (.wasReset, button.reset)

def trace (button : Button) : List Step → List (Answer × Button)
  | [] => []
  | step :: steps => button.step step :: trace (button.step step).2 steps

end Button

end StatusPage
