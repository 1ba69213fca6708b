import StatusPage.Error
import StatusPage.Restart.Button
import StatusPage.Text.Blank

namespace StatusPage

abbrev Line := Except IoError String

inductive SessionEnd where
  | finished
  | unreadable (reason : IoError)
  | abandoned
deriving DecidableEq

structure Session where
  printed : List String
  ending : SessionEnd
deriving DecidableEq

namespace Session

def after (printed : List String) (session : Session) : Session :=
  { session with printed := printed ++ session.printed }

def say (button : Button) (message : String) : String := "[" ++ button.label ++ "] " ++ message

def greeting (button : Button) : String := say button "Press Enter to click, 'q' to quit"

def isQuit (line : String) : Bool := Text.trim line.toList = ['q']

def notice (button : Button) (now : Instant) : List String :=
  if button.expired now then [say (button.tick now) "Confirmation timed out"] else []

/-- What a click prints, and the button that waits for the next one unless the session is over. A
    time that no clock can show ends the session before anything is done about it. -/
def respond (window : String) (button : Button) (now : Instant) :
    List String × (SessionEnd ⊕ Button) :=
  if ¬ now.isReading then ([], .inl .abandoned)
  else match button.click now with
  | (.armed, next) =>
    (notice button now ++ [say next ("Click again within " ++ window ++ " to restart")], .inr next)
  | (.confirmed, _) =>
    (notice button now ++ ["Restart requested (" ++ Button.target ++ ")"], .inl .finished)
  | (.abandoned, _) => (notice button now, .inl .abandoned)

def step (window : String) (button : Button) (now : Instant) :
    Line → List String × (SessionEnd ⊕ Button)
  | .error reason => ([], .inl (.unreadable reason))
  | .ok line => if isQuit line then ([], .inl .finished) else respond window button now

def run (window : String) (clock : Nat → Instant) (button : Button) :
    Nat → List Line → Session
  | _, [] => ⟨[], .finished⟩
  | reading, line :: lines =>
    match step window button (clock reading) line with
    | (printed, .inl ending) => ⟨printed, ending⟩
    | (printed, .inr next) => (run window clock next (reading + 1) lines).after printed

end Session

end StatusPage
