import StatusPage.Word

namespace StatusPage

structure Uptime where
  days : Nat
  hours : Nat
  minutes : Nat
  seconds : Nat
deriving DecidableEq

def maxSeconds : Nat := wordLimit - 1

def saturatingAdd (m n : Nat) : Nat := min maxSeconds (m + n)

def wrappingMul (m n : Nat) : Nat := m * n % wordLimit

namespace Uptime

def ofSeconds (total : Nat) : Uptime where
  days := total / 60 / 60 / 24
  hours := total / 60 / 60 % 24
  minutes := total / 60 % 60
  seconds := total % 60

/-- The second count of all parts together, at most the largest one. The hours and the minutes are
    counted in seconds modulo `2 ^ 64`; where overflow is checked, such a count is abandoned. -/
def total (u : Uptime) : Nat :=
  [wrappingMul u.hours 3600, wrappingMul u.minutes 60, u.seconds].foldl saturatingAdd
    (min maxSeconds (u.days * 86400))

def isZero (u : Uptime) : Bool :=
  u.days = 0 && u.hours = 0 && u.minutes = 0 && u.seconds = 0

def separator : String := ", "

def part (count : Nat) (unit after : String) : String :=
  if count = 0 then "" else toString count ++ " " ++ unit ++ after

/-- Every part but the seconds carries its separator, also when nothing follows. -/
def text (u : Uptime) : String :=
  if u.isZero then "0 seconds"
  else part u.days "days" separator ++ part u.hours "hours" separator ++
    part u.minutes "minutes" separator ++ part u.seconds "seconds" ""

inductive Style where
  | faithful
  | trimmed
deriving DecidableEq

def Style.name : Style → String
  | .faithful => "faithful"
  | .trimmed => "trimmed"

def Style.all : List Style := [.faithful, .trimmed]

def Style.ofName? (name : String) : Option Style :=
  Style.all.find? fun style => style.name = name

def dropSeparator (text : String) : String :=
  match text.toList.reverse with
  | ' ' :: ',' :: rest => String.ofList rest.reverse
  | _ => text

def format (style : Style) (total : Nat) : String :=
  match style with
  | .faithful => (ofSeconds total).text
  | .trimmed => dropSeparator (ofSeconds total).text

end Uptime

end StatusPage
