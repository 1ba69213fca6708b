namespace StatusPage

structure Delta where
  nanoseconds : Int
deriving DecidableEq

/-- A time, in nanoseconds since the first of January 1970. -/
structure Instant where
  nanoseconds : Int
deriving DecidableEq

def nanosOf (seconds : Int) (nanos : Nat) : Int := seconds * 1000000000 + nanos

namespace Instant

def first : Instant := ⟨nanosOf (-8334601228800) 0⟩

def last : Instant := ⟨nanosOf 8210266876799 999999999⟩

def inCalendar (time : Instant) : Bool :=
  first.nanoseconds ≤ time.nanoseconds && time.nanoseconds ≤ last.nanoseconds

/-- Whether a clock can show the time: it runs from 1970 to the last time of the calendar. -/
def isReading (time : Instant) : Bool :=
  0 ≤ time.nanoseconds && time.nanoseconds ≤ last.nanoseconds

def plus (time : Instant) (delta : Delta) : Instant := ⟨time.nanoseconds + delta.nanoseconds⟩

end Instant

end StatusPage
