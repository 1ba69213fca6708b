import StatusPage.Span.Basic

namespace StatusPage

inductive TimeUnit where
  | nanosecond
  | microsecond
  | millisecond
  | second
  | minute
  | hour
  | day
  | week
  | month
  | year
deriving DecidableEq

structure Scale where
  seconds : Nat
  nanos : Nat
deriving DecidableEq

namespace TimeUnit

def all : List TimeUnit :=
  [.nanosecond, .microsecond, .millisecond, .second, .minute, .hour, .day, .week, .month, .year]

def names : TimeUnit → List String
  | .nanosecond => ["nanos", "nsec", "ns"]
  | .microsecond => ["usec", "us", "µs"]
  | .millisecond => ["millis", "msec", "ms"]
  | .second => ["seconds", "second", "secs", "sec", "s"]
  | .minute => ["minutes", "minute", "min", "mins", "m"]
  | .hour => ["hours", "hour", "hr", "hrs", "h"]
  | .day => ["days", "day", "d"]
  | .week => ["weeks", "week", "wk", "wks", "w"]
  | .month => ["months", "month", "M"]
  | .year => ["years", "year", "yr", "yrs", "y"]

def ofName? (name : String) : Option TimeUnit :=
  all.find? fun unit => name ∈ unit.names

/-- A month is 30.44 days, a year 365.25 days. -/
def scale : TimeUnit → Scale
  | .nanosecond => ⟨0, 1⟩
  | .microsecond => ⟨0, 1000⟩
  | .millisecond => ⟨0, 1000000⟩
  | .second => ⟨1, 0⟩
  | .minute => ⟨60, 0⟩
  | .hour => ⟨3600, 0⟩
  | .day => ⟨86400, 0⟩
  | .week => ⟨604800, 0⟩
  | .month => ⟨2630016, 0⟩
  | .year => ⟨31557600, 0⟩

/-- What a fraction of a unit is counted in. Seconds and minutes may be split down to the
    nanosecond, longer units down to the second, and a nanosecond not at all. -/
def fractionScale? : TimeUnit → Option Scale
  | .nanosecond => none
  | .second => some ⟨0, 1000000000⟩
  | .minute => some ⟨0, 60000000000⟩
  | unit => some unit.scale

end TimeUnit

end StatusPage
