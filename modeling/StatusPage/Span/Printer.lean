import StatusPage.Span.Basic

namespace StatusPage.Span

def plural (name : String) (count : Nat) : String :=
  toString count ++ name ++ if 1 < count then "s" else ""

def short (name : String) (count : Nat) : String := toString count ++ name

def breakdown (span : Span) : List ((Nat → String) × Nat) :=
  let rest := span.seconds % 31557600 % 2630016
  let nanos := span.subsecond
  [(plural "year", span.seconds / 31557600), (plural "month", span.seconds % 31557600 / 2630016),
    (plural "day", rest / 86400), (short "h", rest % 86400 / 3600),
    (short "m", rest % 86400 % 3600 / 60), (short "s", rest % 86400 % 60),
    (short "ms", nanos / 1000000), (short "us", nanos / 1000 % 1000), (short "ns", nanos % 1000)]

def text (span : Span) : String :=
  if span = zero then "0s"
  else " ".intercalate <|
    span.breakdown.filterMap fun (write, count) => if count = 0 then none else some (write count)

end StatusPage.Span
