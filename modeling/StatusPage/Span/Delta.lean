import StatusPage.Clock
import StatusPage.Span.Basic

namespace StatusPage.Delta

/-- The longest difference, of `2 ^ 63 - 1` milliseconds. -/
def limit : Nat := 0x7FFFFFFFFFFFFFFF * 1000000

def ofSpan? (span : Span) : Option Delta :=
  if span.nanoseconds ≤ limit then some ⟨span.nanoseconds⟩ else none

def toSpan? (delta : Delta) : Option Span :=
  if fits : 0 ≤ delta.nanoseconds ∧ delta.nanoseconds.toNat < wordLimit * nanosPerSecond then
    some ⟨delta.nanoseconds.toNat, fits.2⟩
  else none

end StatusPage.Delta
