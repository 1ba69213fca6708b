import StatusPage.Binary64.Basic

namespace StatusPage

/-- The integer nearest to `n / d`; a half goes to the even neighbour. -/
def roundDiv (n d : Nat) : Nat :=
  if d < 2 * (n % d) ∨ (2 * (n % d) = d ∧ n / d % 2 = 1) then n / d + 1 else n / d

namespace Binary64

/-- The field of the double nearest to `units / d` units. Doubles keep 53 bits, so the quotient is
    rounded with all bits below the leading 53 cut off; a carry out of them moves the field on to
    the next power of two. -/
def nearestField (units d : Nat) : Nat :=
  let shift := (units / d).log2 - 52
  shift * hiddenBit + roundDiv units (d <<< shift)

def ofRatio (negative : Bool) (n d : Nat) : Binary64 :=
  ⟨negative, min (nearestField (n * unitsPerOne) d) infinityField,
    Nat.lt_of_le_of_lt (Nat.min_le_right ..) (by decide)⟩

/-- The double nearest to `digits * 10 ^ exponent`. Beyond the two bounds on the power the value
    is infinite or zero whatever the digits are. -/
def ofDecimal (negative : Bool) (digits : Nat) : Int → Binary64
  | .ofNat power => ofRatio negative (digits * Nat.pow 10 (min power 400)) 1
  | .negSucc power => ofRatio negative digits (Nat.pow 10 (min (power + 1) (digits.log2 + 400)))

def sumOf (x y : Binary64) : Binary64 :=
  ofRatio false (unitsOfField x.field + unitsOfField y.field) unitsPerOne

def productOf (x y : Binary64) : Binary64 :=
  ofRatio false (unitsOfField x.field * unitsOfField y.field) (unitsPerOne * unitsPerOne)

end Binary64

end StatusPage
