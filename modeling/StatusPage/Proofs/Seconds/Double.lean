import Mathlib
import StatusPage.Proofs.Seconds.Integer

namespace StatusPage

namespace Binary64

def IsInfinite (x : Binary64) : Prop := x.field = infinityField

def IsNaN (x : Binary64) : Prop := infinityField < x.field

variable {x : Binary64}

theorem magnitude_of_isNaN (nan : x.IsNaN) : x.magnitude = .nan := by
  rw [magnitude, if_neg nan.not_gt, if_neg nan.ne']

end Binary64

namespace Seconds

open Binary64

/-- What a double comes to as a second count: a number that a second count can be is taken, and any
    other double is refused for what it is. -/
inductive ComesTo (x : Binary64) : Except FormatError ℕ → Prop
  | word {n : ℕ} (finite : x.IsFinite) (value : x.value = n) (fits : n < wordLimit) :
      ComesTo x (.ok n)
  | negative {v : ℤ} (finite : x.IsFinite) (value : x.value = v) (negative : v < 0) :
      ComesTo x (.error (.negativeSeconds (max v leastSigned)))
  | fraction (finite : x.IsFinite) (fraction : ∀ v : ℤ, x.value ≠ v) :
      ComesTo x (.error (.notAnInteger x))
  | large (finite : x.IsFinite) (large : wordLimit ≤ x.value) :
      ComesTo x (.error (.outOfRange (x.text ++ " seconds")))
  | infinite (infinite : x.IsInfinite) : ComesTo x (.error (.outOfRange (x.text ++ " seconds")))
  | nan (nan : x.IsNaN) : ComesTo x (.error (.invalidInput "NaN is not a second count"))

variable {x : Binary64} {result : Except FormatError ℕ}

theorem ofBinary64_of_negative_value (finite : x.IsFinite) {v : ℤ} (value : x.value = v)
    (negative : v < 0) : ofBinary64 x = .error (.negativeSeconds (max v leastSigned)) := by
  have sign : x.negative := by
    apply (rounds_value finite).negative
    rw [value]
    exact_mod_cast negative
  have size : -(v.natAbs : ℤ) = v := by omega
  rw [ofBinary64_of_units finite (units_of_value value), if_pos ⟨sign, by omega⟩, size, max_comm]

theorem ofBinary64_of_fraction (finite : x.IsFinite) (fraction : ∀ v : ℤ, x.value ≠ v) :
    ofBinary64 x = .error (.notAnInteger x) := by
  have rest : unitsOfField x.field % unitsPerOne ≠ 0 := by
    intro whole
    have units := (Nat.div_mul_cancel (Nat.dvd_of_mod_eq_zero whole)).symm
    generalize unitsOfField x.field / unitsPerOne = k at units
    apply fraction (if x.negative then -k else k)
    rw [value_of_units units, signed]
    split <;> simp
  rw [ofBinary64, magnitude_of_isFinite finite]
  dsimp only
  rw [if_pos rest]

theorem ComesTo.ofBinary64_eq (comes : ComesTo x result) : ofBinary64 x = result := by
  cases comes with
  | word finite value fits => exact (ofBinary64_ok_iff x _).mpr ⟨fits, finite, value⟩
  | negative finite value negative => exact ofBinary64_of_negative_value finite value negative
  | fraction finite fraction => exact ofBinary64_of_fraction finite fraction
  | large finite large => exact ofBinary64_of_rounds_large (rounds_value finite) finite large
  | infinite infinite => exact ofBinary64_of_infinite infinite
  | nan nan => rw [ofBinary64, magnitude_of_isNaN nan]

theorem exists_comesTo_of_isFinite (finite : x.IsFinite) : ∃ result, ComesTo x result := by
  by_cases whole : ∃ v : ℤ, x.value = v
  · obtain ⟨v, value⟩ := whole
    rcases lt_or_ge v 0 with negative | natural
    · exact ⟨_, .negative finite value negative⟩
    · lift v to ℕ using natural
      rw [Int.cast_natCast] at value
      rcases lt_or_ge v wordLimit with fits | large
      · exact ⟨_, .word finite value fits⟩
      · have least : (wordLimit : ℚ) ≤ x.value := by
          rw [value]
          exact_mod_cast large
        exact ⟨_, .large finite least⟩
  · exact ⟨_, .fraction finite fun v value => whole ⟨v, value⟩⟩

theorem exists_comesTo (x : Binary64) : ∃ result, ComesTo x result := by
  rcases lt_trichotomy x.field infinityField with finite | infinite | nan
  · exact exists_comesTo_of_isFinite finite
  · exact ⟨_, .infinite infinite⟩
  · exact ⟨_, .nan nan⟩

/-- Every double comes to one second count or is refused for one reason, which its exact value
    decides. A zero with a sign is a second count. -/
theorem ofBinary64_eq_iff (x : Binary64) (result : Except FormatError ℕ) :
    ofBinary64 x = result ↔ ComesTo x result := by
  constructor
  · rintro rfl
    obtain ⟨result, comes⟩ := exists_comesTo x
    rwa [comes.ofBinary64_eq]
  · exact ComesTo.ofBinary64_eq

example : ofBinary64 (.ofBits 0xC3E0000000000001) = .error (.negativeSeconds (-2 ^ 63)) := by
  decide +kernel

end Seconds

end StatusPage
