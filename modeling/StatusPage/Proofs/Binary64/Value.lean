import Mathlib
import StatusPage.Binary64.Rounding

namespace StatusPage

namespace Binary64

def IsFinite (x : Binary64) : Prop := x.field < infinityField

instance (x : Binary64) : Decidable x.IsFinite := inferInstanceAs (Decidable (_ < _))

def signed (negative : Bool) (exact : ℚ) : ℚ := if negative then -exact else exact

def value (x : Binary64) : ℚ := signed x.negative (unitsOfField x.field / unitsPerOne)

theorem magnitude_of_isFinite {x : Binary64} (finite : x.IsFinite) :
    x.magnitude = .finite (unitsOfField x.field) := if_pos finite

theorem abs_signed {negative : Bool} {exact : ℚ} (least : 0 ≤ exact) :
    |signed negative exact| = exact := by
  cases negative
  · exact abs_of_nonneg least
  · exact (abs_neg exact).trans (abs_of_nonneg least)

theorem abs_value (x : Binary64) : |x.value| = unitsOfField x.field / unitsPerOne :=
  abs_signed (by positivity)

end Binary64

/-- An integer at most a half away; of two it is the even one. -/
structure NearestNat (exact : ℚ) (n : ℕ) : Prop where
  near : |exact - n| ≤ 1 / 2
  even : |exact - n| = 1 / 2 → n % 2 = 0

theorem NearestNat.of_remainder {whole : ℕ} {rest : ℚ} (below : rest ≤ 1 / 2) (least : 0 ≤ rest)
    (even : rest = 1 / 2 → whole % 2 = 0) : NearestNat (whole + rest) whole := by
  have distance : |(whole : ℚ) + rest - whole| = rest := by
    rw [add_sub_cancel_left, abs_of_nonneg least]
  constructor
  · rwa [distance]
  · rwa [distance]

theorem NearestNat.of_complement {whole : ℕ} {rest : ℚ} (above : 1 / 2 ≤ rest) (most : rest ≤ 1)
    (odd : rest = 1 / 2 → whole % 2 = 1) : NearestNat (whole + rest) (whole + 1) := by
  have distance : |(whole : ℚ) + rest - (whole + 1 : ℕ)| = 1 - rest := by
    rw [abs_sub_comm, abs_of_nonneg]
    all_goals
      push_cast
      linarith
  constructor
  · rw [distance]
    linarith
  · rw [distance]
    intro half
    have parity := odd (by linarith)
    omega

theorem le_roundDiv (n d : ℕ) : n / d ≤ roundDiv n d ∧ roundDiv n d ≤ n / d + 1 := by
  rw [roundDiv]
  split <;> omega

theorem roundDiv_nearest (n : ℕ) {d : ℕ} (pos : 0 < d) : NearestNat (n / d) (roundDiv n d) := by
  have positive : (0 : ℚ) < d := by exact_mod_cast pos
  have split : (n : ℚ) / d = (n / d : ℕ) + (n % d : ℕ) / d := by
    rw [div_eq_iff positive.ne', add_mul, div_mul_cancel₀ _ positive.ne']
    exact_mod_cast (Nat.div_add_mod' n d).symm
  have least : (0 : ℚ) ≤ (n % d : ℕ) / d := by positivity
  have most : ((n % d : ℕ) : ℚ) / d ≤ 1 := by
    rw [div_le_one positive]
    exact_mod_cast (Nat.mod_lt n pos).le
  have half : ((n % d : ℕ) : ℚ) / d = 1 / 2 ↔ 2 * (n % d) = d := by
    rw [div_eq_div_iff positive.ne' two_ne_zero]
    norm_cast
    omega
  have below : ((n % d : ℕ) : ℚ) / d ≤ 1 / 2 ↔ 2 * (n % d) ≤ d := by
    rw [div_le_div_iff₀ positive two_pos]
    norm_cast
    omega
  rw [split, roundDiv]
  split_ifs with up
  · apply NearestNat.of_complement _ most
    · rw [half]
      omega
    · by_contra smaller
      have lower := below.mp (le_of_not_ge smaller)
      have other := half.not.mp (by linarith)
      omega
  · apply NearestNat.of_remainder _ least
    · rw [half]
      omega
    · rw [below]
      omega

theorem one_le_abs_sub {n k : ℕ} (different : k ≠ n) : (1 : ℚ) ≤ |(k : ℚ) - n| := by
  have apart : 1 ≤ |(k : ℤ) - n| := Int.one_le_abs (by omega)
  exact_mod_cast apart

namespace NearestNat

variable {exact : ℚ} {n : ℕ}

theorem far (nearest : NearestNat exact n) {k : ℕ} (different : k ≠ n) :
    1 / 2 ≤ |exact - k| := by
  have apart := one_le_abs_sub different
  have path := abs_sub_le (k : ℚ) exact n
  have near := nearest.near
  rw [abs_sub_comm (k : ℚ) exact] at path
  linarith

theorem le (nearest : NearestNat exact n) (k : ℕ) : |exact - n| ≤ |exact - k| := by
  by_cases same : k = n
  · rw [same]
  · exact nearest.near.trans (nearest.far same)

theorem even_of_tie (nearest : NearestNat exact n) {k : ℕ} (different : k ≠ n)
    (tie : |exact - n| = |exact - k|) : n % 2 = 0 :=
  nearest.even (le_antisymm nearest.near (tie ▸ nearest.far different))

theorem unique (nearest : NearestNat exact n) {m : ℕ} (other : NearestNat exact m) : n = m := by
  by_contra different
  have tie := le_antisymm (nearest.le m) (other.le n)
  have first := nearest.even_of_tie (Ne.symm different) tie
  have second := other.even_of_tie different tie.symm
  have path := abs_sub_le (n : ℚ) exact m
  rw [abs_sub_comm (n : ℚ) exact] at path
  have apart : |(n : ℤ) - m| ≤ 1 := by
    have close : |(n : ℚ) - m| ≤ 1 := by linarith [nearest.near, other.near]
    exact_mod_cast close
  rw [abs_le] at apart
  omega

end NearestNat

end StatusPage
