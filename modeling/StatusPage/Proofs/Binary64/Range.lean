import Mathlib
import StatusPage.Proofs.Binary64.Whole

namespace StatusPage.Binary64

/-- Half a place behind the largest finite double. From there on numbers are rounded to an
    infinity. -/
def overflowBound : ℤ := 2 ^ 1024 - 2 ^ 970

theorem overflowBound_eq : overflowBound = (2 ^ 54 - 1) * 2 ^ 970 := by
  rw [overflowBound, sub_mul, ← pow_add, one_mul]

theorem two_pow_le_overflowBound {power : ℕ} (small : power ≤ 970) :
    2 ^ power ≤ overflowBound := by
  have half : (2 : ℤ) ^ power ≤ 2 ^ 970 := pow_le_pow_right₀ one_le_two small
  have positive : (0 : ℤ) < 2 ^ power := by positivity
  rw [overflowBound_eq]
  generalize (2 : ℤ) ^ 970 = last at half ⊢
  omega

def halfPlace : ℕ := 2 ^ 970 * unitsPerOne

theorem halfPlace_eq : halfPlace = 2 ^ 2044 := by
  rw [halfPlace, unitsPerOne_eq, ← pow_add]

theorem overflowBound_units : (overflowBound : ℚ) * unitsPerOne = (2 ^ 54 - 1) * halfPlace := by
  have bound : (overflowBound : ℚ) = (2 ^ 54 - 1) * 2 ^ 970 := by
    rw [overflowBound_eq, Int.cast_mul, Int.cast_pow, Int.cast_ofNat]
    norm_num only
  rw [bound, halfPlace, Nat.cast_mul, Nat.cast_pow, Nat.cast_ofNat, mul_assoc]

theorem units_before_infinityField :
    unitsOfField (infinityField - 1) = (2 ^ 54 - 2) * halfPlace := by
  have field : infinityField - 1 = (1 + 2044) * hiddenBit + (2 ^ 53 - 1) := by decide
  have normal : hiddenBit ≤ 2 ^ 53 - 1 := by decide
  have doubled : (2 ^ 53 - 1) * 2 = 2 ^ 54 - 2 := by decide
  rw [field, unitsOfField_scaled (.inr normal) (by decide), pow_add, pow_one, ← Nat.mul_assoc,
    doubled, halfPlace_eq]

theorem units_infinityField_eq : unitsOfField infinityField = 2 ^ 54 * halfPlace := by
  rw [units_infinityField, halfPlace_eq, ← pow_add]

theorem units_around_infinityField :
    ((unitsOfField (infinityField - 1) : ℕ) : ℚ) + unitsOfField infinityField =
      2 * (overflowBound * unitsPerOne) := by
  have below : ((2 ^ 54 - 2 : ℕ) : ℚ) = 2 ^ 54 - 2 := by norm_num
  rw [units_before_infinityField, units_infinityField_eq, overflowBound_units, Nat.cast_mul, below]
  push_cast
  ring

namespace NearestField

variable {exact : ℚ} {field : ℕ}

theorem lt_infinityField_iff (nearest : NearestField exact field) :
    field < infinityField ↔ exact < overflowBound * unitsPerOne := by
  have middle := units_around_infinityField
  have step : infinityField - 1 < infinityField := by decide
  constructor
  · intro finite
    by_contra large
    have order := unitsOfField_strictMono.monotone (show field ≤ infinityField - 1 by omega)
    have least : ((unitsOfField field : ℕ) : ℚ) ≤ unitsOfField (infinityField - 1) := by
      exact_mod_cast order
    have nearer := (upper_nearer_iff (units_lt finite)).mpr (by linarith)
    have even := nearest.even infinityField finite.ne' (le_antisymm (nearest.le _) nearer)
    have odd : (infinityField - 1) % 2 = 1 := by decide
    have below : field < infinityField - 1 := by
      rcases Nat.lt_or_eq_of_le (show field ≤ infinityField - 1 by omega) with less | same
      · exact less
      · rw [same, odd] at even
        exact absurd even one_ne_zero
    have strict := (lower_nearer_iff (units_lt finite)).mp (nearest.le infinityField)
    linarith [units_lt below]
  · intro small
    by_contra large
    have order := unitsOfField_strictMono.monotone (Nat.not_lt.mp large)
    have least : ((unitsOfField infinityField : ℕ) : ℚ) ≤ unitsOfField field := by
      exact_mod_cast order
    have apart := units_lt (step.trans_le (Nat.not_lt.mp large))
    have nearer := (upper_nearer_iff apart).mp (nearest.le (infinityField - 1))
    linarith

end NearestField

theorem dvd_unitsOfField_of_large {field : ℕ} (large : 2 ^ 53 * unitsPerOne ≤ unitsOfField field) :
    unitsPerOne ∣ unitsOfField field := by
  obtain ⟨shift, significand, rfl, normal, most⟩ := exists_scaled field
  rw [unitsOfField_scaled normal most.le] at large ⊢
  have places : 1074 ≤ shift := by
    by_contra few
    have place : 2 ^ shift ≤ unitsPerOne := by
      rw [unitsPerOne_eq]
      exact pow_le_pow_right₀ one_le_two (by omega)
    have below : significand * 2 ^ shift < 2 ^ 53 * unitsPerOne :=
      Nat.mul_lt_mul_of_lt_of_le most place unitsPerOne_pos
    exact absurd large (Nat.not_le.mpr below)
  rw [unitsPerOne_eq]
  exact (pow_dvd_pow 2 places).mul_left significand

namespace Rounds

variable {exact : ℚ} {x : Binary64}

theorem isFinite_iff (rounds : Rounds exact x) : x.IsFinite ↔ |exact| < overflowBound := by
  obtain ⟨field, nearest, clamped⟩ := rounds.clamps
  have range := nearest.lt_infinityField_iff
  rw [mul_lt_mul_iff_of_pos_right cast_unitsPerOne_pos] at range
  rw [← range, IsFinite, clamped, min_lt_iff]
  simp

theorem field_of_not_isFinite (rounds : Rounds exact x) (infinite : ¬ x.IsFinite) :
    x.field = infinityField := by
  obtain ⟨field, nearest, clamped⟩ := rounds.clamps
  rw [IsFinite] at infinite
  omega

theorem exists_whole_of_large (rounds : Rounds exact x) (finite : x.IsFinite) {power : ℕ}
    (large : 53 ≤ power) (least : 2 ^ power ≤ |exact|) :
    ∃ k, 2 ^ power ≤ k ∧ unitsOfField x.field = k * unitsPerOne := by
  obtain ⟨field, units⟩ := exists_field_two_pow power
  have kept : ((2 ^ power : ℕ) : ℚ) ≤ |x.value| :=
    rounds.le_abs_value finite ⟨field, units⟩ (by exact_mod_cast least)
  rw [abs_value, le_div_iff₀ cast_unitsPerOne_pos] at kept
  have size : 2 ^ power * unitsPerOne ≤ unitsOfField x.field := by exact_mod_cast kept
  have bound : 2 ^ 53 * unitsPerOne ≤ unitsOfField x.field :=
    (Nat.mul_le_mul_right _ (Nat.pow_le_pow_right two_pos large)).trans size
  obtain ⟨k, whole⟩ := dvd_unitsOfField_of_large bound
  rw [Nat.mul_comm] at whole
  refine ⟨k, ?_, whole⟩
  rw [whole] at size
  exact Nat.le_of_mul_le_mul_right size unitsPerOne_pos

end Rounds

end StatusPage.Binary64
