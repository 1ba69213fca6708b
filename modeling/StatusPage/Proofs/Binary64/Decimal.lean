import Mathlib
import StatusPage.Proofs.Binary64.Nearest

namespace StatusPage.Binary64

/-- The magnitude nearest to a number with exponents as large as needed, or an infinity when that is
    beyond the finite doubles. -/
def Clamps (exact : ℚ) (x : Binary64) : Prop :=
  ∃ field, NearestField (exact * unitsPerOne) field ∧ x.field = min field infinityField

/-- The double that a number is rounded to. Either sign goes with a zero. -/
structure Rounds (exact : ℚ) (x : Binary64) : Prop where
  clamps : Clamps |exact| x
  negative : exact < 0 → x.negative
  positive : 0 < exact → ¬ x.negative

theorem Clamps.signed {exact : ℚ} {x : Binary64} (clamps : Clamps exact x) (least : 0 ≤ exact) :
    Rounds (signed x.negative exact) x := by
  refine ⟨?_, ?_, ?_⟩
  · rwa [abs_signed least]
  · intro below
    cases sign : x.negative with
    | false =>
      rw [sign] at below
      exact absurd below (not_lt.mpr least)
    | true => rfl
  · intro above sign
    rw [sign] at above
    exact absurd above (not_lt.mpr (neg_nonpos.mpr least))

theorem ofRatio_clamps (negative : Bool) (n : ℕ) {d : ℕ} (pos : 0 < d) :
    Clamps (n / d) (ofRatio negative n d) := by
  refine ⟨nearestField (n * unitsPerOne) d, ?_, rfl⟩
  have nearest := nearestField_nearest (n * unitsPerOne) pos
  rwa [Nat.cast_mul, mul_div_right_comm] at nearest

theorem two_pow_le (power : ℕ) : 2 ^ (3 * power) ≤ Nat.pow 10 power := by
  rw [Nat.pow_mul]
  exact Nat.pow_le_pow_left (by decide) power

theorem units_infinityField : unitsOfField infinityField = 2 ^ (52 + 2046) := by
  have field : infinityField = 2046 * hiddenBit + hiddenBit := by decide
  rewrite [field, unitsOfField_scaled (.inr le_rfl) (by omega), hiddenBit_eq]
  exact (pow_add 2 52 2046).symm

theorem infinityField_le_nearestField {digits power : ℕ} (positive : 0 < digits)
    (enough : 400 ≤ power) :
    infinityField ≤ nearestField (digits * Nat.pow 10 power * unitsPerOne) 1 := by
  have limit : unitsOfField infinityField ≤ digits * Nat.pow 10 power * unitsPerOne := by
    have range : unitsOfField infinityField ≤ 2 ^ (3 * power) * unitsPerOne := by
      rewrite [units_infinityField, unitsPerOne_eq, ← pow_add]
      exact pow_le_pow_right₀ one_le_two (by omega)
    apply range.trans (Nat.mul_le_mul_right _ _)
    exact (two_pow_le power).trans (Nat.le_mul_of_pos_left _ positive)
  apply (NearestField.of_units infinityField).mono (nearestField_nearest _ one_pos)
  rw [Nat.cast_one, div_one]
  exact_mod_cast limit

theorem ofRatio_of_large (negative : Bool) {digits power more : ℕ} (positive : 0 < digits)
    (enough : 400 ≤ power) (order : power ≤ more) :
    Clamps ((digits * Nat.pow 10 more : ℕ) / (1 : ℕ))
      (ofRatio negative (digits * Nat.pow 10 power) 1) := by
  obtain ⟨field, nearest, clamped⟩ :=
    ofRatio_clamps negative (digits * Nat.pow 10 more) one_pos
  refine ⟨field, nearest, ?_⟩
  have same (k : ℕ) : (ofRatio negative k 1).field =
      min (nearestField (k * unitsPerOne) 1) infinityField := rfl
  rw [← clamped, same, same, Nat.min_eq_right (infinityField_le_nearestField positive enough),
    Nat.min_eq_right (infinityField_le_nearestField positive (enough.trans order))]

theorem small_quotient {digits power : ℕ} (enough : digits.log2 + 400 ≤ power) :
    (digits : ℚ) / Nat.pow 10 power * unitsPerOne ≤ 1 / 2 := by
  have bound : 2 * (digits * unitsPerOne) ≤ Nat.pow 10 power := by
    calc 2 * (digits * unitsPerOne) = 2 * digits * unitsPerOne := (Nat.mul_assoc ..).symm
      _ ≤ 2 ^ (digits.log2 + 1 + 1) * unitsPerOne := by
          apply Nat.mul_le_mul_right
          rw [Nat.pow_succ, Nat.mul_comm]
          exact Nat.mul_le_mul_right 2 Nat.lt_log2_self.le
      _ ≤ 2 ^ (3 * power) := by
          rw [unitsPerOne_eq, ← Nat.pow_add]
          exact Nat.pow_le_pow_right two_pos (by omega)
      _ ≤ Nat.pow 10 power := two_pow_le power
  have positive : (0 : ℚ) < Nat.pow 10 power := by exact_mod_cast Nat.pow_pos (by decide)
  have cast : ((2 * (digits * unitsPerOne) : ℕ) : ℚ) ≤ Nat.pow 10 power := by exact_mod_cast bound
  rw [div_mul_eq_mul_div, div_le_div_iff₀ positive two_pos]
  push_cast at cast ⊢
  linarith

theorem ofRatio_of_small (negative : Bool) {digits power more : ℕ}
    (enough : digits.log2 + 400 ≤ power) (order : power ≤ more) :
    Clamps (digits / (Nat.pow 10 more : ℕ)) (ofRatio negative digits (Nat.pow 10 power)) := by
  obtain ⟨field, nearest, clamped⟩ :=
    ofRatio_clamps negative digits (Nat.pow_pos (n := power) (show 0 < 10 by decide))
  have zero := nearest.unique (.of_le_half (small_quotient enough))
  exact ⟨field, zero ▸ .of_le_half (small_quotient (enough.trans order)), clamped⟩

theorem ofDecimal_clamps_ofNat (negative : Bool) (digits power : ℕ) :
    Clamps ((digits * Nat.pow 10 power : ℕ) / (1 : ℕ))
      (ofDecimal negative digits (.ofNat power)) := by
  rw [ofDecimal]
  by_cases small : power ≤ 400
  · rw [Nat.min_eq_left small]
    exact ofRatio_clamps negative _ one_pos
  · by_cases zero : digits = 0
    · simp only [zero, Nat.zero_mul]
      exact ofRatio_clamps negative 0 one_pos
    · exact ofRatio_of_large negative (Nat.pos_of_ne_zero zero) (by omega) (Nat.min_le_left ..)

theorem ofDecimal_clamps_negSucc (negative : Bool) (digits power : ℕ) :
    Clamps (digits / (Nat.pow 10 (power + 1) : ℕ))
      (ofDecimal negative digits (.negSucc power)) := by
  rw [ofDecimal]
  by_cases large : power + 1 ≤ digits.log2 + 400
  · rw [Nat.min_eq_left large]
    exact ofRatio_clamps negative digits (Nat.pow_pos (by decide))
  · rw [Nat.min_eq_right (by omega)]
    exact ofRatio_of_small negative le_rfl (by omega)

theorem negative_ofDecimal (negative : Bool) (digits : ℕ) (power : ℤ) :
    (ofDecimal negative digits power).negative = negative := by
  cases power <;> rfl

theorem ofDecimal_rounds (negative : Bool) (digits : ℕ) (power : ℤ) :
    Rounds (signed negative (digits * 10 ^ power)) (ofDecimal negative digits power) := by
  have clamps : Clamps (digits * 10 ^ power) (ofDecimal negative digits power) := by
    cases power with
    | ofNat power =>
      have clamps := ofDecimal_clamps_ofNat negative digits power
      simpa using clamps
    | negSucc power =>
      have clamps := ofDecimal_clamps_negSucc negative digits power
      rw [zpow_negSucc, ← div_eq_mul_inv]
      simpa using clamps
  have rounds := clamps.signed (by positivity)
  rwa [negative_ofDecimal] at rounds

end StatusPage.Binary64
