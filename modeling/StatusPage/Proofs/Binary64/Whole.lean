import Mathlib
import StatusPage.Proofs.Binary64.Decimal

namespace StatusPage.Binary64

theorem value_of_units {x : Binary64} {k : ℕ} (units : unitsOfField x.field = k * unitsPerOne) :
    x.value = signed x.negative k := by
  rw [value, units, Nat.cast_mul, mul_div_cancel_right₀ _ cast_unitsPerOne_pos.ne']

theorem units_of_abs_value {x : Binary64} {n : ℕ} (whole : |x.value| = n) :
    unitsOfField x.field = n * unitsPerOne := by
  rw [abs_value, div_eq_iff cast_unitsPerOne_pos.ne'] at whole
  exact_mod_cast whole

theorem units_of_value {x : Binary64} {v : ℤ} (whole : x.value = v) :
    unitsOfField x.field = v.natAbs * unitsPerOne := by
  apply units_of_abs_value
  rw [whole, Nat.cast_natAbs, Int.cast_abs]

theorem signed_abs_value (x : Binary64) : signed x.negative |x.value| = x.value := by
  rw [abs_value, value]

theorem rounds_value {x : Binary64} (finite : x.IsFinite) : Rounds x.value x := by
  have clamps : Clamps |x.value| x := by
    refine ⟨x.field, ?_, (Nat.min_eq_left finite.le).symm⟩
    rw [abs_value, div_mul_cancel₀ _ cast_unitsPerOne_pos.ne']
    exact NearestField.of_units x.field
  have rounds := clamps.signed (abs_nonneg x.value)
  rwa [signed_abs_value] at rounds

theorem signed_eq_natCast_iff {negative : Bool} {k n : ℕ} :
    signed negative (k : ℚ) = n ↔ k = n ∧ (negative → k = 0) := by
  cases negative with
  | false => simp [signed]
  | true =>
    simp only [signed, ↓reduceIte, forall_const]
    constructor
    · intro same
      have sum : k + n = 0 := by
        have : (k : ℚ) + n = 0 := by linarith
        exact_mod_cast this
      omega
    · rintro ⟨rfl, rfl⟩
      simp

theorem exists_unitsOfField {significand shift : ℕ} (fits : significand < 2 ^ 53)
    (place : 52 ≤ shift) : ∃ field, unitsOfField field = significand * 2 ^ shift := by
  by_cases zero : significand = 0
  · exact ⟨0, by rw [zero, Nat.zero_mul]; decide⟩
  · have log : significand.log2 < 53 := (Nat.log2_lt zero).mpr fits
    have least : hiddenBit ≤ significand * 2 ^ (52 - significand.log2) := by
      calc hiddenBit = 2 ^ significand.log2 * 2 ^ (52 - significand.log2) := by
            rw [hiddenBit_eq, ← Nat.pow_add, Nat.add_sub_cancel' (by omega)]
        _ ≤ _ := Nat.mul_le_mul_right _ (Nat.log2_self_le zero)
    have most : significand * 2 ^ (52 - significand.log2) ≤ 2 * hiddenBit := by
      calc significand * 2 ^ (52 - significand.log2)
          ≤ 2 ^ (significand.log2 + 1) * 2 ^ (52 - significand.log2) :=
            Nat.mul_le_mul_right _ Nat.lt_log2_self.le
        _ = 2 * hiddenBit := by
            rw [hiddenBit_eq, ← Nat.pow_add, ← Nat.pow_succ']
            congr 1
            omega
    refine ⟨(shift - (52 - significand.log2)) * hiddenBit +
      significand * 2 ^ (52 - significand.log2), ?_⟩
    rw [unitsOfField_scaled (.inr least) most, Nat.mul_assoc, ← Nat.pow_add,
      Nat.add_sub_cancel' (by omega)]

theorem exists_field_of_lt {n : ℕ} (small : n < 2 ^ 53) :
    ∃ field < infinityField, unitsOfField field = n * unitsPerOne := by
  obtain ⟨field, units⟩ := exists_unitsOfField small (show 52 ≤ 1074 by decide)
  rw [← unitsPerOne_eq] at units
  refine ⟨field, ?_, units⟩
  rw [← unitsOfField_strictMono.lt_iff_lt, units, units_infinityField]
  calc n * unitsPerOne < 2 ^ 53 * unitsPerOne := Nat.mul_lt_mul_of_pos_right small unitsPerOne_pos
    _ = 2 ^ (53 + 1074) := by rw [unitsPerOne_eq, ← pow_add]
    _ ≤ 2 ^ (52 + 2046) := pow_le_pow_right₀ one_le_two (by decide)

theorem exists_field_two_pow (power : ℕ) :
    ∃ field, unitsOfField field = 2 ^ power * unitsPerOne := by
  obtain ⟨field, units⟩ :=
    exists_unitsOfField (show 1 < 2 ^ 53 by decide) (show 52 ≤ power + 1074 by omega)
  refine ⟨field, ?_⟩
  rw [units, Nat.one_mul, unitsPerOne_eq, ← pow_add]

namespace Rounds

variable {exact : ℚ} {x : Binary64}

theorem signed_abs (rounds : Rounds exact x) : signed x.negative |exact| = exact := by
  rcases lt_trichotomy exact 0 with below | zero | above
  · rw [rounds.negative below, abs_of_neg below, signed, if_pos rfl, neg_neg]
  · simp [zero, signed]
  · rw [signed, if_neg (rounds.positive above), abs_of_pos above]

theorem eq_of_abs (rounds : Rounds exact x) (same : |exact| = |x.value|) : exact = x.value := by
  rw [← rounds.signed_abs, same, x.signed_abs_value]

theorem unique (rounds : Rounds exact x) {y : Binary64} (others : Rounds exact y) :
    x.field = y.field ∧ x.value = y.value := by
  obtain ⟨field, nearest, clamped⟩ := rounds.clamps
  obtain ⟨other, rival, limited⟩ := others.clamps
  have same : x.field = y.field := by
    rw [clamped, limited, nearest.unique rival]
  refine ⟨same, ?_⟩
  have size : |x.value| = |y.value| := by rw [abs_value, abs_value, same]
  rcases lt_trichotomy exact 0 with below | zero | above
  · rw [← x.signed_abs_value, ← y.signed_abs_value, size, rounds.negative below,
      others.negative below]
  · have none : field = 0 := nearest.unique (.of_le_half (by simp [zero]))
    have units : unitsOfField x.field = 0 * unitsPerOne := by
      rw [clamped, none, Nat.zero_min, Nat.zero_mul]
      decide
    rw [value_of_units units, value_of_units (same ▸ units)]
    simp [signed]
  · have positive : x.negative = y.negative := by
      rw [eq_false_of_ne_true (rounds.positive above), eq_false_of_ne_true (others.positive above)]
    rw [← x.signed_abs_value, ← y.signed_abs_value, size, positive]

theorem nearest (rounds : Rounds exact x) (finite : x.IsFinite) :
    NearestField (|exact| * unitsPerOne) x.field := by
  obtain ⟨field, nearest, clamped⟩ := rounds.clamps
  have below : x.field < infinityField := finite
  have kept : x.field = field := by omega
  rwa [kept]

theorem le_abs_value (rounds : Rounds exact x) (finite : x.IsFinite) {k : ℕ}
    (double : ∃ field, unitsOfField field = k * unitsPerOne) (least : k ≤ |exact|) :
    k ≤ |x.value| := by
  obtain ⟨lower, units⟩ := double
  have order : lower ≤ x.field := by
    apply (NearestField.of_units lower).mono (rounds.nearest finite)
    rw [units, Nat.cast_mul]
    exact mul_le_mul_of_nonneg_right least cast_unitsPerOne_pos.le
  rw [abs_value, le_div_iff₀ cast_unitsPerOne_pos, ← Nat.cast_mul, ← units]
  exact_mod_cast unitsOfField_strictMono.monotone order

theorem value_of_natCast (rounds : Rounds exact x) {k : ℕ} (small : k < 2 ^ 53)
    (whole : |exact| = k) : x.IsFinite ∧ x.value = exact := by
  obtain ⟨field, nearest, clamped⟩ := rounds.clamps
  obtain ⟨other, finite, units⟩ := exists_field_of_lt small
  have same : field = other := by
    rw [whole, ← Nat.cast_mul, ← units] at nearest
    exact nearest.unique (.of_units other)
  have kept : x.field = other := by omega
  constructor
  · rwa [IsFinite, kept]
  · rw [← kept] at units
    rw [value_of_units units, ← whole, rounds.signed_abs]

end Rounds

/-- The natural number that the double nearest to a number stands for. -/
def RoundsTo (exact : ℚ) (n : ℕ) : Prop := ∃ x, Rounds exact x ∧ x.IsFinite ∧ x.value = n

namespace RoundsTo

variable {exact : ℚ} {n : ℕ}

theorem two_pow_le (rounds : RoundsTo exact n) {power : ℕ} (least : 2 ^ power ≤ |exact|) :
    2 ^ power ≤ n := by
  obtain ⟨x, rounds, finite, whole⟩ := rounds
  obtain ⟨field, units⟩ := exists_field_two_pow power
  have kept : ((2 ^ power : ℕ) : ℚ) ≤ |x.value| :=
    rounds.le_abs_value finite ⟨field, units⟩ (by exact_mod_cast least)
  rw [whole, Nat.abs_cast] at kept
  exact_mod_cast kept

theorem eq_zero (rounds : RoundsTo exact n) (below : exact < 0) : n = 0 := by
  obtain ⟨x, rounds, finite, whole⟩ := rounds
  have most : x.value ≤ 0 := by
    rw [← x.signed_abs_value, rounds.negative below]
    exact neg_nonpos.mpr (abs_nonneg _)
  rw [whole] at most
  exact Nat.le_zero.mp (by exact_mod_cast most)

end RoundsTo

namespace Rounds

variable {exact : ℚ} {x : Binary64}

theorem roundsTo_iff (rounds : Rounds exact x) {n : ℕ} :
    RoundsTo exact n ↔ x.IsFinite ∧ x.value = n := by
  constructor
  · rintro ⟨y, others, finite, whole⟩
    obtain ⟨field, value⟩ := rounds.unique others
    rw [IsFinite, field, value]
    exact ⟨finite, whole⟩
  · rintro ⟨finite, whole⟩
    exact ⟨x, rounds, finite, whole⟩

/-- A finite double is half a unit or one part in `2 ^ 53` away from what it stands for. -/
theorem error (rounds : Rounds exact x) (finite : x.IsFinite) :
    |(|exact| - |x.value|)| * unitsPerOne ≤ 1 / 2 ∨
      2 ^ 53 * |(|exact| - |x.value|)| ≤ |exact| := by
  have nearest := rounds.nearest finite
  have some := cast_unitsPerOne_pos
  have quotient : |exact| * unitsPerOne = (exact.num.natAbs * unitsPerOne : ℕ) / exact.den := by
    rw [Rat.abs_def, Rat.divInt_eq_div, Int.cast_natCast, Int.cast_natCast, Nat.cast_mul,
      mul_div_right_comm]
  rw [quotient] at nearest
  have error := nearestField_error (exact.num.natAbs * unitsPerOne) exact.den_pos
  rw [← nearest.unique (nearestField_nearest _ exact.den_pos), ← quotient] at error
  have units : |x.value| * unitsPerOne = unitsOfField x.field := by
    rw [abs_value, div_mul_cancel₀ _ some.ne']
  rw [← units, ← sub_mul, abs_mul, abs_of_pos some, ← mul_assoc] at error
  exact error.imp_right fun relative => le_of_mul_le_mul_right relative some

theorem error_of_whole (rounds : Rounds exact x) (finite : x.IsFinite) {n : ℕ}
    (least : exact ≠ 0 → 1 ≤ |exact| * unitsPerOne) (whole : |x.value| = n) :
    2 ^ 53 * |(|exact| - n)| ≤ |exact| := by
  have error := rounds.error finite
  rw [whole] at error
  rcases error with near | relative
  · by_cases zero : n = 0
    · by_cases vanishes : exact = 0
      · simp [zero, vanishes]
      · have one := least vanishes
        rw [zero, Nat.cast_zero, sub_zero, abs_abs] at near
        linarith
    · have some : (2 ^ 53 : ℚ) ≤ unitsPerOne := by
        have bound : 2 ^ 53 ≤ unitsPerOne := by
          rw [unitsPerOne_eq]
          exact pow_le_pow_right₀ one_le_two (by decide)
        exact_mod_cast bound
      have one : (1 : ℚ) ≤ n := by exact_mod_cast Nat.pos_of_ne_zero zero
      have path : (n : ℚ) - |exact| ≤ |(|exact| - n)| := by
        rw [abs_sub_comm]
        exact le_abs_self _
      have distance := abs_nonneg (|exact| - n)
      have scaled := mul_le_mul_of_nonneg_left some distance
      linarith
  · exact relative

theorem abs_eq_of_short (rounds : Rounds exact x) (finite : x.IsFinite) {k d n : ℕ} (pos : 0 < d)
    (short : k < 2 ^ 53) (ratio : |exact| = k / d)
    (least : exact ≠ 0 → 1 ≤ |exact| * unitsPerOne) (whole : |x.value| = n) : |exact| = n := by
  have positive : (0 : ℚ) < d := by exact_mod_cast pos
  have relative := rounds.error_of_whole finite least whole
  have scaled : 2 ^ 53 * |(k : ℚ) - n * d| ≤ k := by
    have times : |(|exact| - n)| * d = |(k : ℚ) - n * d| := by
      rw [ratio, ← abs_of_pos positive, ← abs_mul, abs_of_pos positive, sub_mul,
        div_mul_cancel₀ _ positive.ne']
    have product := mul_le_mul_of_nonneg_right relative positive.le
    rwa [mul_assoc, times, ratio, div_mul_cancel₀ _ positive.ne'] at product
  have same : (k : ℤ) - n * d = 0 := by
    have below : |(k : ℤ) - n * d| < 1 := by
      have bound : 2 ^ 53 * |(k : ℤ) - n * d| ≤ k := by exact_mod_cast scaled
      omega
    exact Int.abs_lt_one_iff.mp below
  rw [ratio, div_eq_iff positive.ne']
  exact_mod_cast sub_eq_zero.mp same

end Rounds

end StatusPage.Binary64
