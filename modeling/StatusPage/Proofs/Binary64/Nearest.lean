import Mathlib
import StatusPage.Proofs.Binary64.Value

namespace StatusPage

namespace Binary64

theorem hiddenBit_eq : hiddenBit = 2 ^ 52 := by decide

theorem unitsPerOne_eq : unitsPerOne = 2 ^ 1074 := by
  have power (n : ℕ) : 1 <<< n = 2 ^ n := Nat.one_shiftLeft n
  exact power _

theorem unitsPerOne_pos : 0 < unitsPerOne := by
  rw [unitsPerOne_eq]
  positivity

theorem cast_unitsPerOne_pos : (0 : ℚ) < unitsPerOne := Nat.cast_pos.mpr unitsPerOne_pos

theorem unitsOfField_scaled {shift significand : ℕ}
    (normal : shift = 0 ∨ hiddenBit ≤ significand) (most : significand ≤ 2 * hiddenBit) :
    unitsOfField (shift * hiddenBit + significand) = significand * 2 ^ shift := by
  have positive : 0 < hiddenBit := by decide
  rcases Nat.lt_or_ge significand hiddenBit with small | large
  · obtain rfl : shift = 0 := normal.resolve_right (Nat.not_le.mpr small)
    simp [unitsOfField, small]
  · have notSmall : ¬ shift * hiddenBit + significand < hiddenBit := by omega
    rw [unitsOfField, if_neg notSmall, Nat.shiftLeft_eq]
    rcases Nat.lt_or_eq_of_le most with inside | carried
    · have field : shift * hiddenBit + significand =
          significand - hiddenBit + hiddenBit * (shift + 1) := by
        rw [Nat.mul_add, Nat.mul_comm hiddenBit shift]
        omega
      have part : significand - hiddenBit < hiddenBit := by omega
      rw [field, Nat.add_mul_mod_self_left, Nat.add_mul_div_left _ _ positive,
        Nat.mod_eq_of_lt part, Nat.div_eq_of_lt part, Nat.add_sub_cancel' large]
      congr 2
      omega
    · have field : shift * hiddenBit + significand = (shift + 2) * hiddenBit := by
        rw [carried, Nat.add_mul]
      rw [field, Nat.mul_mod_left, Nat.mul_div_cancel _ positive, carried, Nat.add_zero,
        show shift + 2 - 1 = shift + 1 from rfl, Nat.pow_succ]
      ring

theorem exists_scaled (field : ℕ) : ∃ shift significand,
    field = shift * hiddenBit + significand ∧ (shift = 0 ∨ hiddenBit ≤ significand) ∧
      significand < 2 * hiddenBit := by
  have positive : 0 < hiddenBit := by decide
  by_cases small : field < hiddenBit
  · exact ⟨0, field, by omega, .inl rfl, by omega⟩
  · have rest := Nat.mod_lt field positive
    have whole : 1 ≤ field / hiddenBit := (Nat.one_le_div_iff positive).mpr (by omega)
    have parts := Nat.div_add_mod' field hiddenBit
    refine ⟨field / hiddenBit - 1, field % hiddenBit + hiddenBit, ?_, .inr (by omega), by omega⟩
    rw [Nat.sub_mul, Nat.one_mul]
    have least : hiddenBit ≤ field / hiddenBit * hiddenBit := Nat.le_mul_of_pos_left _ whole
    omega

theorem unitsOfField_strictMono : StrictMono unitsOfField := by
  apply strictMono_nat_of_lt_succ
  intro field
  obtain ⟨shift, significand, rfl, normal, most⟩ := exists_scaled field
  have up : shift = 0 ∨ hiddenBit ≤ significand + 1 := by omega
  rw [Nat.add_assoc, unitsOfField_scaled normal most.le, unitsOfField_scaled up most]
  exact Nat.mul_lt_mul_of_pos_right (Nat.lt_succ_self significand) (Nat.two_pow_pos shift)

/-- A field whose magnitude is nearest when exponents have no upper end; of two it is the even
    one. -/
structure NearestField (exact : ℚ) (field : ℕ) : Prop where
  le : ∀ other, |exact - unitsOfField field| ≤ |exact - unitsOfField other|
  even : ∀ other ≠ field, |exact - unitsOfField field| = |exact - unitsOfField other| →
    field % 2 = 0

/-- The rounding of a quotient keeps its leading 53 bits, and all bits of one that has no more. -/
theorem nearestField_eq (units d : ℕ) : ∃ shift,
    nearestField units d = shift * hiddenBit + roundDiv units (d * 2 ^ shift) ∧
      roundDiv units (d * 2 ^ shift) ≤ 2 * hiddenBit ∧
      (shift = 0 ∨ hiddenBit * 2 ^ shift ≤ units / d ∧
        hiddenBit ≤ roundDiv units (d * 2 ^ shift)) := by
  refine ⟨(units / d).log2 - 52, by simp [nearestField, Nat.shiftLeft_eq], ?_, ?_⟩
  all_goals
    obtain ⟨least, most⟩ := le_roundDiv units (d * 2 ^ ((units / d).log2 - 52))
    rw [← Nat.div_div_eq_div_mul] at least most
  · have bound : units / d < 2 ^ 53 * 2 ^ ((units / d).log2 - 52) := by
      rw [← Nat.pow_add]
      exact Nat.lt_log2_self.trans_le (Nat.pow_le_pow_right two_pos (by omega))
    have quotient := Nat.div_lt_of_lt_mul (Nat.mul_comm .. ▸ bound)
    rw [hiddenBit_eq]
    omega
  · by_cases small : (units / d).log2 - 52 = 0
    · exact .inl small
    · have nonzero : units / d ≠ 0 := by
        intro zero
        rw [zero] at small
        exact small (by decide)
      have bound : hiddenBit * 2 ^ ((units / d).log2 - 52) ≤ units / d := by
        rw [hiddenBit_eq, ← Nat.pow_add, Nat.add_sub_cancel' (by omega)]
        exact Nat.log2_self_le nonzero
      have quotient := (Nat.le_div_iff_mul_le (Nat.two_pow_pos _)).mpr bound
      exact .inr ⟨bound, quotient.trans least⟩

theorem abs_sub_scaled (units : ℕ) {d : ℕ} (pos : 0 < d) (shift n : ℕ) :
    |(units : ℚ) / d - (n * 2 ^ shift : ℕ)| =
      2 ^ shift * |(units : ℚ) / (d * 2 ^ shift : ℕ) - n| := by
  have positive : (0 : ℚ) < d := by exact_mod_cast pos
  have inside : (units : ℚ) / d - (n * 2 ^ shift : ℕ) =
      2 ^ shift * ((units : ℚ) / (d * 2 ^ shift : ℕ) - n) := by
    push_cast
    field_simp
  rw [inside, abs_mul, abs_of_pos (by positivity)]

theorem scaled_or_below (shift field : ℕ) :
    (∃ n, unitsOfField field = n * 2 ^ shift) ∨
      shift ≠ 0 ∧ unitsOfField field < hiddenBit * 2 ^ shift := by
  obtain ⟨place, significand, rfl, normal, most⟩ := exists_scaled field
  rw [unitsOfField_scaled normal most.le]
  rcases Nat.lt_or_ge place shift with below | above
  · right
    refine ⟨by omega, ?_⟩
    calc significand * 2 ^ place < 2 * hiddenBit * 2 ^ place :=
          Nat.mul_lt_mul_of_pos_right most (Nat.two_pow_pos place)
      _ = hiddenBit * 2 ^ (place + 1) := by ring
      _ ≤ hiddenBit * 2 ^ shift :=
          Nat.mul_le_mul_left _ (Nat.pow_le_pow_right two_pos below)
  · left
    refine ⟨significand * 2 ^ (place - shift), ?_⟩
    rw [Nat.mul_assoc, ← Nat.pow_add, Nat.sub_add_cancel above]

theorem nearestField_nearest (units : ℕ) {d : ℕ} (pos : 0 < d) :
    NearestField (units / d) (nearestField units d) := by
  obtain ⟨shift, field, most, range⟩ := nearestField_eq units d
  have nearest := roundDiv_nearest units (Nat.mul_pos pos (Nat.two_pow_pos shift))
  have value := unitsOfField_scaled (range.imp_right And.right) most
  rw [← field] at value
  have power : (0 : ℚ) < 2 ^ shift := by positivity
  have multiple (n : ℕ) : |(units : ℚ) / d - unitsOfField (nearestField units d)| ≤
      |(units : ℚ) / d - (n * 2 ^ shift : ℕ)| := by
    rw [value, abs_sub_scaled units pos, abs_sub_scaled units pos]
    exact mul_le_mul_of_nonneg_left (nearest.le n) power.le
  have under {other : ℕ} (lost : shift ≠ 0) (below : unitsOfField other < hiddenBit * 2 ^ shift) :
      |(units : ℚ) / d - unitsOfField (nearestField units d)| <
        |(units : ℚ) / d - unitsOfField other| := by
    have least := (range.resolve_left lost).1
    have bound : ((hiddenBit * 2 ^ shift : ℕ) : ℚ) ≤ units / d := by
      rw [le_div_iff₀ (by exact_mod_cast pos)]
      exact_mod_cast (Nat.le_div_iff_mul_le pos).mp least
    have gap : ((unitsOfField other : ℕ) : ℚ) < (hiddenBit * 2 ^ shift : ℕ) := by
      exact_mod_cast below
    have whole := multiple hiddenBit
    rw [abs_of_nonneg (sub_nonneg.mpr bound)] at whole
    rw [abs_of_nonneg (sub_nonneg.mpr (gap.le.trans bound))]
    linarith
  constructor
  · intro other
    rcases scaled_or_below shift other with ⟨n, scaled⟩ | ⟨lost, below⟩
    · rw [scaled]
      exact multiple n
    · exact (under lost below).le
  · intro other different tie
    rcases scaled_or_below shift other with ⟨n, scaled⟩ | ⟨lost, below⟩
    · have apart : n ≠ roundDiv units (d * 2 ^ shift) := by
        intro same
        rw [same, ← value] at scaled
        exact different (unitsOfField_strictMono.injective scaled)
      rw [scaled, value, abs_sub_scaled units pos, abs_sub_scaled units pos] at tie
      have even := nearest.even_of_tie apart (mul_left_cancel₀ power.ne' tie)
      rw [field, hiddenBit_eq]
      omega
    · exact absurd tie (under lost below).ne

theorem nearestField_error (units : ℕ) {d : ℕ} (pos : 0 < d) :
    |(units : ℚ) / d - unitsOfField (nearestField units d)| ≤ 1 / 2 ∨
      2 ^ 53 * |(units : ℚ) / d - unitsOfField (nearestField units d)| ≤ units / d := by
  obtain ⟨shift, field, most, range⟩ := nearestField_eq units d
  have nearest := roundDiv_nearest units (Nat.mul_pos pos (Nat.two_pow_pos shift))
  rw [field, unitsOfField_scaled (range.imp_right And.right) most, abs_sub_scaled units pos]
  rcases range with rfl | ⟨least, -⟩
  · left
    simpa using nearest.near
  · right
    have bound : ((hiddenBit * 2 ^ shift : ℕ) : ℚ) ≤ units / d := by
      rw [le_div_iff₀ (by exact_mod_cast pos)]
      exact_mod_cast (Nat.le_div_iff_mul_le pos).mp least
    have scaled := mul_le_mul_of_nonneg_left nearest.near
      (show (0 : ℚ) ≤ 2 ^ 53 * 2 ^ shift by positivity)
    rw [hiddenBit_eq] at bound
    push_cast at bound scaled ⊢
    linarith

namespace NearestField

theorem upper_nearer_iff {lower upper exact : ℚ} (order : lower < upper) :
    |exact - upper| ≤ |exact - lower| ↔ lower + upper ≤ 2 * exact := by
  rw [← sq_le_sq]
  constructor
  · intro nearer
    nlinarith
  · intro beyond
    nlinarith

theorem lower_nearer_iff {lower upper exact : ℚ} (order : lower < upper) :
    |exact - lower| ≤ |exact - upper| ↔ 2 * exact ≤ lower + upper := by
  rw [← sq_le_sq]
  constructor
  · intro nearer
    nlinarith
  · intro beyond
    nlinarith

theorem units_lt {field other : ℕ} (order : field < other) :
    ((unitsOfField field : ℕ) : ℚ) < unitsOfField other := by
  exact_mod_cast unitsOfField_strictMono order

variable {exact : ℚ} {field : ℕ}

theorem not_lt (nearest : NearestField exact field) {other : ℕ}
    (rival : NearestField exact other) : ¬ field < other := by
  intro order
  have first := nearest.even other order.ne' (le_antisymm (nearest.le other) (rival.le field))
  have second := rival.even field order.ne (le_antisymm (rival.le field) (nearest.le other))
  have above : field < field + 1 := Nat.lt_succ_self field
  have inside : field + 1 < other := by omega
  have tie := (upper_nearer_iff (units_lt order)).mp (rival.le field)
  have between := (lower_nearer_iff (units_lt above)).mp (nearest.le (field + 1))
  linarith [units_lt inside]

theorem unique (nearest : NearestField exact field) {other : ℕ}
    (rival : NearestField exact other) : field = other :=
  le_antisymm (Nat.not_lt.mp (rival.not_lt nearest)) (Nat.not_lt.mp (nearest.not_lt rival))

theorem mono (nearest : NearestField exact field) {larger : ℚ} {other : ℕ}
    (rival : NearestField larger other) (order : exact ≤ larger) : field ≤ other := by
  by_contra below
  have apart := units_lt (Nat.not_le.mp below)
  have first := (upper_nearer_iff apart).mp (nearest.le other)
  have second := (lower_nearer_iff apart).mp (rival.le field)
  obtain rfl : exact = larger := by linarith
  exact below (nearest.unique rival).le

theorem of_units (field : ℕ) : NearestField (unitsOfField field) field := by
  constructor
  · intro other
    simp
  · intro other different tie
    have same : ((unitsOfField field : ℕ) : ℚ) = unitsOfField other := by
      rw [sub_self, abs_zero, eq_comm, abs_eq_zero, sub_eq_zero] at tie
      exact tie
    exact absurd (unitsOfField_strictMono.injective (by exact_mod_cast same)).symm different

theorem of_le_half {exact : ℚ} (half : exact ≤ 1 / 2) :
    NearestField exact 0 := by
  have zero : unitsOfField 0 = 0 := by decide
  constructor
  · intro other
    rcases Nat.eq_zero_or_pos other with rfl | positive
    · exact le_rfl
    · rw [lower_nearer_iff (units_lt positive), zero]
      have one : (1 : ℚ) ≤ unitsOfField other := by
        exact_mod_cast (Nat.zero_le _).trans_lt (unitsOfField_strictMono positive)
      push_cast
      linarith
  · intro other different tie
    rfl

end NearestField

end Binary64

end StatusPage
