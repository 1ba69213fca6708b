import Mathlib
import StatusPage.Proofs.Locale.Number
import StatusPage.Proofs.Seconds.Literal

namespace StatusPage

theorem roundDiv_mul_left (n : ℕ) {d : ℕ} (pos : 0 < d) : roundDiv (n * d) d = n := by
  rw [roundDiv, Nat.mul_mod_left, Nat.mul_div_cancel n pos, if_neg (by omega)]

namespace Text

def minus (v : ℤ) : List Char := if v < 0 then ['-'] else []

theorem toList_toString (v : ℤ) : (toString v).toList = minus v ++ Nat.toDigits 10 v.natAbs := by
  cases v with
  | ofNat n => exact Nat.toList_repr
  | negSucc n =>
    have signed : toString (Int.negSucc n) = "-" ++ (n + 1).repr := rfl
    rw [signed, String.toList_append, Nat.toList_repr, minus, if_pos (Int.negSucc_lt_zero n)]
    rfl

theorem signed?_toString (v : ℤ) : signed? (toString v).toList = some v := by
  obtain ⟨c, rest, digits⟩ := List.exists_cons_of_ne_nil
    (Nat.toDigits_ne_nil (b := 10) (n := v.natAbs))
  have digit : c.isDigit :=
    Nat.isDigit_of_mem_toDigits (by decide) (by decide) (digits ▸ List.mem_cons_self)
  obtain ⟨other, plus⟩ := Binary64.not_sign_of_isDigit_or_point (.inl digit)
  have natural := natural?_toDigits v.natAbs
  rw [digits] at natural
  rw [toList_toString, minus, digits]
  split_ifs with below
  · have read : signed? ('-' :: c :: rest) = _ := Seconds.signed?_text .minus other plus
    have value : -(v.natAbs : ℤ) = v := by omega
    rw [natural] at read
    exact read.trans (congrArg some value)
  · have read : signed? (c :: rest) = _ := Seconds.signed?_text .absent other plus
    have value : (v.natAbs : ℤ) = v := by omega
    rw [natural] at read
    exact read.trans (congrArg some value)

end Text

namespace Binary64

theorem negative_iff_of_value {x : Binary64} (finite : x.IsFinite) {v : ℤ} (value : x.value = v)
    (nonzero : v ≠ 0) : x.negative ↔ v < 0 := by
  have rounds := rounds_value finite
  rw [value] at rounds
  constructor
  · intro sign
    by_contra natural
    have positive : 0 < v := by omega
    exact rounds.positive (by exact_mod_cast positive) sign
  · intro below
    exact rounds.negative (by exact_mod_cast below)

end Binary64

namespace Locale

/-- The canonical decimal of an integer, with its digits in groups of three. -/
structure IsGrouped (locale : Locale) (v : ℤ) (text : List Char) : Prop where
  groups : ∃ groups, Text.InThrees groups ∧ groups.flatten = Nat.toDigits 10 v.natAbs ∧
    text = Text.minus v ++ [locale.groupSeparator].intercalate groups
  canonical : text.filter (· ≠ locale.groupSeparator) = (toString v).toList
  reads : Text.signed? (text.filter (· ≠ locale.groupSeparator)) = some v

variable (locale : Locale)

theorem formatInt_natCast (n : ℕ) : locale.formatInt n = locale.formatNat n := by
  rw [formatInt, if_neg (by omega), Int.natAbs_natCast]

theorem toList_formatInt (v : ℤ) :
    (locale.formatInt v).toList = Text.minus v ++ locale.digits v.natAbs := by
  rw [formatInt, Text.minus]
  split
  · rw [String.toList_append, toList_formatNat]
    rfl
  · rw [toList_formatNat, List.nil_append]

theorem filter_toList_formatInt (v : ℤ) :
    (locale.formatInt v).toList.filter (· ≠ locale.groupSeparator) = (toString v).toList := by
  have sign : (Text.minus v).filter (· ≠ locale.groupSeparator) = Text.minus v := by
    rw [Text.minus]
    split
    · cases locale <;> decide
    · rfl
  rw [toList_formatInt, List.filter_append, sign, filter_digits, Text.toList_toString]

theorem isGrouped_formatInt (v : ℤ) : locale.IsGrouped v (locale.formatInt v).toList := by
  obtain ⟨groups, inThrees, whole, grouped⟩ :=
    Text.group_inThrees locale.groupSeparator (Nat.toDigits_ne_nil (b := 10) (n := v.natAbs))
  have canonical := locale.filter_toList_formatInt v
  refine ⟨⟨groups, inThrees, whole, ?_⟩, canonical, ?_⟩
  · rw [toList_formatInt, digits, grouped]
  · rw [canonical, Text.signed?_toString]

theorem thousandths_whole (n : ℕ) : locale.thousandths (n * 1000) = locale.digits n := by
  have none : Text.fraction 3 0 = [] := by decide
  rw [thousandths_eq, Nat.mul_mod_left, Nat.mul_div_cancel n (by decide), none, if_pos rfl,
    List.append_nil]

variable {x : Binary64}

theorem toList_formatFloat_of_value (finite : x.IsFinite) {v : ℤ} (value : x.value = v) :
    (locale.formatFloat x).toList =
      (if x.negative then ['-'] else []) ++ locale.digits v.natAbs := by
  have units : Binary64.unitsOfField x.field * 1000 =
      v.natAbs * 1000 * Binary64.unitsPerOne := by
    rw [Binary64.units_of_value value, Nat.mul_right_comm]
  rw [locale.toList_formatFloat finite, units, roundDiv_mul_left _ Binary64.unitsPerOne_pos,
    thousandths_whole]

theorem formatFloat_of_value (finite : x.IsFinite) {v : ℤ} (value : x.value = v) :
    locale.formatFloat x = if x.negative ∧ v = 0 then "-0" else locale.formatInt v := by
  have text := locale.toList_formatFloat_of_value finite value
  apply String.toList_injective
  by_cases zero : v = 0
  · subst zero
    rw [text]
    cases x.negative <;> cases locale <;> rfl
  · have sign := Binary64.negative_iff_of_value finite value zero
    rw [if_neg fun both => zero both.2, text, toList_formatInt, Text.minus]
    simp only [sign]

/-- An integer is written in groups of three digits and reads back, and the double that stands for
    it is written alike. Only a zero with a sign keeps the sign. -/
theorem integer_formats_agree (v : ℤ) :
    locale.IsGrouped v (locale.formatInt v).toList ∧
    (∀ n : ℕ, (n : ℤ) = v → locale.formatNat n = locale.formatInt v) ∧
    ∀ x : Binary64, x.IsFinite → x.value = v →
      locale.formatFloat x = if x.negative ∧ v = 0 then "-0" else locale.formatInt v := by
  refine ⟨locale.isGrouped_formatInt v, ?_, ?_⟩
  · rintro n rfl
    exact (locale.formatInt_natCast n).symm
  · intro x finite value
    exact locale.formatFloat_of_value finite value

theorem integer_formats_agree_bounds :
    (Binary64.ofBits 0xC3E0000000000000).IsFinite ∧
    (Binary64.ofBits 0xC3E0000000000000).value = (-2 ^ 63 : ℤ) ∧
    Locale.enUS.formatFloat (.ofBits 0xC3E0000000000000) = "-9,223,372,036,854,775,808" ∧
    Locale.enUS.formatInt (-2 ^ 63) = "-9,223,372,036,854,775,808" ∧
    Locale.enUS.formatNat (2 ^ 64 - 1) = "18,446,744,073,709,551,615" := by
  have finite : (Binary64.ofBits 0xC3E0000000000000).IsFinite := by decide
  have value : (Binary64.ofBits 0xC3E0000000000000).value = (-2 ^ 63 : ℤ) := by
    have units : Binary64.unitsOfField (Binary64.ofBits 0xC3E0000000000000).field =
        2 ^ 63 * Binary64.unitsPerOne := by decide +kernel
    rw [Binary64.value_of_units units, show (Binary64.ofBits 0xC3E0000000000000).negative from rfl]
    norm_num [Binary64.signed]
  have least : Locale.enUS.formatInt (-2 ^ 63) = "-9,223,372,036,854,775,808" := by decide +kernel
  have greatest : Locale.enUS.formatInt (2 ^ 64 - 1) = "18,446,744,073,709,551,615" := by
    decide +kernel
  obtain ⟨-, -, double⟩ := integer_formats_agree .enUS (-2 ^ 63)
  obtain ⟨-, natural, -⟩ := integer_formats_agree .enUS (2 ^ 64 - 1)
  refine ⟨finite, value, ?_, least, ?_⟩
  · rw [double _ finite value, if_neg (by decide), least]
  · rw [natural (2 ^ 64 - 1) (by decide), greatest]

end Locale

end StatusPage
