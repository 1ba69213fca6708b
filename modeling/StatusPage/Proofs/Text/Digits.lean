import Mathlib
import StatusPage.Proofs.Text.Join
import StatusPage.Text.Digits

namespace StatusPage.Text

/-- How the digits of a number are set in groups: three each, but one to three in the first. -/
def InThrees : List (List Char) → Prop
  | [] => False
  | first :: rest =>
    1 ≤ first.length ∧ first.length ≤ 3 ∧ ∀ digits ∈ rest, digits.length = 3

theorem length_of_inThrees (first : List Char) {rest : List (List Char)}
    (three : ∀ digits ∈ rest, digits.length = 3) :
    (first :: rest).flatten.length = first.length + 3 * rest.length := by
  have sum : (rest.map List.length).sum = rest.length * 3 := by
    simpa using List.sum_eq_card_nsmul (rest.map List.length) 3 (by simpa using three)
  rw [List.flatten_cons, List.length_append, List.length_flatten, sum]
  omega

theorem group_inThrees (separator : Char) {digits : List Char} (written : digits ≠ []) :
    ∃ groups, InThrees groups ∧ groups.flatten = digits ∧
      group separator digits = [separator].intercalate groups := by
  induction digits with
  | nil => exact absurd rfl written
  | cons digit digits ih =>
    by_cases last : digits = []
    · subst last
      refine ⟨[[digit]], ?_, rfl, rfl⟩
      simp [InThrees]
    · obtain ⟨groups, threes, same, grouped⟩ := ih last
      obtain ⟨first, rest, rfl⟩ : ∃ first rest, groups = first :: rest := by
        cases groups with
        | nil => exact absurd threes id
        | cons first rest => exact ⟨first, rest, rfl⟩
      obtain ⟨some, most, three⟩ := threes
      have length := length_of_inThrees first three
      rw [same] at length
      by_cases full : digits.length % 3 = 0
      · refine ⟨[digit] :: first :: rest, ?_, by simp [← same], ?_⟩
        · refine ⟨le_refl 1, by simp, ?_⟩
          intro digits member
          rcases List.mem_cons.mp member with rfl | member
          · omega
          · exact three digits member
        · rw [group, if_pos ⟨last, full⟩, grouped, List.intercalate_cons_cons]
          rfl
      · refine ⟨(digit :: first) :: rest, ?_, by simp [← same], ?_⟩
        · refine ⟨by simp, ?_, three⟩
          rw [List.length_cons]
          omega
        · rw [group, if_neg (fun both => full both.2), grouped, intercalate_cons, intercalate_cons]
          rfl

theorem ne_nil_of_inThrees {groups : List (List Char)} (threes : InThrees groups) :
    ∀ digits ∈ groups, digits ≠ [] := by
  rintro digits member rfl
  cases groups with
  | nil => exact absurd threes id
  | cons first rest =>
    obtain ⟨some, -, three⟩ := threes
    rcases List.mem_cons.mp member with rfl | listed
    · simp at some
    · simpa using three [] listed

theorem filter_group {separator : Char} {digits : List Char} (absent : separator ∉ digits) :
    (group separator digits).filter (· ≠ separator) = digits := by
  by_cases written : digits = []
  · rw [written]
    rfl
  · obtain ⟨groups, -, rfl, grouped⟩ := group_inThrees separator written
    rw [grouped, filter_intercalate absent]

theorem mem_of_mem_group {separator : Char} {digits : List Char} {c : Char}
    (member : c ∈ group separator digits) : c = separator ∨ c ∈ digits := by
  by_cases written : digits = []
  · rw [written] at member
    exact absurd member List.not_mem_nil
  · obtain ⟨groups, -, rfl, grouped⟩ := group_inThrees separator written
    rw [grouped] at member
    exact (mem_of_mem_intercalate member).imp_left List.mem_singleton.mp

theorem dropRight_append (c : Char) (text : List Char) :
    dropRight c text ++ List.replicate (text.length - (dropRight c text).length) c = text := by
  have parts : dropRight c text ++ text.rtakeWhile (fun d => d = c) = text :=
    List.rdropWhile_append_rtakeWhile
  have dropped : ∀ d ∈ text.rtakeWhile (fun d => d = c), d = c := by
    intro d member
    simpa using List.mem_rtakeWhile_imp member
  have length := congrArg List.length parts
  rw [List.length_append] at length
  have zeros := List.eq_replicate_iff.mpr ⟨rfl, dropped⟩
  rw [← length, Nat.add_sub_cancel_left, ← zeros, parts]

theorem getLast?_dropRight (c : Char) (text : List Char) :
    (dropRight c text).getLast? ≠ some c := by
  intro last
  have written : text.rdropWhile (fun d => d = c) ≠ [] := by
    intro none
    rw [show dropRight c text = [] from none] at last
    simp at last
  have other := List.rdropWhile_last_not _ _ written
  have same : (text.rdropWhile fun d => d = c).getLast written = c := by
    rw [← Option.some_inj, ← List.getLast?_eq_some_getLast]
    exact last
  simp [same] at other

variable {places part : Nat}

theorem length_leftpad (width : 0 < places) (small : part < 10 ^ places) :
    ((Nat.toDigits 10 part).leftpad places '0').length = places := by
  have length := (Nat.length_toDigits_le_iff (by decide) width).mpr small
  rw [List.leftpad, List.length_append, List.length_replicate]
  omega

theorem ofDigitChars_leftpad (places part : Nat) :
    Nat.ofDigitChars 10 ((Nat.toDigits 10 part).leftpad places '0') 0 = part := by
  rw [List.leftpad, Nat.ofDigitChars_append, Nat.ofDigitChars_replicate_zero, Nat.mul_zero,
    Nat.ofDigitChars_ten_toDigits]

theorem isDigit_of_mem_leftpad {c : Char}
    (member : c ∈ (Nat.toDigits 10 part).leftpad places '0') : c.isDigit := by
  rw [List.leftpad, List.mem_append, List.mem_replicate] at member
  rcases member with ⟨-, rfl⟩ | digit
  · rfl
  · exact Nat.isDigit_of_mem_toDigits (by decide) (by decide) digit

/-- The digits behind a decimal separator for `part / 10 ^ places`, filled up with zeros in front
    and rid of those at the end. -/
structure IsFraction (places part : ℕ) (digits : List Char) : Prop where
  padded : digits ++ List.replicate (places - digits.length) '0' =
    (Nat.toDigits 10 part).leftpad places '0'
  trimmed : digits.getLast? ≠ some '0'

theorem isFraction_fraction (width : 0 < places) (small : part < 10 ^ places) :
    IsFraction places part (fraction places part) := by
  refine ⟨?_, getLast?_dropRight _ _⟩
  have parts := dropRight_append '0' ((Nat.toDigits 10 part).leftpad places '0')
  rwa [length_leftpad width small] at parts

namespace IsFraction

variable {digits : List Char}

theorem length_le (fraction : IsFraction places part digits) (width : 0 < places)
    (small : part < 10 ^ places) : digits.length ≤ places := by
  have length := congrArg List.length fraction.padded
  rw [List.length_append, length_leftpad width small] at length
  omega

theorem isDigit (fraction : IsFraction places part digits) {c : Char} (member : c ∈ digits) :
    c.isDigit := by
  have padded : c ∈ (Nat.toDigits 10 part).leftpad places '0' :=
    fraction.padded ▸ List.mem_append_left _ member
  exact isDigit_of_mem_leftpad padded

theorem ofDigitChars (fraction : IsFraction places part digits) :
    10 ^ (places - digits.length) * Nat.ofDigitChars 10 digits 0 = part := by
  have parts := congrArg (Nat.ofDigitChars 10 · 0) fraction.padded
  simpa only [Nat.ofDigitChars_append, Nat.ofDigitChars_replicate_zero, ofDigitChars_leftpad]
    using parts

theorem value (fraction : IsFraction places part digits) (width : 0 < places)
    (small : part < 10 ^ places) :
    (Nat.ofDigitChars 10 digits 0 : ℚ) / 10 ^ digits.length = part / 10 ^ places := by
  have length := fraction.length_le width small
  rw [div_eq_div_iff (by positivity) (by positivity), ← fraction.ofDigitChars]
  push_cast
  have power : (10 : ℚ) ^ places = 10 ^ (places - digits.length) * 10 ^ digits.length := by
    rw [← pow_add, Nat.sub_add_cancel length]
  rw [power]
  ring

theorem eq_nil_iff (fraction : IsFraction places part digits) : digits = [] ↔ part = 0 := by
  constructor
  · rintro rfl
    have value := fraction.ofDigitChars
    rw [Nat.ofDigitChars_nil, Nat.mul_zero] at value
    exact value.symm
  · rintro rfl
    have zero : ∀ c ∈ digits, c = '0' := by
      intro c member
      have padded : c ∈ (Nat.toDigits 10 0).leftpad places '0' :=
        fraction.padded ▸ List.mem_append_left _ member
      rw [Nat.toDigits_zero, List.leftpad, List.mem_append, List.mem_replicate,
        List.mem_singleton] at padded
      exact padded.elim And.right id
    by_contra written
    have last := List.getLast?_eq_some_getLast written
    rw [zero _ (List.getLast_mem written)] at last
    exact fraction.trimmed last

end IsFraction

end StatusPage.Text
