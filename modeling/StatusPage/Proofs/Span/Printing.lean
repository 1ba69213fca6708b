import Mathlib
import StatusPage.Proofs.Span.Reading
import StatusPage.Span.Printer

namespace StatusPage.Span

/-- A count of a unit as it is printed, with the name right behind the digits. -/
structure Count where
  unit : TimeUnit
  count : ℕ
  name : String
  named : name ∈ unit.names

namespace Count

def text (part : Count) : String := toString part.count ++ part.name

def nanoseconds (part : Count) : ℕ := part.count * part.unit.scale.nanoseconds

def plural (unit : TimeUnit) (count : ℕ) (name : String) (one : name ∈ unit.names)
    (many : name ++ "s" ∈ unit.names) : Count where
  unit := unit
  count := count
  name := name ++ if 1 < count then "s" else ""
  named := by
    split
    · exact many
    · rwa [String.append_empty]

theorem plural_text (unit : TimeUnit) (count : ℕ) (name : String) (one : name ∈ unit.names)
    (many : name ++ "s" ∈ unit.names) :
    (plural unit count name one many).text = Span.plural name count :=
  String.append_assoc.symm

def term (part : Count) : Term where
  before := []
  digits := Nat.toDigits 10 part.count
  between := []
  unit := part.unit
  name := part.name
  blankBefore := Text.blank_nil
  blankBetween := Text.blank_nil
  isDigit := fun _ member => Nat.isDigit_of_mem_toDigits (by decide) (by decide) member
  written := Nat.toDigits_ne_nil
  named := part.named

theorem term_text (part : Count) : part.term.bare.text = part.text.toList := by
  simp [term, Term.bare, Term.text, text]

theorem term_value (part : Count) : part.term.value = part.count :=
  Nat.ofDigitChars_ten_toDigits

theorem term_nanoseconds (part : Count) : part.term.nanoseconds = part.nanoseconds := by
  rw [Term.nanoseconds, term_value, nanoseconds, Scale.nanoseconds, term]

def total (parts : List Count) : ℕ := (parts.map nanoseconds).sum

theorem total_cons (part : Count) (parts : List Count) :
    total (part :: parts) = part.nanoseconds + total parts := by
  rw [total, total, List.map_cons, List.sum_cons]

theorem total_filter (parts : List Count) :
    total (parts.filter fun part => part.count ≠ 0) = total parts := by
  induction parts with
  | nil => rfl
  | cons part parts ih =>
    by_cases none : part.count = 0
    · rw [List.filter_cons_of_neg (by simp [none]), ih, total_cons, nanoseconds, none, Nat.zero_mul,
        Nat.zero_add]
    · rw [List.filter_cons_of_pos (by simp [none]), total_cons, total_cons, ih]

end Count

def counts (span : Span) : List Count :=
  let rest := span.seconds % 31557600 % 2630016
  let nanos := span.subsecond
  [.plural .year (span.seconds / 31557600) "year" (by decide) (by decide),
    .plural .month (span.seconds % 31557600 / 2630016) "month" (by decide) (by decide),
    .plural .day (rest / 86400) "day" (by decide) (by decide),
    ⟨.hour, rest % 86400 / 3600, "h", by decide⟩,
    ⟨.minute, rest % 86400 % 3600 / 60, "m", by decide⟩,
    ⟨.second, rest % 86400 % 60, "s", TimeUnit.s_mem_names⟩,
    ⟨.millisecond, nanos / 1000000, "ms", TimeUnit.ms_mem_names⟩,
    ⟨.microsecond, nanos / 1000 % 1000, "us", TimeUnit.us_mem_names⟩,
    ⟨.nanosecond, nanos % 1000, "ns", by decide⟩]

def printed (span : Span) : List Count := span.counts.filter fun part => part.count ≠ 0

theorem breakdown_eq (span : Span) :
    span.breakdown.map (fun (write, count) => (write count, count)) =
      span.counts.map fun part => (part.text, part.count) := by
  simp only [breakdown, counts, List.map_cons, List.map_nil, Count.plural_text]
  rfl

theorem text_eq {span : Span} (some : span ≠ zero) :
    span.text = " ".intercalate (span.printed.map Count.text) := by
  have kept := congrArg (List.filterMap fun (text, count) => if count = 0 then none else .some text)
    span.breakdown_eq
  rw [List.filterMap_map, List.filterMap_map] at kept
  rw [text, if_neg some]
  congr 1
  refine Eq.trans ?_ (kept.trans ?_)
  · rfl
  · rw [printed, ← List.filterMap_eq_map, List.filterMap_filter]
    congr 1
    funext part
    by_cases none : part.count = 0 <;> simp [none]

theorem total_counts (span : Span) : Count.total span.counts = span.nanoseconds := by
  have parts : span.nanoseconds = span.seconds * nanosPerSecond + span.subsecond :=
    (Nat.div_add_mod' _ _).symm
  have none : Count.total [] = 0 := rfl
  rw [parts, counts]
  simp only [Count.total_cons, none, Count.nanoseconds, Count.plural, Scale.nanoseconds,
    TimeUnit.scale, nanosPerSecond]
  omega

theorem count_le_of_mem {span : Span} {part : Count} (member : part ∈ span.counts) :
    part.count * part.unit.scale.nanos ≤ span.subsecond ∧
      part.count ≤ max span.seconds span.subsecond := by
  simp only [counts, List.mem_cons, List.not_mem_nil, or_false] at member
  rcases member with rfl | rfl | rfl | rfl | rfl | rfl | rfl | rfl | rfl
  all_goals
    dsimp only [Count.plural, TimeUnit.scale]
    omega

def terms (span : Span) : List Term := spaced (span.printed.map Count.term)

theorem terms_text {span : Span} (some : span ≠ zero) :
    span.text.toList = span.terms.flatMap Term.text := by
  simp only [text_eq some, String.toList_intercalate, terms, spaced_text, List.map_map,
    Function.comp_def, Count.term_text]
  rfl

theorem terms_nanoseconds (span : Span) :
    (span.terms.map Term.nanoseconds).sum = span.nanoseconds := by
  have each : span.terms.map Term.nanoseconds = span.printed.map Count.nanoseconds := by
    simp only [terms, spaced_nanoseconds, List.map_map, Function.comp_def, Count.term_nanoseconds]
  calc (span.terms.map Term.nanoseconds).sum
    _ = Count.total span.printed := by rw [each, Count.total]
    _ = Count.total span.counts := Count.total_filter span.counts
    _ = span.nanoseconds := span.total_counts

theorem terms_fit (span : Span) : ∀ term ∈ span.terms, term.Fits := by
  apply spaced_fit
  intro term member
  obtain ⟨part, listed, rfl⟩ := List.mem_map.mp member
  obtain ⟨nanos, count⟩ := count_le_of_mem (List.mem_of_mem_filter listed)
  have seconds : span.seconds < wordLimit := Nat.div_lt_of_lt_mul (Nat.mul_comm _ _ ▸ span.fits)
  have below := span.subsecond_lt
  have small : nanosPerSecond + nanosPerSecond ≤ wordLimit := by decide
  rw [← part.term_value] at nanos count
  exact ⟨by omega, by
    show part.term.value * part.unit.scale.nanos + _ ≤ _
    omega⟩

theorem terms_ne_nil {span : Span} (some : span ≠ zero) : span.terms ≠ [] := by
  intro none
  have sum := span.terms_nanoseconds
  rw [none, List.map_nil, List.sum_nil] at sum
  exact some (ext_nanoseconds sum.symm)

/-- Every length of time reads back as it is printed, to the nanosecond. -/
theorem read_text (span : Span) : read span.text.toList = .ok span := by
  by_cases none : span = zero
  · subst none
    decide
  · have fits : (span.terms.map Term.nanoseconds).sum < wordLimit * nanosPerSecond := by
      rw [terms_nanoseconds]
      exact span.fits
    rw [terms_text none, read_terms (terms_ne_nil none) span.terms_fit fits]
    exact congrArg Except.ok (ext_nanoseconds span.terms_nanoseconds)

end StatusPage.Span
