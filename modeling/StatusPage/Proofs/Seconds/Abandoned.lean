import Mathlib
import StatusPage.Proofs.Seconds.Terms
import StatusPage.Proofs.Span.Grammar
import StatusPage.Settings.Basic

namespace StatusPage

theorem Span.Overruns.ne_nil {lengths : List (Option Scale)} (overruns : Overruns lengths) :
    lengths ≠ [] := by
  obtain ⟨before, last, after, rfl, -⟩ := overruns
  simp

namespace Seconds

variable {text : List Char}

theorem mapError_ne_abandoned {α ε : Type} (result : Except ε α) :
    result.mapError Failure.refused ≠ .error .abandoned := by
  cases result with
  | error reason => simp [Except.mapError]
  | ok value => simp [Except.mapError]

theorem ofSpanText_abandoned_iff :
    ofSpanText text = .error .abandoned ↔ Span.read text = .error .abandoned := by
  unfold ofSpanText
  cases Span.read text with
  | ok span => simp [mapError_ne_abandoned]
  | error failure => cases failure <;> simp [Failure.map]

theorem span_abandoned_of_read {text : String} (abandoned : read text = .error .abandoned) :
    Span.read (Text.trim text.toList) = .error .abandoned := by
  unfold read at abandoned
  dsimp only at abandoned
  by_cases empty : Text.trim text.toList = []
  · simp [empty] at abandoned
  · rw [if_neg empty] at abandoned
    split at abandoned
    · exact absurd abandoned (mapError_ne_abandoned _)
    · split at abandoned
      · exact absurd abandoned (mapError_ne_abandoned _)
      · exact ofSpanText_abandoned_iff.mp abandoned

theorem read_abandoned_iff (text : String) :
    read text = .error .abandoned ↔ Span.FillsLastSecond (Text.trim text.toList) := by
  constructor
  · intro abandoned
    exact Span.read_abandoned_iff.mp (span_abandoned_of_read abandoned)
  · intro fills
    have abandoned := Span.read_abandoned_iff.mpr fills
    obtain ⟨amounts, rest, same, -, overruns⟩ := fills
    have written : amounts ≠ [] := by
      intro none
      subst none
      exact overruns.ne_nil rfl
    rw [read_of_amounts written same]
    exact ofSpanText_abandoned_iff.mpr abandoned

end Seconds

theorem Settings.timeout_abandoned_iff (settings : Settings) :
    settings.timeout = .error .abandoned ↔
      Span.FillsLastSecond settings.confirmTimeout.toList := by
  rw [← Span.read_abandoned_iff]
  unfold timeout
  cases Span.read settings.confirmTimeout.toList with
  | error failure => cases failure <;> simp [Failure.map]
  | ok span =>
    by_cases none : span = .zero
    · simp [none]
    · cases fits : Delta.ofSpan? span <;> simp [none, fits]

theorem Span.read_of_long {amounts : List Amount} {behind : List Char}
    (blank : ∀ c ∈ behind, Text.isBlank c)
    (long : 2 ^ 64 * 10 ^ 9 ≤ (amounts.map Amount.nanoseconds).sum)
    (other : ¬ Overruns (amounts.flatMap Amount.lengths)) :
    amounts ≠ [] ∧ ∃ reason,
      read (amounts.flatMap Amount.text ++ behind) = .error (.refused reason) := by
  have written : amounts ≠ [] := by
    intro none
    subst none
    norm_num at long
  refine ⟨written, ?_⟩
  rw [read_amounts written blank]
  cases added : zero.addLengths (amounts.flatMap Amount.lengths) with
  | ok total =>
    have limit : ((wordLimit * nanosPerSecond : ℕ) : ℚ) = 2 ^ 64 * 10 ^ 9 := by
      norm_num [wordLimit, nanosPerSecond]
    have fits : (total.nanoseconds : ℚ) < (wordLimit * nanosPerSecond : ℕ) :=
      Nat.cast_lt.mpr total.fits
    rw [limit, addLengths_exact added] at fits
    exact absurd long (not_le.mpr fits)
  | error failure =>
    cases failure with
    | refused reason => exact ⟨reason, rfl⟩
    | abandoned => exact absurd (addLengths_abandoned_iff.mp added) other

/-- A text crashes the readers of second counts and timeouts exactly when amounts in it fill up the
    last second that fits, to the nanosecond. Any other amounts that come to `2 ^ 64` seconds or
    more are refused. -/
theorem abandoned_iff_fillsLastSecond (text : String) :
    (Seconds.read text = .error .abandoned ↔ Span.FillsLastSecond (Text.trim text.toList)) ∧
    (∀ settings : Settings, settings.confirmTimeout = text →
      (settings.timeout = .error .abandoned ↔ Span.FillsLastSecond text.toList)) ∧
    ∀ (amounts : List Span.Amount) (behind : List Char), (∀ c ∈ behind, Text.isBlank c) →
      2 ^ 64 * 10 ^ 9 ≤ (amounts.map Span.Amount.nanoseconds).sum →
      ¬ Span.Overruns (amounts.flatMap Span.Amount.lengths) →
      (Text.trim text.toList = amounts.flatMap Span.Amount.text ++ behind →
        ∃ reason, Seconds.read text = .error (.refused reason)) ∧
      (text.toList = amounts.flatMap Span.Amount.text ++ behind →
        ∀ settings : Settings, settings.confirmTimeout = text →
          ∃ reason, settings.timeout = .error (.refused reason)) := by
  refine ⟨Seconds.read_abandoned_iff text, ?_, ?_⟩
  · intro settings same
    subst same
    exact settings.timeout_abandoned_iff
  · intro amounts behind blank long other
    obtain ⟨written, reason, refused⟩ := Span.read_of_long blank long other
    constructor
    · intro same
      rw [Seconds.read_of_amounts written same, same, Seconds.ofSpanText, refused]
      exact ⟨_, rfl⟩
    · intro same settings set
      rw [Settings.timeout, set, same, refused]
      exact ⟨_, rfl⟩

namespace Span.Amount

def longest : Amount where
  before := []
  first := '1'
  more := "8446744073709551615".toList
  places := some ['5']
  unit := .second
  name := "s"
  blankBefore := Text.blank_nil
  isDigit := by decide
  inNumber := fun c member => .inl (List.all_eq_true.mp rfl c member)
  inPlaces := by
    intro chars same c member
    obtain rfl := Option.some.inj same
    exact .inl (List.all_eq_true.mp rfl c member)
  named := TimeUnit.s_mem_names
  placed := by
    intro chars same
    obtain rfl := Option.some.inj same
    exact ⟨'5', by decide, by decide⟩

def microseconds (digits : List Char) (digit : ∀ c ∈ digits, c.isDigit) (written : digits ≠ []) :
    Amount :=
  Term.amount
    { before := [' '], digits := digits, between := [], unit := .microsecond, name := "us",
      blankBefore := Text.blank_space, blankBetween := Text.blank_nil, isDigit := digit,
      written := written, named := TimeUnit.us_mem_names }

end Span.Amount

theorem abandoned_iff_fillsLastSecond_half :
    let settings (text : String) : Settings := { Settings.default with confirmTimeout := text }
    let full := "18446744073709551615.5s 500000us 1"
    let long := "18446744073709551615.5s 500001us"
    (Seconds.read full = .error .abandoned ∧ (settings full).timeout = .error .abandoned) ∧
      (∃ reason, Seconds.read long = .error (.refused reason)) ∧
      ∃ reason, (settings long).timeout = .error (.refused reason) := by
  intro settings full long
  have filled : Text.trim full.toList = full.toList := by decide +kernel
  have fills : Span.FillsLastSecond full.toList := by
    refine ⟨[.longest, .microseconds "500000".toList (List.all_eq_true.mp rfl) (by decide)],
      [' ', '1'], by decide, ?_, Span.addLengths_abandoned_iff.mp (by decide)⟩
    intro c head
    rw [← Option.some.inj head]
    exact .inr (by decide)
  let amounts : List Span.Amount :=
    [.longest, .microseconds "500001".toList (List.all_eq_true.mp rfl) (by decide)]
  have read : long.toList = amounts.flatMap Span.Amount.text ++ [] := by decide +kernel
  have other : ¬ Span.Overruns (amounts.flatMap Span.Amount.lengths) := by
    rw [← Span.addLengths_abandoned_iff]
    decide +kernel
  have large : 2 ^ 64 * 10 ^ 9 ≤ (amounts.map Span.Amount.nanoseconds).sum := by
    have first : Span.Amount.longest.nanoseconds = 18446744073709551615.5 * 1000000000 := by
      have value : Span.Amount.longest.value = 18446744073709551615 := by decide
      have part : Span.Amount.longest.part = some ⟨5, 10⟩ := by decide
      rw [Span.Amount.nanoseconds, Span.Numeral.number, value, part]
      norm_num [Span.Fraction.value, Span.Amount.longest, TimeUnit.scale, Scale.nanoseconds,
        nanosPerSecond]
    have second : amounts[1].nanoseconds = 500001 * 1000 := by
      have value : amounts[1].value = 500001 := by decide
      have part : amounts[1].part = none := rfl
      have unit : amounts[1].unit = .microsecond := rfl
      rw [Span.Amount.nanoseconds, Span.Numeral.number, value, part, unit]
      norm_num [TimeUnit.scale, Scale.nanoseconds, nanosPerSecond]
    have sum : (amounts.map Span.Amount.nanoseconds).sum =
        Span.Amount.longest.nanoseconds + (amounts[1].nanoseconds + 0) := rfl
    rw [sum, first, second]
    norm_num
  have trimmed : Text.trim long.toList = long.toList := by decide +kernel
  obtain ⟨seconds, timeout, -⟩ := abandoned_iff_fillsLastSecond full
  obtain ⟨-, -, refused⟩ := abandoned_iff_fillsLastSecond long
  obtain ⟨ofSeconds, ofTimeout⟩ := refused amounts [] Text.blank_nil large other
  exact ⟨⟨seconds.mpr (filled.symm ▸ fills), (timeout _ rfl).mpr fills⟩,
    ofSeconds (trimmed.trans read), ofTimeout read _ rfl⟩

/-- One more second as milliseconds fills up the last second, as one more in seconds is refused. -/
theorem read_abandoned_at_last_second :
    let text := "18446744073709551615s 1000ms"
    let settings : Settings := { Settings.default with confirmTimeout := text }
    Seconds.read text = .error .abandoned ∧ settings.timeout = .error .abandoned ∧
      (∃ reason, Seconds.read "18446744073709551615s 1s" = .error (.refused reason)) ∧
      ¬ ∀ text, Seconds.read text ≠ .error .abandoned ∧
        ∀ settings : Settings, settings.confirmTimeout = text →
          settings.timeout ≠ .error .abandoned := by
  intro text settings
  have crash : Seconds.read text = .error .abandoned := by decide +kernel
  refine ⟨crash, by decide +kernel, ?_, fun never => (never text).1 crash⟩
  have refused : Seconds.read "18446744073709551615s 1s" = .error (.refused (.invalidInput
      ("'18446744073709551615s 1s': " ++ Span.ReadError.numberOverflow.message))) := by
    decide +kernel
  exact ⟨_, refused⟩

end StatusPage
