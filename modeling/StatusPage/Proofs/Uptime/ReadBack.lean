import StatusPage.Proofs.Seconds.Terms
import StatusPage.Proofs.Text.Join
import StatusPage.Proofs.Uptime.Parts

namespace StatusPage

def withoutCommas (text : String) : String := String.ofList (text.toList.filter (· ≠ ','))

namespace Uptime

def Part.term (part : Part) : Span.Term where
  before := []
  digits := Nat.toDigits 10 part.count
  between := [' ']
  unit := part.unit
  name := part.name
  blankBefore := Text.blank_nil
  blankBetween := Text.blank_space
  isDigit := fun _ member => Nat.isDigit_of_mem_toDigits (by decide) (by decide) member
  written := Nat.toDigits_ne_nil
  named := part.named

theorem Part.term_value (part : Part) : part.term.value = part.count :=
  Nat.ofDigitChars_ten_toDigits

theorem Part.term_text (part : Part) : part.term.bare.text = part.text.toList := by
  simp [Part.term, Span.Term.bare, Span.Term.text, Part.text]

theorem Part.term_nanoseconds (part : Part) :
    part.term.nanoseconds = part.seconds * nanosPerSecond := by
  rw [Span.Term.nanoseconds_eq, term_value, Part.seconds]
  simp [Part.term, part.whole]

theorem Part.term_fits {part : Part} (word : part.count < wordLimit) : part.term.Fits where
  value := by rwa [term_value]
  nanos := by
    rw [term_value]
    simp [Part.term, part.whole]
    decide

theorem Part.no_comma (part : Part) : ∀ c ∈ part.text.toList, c ≠ ',' := by
  rintro c member rfl
  rcases part.mem_text member with digit | space | letter
  · simp at digit
  · simp at space
  · revert letter
    decide

def terms (parts : List Part) : List Span.Term := Span.spaced (parts.map Part.term)

theorem terms_nanoseconds (parts : List Part) :
    ((terms parts).map Span.Term.nanoseconds).sum =
      (parts.map Part.seconds).sum * nanosPerSecond := by
  have each : (terms parts).map Span.Term.nanoseconds =
      parts.map fun part => part.seconds * nanosPerSecond := by
    simp only [terms, Span.spaced_nanoseconds, List.map_map, Function.comp_def,
      Part.term_nanoseconds]
  rw [each, List.sum_map_mul_right]

theorem terms_fit {parts : List Part} (words : ∀ part ∈ parts, part.count < wordLimit) :
    ∀ term ∈ terms parts, term.Fits := by
  apply Span.spaced_fit
  intro term member
  obtain ⟨part, listed, rfl⟩ := List.mem_map.mp member
  exact part.term_fits (words part listed)

theorem filter_join (parts : List Part) :
    (separator.intercalate (parts.map Part.text)).toList.filter (· ≠ ',') =
      (terms parts).flatMap Span.Term.text := by
  have kept : ∀ part : Part, part.text.toList.filter (· ≠ ',') = part.text.toList := by
    intro part
    rw [List.filter_eq_self]
    simpa using part.no_comma
  have blank : separator.toList.filter (· ≠ ',') = [' '] := by decide
  rw [terms, Span.spaced_text, String.toList_intercalate]
  cases parts with
  | nil => rfl
  | cons part rest =>
    simp only [List.map_cons, List.map_map, intercalate_cons, List.filter_append,
      List.filter_flatMap, Function.comp_apply, kept, blank, List.flatMap_map, Part.term_text]

theorem sum_parts_ofSeconds (total : Nat) :
    ((ofSeconds total).parts.map Part.seconds).sum = total := by
  rw [sum_parts]
  simp only [ofSeconds]
  omega

theorem count_le_of_mem {total : Nat} {part : Part} (member : part ∈ (ofSeconds total).parts) :
    part.count ≤ total := by
  rw [parts] at member
  split at member
  next =>
    rw [List.mem_singleton.mp member]
    exact Nat.zero_le total
  next =>
    have listed := List.mem_of_mem_filter member
    simp only [units, ofSeconds, List.mem_cons, List.not_mem_nil, or_false] at listed
    rcases listed with rfl | rfl | rfl | rfl
    all_goals
      dsimp only
      omega

theorem terms_ne_nil {parts : List Part} (written : parts ≠ []) : terms parts ≠ [] :=
  Span.spaced_ne_nil (by simpa using written)

/-- Every printed uptime reads back as its second count once the commas are deleted, with the
    separator at the end and without. -/
theorem format_reads_back (style : Style) {seconds : Nat} (word : seconds < wordLimit) :
    Seconds.read (withoutCommas (format style seconds)) = .ok seconds := by
  let parts := (ofSeconds seconds).parts
  let behind : List Char := if style = .faithful ∧ 0 < seconds ∧ seconds % 60 = 0 then [' '] else []
  have blank : ∀ c ∈ behind, Text.isBlank c := by
    dsimp only [behind]
    split
    · exact Text.blank_space
    · exact Text.blank_nil
  have text : withoutCommas (format style seconds) =
      String.ofList ((terms parts).flatMap Span.Term.text ++ behind) := by
    rw [withoutCommas, format_eq, String.toList_append, List.filter_append, joined, filter_join]
    congr 2
    dsimp only [behind]
    split <;> decide
  have words : ∀ part ∈ parts, part.count < wordLimit := fun part member =>
    Nat.lt_of_le_of_lt (count_le_of_mem member) word
  have sum : ((terms parts).map Span.Term.nanoseconds).sum = seconds * nanosPerSecond := by
    rw [terms_nanoseconds, sum_parts_ofSeconds]
  have fits : ((terms parts).map Span.Term.nanoseconds).sum < wordLimit * nanosPerSecond := by
    rw [sum]
    exact Nat.mul_lt_mul_of_pos_right word (by decide)
  have read := Seconds.read_terms (terms_ne_nil (ofSeconds seconds).parts_ne_nil)
    (terms_fit words) fits blank
  rw [text, read, Seconds.ofSpan_of_whole sum]
  rfl

theorem format_reads_back_maxSeconds : maxSeconds < wordLimit ∧
    format .faithful maxSeconds = "213503982334601 days, 7 hours, 15 seconds" ∧
    Seconds.read (withoutCommas (format .faithful maxSeconds)) = .ok maxSeconds :=
  ⟨by decide, by decide, format_reads_back .faithful (by decide)⟩

end Uptime

end StatusPage
