import Mathlib
import StatusPage.Proofs.Span.Terms
import StatusPage.Uptime

namespace StatusPage.Uptime

structure Part where
  count : Nat
  unit : TimeUnit
  name : String
  named : name ∈ unit.names
  whole : unit.scale.nanos = 0

def Part.text (part : Part) : String := toString part.count ++ " " ++ part.name

theorem Part.mem_text (part : Part) {c : Char} (member : c ∈ part.text.toList) :
    c.isDigit ∨ c = ' ' ∨ Span.isUnitLetter c := by
  simp only [Part.text, String.toList_append, List.mem_append, Nat.toString_eq_ofList_toDigits,
    String.toList_ofList] at member
  rcases member with (digit | space) | letter
  · exact .inl (Nat.isDigit_of_mem_toDigits (by decide) (by decide) digit)
  · exact .inr (.inl (List.mem_singleton.mp space))
  · exact .inr (.inr (TimeUnit.letter_of_mem part.named letter).1)

def Part.seconds (part : Part) : Nat := part.count * part.unit.scale.seconds

def Part.zero : Part := ⟨0, .second, "seconds", by decide, rfl⟩

def units (u : Uptime) : List Part :=
  [⟨u.days, .day, "days", by decide, rfl⟩, ⟨u.hours, .hour, "hours", by decide, rfl⟩,
    ⟨u.minutes, .minute, "minutes", by decide, rfl⟩,
    ⟨u.seconds, .second, "seconds", by decide, rfl⟩]

def parts (u : Uptime) : List Part :=
  if u.isZero then [.zero] else u.units.filter fun part => part.count ≠ 0

def joined (u : Uptime) : String := separator.intercalate (u.parts.map Part.text)

theorem text_of_isZero {u : Uptime} (zero : u.isZero) : u.text = u.joined := by
  simp only [text, joined, parts, zero, ↓reduceIte, List.map_cons, List.map_nil]
  decide

theorem text_of_not_isZero {u : Uptime} (zero : ¬ u.isZero) :
    u.text = u.joined ++ if u.seconds = 0 then separator else "" := by
  obtain ⟨days, hours, minutes, seconds⟩ := u
  by_cases d : days = 0 <;> by_cases h : hours = 0 <;> by_cases m : minutes = 0 <;>
    by_cases s : seconds = 0
  all_goals simp [isZero, d, h, m, s] at zero
  all_goals
    simp [text, joined, parts, units, isZero, part, Part.text, d, h, m, s, String.append_assoc]

theorem dropSeparator_append (text : String) : dropSeparator (text ++ separator) = text := by
  have reversed : (text ++ separator).toList.reverse = ' ' :: ',' :: text.toList.reverse := by
    simp [separator]
  rw [dropSeparator, reversed]
  simp

theorem dropSeparator_seconds (front : String) :
    dropSeparator (front ++ "seconds") = front ++ "seconds" := by
  have reversed : (front ++ "seconds").toList.reverse =
      "sdnoces".toList ++ front.toList.reverse := by
    simp
  rw [dropSeparator, reversed]
  rfl

theorem dropSeparator_text (u : Uptime) : dropSeparator u.text = u.joined := by
  by_cases zero : u.isZero
  · rw [← text_of_isZero zero, text, if_pos zero]
    decide
  · by_cases seconds : u.seconds = 0
    · rw [text_of_not_isZero zero, if_pos seconds, dropSeparator_append]
    · have same := text_of_not_isZero zero
      rw [if_neg seconds, String.append_empty] at same
      rw [← same, text, if_neg zero]
      simp only [part, seconds, ↓reduceIte, String.append_empty, ← String.append_assoc]
      rw [dropSeparator_seconds]

theorem isZero_ofSeconds (total : Nat) : (ofSeconds total).isZero ↔ total = 0 := by
  simp only [isZero, Bool.and_eq_true, decide_eq_true_eq]
  simp only [ofSeconds]
  omega

theorem format_eq (style : Style) (total : Nat) :
    format style total = (ofSeconds total).joined ++
      if style = .faithful ∧ 0 < total ∧ total % 60 = 0 then separator else "" := by
  cases style with
  | trimmed => simp [format, dropSeparator_text]
  | faithful =>
    have seconds : (ofSeconds total).seconds = total % 60 := rfl
    by_cases zero : total = 0
    · have isZero := (isZero_ofSeconds total).mpr zero
      rw [format, text_of_isZero isZero, if_neg (by omega), String.append_empty]
    · have isZero := mt (isZero_ofSeconds total).mp zero
      rw [format, text_of_not_isZero isZero, seconds]
      simp [Nat.pos_of_ne_zero zero]

theorem parts_ne_nil (u : Uptime) : u.parts ≠ [] := by
  rw [parts]
  split
  next => exact List.cons_ne_nil _ _
  next zero =>
    intro none
    rw [List.filter_eq_nil_iff] at none
    simp [units] at none
    simp [isZero, none] at zero

theorem sum_parts (u : Uptime) :
    (u.parts.map Part.seconds).sum =
      u.days * 86400 + u.hours * 3600 + u.minutes * 60 + u.seconds := by
  obtain ⟨days, hours, minutes, seconds⟩ := u
  by_cases d : days = 0 <;> by_cases h : hours = 0 <;> by_cases m : minutes = 0 <;>
    by_cases s : seconds = 0
  all_goals
    simp [parts, units, isZero, Part.zero, Part.seconds, TimeUnit.scale, d, h, m, s]
  all_goals omega

/-- What is written of a second count, the largest unit first: how many it has of each, unless it
    has none. -/
def partTexts (total : Nat) : List String :=
  if total = 0 then ["0 seconds"]
  else
    let counts := [(total / 86400, "days"), (total / 3600 % 24, "hours"),
      (total / 60 % 60, "minutes"), (total % 60, "seconds")]
    (counts.filter fun (count, _) => count ≠ 0).map fun (count, unit) =>
      toString count ++ " " ++ unit

theorem map_text_parts (total : Nat) :
    (ofSeconds total).parts.map Part.text = partTexts total := by
  rw [parts, partTexts]
  simp only [isZero_ofSeconds]
  split
  next => rfl
  next =>
    have counts : [(total / 86400, "days"), (total / 3600 % 24, "hours"),
        (total / 60 % 60, "minutes"), (total % 60, "seconds")] =
          (ofSeconds total).units.map fun part => (part.count, part.name) := by
      simp only [units, ofSeconds, List.map_cons, List.map_nil, Nat.div_div_eq_div_mul]
    rw [counts, List.filter_map, List.map_map]
    rfl

theorem Part.getLast?_text (part : Part) :
    ∃ c ∈ part.text.toList.getLast?, Span.isUnitLetter c := by
  have named := TimeUnit.name_ne_nil part.named
  obtain ⟨c, last⟩ := Option.isSome_iff_exists.mp (List.getLast?_isSome.mpr named)
  have letter := (TimeUnit.letter_of_mem part.named (List.mem_of_getLast? last)).1
  refine ⟨c, ?_, letter⟩
  rw [text, String.toList_append]
  exact List.mem_getLast?_append_of_mem_getLast? last

theorem getLast?_joined (u : Uptime) :
    ∃ c ∈ u.joined.toList.getLast?, Span.isUnitLetter c := by
  obtain ⟨front, last, written⟩ := (List.eq_nil_or_concat' u.parts).resolve_left u.parts_ne_nil
  obtain ⟨before, text⟩ : ∃ before, u.joined = before ++ last.text := by
    rw [joined, written, List.map_append, List.map_singleton]
    by_cases alone : front.map Part.text = []
    · exact ⟨"", by rw [alone, List.nil_append, String.intercalate_singleton, String.empty_append]⟩
    · exact ⟨_, String.intercalate_append_of_ne_nil alone (List.cons_ne_nil _ _)⟩
  obtain ⟨c, ends, letter⟩ := last.getLast?_text
  refine ⟨c, ?_, letter⟩
  rw [text, String.toList_append]
  exact List.mem_getLast?_append_of_mem_getLast? ends

/-- Trimmed, a second count is the join of what is written of it. Otherwise a separator dangles
    behind that when the count is a whole number of minutes, and nowhere else. -/
theorem format_join (total : Nat) :
    format .trimmed total = ", ".intercalate (partTexts total) ∧
    format .faithful total = (ofSeconds total).text ∧
    (ofSeconds total).text =
      format .trimmed total ++ (if 0 < total ∧ total % 60 = 0 then ", " else "") ∧
    format .trimmed total ≠ "" ∧ ¬ [',', ' '] <:+ (format .trimmed total).toList := by
  have trimmed : format .trimmed total = (ofSeconds total).joined := dropSeparator_text _
  have faithful := format_eq .faithful total
  simp only [true_and] at faithful
  obtain ⟨c, last, letter⟩ := getLast?_joined (ofSeconds total)
  rw [trimmed]
  refine ⟨?_, rfl, faithful, ?_, ?_⟩
  · rw [joined, map_text_parts]
    rfl
  · intro empty
    rw [empty] at last
    cases last
  · rintro ⟨front, same⟩
    rw [← same, List.getLast?_append] at last
    cases last
    exact absurd letter (by decide)

end StatusPage.Uptime
