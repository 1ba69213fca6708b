import Mathlib
import StatusPage.Proofs.Binary64.Literal
import StatusPage.Uptime

namespace StatusPage.Uptime

/-- Read a count and the name of its unit at the start of a text. There is none of a unit that does
    not stand there. -/
def readPart (unit after : String) (text : List Char) : ℕ × List Char :=
  match (text.dropWhile Char.isDigit).dropPrefix? (" " ++ unit ++ after).toList with
  | some rest => (Nat.ofDigitChars 10 (text.takeWhile Char.isDigit) 0, rest)
  | none => (0, text)

def ofText (text : List Char) : Uptime :=
  let (days, text) := readPart "days" separator text
  let (hours, text) := readPart "hours" separator text
  let (minutes, text) := readPart "minutes" separator text
  let (seconds, _) := readPart "seconds" "" text
  ⟨days, hours, minutes, seconds⟩

theorem part_append (count : ℕ) (unit after : String) (rest : List Char) :
    (part count unit after).toList ++ rest =
      if count = 0 then rest
      else Nat.toDigits 10 count ++ ((" " ++ unit ++ after).toList ++ rest) := by
  rw [part]
  split
  · rfl
  · simp [String.append_assoc]

theorem splitDigits_part {count : ℕ} (some : count ≠ 0) (unit after : String) (rest : List Char) :
    let text := (part count unit after).toList ++ rest
    text.takeWhile Char.isDigit = Nat.toDigits 10 count ∧
      text.dropWhile Char.isDigit = (" " ++ unit ++ after).toList ++ rest := by
  have digits : ∀ c ∈ Nat.toDigits 10 count, c.isDigit := fun _ =>
    Nat.isDigit_of_mem_toDigits (by decide) (by decide)
  rw [part_append, if_neg some]
  apply Binary64.takeWhile_digits digits
  simp

variable {unit after : String} {rest : List Char}

def Lacks (unit after : String) (text : List Char) : Prop := readPart unit after text = (0, text)

theorem lacks_nil (unit after : String) : Lacks unit after [] := by
  simp [Lacks, readPart, List.dropPrefix?]

theorem readPart_part (count : ℕ) (lacks : Lacks unit after rest) :
    readPart unit after ((part count unit after).toList ++ rest) = (count, rest) := by
  by_cases none : count = 0
  · rw [part_append, if_pos none, none, lacks]
  · obtain ⟨taken, dropped⟩ := splitDigits_part none unit after rest
    rw [readPart, taken, dropped, List.dropPrefix?_append_of_beq _ (beq_self_eq_true _)]
    dsimp only
    rw [Nat.ofDigitChars_ten_toDigits]

theorem Lacks.part {other next : String} (lacks : Lacks unit after rest) (count : ℕ)
    (differ : ((" " ++ other ++ next).toList ++ rest).dropPrefix? (" " ++ unit ++ after).toList =
      none) :
    Lacks unit after ((part count other next).toList ++ rest) := by
  by_cases none : count = 0
  · rw [part_append, if_pos none]
    exact lacks
  · obtain ⟨-, dropped⟩ := splitDigits_part none other next rest
    rw [Lacks, readPart, dropped, differ]

theorem ofText_text (u : Uptime) : ofText u.text.toList = u := by
  obtain ⟨days, hours, minutes, seconds⟩ := u
  by_cases zero : isZero ⟨days, hours, minutes, seconds⟩
  · rw [text, if_pos zero]
    simp only [isZero, Bool.and_eq_true, decide_eq_true_eq] at zero
    obtain ⟨⟨⟨rfl, rfl⟩, rfl⟩, rfl⟩ := zero
    rfl
  · let afterMinutes := (part seconds "seconds" "").toList ++ []
    let afterHours := (part minutes "minutes" separator).toList ++ afterMinutes
    let afterDays := (part hours "hours" separator).toList ++ afterHours
    have parts : (text ⟨days, hours, minutes, seconds⟩).toList =
        (part days "days" separator).toList ++ afterDays := by
      rw [text, if_neg zero]
      simp [afterDays, afterHours, afterMinutes]
    have noMinutes : Lacks "minutes" separator afterMinutes :=
      (lacks_nil _ _).part seconds rfl
    have noHours : Lacks "hours" separator afterHours :=
      ((lacks_nil _ _).part seconds rfl).part minutes rfl
    have noDays : Lacks "days" separator afterDays :=
      (((lacks_nil _ _).part seconds rfl).part minutes rfl).part hours rfl
    rw [parts, ofText, readPart_part days noDays]
    dsimp only
    rw [readPart_part hours noHours]
    dsimp only
    rw [readPart_part minutes noMinutes]
    dsimp only
    rw [readPart_part seconds (lacks_nil _ _)]

/-- An uptime is read back from its text, so no two have the same one. -/
theorem text_unambiguous (u v : Uptime) :
    (u.text = v.text ↔ u = v) ∧
    (u.text = "0 seconds" ↔ u.days = 0 ∧ u.hours = 0 ∧ u.minutes = 0 ∧ u.seconds = 0) ∧
    u.text ≠ "" := by
  have injective {u v : Uptime} (same : u.text = v.text) : u = v := by
    rw [← ofText_text u, same, ofText_text]
  refine ⟨⟨injective, congrArg text⟩, ?_, ?_⟩
  · constructor
    · intro same
      rw [injective (v := ⟨0, 0, 0, 0⟩) same]
      decide
    · intro zero
      rw [text, if_pos (by simp [isZero, zero])]
  · intro empty
    have same := ofText_text u
    rw [empty] at same
    rw [← same] at empty
    exact absurd empty (by decide)

end StatusPage.Uptime
