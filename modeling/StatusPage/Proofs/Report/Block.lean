import Mathlib
import StatusPage.Proofs.Locale.Number
import StatusPage.Proofs.Uptime.Parts
import StatusPage.Report.Output

namespace StatusPage

def splitLast (c : Char) (text : List Char) : Option (List Char × List Char) :=
  if c ∈ text then some ((text.rdropWhile (· ≠ c)).dropLast, text.rtakeWhile (· ≠ c)) else none

theorem splitLast_append {c : Char} {behind : List Char} (absent : c ∉ behind)
    (before : List Char) : splitLast c (before ++ c :: behind) = some (before, behind) := by
  have other : ∀ d ∈ behind.reverse, decide (d ≠ c) := by
    intro d member
    rw [decide_eq_true_eq]
    rintro rfl
    exact absent (List.mem_reverse.mp member)
  have reversed : (before ++ c :: behind).reverse = behind.reverse ++ c :: before.reverse := by
    simp
  have dropped : (before ++ c :: behind).rdropWhile (· ≠ c) = before ++ [c] := by
    rw [List.rdropWhile, reversed, List.dropWhile_append_of_pos other]
    simp
  have taken : (before ++ c :: behind).rtakeWhile (· ≠ c) = behind := by
    rw [List.rtakeWhile, reversed, List.takeWhile_append_of_pos other]
    simp
  rw [splitLast, if_pos (by simp), dropped, taken, List.dropLast_concat]

theorem Uptime.newline_not_mem_format (style : Style) (total : ℕ) :
    '\n' ∉ (format style total).toList := by
  have joined : '\n' ∉ (ofSeconds total).joined.toList := by
    intro member
    rw [Uptime.joined, String.toList_intercalate] at member
    rcases mem_of_mem_intercalate member with separator | inside
    · exact absurd separator (by decide)
    · obtain ⟨text, listed, inside⟩ := List.mem_flatten.mp inside
      obtain ⟨part, -, rfl⟩ : ∃ part, part ∈ (ofSeconds total).parts ∧
          part.text.toList = text := by simpa using listed
      rcases part.mem_text inside with digit | space | letter
      · simp at digit
      · simp at space
      · revert letter
        decide
  rw [format_eq, String.toList_append, List.mem_append]
  rintro (inside | behind)
  · exact joined inside
  · split at behind <;> exact absurd behind (by decide)

namespace Locale

theorem separators_plain (locale : Locale) :
    locale.groupSeparator ∉ [':', ' ', '\n'] ∧ locale.decimalSeparator ∉ [':', ' ', '\n'] := by
  cases locale <;> decide

theorem not_mem_of_isDigit {c : Char} (digit : c.isDigit) : c ∉ [':', ' ', '\n'] := by
  intro member
  simp only [List.mem_cons, List.not_mem_nil, or_false] at member
  rcases member with rfl | rfl | rfl <;> simp at digit

theorem formatNat_plain (locale : Locale) (n : ℕ) {c : Char}
    (member : c ∈ (locale.formatNat n).toList) : c ∉ [':', ' ', '\n'] := by
  rw [toList_formatNat, digits] at member
  rcases Text.mem_of_mem_group member with rfl | digit
  · exact locale.separators_plain.1
  · exact not_mem_of_isDigit (Nat.isDigit_of_mem_toDigits (by decide) (by decide) digit)

theorem formatFloat_plain (locale : Locale) (x : Binary64) {c : Char}
    (member : c ∈ (locale.formatFloat x).toList) : c ∉ [':', ' ', '\n'] := by
  by_cases finite : x.IsFinite
  · obtain ⟨numeral, written⟩ := locale.exists_numeral_thousandths
      (roundDiv (Binary64.unitsOfField x.field * 1000) Binary64.unitsPerOne)
    rw [locale.toList_formatFloat finite, written, List.mem_append] at member
    rcases member with sign | inside
    · split at sign
      · rw [List.mem_singleton.mp sign]
        decide
      · exact absurd sign List.not_mem_nil
    · rcases numeral.mem_text locale inside with digit | rfl | rfl
      · exact not_mem_of_isDigit digit
      · exact locale.separators_plain.1
      · exact locale.separators_plain.2
  · have words : ∀ word ∈ ["NaN", "-∞", "∞"], word.toList.all (· ∉ [':', ' ', '\n']) := by decide
    have plain := words _ (locale.formatFloat_of_not_isFinite finite)
    simpa using List.all_eq_true.mp plain c member

end Locale

theorem Output.splitOn_join {lines : List String} (whole : ∀ line ∈ lines, '\n' ∉ line.toList) :
    (join lines).toList.splitOn '\n' = lines.map String.toList ++ [[]] := by
  have text : (join lines).toList = ['\n'].intercalate (lines.map String.toList ++ [[]]) := by
    rw [intercalate_append_nil, join, String.toList_join]
    simp [List.flatMap_map]
  rw [text]
  apply List.splitOn_intercalate
  · intro line member
    rcases List.mem_append.mp member with listed | last
    · obtain ⟨text, inside, rfl⟩ := List.mem_map.mp listed
      exact whole text inside
    · rw [List.mem_singleton.mp last]
      exact List.not_mem_nil
  · simp

namespace Report

/-- What stands before the last colon of a row, and the column and the text of what follows the
    spaces behind it. -/
structure Row where
  label : String
  column : ℕ
  value : String
deriving DecidableEq

def readRow (row : List Char) : Option Row := do
  let (label, behind) ← splitLast ':' row
  let value := behind.dropWhile (· = ' ')
  return ⟨String.ofList label, row.length - value.length, String.ofList value⟩

theorem readRow_row (locale : Locale) (counter : String × Binary64) :
    readRow (row locale counter).toList =
      some ⟨counter.1, max valueColumn (counter.1.length + 1), locale.formatFloat counter.2⟩ := by
  let value := (locale.formatFloat counter.2).toList
  let spaces := List.replicate (valueColumn - (counter.1.length + 1)) ' '
  have text : (row locale counter).toList = counter.1.toList ++ ':' :: (spaces ++ value) := by
    rw [row, String.toList_append, toList_heading, List.append_assoc, List.cons_append]
  have colon : ':' ∉ spaces ++ value := by
    intro member
    rcases List.mem_append.mp member with space | inside
    · exact absurd (List.eq_of_mem_replicate space) (by decide)
    · exact locale.formatFloat_plain counter.2 inside (by decide)
  have dropped : (spaces ++ value).dropWhile (· = ' ') = value := by
    have blank : ∀ c ∈ spaces, decide (c = ' ') := fun c member =>
      decide_eq_true (List.eq_of_mem_replicate member)
    rw [List.dropWhile_append_of_pos blank]
    cases written : value with
    | nil => rfl
    | cons c rest =>
      have plain := locale.formatFloat_plain counter.2 (written ▸ List.mem_cons_self)
      apply List.dropWhile_cons_of_neg
      rw [decide_eq_true_eq]
      rintro rfl
      exact plain (by decide)
  have column : (row locale counter).toList.length - value.length =
      max valueColumn (counter.1.length + 1) := by
    rw [text]
    simp only [List.length_append, List.length_cons, List.length_replicate, String.length_toList,
      spaces]
    omega
  rw [readRow, text, splitLast_append colon]
  simp only [Option.bind_eq_bind, Option.bind_some, dropped]
  rw [← text, column, String.ofList_toList, String.ofList_toList]
  rfl

def OneLine (report : Report) : Prop := ∀ counter ∈ report.counters, '\n' ∉ counter.1.toList

instance (report : Report) : Decidable report.OneLine :=
  inferInstanceAs (Decidable (∀ counter ∈ report.counters, _))

theorem newline_not_mem_lines {report : Report} (labels : report.OneLine) :
    ∀ line ∈ report.lines, '\n' ∉ line.toList := by
  have fixed : ∀ text ∈ ["Status", "======", heading "Uptime", heading "Uptime (secs)"],
      '\n' ∉ text.toList := by decide
  have appended {text rest : String} (front : '\n' ∉ text.toList) (behind : '\n' ∉ rest.toList) :
      '\n' ∉ (text ++ rest).toList := by
    rw [String.toList_append]
    exact List.not_mem_append front behind
  intro line member
  simp only [lines, List.mem_cons, List.mem_map] at member
  rcases member with rfl | rfl | rfl | rfl | ⟨counter, listed, rfl⟩
  · exact fixed _ (by simp)
  · exact fixed _ (by simp)
  · exact appended (fixed _ (by simp)) (Uptime.newline_not_mem_format _ _)
  · apply appended (fixed _ (by simp))
    exact fun member => report.locale.formatNat_plain _ member (by simp)
  · apply appended
    · rw [toList_heading]
      simp [labels counter listed]
    · exact fun member => report.locale.formatFloat_plain _ member (by simp)

def shown (report : Report) : List (String × String) :=
  report.counters.map fun counter => (counter.1, report.locale.formatFloat counter.2)

/-- What is read from the lines of a block, the last of which is empty: the second count from the
    fourth, and a label and a value from each of the others. -/
def IsBlock (report : Report) (lines : List (List Char)) : Prop :=
  ∃ number rows,
    lines = "Status".toList :: "======".toList ::
      ("Uptime:        " ++ Uptime.format report.style report.seconds).toList ::
      ("Uptime (secs): ".toList ++ number) :: (rows ++ [[]]) ∧
    Text.natural? (number.filter (· ≠ report.locale.groupSeparator)) = some report.seconds ∧
    rows.map readRow = report.counters.map fun counter =>
      some ⟨counter.1, max 15 (counter.1.length + 1), report.locale.formatFloat counter.2⟩

theorem isBlock_text {report : Report} (labels : report.OneLine) :
    report.IsBlock ((Output.report report).text.toList.splitOn '\n') := by
  refine ⟨(report.locale.formatNat report.seconds).toList,
    report.counters.map fun counter => (row report.locale counter).toList, ?_,
    report.locale.natural?_formatNat _, ?_⟩
  · have uptime : heading "Uptime" = "Uptime:        " := by decide
    have seconds : heading "Uptime (secs)" = "Uptime (secs): " := by decide
    have split := Output.splitOn_join (newline_not_mem_lines labels)
    rw [lines, uptime, seconds] at split
    rw [Output.text, Output.lines, lines, uptime, seconds, split]
    simp
  · rw [List.map_map]
    exact List.map_congr_left fun counter _ => readRow_row report.locale counter

theorem IsBlock.unique {report other : Report} {lines : List (List Char)}
    (block : report.IsBlock lines) (rival : other.IsBlock lines)
    (locale : report.locale = other.locale) :
    report.seconds = other.seconds ∧ report.shown = other.shown := by
  obtain ⟨number, rows, split, seconds, read⟩ := block
  obtain ⟨digits, lines, parted, count, listed⟩ := rival
  rw [parted] at split
  simp only [List.cons.injEq, List.append_cancel_left_eq, List.append_cancel_right_eq,
    true_and] at split
  obtain ⟨-, rfl, rfl⟩ := split
  constructor
  · rw [locale, count] at seconds
    exact (Option.some.inj seconds).symm
  · have same := read.symm.trans listed
    have pairs := congrArg (List.map (Option.map fun row : Row => (row.label, row.value))) same
    rw [List.map_map, List.map_map] at pairs
    apply List.map_injective_iff.mpr (Option.some_injective _)
    rw [shown, shown, List.map_map, List.map_map]
    exact pairs

/-- A block of labels without line breaks is read back from its text alone, whatever else stands in
    the labels. So another block in the same locale has another text unless it shows the same. -/
theorem block_unambiguous (report : Report) (labels : report.OneLine) :
    report.IsBlock ((Output.report report).text.toList.splitOn '\n') ∧
    ∀ other : Report, other.locale = report.locale → other.OneLine →
      (Output.report other).text = (Output.report report).text →
        other.seconds = report.seconds ∧ other.shown = report.shown := by
  refine ⟨isBlock_text labels, ?_⟩
  intro other locale others same
  have rival := isBlock_text others
  rw [same] at rival
  exact rival.unique (isBlock_text labels) locale

def colons (style : Uptime.Style) : Report :=
  ⟨.deDE, style, 3661, [("a: b ", .ofBits 0xC09348999999999A), ("", .nan)]⟩

theorem block_colons : (colons .faithful).OneLine ∧ (Output.report (colons .faithful)).text =
      "Status\n======\nUptime:        1 hours, 1 minutes, 1 seconds\n" ++
        "Uptime (secs): 3.661\na: b :         -1.234,15\n:              NaN\n" ∧
    (colons .faithful).IsBlock ((Output.report (colons .faithful)).text.toList.splitOn '\n') ∧
    (colons .trimmed).shown = (colons .faithful).shown := by
  have labels : (colons .faithful).OneLine := by decide
  have others : (colons .trimmed).OneLine := by decide
  have same : (Output.report (colons .trimmed)).text = (Output.report (colons .faithful)).text := by
    decide +kernel
  obtain ⟨block, unique⟩ := block_unambiguous (colons .faithful) labels
  exact ⟨labels, by decide +kernel, block, (unique (colons .trimmed) rfl others same).2⟩

end Report

end StatusPage
