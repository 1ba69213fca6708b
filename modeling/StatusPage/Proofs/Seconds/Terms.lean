import Mathlib
import StatusPage.Proofs.Binary64.Grammar
import StatusPage.Proofs.Seconds.Literal
import StatusPage.Proofs.Span.Reading

namespace StatusPage

open Binary64 (InDecimal)

variable {text : List Char}

namespace Seconds

theorem ofInteger?_of_foreign (foreign : ∃ c ∈ text, ¬ InDecimal c) : ofInteger? text = none := by
  obtain ⟨c, member, other⟩ := foreign
  have noDigit : ¬ c.isDigit := fun digit => other (.inl digit)
  have natural (rest : List Char) (sign : Char) (same : text = sign :: rest)
      (isSign : sign = '-' ∨ sign = '+') : Text.natural? rest = none := by
    subst same
    rcases List.mem_cons.mp member with same | inside
    · exact absurd (.inr (.inr (.inr (same ▸ isSign)))) other
    · exact Text.natural?_eq_none ⟨c, inside, noDigit⟩
  have plain : Text.natural? text = none := Text.natural?_eq_none ⟨c, member, noDigit⟩
  have unsigned : Text.unsigned? text = none := by
    unfold Text.unsigned?
    split
    next rest => exact natural rest '+' rfl (.inr rfl)
    next => exact plain
  have signed : Text.signed? text = none := by
    unfold Text.signed?
    split
    next rest => rw [natural rest '-' rfl (.inl rfl), Option.map_none]
    next => rw [unsigned, Option.map_none]
  rw [ofInteger?, unsigned, signed]
  rfl

theorem read_of_foreign {text : String} (digit : ∃ c ∈ Text.trim text.toList, c.isDigit)
    (foreign : ∃ c ∈ Text.trim text.toList, ¬ InDecimal c) :
    read text = ofSpanText (Text.trim text.toList) := by
  obtain ⟨c, member, -⟩ := id digit
  rw [read, if_neg (List.ne_nil_of_mem member), ofInteger?_of_foreign foreign]
  dsimp only
  rw [Binary64.ofLiteral_of_foreign digit foreign]

end Seconds

namespace Span

theorem Amount.digit_mem (amount : Amount) : amount.first ∈ amount.text := by
  simp [Amount.text, Numeral.text]

theorem Amount.exists_foreign (amount : Amount) : ∃ c ∈ amount.text, ¬ InDecimal c := by
  have table : ∀ unit ∈ TimeUnit.all, ∀ name ∈ unit.names,
      name.toList.any fun c => ¬ InDecimal c := by decide
  obtain ⟨c, member, other⟩ := List.any_eq_true.mp (table _ amount.unit.mem_all _ amount.named)
  exact ⟨c, List.mem_append_right _ member, of_decide_eq_true other⟩

theorem flatMap_ends_in_name {terms : List Term} (written : terms ≠ []) :
    ∃ front, ∃ last : Term, terms.flatMap Term.text = front ++ last.name.toList := by
  let last := terms.getLast written
  have split := List.dropLast_concat_getLast written
  refine ⟨terms.dropLast.flatMap Term.text ++ (last.before ++ (last.digits ++ last.between)),
    last, ?_⟩
  rw [← split, List.flatMap_append, List.flatMap_singleton, split]
  simp [last, Term.text]

theorem last_of_flatMap {terms : List Term} (written : terms ≠ []) :
    ∀ c ∈ (terms.flatMap Term.text).getLast?, ¬ Text.isBlank c := by
  obtain ⟨front, last, ends⟩ := flatMap_ends_in_name written
  obtain ⟨letters, letter, name⟩ := List.eq_nil_or_concat last.name.toList |>.resolve_left
    (TimeUnit.name_ne_nil last.named)
  intro c same
  rw [ends, name, List.concat_eq_append, ← List.append_assoc, List.getLast?_concat,
    Option.mem_some] at same
  subst same
  exact (TimeUnit.letter_of_mem last.named (by simp [name])).2.2

theorem Term.head_of_bare (term : Term) (rest : List Char) :
    ∀ c ∈ (term.bare.text ++ rest).head?, ¬ Text.isBlank c := by
  obtain ⟨first, more, digits⟩ := List.exists_cons_of_ne_nil term.written
  intro c same blank
  have text : term.bare.text = first :: (more ++ (term.between ++ term.name.toList)) := by
    simp [text, bare, digits]
  rw [text, List.cons_append, List.head?_cons, Option.mem_some] at same
  subst same
  exact Text.not_isDigit_of_isBlank blank (term.isDigit first (by simp [digits]))

end Span

theorem Seconds.read_of_amounts {text : String} {amounts : List Span.Amount} {rest : List Char}
    (written : amounts ≠ [])
    (same : Text.trim text.toList = amounts.flatMap Span.Amount.text ++ rest) :
    read text = ofSpanText (Text.trim text.toList) := by
  obtain ⟨amount, more, rfl⟩ := List.exists_cons_of_ne_nil written
  have inside : ∀ c ∈ amount.text, c ∈ Text.trim text.toList := by
    intro c member
    rw [same, List.flatMap_cons]
    exact List.mem_append_left _ (List.mem_append_left _ member)
  obtain ⟨c, member, other⟩ := amount.exists_foreign
  exact read_of_foreign ⟨_, inside _ amount.digit_mem, amount.isDigit⟩ ⟨c, inside c member, other⟩

theorem Seconds.ofSpan_of_whole {span : Span} {seconds : Nat}
    (whole : span.nanoseconds = seconds * nanosPerSecond) : ofSpan span = .ok seconds := by
  have subsecond : span.subsecond = 0 := by
    rw [Span.subsecond, whole, Nat.mul_mod_left]
  have count : span.seconds = seconds := by
    rw [Span.seconds, whole, Nat.mul_div_cancel _ (by decide)]
  rw [ofSpan, if_pos subsecond, count]

theorem Seconds.read_terms {terms : List Span.Term} {behind : List Char} (written : terms ≠ [])
    (words : ∀ term ∈ terms, term.Fits)
    (fits : (terms.map Span.Term.nanoseconds).sum < wordLimit * nanosPerSecond)
    (blank : ∀ c ∈ behind, Text.isBlank c) :
    read (String.ofList (terms.flatMap Span.Term.text ++ behind)) =
      (ofSpan ⟨_, fits⟩).mapError .refused := by
  obtain ⟨term, rest, rfl⟩ := List.exists_cons_of_ne_nil written
  let body := (term.bare :: rest).flatMap Span.Term.text
  have whole : (term :: rest).flatMap Span.Term.text = term.before ++ body := by
    simp [body, Span.Term.text, Span.Term.bare]
  have bareWords : ∀ t ∈ term.bare :: rest, t.Fits := by
    intro t member
    rcases List.mem_cons.mp member with rfl | member
    · exact (words term (by simp)).bare
    · exact words t (by simp [member])
  have span := Span.read_terms (List.cons_ne_nil term.bare rest) bareWords fits
  have trimmed : Text.trim (String.ofList ((term :: rest).flatMap Span.Term.text ++ behind)).toList
      = body := by
    rw [String.toList_ofList, whole]
    exact Text.trim_of_blanks (term.head_of_bare _)
      (Span.last_of_flatMap (List.cons_ne_nil term.bare rest)) term.blankBefore blank
  have amounts : body = ((term.bare :: rest).map Span.Term.amount).flatMap Span.Amount.text ++
      [] := by
    simp only [List.flatMap_map, Span.Term.amount_text, List.append_nil, body]
  rw [read_of_amounts (by simp) (trimmed.trans amounts), trimmed, ofSpanText, span]
  rfl

/-- Terms of all units are one sum to the nanosecond. It is a second count when it is a whole number
    of seconds, however many terms it takes to fill them, and else it is refused as a fraction. -/
theorem Seconds.read_sum_of_terms {terms : List Span.Term} {behind : List Char}
    (written : terms ≠ []) (words : ∀ term ∈ terms, term.Fits)
    (fits : (terms.map Span.Term.nanoseconds).sum < wordLimit * nanosPerSecond)
    (blank : ∀ c ∈ behind, Text.isBlank c) :
    let total := (terms.map Span.Term.nanoseconds).sum
    (∀ seconds, total = seconds * nanosPerSecond →
      read (String.ofList (terms.flatMap Span.Term.text ++ behind)) = .ok seconds) ∧
    (¬ nanosPerSecond ∣ total →
      read (String.ofList (terms.flatMap Span.Term.text ++ behind)) =
        .error (.refused (.notAnInteger (Span.toBinary64 ⟨total, fits⟩)))) := by
  intro total
  have sum := read_terms written words fits blank
  constructor
  · intro seconds whole
    rw [sum, ofSpan_of_whole whole]
    rfl
  · intro part
    have subsecond : ¬ Span.subsecond ⟨total, fits⟩ = 0 := mt Nat.dvd_of_mod_eq_zero part
    rw [sum, ofSpan, if_neg subsecond]
    rfl

def halfSeconds : List Span.Term :=
  [{ before := [], digits := "500".toList, between := [], unit := .millisecond, name := "ms",
     blankBefore := Text.blank_nil, blankBetween := Text.blank_nil,
     isDigit := List.all_eq_true.mp rfl, written := by decide, named := TimeUnit.ms_mem_names },
   { before := [], digits := "0500".toList, between := [' '], unit := .millisecond,
     name := "millis", blankBefore := Text.blank_nil, blankBetween := Text.blank_space,
     isDigit := List.all_eq_true.mp rfl, written := by decide, named := by decide }]

theorem Seconds.read_sum_of_half_seconds : halfSeconds ≠ [] ∧ (∀ term ∈ halfSeconds, term.Fits) ∧
    (halfSeconds.map Span.Term.nanoseconds).sum = 1 * nanosPerSecond ∧
    read "500ms0500 millis " = .ok 1 := by
  have words : ∀ term ∈ halfSeconds, term.Fits := by
    intro term member
    simp only [halfSeconds, List.mem_cons, List.not_mem_nil, or_false] at member
    rcases member with rfl | rfl <;> exact ⟨by decide, by decide⟩
  have sum : (halfSeconds.map Span.Term.nanoseconds).sum = 1 * nanosPerSecond := by decide
  have fits : (halfSeconds.map Span.Term.nanoseconds).sum < wordLimit * nanosPerSecond := by
    rw [sum]
    decide
  have read := read_sum_of_terms (List.cons_ne_nil _ _) words fits Text.blank_space
  exact ⟨List.cons_ne_nil _ _, words, sum, read.1 1 sum⟩

example : Seconds.read "1h 1500ms" =
    .error (.refused (.notAnInteger (.ofRatio false 7203 2))) := by decide +kernel

end StatusPage
