import Mathlib
import StatusPage.Proofs.Span.Reading

namespace StatusPage.Span

theorem checked_ok_iff {n m : ℕ} : checked n = .ok m ↔ n < wordLimit ∧ n = m := by
  rw [checked_eq]
  by_cases small : n < wordLimit
  · simp [small]
  · simp [small]

def Numeral.pointed (numeral : Numeral) : Numeral :=
  { numeral with places := some [], inPlaces := by simp }

theorem Numeral.pointed_text {numeral : Numeral} (none : numeral.places = none) :
    numeral.pointed.text = numeral.text ++ ['.'] := by
  simp [text, point, pointed, none]

theorem Numeral.pointed_part (numeral : Numeral) : numeral.pointed.part = some ⟨0, 1⟩ := rfl

theorem Numeral.Readable.pointed {numeral : Numeral} (readable : numeral.Readable) :
    numeral.pointed.Readable := by
  refine ⟨readable.1, ?_⟩
  intro part same
  rw [Numeral.pointed_part] at same
  obtain rfl := Option.some.inj same
  show 1 < wordLimit
  decide

theorem Numeral.start_text {before : List Char} {c : Char} (blank : ∀ c ∈ before, Text.isBlank c)
    (isDigit : c.isDigit) : (start before c blank isDigit).text = before ++ [c] := rfl

theorem Numeral.start_readable {before : List Char} {c : Char}
    (blank : ∀ c ∈ before, Text.isBlank c) (isDigit : c.isDigit) :
    (start before c blank isDigit).Readable :=
  ⟨(start before c blank isDigit).first_lt, by simp [part, start]⟩

variable {total next : Span} {stage after : Stage} {offset : ℕ} {c : Char}

namespace Reader

theorem of_firstDigit {waiting : Stage} {since : ℕ}
    (first : firstDigit waiting since c = .ok stage) :
    (c.isDigit ∧ stage = .whole (digitValue c)) ∨ (Text.isBlank c ∧ stage = waiting) := by
  unfold firstDigit at first
  by_cases digit : c.isDigit
  · rw [if_pos digit] at first
    exact .inl ⟨digit, (Except.ok.inj first).symm⟩
  · by_cases blank : Text.isBlank c
    · rw [if_neg digit, if_pos blank] at first
      exact .inr ⟨blank, (Except.ok.inj first).symm⟩
    · rw [if_neg digit, if_neg blank] at first
      cases first

/-- What a number goes on with: a character of its own, a decimal point or the name of a unit. -/
inductive Continues (numeral : Numeral) (c : Char) : Stage → Prop where
  | inside (inside : InNumber c) (fault : ℕ) (readable : (numeral.push c inside).Readable) :
    Continues numeral c (stageBehind (numeral.push c inside) fault)
  | point (fault : ℕ) (point : c = '.') (none : numeral.places = none) :
    Continues numeral c (stageBehind numeral.pointed fault)
  | name (placed : numeral.Placed) : Continues numeral c (.unit numeral.value numeral.part [c])

theorem continues_whole {numeral : Numeral} (places : numeral.places = none)
    (readable : numeral.Readable)
    (advanced : advance total offset c (.whole numeral.value) = .ok (next, after)) :
    next = total ∧ Continues numeral c after := by
  have none : numeral.part = none := by rw [Numeral.part, places, Option.map_none]
  have pushed (inside : InNumber c) :
      stageBehind (numeral.push c inside) 0 = .whole (goOn numeral.value [c]) := by
    rw [stageBehind, Numeral.push_part, Numeral.push_value, none, if_pos places]
    rfl
  have fits (inside : InNumber c) (small : goOn numeral.value [c] < wordLimit) :
      (numeral.push c inside).Readable := by
    refine ⟨by rwa [Numeral.push_value, if_pos places], ?_⟩
    simp [Numeral.push_part, none]
  by_cases digit : c.isDigit
  · rw [advance, if_pos digit] at advanced
    obtain ⟨value, word, same⟩ := exists_of_bind_ok advanced
    obtain ⟨small, rfl⟩ := checked_ok_iff.mp word
    rw [← goOn_digit _ digit] at small same
    cases same
    have inside : InNumber c := .inl digit
    exact ⟨rfl, pushed inside ▸ .inside inside 0 (fits inside small)⟩
  · rw [advance, if_neg digit] at advanced
    by_cases blank : Text.isBlank c
    · rw [if_pos blank] at advanced
      cases advanced
      have inside : InNumber c := .inr blank
      have same : goOn numeral.value [c] = numeral.value := goOn_other _ digit
      have stays := pushed inside
      rw [same] at stays
      exact ⟨rfl, stays ▸ .inside inside 0 (fits inside (by rw [same]; exact readable.1))⟩
    · rw [if_neg blank] at advanced
      by_cases letter : isUnitLetter c
      · rw [if_pos letter] at advanced
        cases advanced
        have placed : numeral.Placed := by simp [Numeral.Placed, places]
        exact ⟨rfl, none ▸ .name placed⟩
      · rw [if_neg letter] at advanced
        by_cases point : c = '.'
        · rw [if_pos point] at advanced
          cases advanced
          exact ⟨rfl, .point offset point places⟩
        · rw [if_neg point] at advanced
          cases advanced

theorem continues_fraction {numeral : Numeral} {part : Fraction} {fault : ℕ}
    (present : numeral.part = some part) (readable : numeral.Readable)
    (advanced : advance total offset c (.fraction numeral.value part fault) = .ok (next, after)) :
    next = total ∧ Continues numeral c after := by
  have places : numeral.places ≠ none := by
    intro none
    rw [Numeral.part, none] at present
    cases present
  have value (inside : InNumber c) : (numeral.push c inside).value = numeral.value := by
    rw [Numeral.push_value, if_neg places]
  have pushed (inside : InNumber c) (fault : ℕ) :
      stageBehind (numeral.push c inside) fault =
        .fraction numeral.value (part.goOn [c]) fault := by
    rw [stageBehind, Numeral.push_part, value, present]
    rfl
  have fits (inside : InNumber c) (small : (part.goOn [c]).denominator < wordLimit) :
      (numeral.push c inside).Readable := by
    refine ⟨value inside ▸ readable.1, ?_⟩
    simpa [Numeral.push_part, present] using small
  by_cases digit : c.isDigit
  · rw [advance, if_pos digit] at advanced
    obtain ⟨denominator, word, same⟩ := exists_of_bind_ok advanced
    obtain ⟨small, rfl⟩ := checked_ok_iff.mp word
    cases same
    have inside : InNumber c := .inl digit
    have goesOn := part.goOn_digit digit
    rw [← goesOn]
    exact ⟨rfl, pushed inside _ ▸ .inside inside _ (fits inside (by rwa [goesOn]))⟩
  · rw [advance, if_neg digit] at advanced
    by_cases blank : Text.isBlank c
    · rw [if_pos blank] at advanced
      cases advanced
      have inside : InNumber c := .inr blank
      have same : part.goOn [c] = part := part.goOn_other digit
      have small := readable.2 part present
      have stays := pushed inside (offset + c.utf8Size)
      rw [same] at stays
      exact ⟨rfl, stays ▸ .inside inside _ (fits inside (by rw [same]; exact small))⟩
    · rw [if_neg blank] at advanced
      by_cases letter : isUnitLetter c ∧ part.denominator ≠ 1
      · rw [if_pos letter] at advanced
        cases advanced
        exact ⟨rfl, present ▸ .name ((Numeral.placed_iff present).mpr letter.2)⟩
      · rw [if_neg letter] at advanced
        cases advanced

theorem continues_of_advance {numeral : Numeral} {fault : ℕ} (readable : numeral.Readable)
    (advanced : advance total offset c (stageBehind numeral fault) = .ok (next, after)) :
    next = total ∧ Continues numeral c after := by
  unfold stageBehind at advanced
  cases present : numeral.part with
  | none =>
    rw [present] at advanced
    exact continues_whole (Option.map_eq_none_iff.mp present) readable advanced
  | some part =>
    rw [present] at advanced
    exact continues_fraction present readable advanced

theorem exists_of_step {reader following : Reader} (step : reader.step c = .ok following) :
    ∃ next after, advance reader.total reader.offset c reader.stage = .ok (next, after) ∧
      following = ⟨next, reader.offset + c.utf8Size, after⟩ := by
  unfold Reader.step at step
  obtain ⟨⟨next, after⟩, advanced, same⟩ := exists_of_bind_ok step
  exact ⟨next, after, advanced, (Except.ok.inj same).symm⟩

/-- What a reader has read of a text: blanks, or amounts that are added up with blanks, a number or
    a number and some letters behind them. -/
inductive Consumed : List Char → Reader → Prop where
  | start {blanks : List Char} (offset : ℕ) (blank : ∀ c ∈ blanks, Text.isBlank c) :
    Consumed blanks ⟨zero, offset, .start⟩
  | gap {total : Span} {amounts : List Amount} {blanks : List Char} (offset since : ℕ)
    (written : amounts ≠ [])
    (added : zero.addLengths (amounts.flatMap Amount.lengths) = .ok total)
    (blank : ∀ c ∈ blanks, Text.isBlank c) :
    Consumed (amounts.flatMap Amount.text ++ blanks) ⟨total, offset, .gap since⟩
  | number {total : Span} {amounts : List Amount} {numeral : Numeral} (offset fault : ℕ)
    (added : zero.addLengths (amounts.flatMap Amount.lengths) = .ok total)
    (readable : numeral.Readable) :
    Consumed (amounts.flatMap Amount.text ++ numeral.text)
      ⟨total, offset, stageBehind numeral fault⟩
  | unit {total : Span} {amounts : List Amount} {numeral : Numeral} (offset : ℕ)
    (name : List Char) (added : zero.addLengths (amounts.flatMap Amount.lengths) = .ok total)
    (readable : numeral.Readable) (placed : numeral.Placed) :
    Consumed (amounts.flatMap Amount.text ++ (numeral.text ++ name))
      ⟨total, offset, .unit numeral.value numeral.part name⟩

theorem amount_of_addTerm {numeral : Numeral} (readable : numeral.Readable)
    (placed : numeral.Placed) {name : List Char} {result : Except (Failure ReadError) Span}
    (added : total.addTerm numeral.value numeral.part name = result)
    (taken : ∀ reason, result ≠ .error (.refused reason)) :
    ∃ amount : Amount, amount.text = numeral.text ++ name ∧
      total.addLengths amount.lengths = result := by
  cases known : TimeUnit.ofName? (String.ofList name) with
  | none =>
    rw [addTerm, known] at added
    exact absurd added.symm (taken _)
  | some unit =>
    have named := TimeUnit.mem_names_of_ofName? known
    let amount : Amount := { numeral with unit, name := String.ofList name, named, placed }
    refine ⟨amount, ?_, ?_⟩
    · rw [Amount.text, String.toList_ofList]
    · rw [Amount.lengths, if_pos readable, ← added, addTerm_eq total named]

theorem amounts_of_addTerm {numeral : Numeral} (readable : numeral.Readable)
    (placed : numeral.Placed) {amounts : List Amount} {name : List Char}
    {result : Except (Failure ReadError) Span}
    (before : zero.addLengths (amounts.flatMap Amount.lengths) = .ok total)
    (added : total.addTerm numeral.value numeral.part name = result)
    (taken : ∀ reason, result ≠ .error (.refused reason)) :
    ∃ all : List Amount, all ≠ [] ∧
      all.flatMap Amount.text = amounts.flatMap Amount.text ++ (numeral.text ++ name) ∧
      zero.addLengths (all.flatMap Amount.lengths) = result := by
  obtain ⟨amount, text, lengths⟩ := amount_of_addTerm readable placed added taken
  refine ⟨amounts ++ [amount], by simp, ?_, ?_⟩
  · rw [List.flatMap_append, List.flatMap_singleton, text]
  · rw [List.flatMap_append, List.flatMap_singleton, addLengths_append, before]
    exact lengths

theorem Consumed.digit {amounts : List Amount} {blanks : List Char} (offset : ℕ)
    (added : zero.addLengths (amounts.flatMap Amount.lengths) = .ok total)
    (blank : ∀ c ∈ blanks, Text.isBlank c) (isDigit : c.isDigit) :
    Consumed (amounts.flatMap Amount.text ++ blanks ++ [c])
      ⟨total, offset, .whole (digitValue c)⟩ := by
  rw [List.append_assoc, ← Numeral.start_text blank isDigit]
  exact .number offset 0 added (Numeral.start_readable blank isDigit)

theorem blank_concat {blanks : List Char} (blank : ∀ c ∈ blanks, Text.isBlank c)
    (last : Text.isBlank c) : ∀ d ∈ blanks ++ [c], Text.isBlank d := by
  intro d member
  rcases List.mem_append.mp member with earlier | same
  · exact blank d earlier
  · rwa [List.mem_singleton.mp same]

theorem Consumed.step {front : List Char} {reader following : Reader} {c : Char}
    (consumed : Consumed front reader) (step : reader.step c = .ok following) :
    Consumed (front ++ [c]) following := by
  obtain ⟨next, after, advanced, rfl⟩ := exists_of_step step
  cases consumed with
  | start offset blank =>
    obtain ⟨stage, first, same⟩ := exists_of_bind_ok advanced
    cases same
    rcases of_firstDigit first with ⟨digit, rfl⟩ | ⟨last, rfl⟩
    · exact @Consumed.digit zero c [] _ _ rfl blank digit
    · exact .start _ (blank_concat blank last)
  | gap offset since written added blank =>
    obtain ⟨stage, first, same⟩ := exists_of_bind_ok advanced
    cases same
    rcases of_firstDigit first with ⟨digit, rfl⟩ | ⟨last, rfl⟩
    · exact .digit _ added blank digit
    · rw [List.append_assoc]
      exact .gap _ since written added (blank_concat blank last)
  | number offset fault added readable =>
    obtain ⟨rfl, continues⟩ := continues_of_advance readable advanced
    cases continues with
    | inside inside fault fits =>
      rw [List.append_assoc, ← Numeral.push_text _ inside]
      exact .number _ fault added fits
    | point fault point none =>
      rw [point, List.append_assoc, ← Numeral.pointed_text none]
      exact .number _ fault added readable.pointed
    | name placed =>
      rw [List.append_assoc]
      exact .unit _ [c] added readable placed
  | @unit total amounts numeral offset name added readable placed =>
    dsimp only at advanced
    by_cases digit : c.isDigit
    · rw [advance, if_pos digit] at advanced
      obtain ⟨sum, closed, same⟩ := exists_of_bind_ok advanced
      cases same
      obtain ⟨all, -, text, sums⟩ := amounts_of_addTerm readable placed added closed (by simp)
      rw [← text]
      have behind := Consumed.digit (offset + c.utf8Size) sums Text.blank_nil digit
      rwa [List.append_nil] at behind
    · rw [advance, if_neg digit] at advanced
      by_cases blank : Text.isBlank c
      · rw [if_pos blank] at advanced
        obtain ⟨sum, closed, same⟩ := exists_of_bind_ok advanced
        cases same
        obtain ⟨all, written, text, sums⟩ :=
          amounts_of_addTerm readable placed added closed (by simp)
        rw [← text]
        exact .gap _ _ written sums (blank_concat Text.blank_nil blank)
      · rw [if_neg blank] at advanced
        by_cases letter : isUnitLetter c
        · rw [if_pos letter] at advanced
          cases advanced
          rw [List.append_assoc, List.append_assoc]
          exact .unit _ (name ++ [c]) added readable placed
        · rw [if_neg letter] at advanced
          cases advanced

theorem Consumed.run {front text : List Char} {reader last : Reader}
    (consumed : Consumed front reader) (run : text.foldlM Reader.step reader = .ok last) :
    Consumed (front ++ text) last := by
  -- By induction on the text that is left: each of its characters moves to what has been read.
  induction text generalizing front reader with
  | nil =>
    cases run
    rwa [List.append_nil]
  | cons c text ih =>
    rw [List.foldlM_cons] at run
    obtain ⟨middle, step, rest⟩ := exists_of_bind_ok run
    have all := ih (consumed.step step) rest
    rwa [List.append_assoc, List.singleton_append] at all

theorem consumed_fresh : Consumed [] .fresh := .start 0 Text.blank_nil

theorem checked_ne_abandoned (n : ℕ) : checked n ≠ .error .abandoned := by
  rw [checked_eq]
  by_cases small : n < wordLimit
  · simp [small]
  · simp [small]

theorem firstDigit_ne_abandoned (waiting : Stage) (since : ℕ) (c : Char) :
    firstDigit waiting since c ≠ .error .abandoned := by
  unfold firstDigit
  by_cases digit : c.isDigit
  · simp [digit]
  · by_cases blank : Text.isBlank c
    · simp [digit, blank]
    · simp [digit, blank]

theorem abandoned_of_bind {α β : Type} {first : Except (Failure ReadError) α} {f : α → β}
    (abandoned : (do return f (← first)) = (.error .abandoned : Except (Failure ReadError) β)) :
    first = .error .abandoned := by
  cases first with
  | error failure => exact congrArg Except.error (Except.error.inj abandoned)
  | ok value => cases abandoned

theorem settled_of_advance {reader : Reader}
    (abandoned : advance reader.total reader.offset c reader.stage = .error .abandoned) :
    InNumber c ∧ reader.settled = .error .abandoned := by
  obtain ⟨total, offset, stage⟩ := reader
  cases stage with
  | start => exact absurd (abandoned_of_bind abandoned) (firstDigit_ne_abandoned _ _ _)
  | gap since => exact absurd (abandoned_of_bind abandoned) (firstDigit_ne_abandoned _ _ _)
  | whole value =>
    dsimp only [advance] at abandoned
    by_cases digit : c.isDigit
    · rw [if_pos digit] at abandoned
      exact absurd (abandoned_of_bind abandoned) (checked_ne_abandoned _)
    · rw [if_neg digit] at abandoned
      repeat' split at abandoned
      all_goals cases abandoned
  | fraction value part fault =>
    dsimp only [advance] at abandoned
    by_cases digit : c.isDigit
    · rw [if_pos digit] at abandoned
      exact absurd (abandoned_of_bind abandoned) (checked_ne_abandoned _)
    · rw [if_neg digit] at abandoned
      repeat' split at abandoned
      all_goals cases abandoned
  | unit value part name =>
    dsimp only [advance] at abandoned
    by_cases digit : c.isDigit
    · rw [if_pos digit] at abandoned
      exact ⟨.inl digit, abandoned_of_bind abandoned⟩
    · rw [if_neg digit] at abandoned
      by_cases blank : Text.isBlank c
      · rw [if_pos blank] at abandoned
        exact ⟨.inr blank, abandoned_of_bind abandoned⟩
      · rw [if_neg blank] at abandoned
        split at abandoned
        all_goals cases abandoned

theorem settled_of_step {reader : Reader} (abandoned : reader.step c = .error .abandoned) :
    InNumber c ∧ reader.settled = .error .abandoned :=
  settled_of_advance (abandoned_of_bind abandoned)

theorem finish_stageBehind (total : Span) (offset : ℕ) (numeral : Numeral) (fault : ℕ) :
    ∃ reason, finish ⟨total, offset, stageBehind numeral fault⟩ = .error (.refused reason) := by
  rw [finish, stageBehind]
  cases numeral.part with
  | none => exact ⟨_, rfl⟩
  | some part =>
    dsimp only
    split
    · exact ⟨_, rfl⟩
    · exact ⟨_, rfl⟩

theorem settled_of_finish {reader : Reader} (abandoned : reader.finish = .error .abandoned) :
    reader.settled = .error .abandoned := by
  obtain ⟨total, offset, stage⟩ := reader
  cases stage with
  | start => cases abandoned
  | gap since => cases abandoned
  | whole value => cases abandoned
  | fraction value part fault =>
    dsimp only [finish] at abandoned
    split at abandoned
    all_goals cases abandoned
  | unit value part name => exact abandoned

theorem Consumed.overruns {front : List Char} {reader : Reader} (consumed : Consumed front reader)
    (abandoned : reader.settled = .error .abandoned) :
    ∃ amounts : List Amount, front = amounts.flatMap Amount.text ∧
      Overruns (amounts.flatMap Amount.lengths) := by
  cases consumed with
  | start offset blank => cases abandoned
  | gap offset since written added blank => cases abandoned
  | @number total amounts numeral offset fault added readable =>
    rw [settled, stageBehind] at abandoned
    cases present : numeral.part with
    | none =>
      rw [present] at abandoned
      cases abandoned
    | some part =>
      rw [present] at abandoned
      cases abandoned
  | @unit total amounts numeral offset name added readable placed =>
    obtain ⟨all, -, text, sums⟩ := amounts_of_addTerm readable placed added abandoned (by simp)
    exact ⟨all, text.symm, addLengths_abandoned_iff.mp sums⟩

end Reader

/-- Blanks and amounts are all there is to a length of time, but for a zero that needs no unit. -/
theorem read_ok_iff {text : List Char} {span : Span} :
    read text = .ok span ↔ (text = ['0'] ∧ span = zero) ∨
      ∃ amounts behind, amounts ≠ [] ∧ (∀ c ∈ behind, Text.isBlank c) ∧
        text = amounts.flatMap Amount.text ++ behind ∧
        zero.addLengths (amounts.flatMap Amount.lengths) = .ok span := by
  constructor
  · intro accepted
    unfold read at accepted
    by_cases alone : text = ['0']
    · rw [if_pos alone] at accepted
      exact .inl ⟨alone, (Except.ok.inj accepted).symm⟩
    · rw [if_neg alone] at accepted
      obtain ⟨last, run, finish⟩ := exists_of_bind_ok accepted
      have consumed := Reader.consumed_fresh.run run
      rw [List.nil_append] at consumed
      refine .inr ?_
      cases consumed with
      | start offset blank => cases finish
      | @gap total amounts blanks offset since written added blank =>
        cases finish
        exact ⟨amounts, blanks, written, blank, rfl, added⟩
      | number offset fault added readable =>
        obtain ⟨reason, refused⟩ := Reader.finish_stageBehind _ offset _ fault
        cases refused.symm.trans finish
      | @unit total amounts numeral offset name added readable placed =>
        obtain ⟨all, written, text, sums⟩ :=
          Reader.amounts_of_addTerm readable placed added finish (by simp)
        exact ⟨all, [], written, Text.blank_nil, by rw [text, List.append_nil], sums⟩
  · intro spelled
    rcases spelled with ⟨rfl, rfl⟩ | ⟨amounts, behind, written, blank, rfl, added⟩
    · rfl
    · rw [read_amounts written blank]
      exact added

/-- A text that begins with amounts which, added up, fill up the last second, as soon as a digit, a
    blank or the end of the text closes the last of them. -/
def FillsLastSecond (text : List Char) : Prop :=
  ∃ (amounts : List Amount) (rest : List Char), text = amounts.flatMap Amount.text ++ rest ∧
    (∀ c ∈ rest.head?, InNumber c) ∧ Overruns (amounts.flatMap Amount.lengths)

theorem read_abandoned_iff {text : List Char} :
    read text = .error .abandoned ↔ FillsLastSecond text := by
  constructor
  · intro abandoned
    unfold read at abandoned
    by_cases alone : text = ['0']
    · rw [if_pos alone] at abandoned
      cases abandoned
    · rw [if_neg alone] at abandoned
      cases run : text.foldlM Reader.step .fresh with
      | error failure =>
        rw [run] at abandoned
        cases abandoned
        obtain ⟨front, c, rest, reader, rfl, reached, stuck⟩ := foldlM_error_iff.mp run
        obtain ⟨inside, settled⟩ := Reader.settled_of_step stuck
        obtain ⟨amounts, same, overruns⟩ := (Reader.consumed_fresh.run reached).overruns settled
        refine ⟨amounts, c :: rest, by rw [← same, List.nil_append], ?_, overruns⟩
        intro d head
        rwa [← Option.some.inj head]
      | ok last =>
        rw [run] at abandoned
        have settled := Reader.settled_of_finish abandoned
        obtain ⟨amounts, same, overruns⟩ := (Reader.consumed_fresh.run run).overruns settled
        exact ⟨amounts, [], by rw [← same, List.nil_append, List.append_nil], by simp, overruns⟩
  · intro fills
    obtain ⟨amounts, rest, rfl, settles, overruns⟩ := fills
    exact read_of_amounts_fail (addLengths_abandoned_iff.mpr overruns) settles

end StatusPage.Span
