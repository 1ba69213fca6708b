import Mathlib
import StatusPage.Proofs.Span.Amounts

namespace StatusPage.Span

namespace Reader

/-- The total with the term whose unit is being read. -/
def settled (reader : Reader) : Except (Failure ReadError) Span :=
  match reader.stage with
  | .unit value part name => reader.total.addTerm value part name
  | _ => .ok reader.total

/-- Outside of the numbers: at the start, or with a term read, between two of them or in the name
    of a unit. -/
inductive Between : (begun : Bool) → Reader → Prop where
  | start (total : Span) (offset : ℕ) : Between false ⟨total, offset, .start⟩
  | gap (total : Span) (offset since : ℕ) : Between true ⟨total, offset, .gap since⟩
  | unit (total : Span) (offset value : ℕ) (part : Option Fraction) (name : List Char) :
    Between true ⟨total, offset, .unit value part name⟩

variable {begun : Bool} {reader : Reader} {total : Span} {c : Char}

theorem step_of_advance {next : Span} {offset : ℕ} {stage after : Stage}
    (advanced : advance total offset c stage = .ok (next, after)) :
    Reader.step ⟨total, offset, stage⟩ c = .ok ⟨next, offset + c.utf8Size, after⟩ := by
  rw [Reader.step, advanced]
  rfl

theorem step_of_failure {offset : ℕ} {stage : Stage} {failure : Failure ReadError}
    (failed : advance total offset c stage = .error failure) :
    Reader.step ⟨total, offset, stage⟩ c = .error failure := by
  rw [Reader.step, failed]
  rfl

theorem Between.step_digit (between : Between begun reader) (digit : c.isDigit) :
    ∃ offset, reader.step c =
      reader.settled.map fun total => ⟨total, offset, .whole (digitValue c)⟩ := by
  refine ⟨reader.offset + c.utf8Size, ?_⟩
  cases between with
  | start total offset =>
    apply step_of_advance
    rw [advance, firstDigit, if_pos digit]
    rfl
  | gap total offset since =>
    apply step_of_advance
    rw [advance, firstDigit, if_pos digit]
    rfl
  | unit total offset value part name =>
    rw [settled]
    dsimp only
    cases added : total.addTerm value part name with
    | error failure =>
      apply step_of_failure
      rw [advance, if_pos digit, added]
      rfl
    | ok next =>
      apply step_of_advance
      rw [advance, if_pos digit, added]
      rfl

theorem Between.step_blank (between : Between begun reader) (blank : Text.isBlank c) :
    ∃ next : Span → Reader, reader.step c = reader.settled.map next ∧
      ∀ total, (next total).settled = .ok total ∧ Between begun (next total) := by
  have digit := Text.not_isDigit_of_isBlank blank
  cases between with
  | start total offset =>
    refine ⟨fun total => ⟨total, offset + c.utf8Size, .start⟩, ?_, fun total => ⟨rfl, .start ..⟩⟩
    apply step_of_advance
    rw [advance, firstDigit, if_neg digit, if_pos blank]
    rfl
  | gap total offset since =>
    refine ⟨fun total => ⟨total, offset + c.utf8Size, .gap since⟩, ?_,
      fun total => ⟨rfl, .gap ..⟩⟩
    apply step_of_advance
    rw [advance, firstDigit, if_neg digit, if_pos blank]
    rfl
  | unit total offset value part name =>
    refine ⟨fun total => ⟨total, offset + c.utf8Size, .gap (offset + c.utf8Size)⟩, ?_,
      fun total => ⟨rfl, .gap ..⟩⟩
    rw [settled]
    dsimp only
    cases added : total.addTerm value part name with
    | error failure =>
      apply step_of_failure
      rw [advance, if_neg digit, if_pos blank, added]
      rfl
    | ok next =>
      apply step_of_advance
      rw [advance, if_neg digit, if_pos blank, added]
      rfl

theorem Between.finish (between : Between true reader) : reader.finish = reader.settled := by
  cases between with
  | gap total offset since => rfl
  | unit total offset value part name => rfl

def readOn (outcome : Except (Failure ReadError) Reader) (text : List Char) :
    Except (Failure ReadError) Reader :=
  outcome >>= fun reader => text.foldlM step reader

theorem readOn_nil (outcome : Except (Failure ReadError) Reader) : readOn outcome [] = outcome :=
  bind_pure outcome

theorem readOn_error (failure : Failure ReadError) (text : List Char) :
    readOn (.error failure) text = .error failure := rfl

theorem readOn_singleton (reader : Reader) (c : Char) : readOn (.ok reader) [c] = reader.step c :=
  bind_pure (reader.step c)

theorem readOn_append (outcome : Except (Failure ReadError) Reader) (text more : List Char) :
    readOn outcome (text ++ more) = readOn (readOn outcome text) more := by
  simp only [readOn, List.foldlM_append, bind_assoc]

theorem readOn_cons (outcome : Except (Failure ReadError) Reader) (c : Char) (text : List Char) :
    readOn outcome (c :: text) = readOn (readOn outcome [c]) text :=
  readOn_append outcome [c] text

/-- A reading between terms comes to a total, or has failed. -/
inductive Comes (begun : Bool) :
    Except (Failure ReadError) Reader → Except (Failure ReadError) Span → Prop where
  | between {reader : Reader} (between : Between begun reader) :
    Comes begun (.ok reader) reader.settled
  | failure (failure : Failure ReadError) : Comes begun (.error failure) (.error failure)

variable {outcome : Except (Failure ReadError) Reader} {result : Except (Failure ReadError) Span}

theorem Comes.digit (comes : Comes begun outcome result) (digit : c.isDigit) :
    ∃ offset, readOn outcome [c] =
      result.map fun total => ⟨total, offset, .whole (digitValue c)⟩ := by
  cases comes with
  | between between =>
    rw [readOn_singleton]
    exact between.step_digit digit
  | failure failure => exact ⟨0, rfl⟩

theorem Comes.settles (comes : Comes begun outcome result) (blank : Text.isBlank c) :
    ∃ next : Span → Reader, readOn outcome [c] = result.map next ∧
      ∀ total, (next total).settled = .ok total ∧ Between begun (next total) := by
  cases comes with
  | @between reader between =>
    rw [readOn_singleton]
    exact between.step_blank blank
  | failure failure =>
    cases begun with
    | false => exact ⟨fun total => ⟨total, 0, .start⟩, rfl, fun total => ⟨rfl, .start ..⟩⟩
    | true => exact ⟨fun total => ⟨total, 0, .gap 0⟩, rfl, fun total => ⟨rfl, .gap ..⟩⟩

theorem Comes.blank (comes : Comes begun outcome result) (blank : Text.isBlank c) :
    Comes begun (readOn outcome [c]) result := by
  obtain ⟨next, read, settles⟩ := comes.settles blank
  rw [read]
  cases result with
  | error failure => exact .failure failure
  | ok total =>
    obtain ⟨same, after⟩ := settles total
    have held := Comes.between after
    rwa [same] at held

theorem Comes.blanks (comes : Comes begun outcome result) {blanks : List Char}
    (blank : ∀ c ∈ blanks, Text.isBlank c) : Comes begun (readOn outcome blanks) result := by
  induction blanks generalizing outcome with
  | nil => rwa [readOn_nil]
  | cons c blanks ih =>
    rw [readOn_cons]
    exact ih (comes.blank (blank c (by simp))) fun d member => blank d (by simp [member])

theorem Comes.finish (comes : Comes true outcome result) : outcome.bind Reader.finish = result := by
  cases comes with
  | between between => exact between.finish
  | failure failure => rfl

theorem Comes.fails {failure : Failure ReadError} (comes : Comes begun outcome (.error failure))
    (inside : InNumber c) (text : List Char) :
    readOn outcome (c :: text) = .error failure := by
  rw [readOn_cons]
  rcases inside with digit | blank
  · obtain ⟨offset, failed⟩ := comes.digit digit
    rw [failed]
    rfl
  · obtain ⟨next, failed, -⟩ := comes.settles blank
    rw [failed]
    rfl

theorem read_more (total : Span) (offset : ℕ) {value : ℕ} {chars : List Char}
    (inside : ∀ c ∈ chars, InNumber c) (word : value < wordLimit) :
    ∃ last, readOn (.ok ⟨total, offset, .whole value⟩) chars =
      (checked (goOn value chars)).map fun value => ⟨total, last, .whole value⟩ := by
  induction chars generalizing offset value with
  | nil =>
    rw [readOn_nil, goOn_nil, checked_of_lt word]
    exact ⟨offset, rfl⟩
  | cons c chars ih =>
    have rest : ∀ d ∈ chars, InNumber d := fun d member => inside d (by simp [member])
    rw [readOn_cons, readOn_singleton, goOn_cons]
    rcases inside c (by simp) with digit | blank
    · rw [goOn_digit value digit]
      by_cases small : value * 10 + digitValue c < wordLimit
      · have step : Reader.step ⟨total, offset, .whole value⟩ c =
            .ok ⟨total, offset + c.utf8Size, .whole (value * 10 + digitValue c)⟩ := by
          apply step_of_advance
          rw [advance, if_pos digit, checked_of_lt small]
          rfl
        rw [step]
        exact ih _ rest small
      · -- No number on the way is larger than the one at the end.
        have large : ¬ goOn (value * 10 + digitValue c) chars < wordLimit := by
          have most := le_goOn (value * 10 + digitValue c) chars
          omega
        have step : Reader.step ⟨total, offset, .whole value⟩ c =
            .error (.refused .numberOverflow) := by
          apply step_of_failure
          rw [advance, if_pos digit, checked_eq, if_neg small]
          rfl
        rw [step, readOn_error, checked_eq, if_neg large]
        exact ⟨0, rfl⟩
    · have digit := Text.not_isDigit_of_isBlank blank
      have step : Reader.step ⟨total, offset, .whole value⟩ c =
          .ok ⟨total, offset + c.utf8Size, .whole value⟩ := by
        apply step_of_advance
        rw [advance, if_neg digit, if_pos blank]
      rw [step, goOn_other value digit]
      exact ih _ rest word

theorem read_places (total : Span) (offset value : ℕ) {part : Fraction} (fault : ℕ)
    {chars : List Char} (inside : ∀ c ∈ chars, InNumber c) (word : part.denominator < wordLimit) :
    ∃ last fault', readOn (.ok ⟨total, offset, .fraction value part fault⟩) chars =
      (checked (part.goOn chars).denominator).map fun _ =>
        ⟨total, last, .fraction value (part.goOn chars) fault'⟩ := by
  induction chars generalizing offset part fault with
  | nil =>
    have same : part.goOn [] = part := by simp [Fraction.goOn, goOn_nil]
    rw [readOn_nil, same, checked_of_lt word]
    exact ⟨offset, fault, rfl⟩
  | cons c chars ih =>
    have rest : ∀ d ∈ chars, InNumber d := fun d member => inside d (by simp [member])
    have split : part.goOn (c :: chars) = (part.goOn [c]).goOn chars := part.goOn_append [c] chars
    rw [readOn_cons, readOn_singleton, split]
    rcases inside c (by simp) with digit | blank
    · rw [part.goOn_digit digit]
      by_cases small : part.denominator * 10 < wordLimit
      · have step : Reader.step ⟨total, offset, .fraction value part fault⟩ c =
            .ok ⟨total, offset + c.utf8Size, .fraction value
              ⟨part.numerator * 10 + digitValue c, part.denominator * 10⟩ (offset + 1)⟩ := by
          apply step_of_advance
          rw [advance, if_pos digit, checked_of_lt small]
          rfl
        rw [step]
        exact ih _ _ rest small
      · have large : ¬ part.denominator * 10 * 10 ^ chars.countP Char.isDigit < wordLimit := by
          have some : 1 ≤ 10 ^ chars.countP Char.isDigit := Nat.one_le_pow _ _ (by decide)
          have most := Nat.le_mul_of_pos_right (part.denominator * 10) some
          omega
        have step : Reader.step ⟨total, offset, .fraction value part fault⟩ c =
            .error (.refused .numberOverflow) := by
          apply step_of_failure
          rw [advance, if_pos digit, checked_eq, if_neg small]
          rfl
        rw [step, readOn_error, checked_eq, Fraction.goOn, if_neg large]
        exact ⟨0, 0, rfl⟩
    · have digit := Text.not_isDigit_of_isBlank blank
      have step : Reader.step ⟨total, offset, .fraction value part fault⟩ c =
          .ok ⟨total, offset + c.utf8Size, .fraction value part (offset + c.utf8Size)⟩ := by
        apply step_of_advance
        rw [advance, if_neg digit, if_pos blank]
      rw [step, part.goOn_other digit]
      exact ih _ _ rest word

theorem read_letters (total : Span) (offset value : ℕ) (part : Option Fraction)
    (name : List Char) {letters : List Char}
    (letter : ∀ c ∈ letters, isUnitLetter c ∧ ¬ c.isDigit ∧ ¬ Text.isBlank c) :
    ∃ last, readOn (.ok ⟨total, offset, .unit value part name⟩) letters =
      .ok ⟨total, last, .unit value part (name ++ letters)⟩ := by
  induction letters generalizing offset name with
  | nil => exact ⟨offset, by rw [readOn_nil, List.append_nil]⟩
  | cons c letters ih =>
    obtain ⟨isLetter, digit, blank⟩ := letter c (by simp)
    have step : Reader.step ⟨total, offset, .unit value part name⟩ c =
        .ok ⟨total, offset + c.utf8Size, .unit value part (name ++ [c])⟩ := by
      apply step_of_advance
      rw [advance, if_neg digit, if_neg blank, if_pos isLetter]
    rw [readOn_cons, readOn_singleton, step]
    obtain ⟨last, rest⟩ := ih (offset + c.utf8Size) (name ++ [c])
      fun d member => letter d (by simp [member])
    rw [List.append_assoc, List.singleton_append] at rest
    exact ⟨last, rest⟩

def stageBehind (numeral : Numeral) (fault : ℕ) : Stage :=
  match numeral.part with
  | none => .whole numeral.value
  | some part => .fraction numeral.value part fault

theorem read_numeral (total : Span) (offset : ℕ) (numeral : Numeral) :
    ∃ last fault, readOn (.ok ⟨total, offset, .whole (digitValue numeral.first)⟩)
        (numeral.more ++ numeral.point) =
      if numeral.Readable then .ok ⟨total, last, stageBehind numeral fault⟩
      else .error (.refused .numberOverflow) := by
  obtain ⟨second, whole⟩ := read_more total offset numeral.inNumber numeral.first_lt
  have number : goOn (digitValue numeral.first) numeral.more = numeral.value := rfl
  rw [readOn_append, whole, number, checked_eq]
  by_cases word : numeral.value < wordLimit
  · rw [if_pos word]
    cases places : numeral.places with
    | none =>
      have none : numeral.part = none := by rw [Numeral.part, places, Option.map_none]
      have readable : numeral.Readable := ⟨word, by simp [none]⟩
      refine ⟨second, 0, ?_⟩
      rw [if_pos readable, Numeral.point, places, stageBehind, none]
      rfl
    | some chars =>
      have some : numeral.part = some (Fraction.goOn ⟨0, 1⟩ chars) := by
        rw [Numeral.part, places, Option.map_some]
      have readable : numeral.Readable ↔
          (Fraction.goOn ⟨0, 1⟩ chars).denominator < wordLimit := by
        simp [Numeral.Readable, word, some]
      have point : Reader.step ⟨total, second, .whole numeral.value⟩ '.' =
          .ok ⟨total, second + Char.utf8Size '.', .fraction numeral.value ⟨0, 1⟩ second⟩ := rfl
      obtain ⟨last, fault, behind⟩ := read_places total (second + Char.utf8Size '.') numeral.value
        second (numeral.inPlaces chars places) (show (⟨0, 1⟩ : Fraction).denominator < _ by decide)
      refine ⟨last, fault, ?_⟩
      rw [Numeral.point, places, Option.elim_some, readOn_cons]
      show readOn (readOn (.ok _) ['.']) chars = _
      rw [readOn_singleton, point, behind, checked_eq, stageBehind, some]
      simp only [readable]
      split <;> rfl
  · have readable : ¬ numeral.Readable := fun both => word both.1
    refine ⟨0, 0, ?_⟩
    rw [if_neg word, if_neg readable]
    rfl

theorem read_name (total : Span) (offset fault : ℕ) {numeral : Numeral} (placed : numeral.Placed)
    {unit : TimeUnit} {name : String} (named : name ∈ unit.names) :
    ∃ last, readOn (.ok ⟨total, offset, stageBehind numeral fault⟩) name.toList =
      .ok ⟨total, last, .unit numeral.value numeral.part name.toList⟩ := by
  have letters := fun c => TimeUnit.letter_of_mem (c := c) named
  obtain ⟨c, rest, chars⟩ := List.exists_cons_of_ne_nil (TimeUnit.name_ne_nil named)
  rw [chars] at letters ⊢
  obtain ⟨isLetter, digit, blank⟩ := letters c (by simp)
  have step : Reader.step ⟨total, offset, stageBehind numeral fault⟩ c =
      .ok ⟨total, offset + c.utf8Size, .unit numeral.value numeral.part [c]⟩ := by
    apply step_of_advance
    rw [stageBehind]
    cases present : numeral.part with
    | none => rw [advance, if_neg digit, if_neg blank, if_pos isLetter]
    | some part =>
      have behind : isUnitLetter c ∧ part.denominator ≠ 1 :=
        ⟨isLetter, (Numeral.placed_iff present).mp placed⟩
      rw [advance, if_neg digit, if_neg blank, if_pos behind]
  have tailLetters : ∀ d ∈ rest, isUnitLetter d ∧ ¬ d.isDigit ∧ ¬ Text.isBlank d :=
    fun d member => letters d (by simp [member])
  rw [readOn_cons, readOn_singleton, step]
  exact read_letters total (offset + c.utf8Size) numeral.value numeral.part [c] tailLetters

/-- An amount is read to the end of its name. Then its lengths are added to the total as soon as
    the reading goes on. -/
theorem Comes.amount (comes : Comes begun outcome result) (amount : Amount) :
    Comes true (readOn outcome amount.text) (result.bind (·.addLengths amount.lengths)) := by
  obtain ⟨offset, first⟩ := (comes.blanks amount.blankBefore).digit amount.isDigit
  have split : amount.text = amount.before ++ ([amount.first] ++
      ((amount.more ++ amount.point) ++ amount.name.toList)) := by
    simp [Amount.text, Numeral.text]
  rw [split, readOn_append, readOn_append, first]
  cases result with
  | error failure => exact .failure failure
  | ok total =>
    show Comes true (readOn (.ok _) _) (total.addLengths amount.lengths)
    obtain ⟨second, fault, number⟩ := read_numeral total offset amount.toNumeral
    rw [readOn_append, number, Amount.lengths]
    by_cases readable : amount.Readable
    · obtain ⟨last, name⟩ := read_name total second fault amount.placed amount.named
      have named : String.ofList amount.name.toList ∈ amount.unit.names := by
        rw [String.ofList_toList]
        exact amount.named
      rw [if_pos readable, if_pos readable, name, ← addTerm_eq total named]
      exact .between (.unit ..)
    · rw [if_neg readable, if_neg readable]
      exact .failure _

theorem Comes.amounts (comes : Comes begun outcome result) (amounts : List Amount) :
    Comes (begun || !amounts.isEmpty) (readOn outcome (amounts.flatMap Amount.text))
      (result.bind (·.addLengths (amounts.flatMap Amount.lengths))) := by
  induction amounts generalizing begun outcome result with
  | nil =>
    have same : result.bind (·.addLengths []) = result := bind_pure result
    simpa [readOn_nil, same] using comes
  | cons amount amounts ih =>
    have rest := ih (comes.amount amount)
    rw [List.flatMap_cons, List.flatMap_cons, readOn_append]
    have split : result.bind (·.addLengths (amount.lengths ++ amounts.flatMap Amount.lengths)) =
        (result.bind (·.addLengths amount.lengths)).bind
          (·.addLengths (amounts.flatMap Amount.lengths)) := by
      simp only [addLengths_append]
      exact (bind_assoc result _ _).symm
    rw [split]
    simpa using rest

end Reader

theorem Amount.length_text (amount : Amount) : 2 ≤ amount.text.length := by
  have name := List.length_pos_iff.mpr (TimeUnit.name_ne_nil amount.named)
  simp only [text, Numeral.text, List.length_append, List.length_cons]
  omega

theorem text_ne_zero {amounts : List Amount} (written : amounts ≠ []) (rest : List Char) :
    amounts.flatMap Amount.text ++ rest ≠ ['0'] := by
  obtain ⟨amount, more, rfl⟩ := List.exists_cons_of_ne_nil written
  intro same
  have length := congrArg List.length same
  have two := amount.length_text
  simp only [List.flatMap_cons, List.length_append, List.length_singleton] at length
  omega

theorem comes_amounts {amounts : List Amount} (written : amounts ≠ []) :
    Reader.Comes true (Reader.readOn (.ok .fresh) (amounts.flatMap Amount.text))
      (zero.addLengths (amounts.flatMap Amount.lengths)) := by
  have fresh : Reader.Comes false (.ok .fresh) (.ok zero) := .between (.start zero 0)
  have comes := fresh.amounts amounts
  have some : amounts.isEmpty = false := by simpa using written
  rwa [some] at comes

theorem read_amounts {amounts : List Amount} {behind : List Char} (written : amounts ≠ [])
    (blank : ∀ c ∈ behind, Text.isBlank c) :
    read (amounts.flatMap Amount.text ++ behind) =
      zero.addLengths (amounts.flatMap Amount.lengths) := by
  have comes := (comes_amounts written).blanks blank
  rw [← Reader.readOn_append] at comes
  rw [read, if_neg (text_ne_zero written behind)]
  exact comes.finish

theorem read_of_amounts_fail {amounts : List Amount} {failure : Failure ReadError}
    {rest : List Char} (failed : zero.addLengths (amounts.flatMap Amount.lengths) = .error failure)
    (settles : ∀ c ∈ rest.head?, InNumber c) :
    read (amounts.flatMap Amount.text ++ rest) = .error failure := by
  have written : amounts ≠ [] := by
    intro none
    subst none
    cases failed
  cases rest with
  | nil =>
    rw [read_amounts written Text.blank_nil]
    exact failed
  | cons c rest =>
    have comes := comes_amounts written
    rw [failed] at comes
    have stopped := comes.fails (settles c rfl) rest
    rw [← Reader.readOn_append] at stopped
    rw [read, if_neg (text_ne_zero written _)]
    exact congrArg (· >>= Reader.finish) stopped

namespace Term

def amount (term : Term) : Amount where
  before := term.before
  first := term.digits.head term.written
  more := term.digits.tail ++ term.between
  places := none
  unit := term.unit
  name := term.name
  blankBefore := term.blankBefore
  isDigit := term.isDigit _ (List.head_mem term.written)
  inNumber := by
    intro c member
    rcases List.mem_append.mp member with digit | blank
    · exact .inl (term.isDigit c (List.mem_of_mem_tail digit))
    · exact .inr (term.blankBetween c blank)
  inPlaces := inNumber_of_none
  named := term.named
  placed := by simp [Numeral.Placed]

theorem amount_text (term : Term) : term.amount.text = term.text := by
  have digits : term.digits.head term.written :: (term.digits.tail ++ term.between) =
      term.digits ++ term.between := by
    rw [← List.cons_append, List.cons_head_tail]
  simp only [Amount.text, Numeral.text, Numeral.point, amount, Option.elim_none, List.append_nil,
    digits, text, List.append_assoc]

theorem amount_value (term : Term) : term.amount.value = term.value := by
  have digits := List.cons_head_tail term.written
  have digit : ∀ c ∈ term.digits.tail, c.isDigit :=
    fun c member => term.isDigit c (List.mem_of_mem_tail member)
  have first : goOn 0 [term.digits.head term.written] =
      digitValue (term.digits.head term.written) := by
    rw [goOn_digit 0 (term.isDigit _ (List.head_mem term.written)), Nat.zero_mul, Nat.zero_add]
  calc term.amount.value
    _ = goOn (goOn (digitValue (term.digits.head term.written)) term.digits.tail) term.between :=
      goOn_append _ _ _
    _ = goOn (digitValue (term.digits.head term.written)) term.digits.tail :=
      goOn_of_isBlank term.blankBetween _
    _ = goOn 0 term.digits := by rw [← first, ← goOn_cons, digits]
    _ = term.value := goOn_of_isDigit term.isDigit 0

def length (term : Term) : Scale :=
  ⟨term.value * term.unit.scale.seconds, term.value * term.unit.scale.nanos⟩

theorem length_nanoseconds (term : Term) : term.length.nanoseconds = term.nanoseconds :=
  term.nanoseconds_eq.symm

theorem amount_lengths {term : Term} (word : term.Fits)
    (fits : term.nanoseconds < wordLimit * nanosPerSecond) :
    term.amount.lengths = [some term.length] := by
  have readable : term.amount.Readable :=
    ⟨by rw [amount_value]; exact word.value, by simp [Numeral.part, amount]⟩
  have nanos := word.nanos
  have second : 0 < nanosPerSecond := by decide
  have both : term.value * term.unit.scale.seconds < wordLimit ∧
      term.value * term.unit.scale.nanos < wordLimit := by
    refine ⟨?_, by omega⟩
    apply Nat.lt_of_mul_lt_mul_right (a := nanosPerSecond)
    rw [nanoseconds_eq] at fits
    omega
  rw [Amount.lengths, if_pos readable, TimeUnit.lengths, amount_value]
  show [TimeUnit.length? term.unit term.value] = _
  rw [TimeUnit.length?, if_pos both, length]

end Term

theorem roomy_terms {terms : List Term} (words : ∀ term ∈ terms, term.Fits) :
    Roomy (terms.map Term.length) := by
  intro front length before
  have inside : length ∈ terms.map Term.length := before.subset (by simp)
  obtain ⟨term, listed, rfl⟩ := List.mem_map.mp inside
  have below : (front.map Scale.nanoseconds).sum % nanosPerSecond < nanosPerSecond :=
    Nat.mod_lt _ (by decide)
  have nanos : term.length.nanos + nanosPerSecond ≤ wordLimit := (words term listed).nanos
  omega

/-- Terms add up: a text of one or more of them is the sum of their times. -/
theorem read_terms {terms : List Term} (written : terms ≠ [])
    (words : ∀ term ∈ terms, term.Fits)
    (fits : (terms.map Term.nanoseconds).sum < wordLimit * nanosPerSecond) :
    read (terms.flatMap Term.text) = .ok ⟨(terms.map Term.nanoseconds).sum, fits⟩ := by
  have amounts : terms.map Term.amount ≠ [] := by simpa using written
  have read := read_amounts amounts Text.blank_nil
  have text : (terms.map Term.amount).flatMap Amount.text = terms.flatMap Term.text := by
    simp only [List.flatMap_map, Term.amount_text]
  have lengths : (terms.map Term.amount).flatMap Amount.lengths =
      (terms.map Term.length).map some := by
    rw [List.flatMap_map, List.map_map, List.map_eq_flatMap]
    apply List.flatMap_congr
    intro term listed
    apply Term.amount_lengths (words term listed)
    exact Nat.lt_of_le_of_lt (List.single_le_sum (by simp) _ (List.mem_map_of_mem listed)) fits
  have sum : ((terms.map Term.length).map Scale.nanoseconds).sum =
      (terms.map Term.nanoseconds).sum := by
    simp only [List.map_map, Function.comp_def, Term.length_nanoseconds]
  rw [List.append_nil, text] at read
  exact read.trans (addLengths_ok_iff.mpr ⟨_, lengths, roomy_terms words, sum.symm⟩)

end StatusPage.Span
