import Mathlib
import StatusPage.Proofs.Binary64.Literal
import StatusPage.Proofs.Command.Spelling

namespace StatusPage

namespace Binary64

theorem magnitude_ofDecimal (negative : Bool) (digits : ℕ) (power : ℤ) :
    (ofDecimal negative digits power).magnitude = (ofDecimal false digits power).magnitude := by
  cases power <;> rfl

theorem magnitude_ofDecimal_ne_nan (negative : Bool) (digits : ℕ) (power : ℤ) :
    (ofDecimal negative digits power).magnitude ≠ .nan := by
  have most : (ofDecimal negative digits power).field ≤ infinityField := by
    cases power <;> exact Nat.min_le_right _ _
  unfold magnitude
  split
  · simp
  · rw [if_pos (by omega)]
    simp

/-- What tells a number behind a hyphen from an option: a digit stands first, and the exponent has
    no sign. -/
structure Literal.Hyphenable (literal : Literal) : Prop where
  whole : literal.whole ≠ []
  exponent : ∀ exponent ∈ literal.exponent, exponent.sign = .absent

instance (literal : Literal) : Decidable literal.Hyphenable :=
  decidable_of_iff (literal.whole ≠ [] ∧ ∀ exponent ∈ literal.exponent, exponent.sign = .absent)
    ⟨fun both => ⟨both.1, both.2⟩, fun hyphenable => ⟨hyphenable.whole, hyphenable.exponent⟩⟩

theorem Exponent.all_isDigit_iff (exponent : Exponent) :
    (exponent.sign.text ++ exponent.digits).all Char.isDigit ↔ exponent.sign = .absent := by
  have isDigit := List.all_eq_true.mpr exponent.isDigit
  cases sign : exponent.sign with
  | absent => simpa [Sign.text] using exponent.isDigit
  | plus => simp [Sign.text]
  | minus => simp [Sign.text]

end Binary64

theorem Locale.formatFloat_ofDecimal_negative (locale : Locale) (digits : ℕ) (power : ℤ) :
    locale.formatFloat (.ofDecimal true digits power) =
      "-" ++ locale.formatFloat (.ofDecimal false digits power) := by
  have number := Binary64.magnitude_ofDecimal_ne_nan false digits power
  unfold Locale.formatFloat
  rw [Binary64.magnitude_ofDecimal true, Binary64.negative_ofDecimal, Binary64.negative_ofDecimal]
  cases magnitude : (Binary64.ofDecimal false digits power).magnitude with
  | nan => exact absurd magnitude number
  | infinite => rfl
  | finite units =>
    apply String.toList_inj.mp
    simp

namespace Command

open Binary64 (Literal)
open Settings (Stored load)

theorem isNumber_body_iff (literal : Literal) :
    isNumber literal.body ↔ literal.Hyphenable := by
  have split := literal.splitPoint_body
  rw [isNumber, split]
  cases exponent : literal.exponent with
  | none =>
    have some : literal.Hyphenable ↔ literal.whole ≠ [] :=
      ⟨fun hyphenable => hyphenable.whole, fun whole => ⟨whole, by simp [exponent]⟩⟩
    simp [some, Literal.exponentText, exponent]
  | some power =>
    have some : literal.Hyphenable ↔ literal.whole ≠ [] ∧ power.sign = .absent :=
      ⟨fun hyphenable => ⟨hyphenable.whole, hyphenable.exponent power exponent⟩,
        fun both => ⟨both.1, by simp [exponent, both.2]⟩⟩
    have digits := power.all_isDigit_iff
    have behind : power.sign.text ++ power.digits ≠ [] := by simp [power.written]
    simp only [Literal.exponentText, exponent, Option.elim_some, Binary64.Exponent.text]
    rw [some, ← digits]
    simp [power.toLower_mark, behind]

theorem readLetters_body (literal : Literal) (draft : Draft) :
    readLetters .number draft literal.body = .error (.misuse .unfit) := by
  obtain ⟨c, rest, body, first⟩ := literal.body_cons
  have letter : Kind.number.parameterLettered? c = none := by
    apply List.find?_eq_none.mpr
    intro parameter member same
    rw [decide_eq_true_eq] at same
    rcases first with digit | rfl
    · cases parameter <;> simp [Parameter.letter?] at same <;> subst same <;> simp at digit
    · cases parameter <;> simp [Parameter.letter?] at same
  rw [body, readLetters, letter]

theorem shape_hyphened (literal : Literal) :
    Shape.of ('-' :: literal.body) = .short literal.body := by
  obtain ⟨c, rest, body, first⟩ := literal.body_cons
  have hyphen := (Binary64.not_sign_of_isDigit_or_point first).1
  rw [body]
  simp [Shape.of, hyphen]

theorem setOperand_text (literal : Literal) {draft : Draft} (fresh : draft.value = none) :
    draft.setOperand .number (String.ofList literal.text) = .ok
      { draft with
        value := some (.ofDecimal literal.sign.isMinus literal.digits literal.power) } := by
  have value : numberOf (String.ofList literal.text) =
      .ok (.ofDecimal literal.sign.isMinus literal.digits literal.power) := by
    rw [numberOf, String.toList_ofList, literal.ofLiteral_text]
    rfl
  rw [setOperand_number fresh, value]
  rfl

theorem readArgument_hyphened (literal : Literal) (minus : literal.sign = .minus) {draft : Draft}
    (ready : draft.Ready) (fresh : draft.value = none) :
    readArgument .number draft (String.ofList literal.text) =
      if literal.Hyphenable then
        .ok { draft with value := some (.ofDecimal true literal.digits literal.power) }
      else .error (.misuse .unfit) := by
  have text : literal.text = '-' :: literal.body := by rw [Literal.text, minus]; rfl
  have shape := shape_hyphened literal
  have taken := setOperand_text literal fresh
  rw [minus] at taken
  have operand : isOperand .number draft (.short literal.body) = isNumber literal.body := by
    simp [isOperand, Draft.isOpen, fresh]
  by_cases hyphenable : literal.Hyphenable
  · have number := (isNumber_body_iff literal).mpr hyphenable
    rw [← text] at shape
    simp only [readArgument, ready.pending, String.toList_ofList, shape, operand, number, taken]
    simp [hyphenable, Binary64.Sign.isMinus]
  · have number : isNumber literal.body = false := by
      simpa [hyphenable] using isNumber_body_iff literal
    rw [← text] at shape
    simp only [readArgument, ready.pending, ready.ended, String.toList_ofList, shape, operand,
      number]
    simp [hyphenable, readLetters_body]

theorem readArgument_unsigned (literal : Literal) (unsigned : literal.sign = .absent)
    {draft : Draft} (ready : draft.Ready) (fresh : draft.value = none) :
    readArgument .number draft (String.ofList literal.text) =
      .ok { draft with value := some (.ofDecimal false literal.digits literal.power) } := by
  obtain ⟨c, rest, body, first⟩ := literal.body_cons
  have hyphen := (Binary64.not_sign_of_isDigit_or_point first).1
  have text : literal.text = c :: rest := by rw [Literal.text, unsigned, body]; rfl
  have plain : Shape.of (String.ofList literal.text).toList = .plain := by
    apply Shape.of_plain
    simpa [text] using hyphen
  rw [readArgument_plain ready plain, setOperand_text literal fresh, unsigned]
  rfl

def Item.IsOption : Item → Prop
  | .verbose _ => True
  | .locale _ name => IsPlainName name
  | .counter .. | .operand _ => False

theorem Item.IsOption.suits {item : Item} (option : item.IsOption) : item.Suits .number := by
  cases item with
  | verbose spelling => trivial
  | locale spelling name => exact option
  | counter spelling text => exact option.elim
  | operand text => exact option.elim

theorem Item.IsOption.operand? {item : Item} (option : item.IsOption) : item.operand? = none := by
  cases item with
  | operand text => exact option.elim
  | _ => rfl

/-- A command line for a number with the place of the number left open. -/
structure NumberLine where
  early : Option VerboseSpelling
  front : List Item
  back : List Item
  options : ∀ item ∈ front ++ back, item.IsOption
  verbose : (front ++ back).countP Item.isVerbose ≤ 1
  locale : ((front ++ back).filterMap Item.locale?).length ≤ 1

def Draft.withOptions (draft : Draft) (items : List Item) : Draft :=
  { draft with
    verbose := draft.verbose || items.any Item.isVerbose
    locale := draft.locale <|> (items.filterMap Item.locale?).head? }

theorem Draft.verbose_withOptions (draft : Draft) (items : List Item) :
    (draft.withOptions items).verbose.toNat ≤
      draft.verbose.toNat + items.countP Item.isVerbose := by
  cases some : items.any Item.isVerbose with
  | false => simp [withOptions, some]
  | true =>
    have pos : 0 < items.countP Item.isVerbose := List.countP_pos_iff.mpr (by simpa using some)
    simp only [withOptions, some, Bool.or_true, Bool.toNat_true]
    omega

theorem Draft.locale_withOptions (draft : Draft) (items : List Item) :
    (draft.withOptions items).locale.toList.length ≤
      draft.locale.toList.length + (items.filterMap Item.locale?).length := by
  unfold withOptions
  cases draft.locale with
  | some name => simp
  | none => cases items.filterMap Item.locale? <;> simp

theorem foldlM_options (draft : Draft) {items : List Item}
    (options : ∀ item ∈ items, item.IsOption) (ready : draft.Ready)
    (verbose : draft.verbose.toNat + items.countP Item.isVerbose ≤ 1)
    (locale : draft.locale.toList.length + (items.filterMap Item.locale?).length ≤ 1) :
    (items.flatMap Item.arguments).foldlM (readArgument .number) draft =
      .ok (draft.withOptions items) := by
  have suits : ∀ item ∈ items, item.Suits .number := fun item member =>
    (options item member).suits
  have operands : items.filterMap Item.operand? = [] :=
    List.filterMap_eq_nil_iff.mpr fun item member => (options item member).operand?
  have once : Once draft items := by
    refine ⟨verbose, locale, ?_⟩
    rw [operands]
    cases draft.value <;> simp
  rw [foldlM_items (by decide) suits ready once, Draft.fill, counters_of_suits suits, operands]
  simp [Draft.withOptions]
  rfl

namespace NumberLine

variable (line : NumberLine)

def arguments (operand : String) : List String :=
  (line.early.map VerboseSpelling.argument).toList ++
    Kind.number.name :: (line.front.flatMap Item.arguments ++
      operand :: line.back.flatMap Item.arguments)

def requested : Option String := ((line.front ++ line.back).filterMap Item.locale?).head?

def isVerbose : Bool := line.early.isSome || (line.front ++ line.back).any Item.isVerbose

theorem readCommand_front (verbose : Bool) (operand : String) :
    readCommand verbose .number ((line.front.flatMap Item.arguments ++
        operand :: line.back.flatMap Item.arguments).map .whole) = do
      let draft ← readArgument .number (Draft.empty.withOptions line.front) operand
      let draft ← (line.back.flatMap Item.arguments).foldlM (readArgument .number) draft
      return ⟨verbose || draft.verbose, ← draft.finish .number⟩ := by
  have verboseFront := line.verbose
  have localeFront := line.locale
  rw [List.countP_append] at verboseFront
  rw [List.filterMap_append, List.length_append] at localeFront
  have front := foldlM_options .empty
    (fun item member => line.options item (List.mem_append_left _ member)) ⟨rfl, rfl⟩
    (by simp only [Draft.empty, Bool.toNat_false]; omega)
    (by simp only [Draft.empty, Option.toList_none, List.length_nil]; omega)
  rw [readCommand, foldlM_whole, List.foldlM_append, front]
  change (List.foldlM _ _ (operand :: _) >>= _) = _
  rw [List.foldlM_cons, bind_assoc]

theorem ready_front : (Draft.empty.withOptions line.front).Ready := ⟨rfl, rfl⟩

theorem read_of_taken {operand : String} {value : Binary64}
    (taken : ∀ draft : Draft, draft.Ready → draft.value = none →
      readArgument .number draft operand = .ok { draft with value := some value }) :
    read ((line.arguments operand).map .whole) =
      .ok ⟨line.isVerbose, .number value line.requested⟩ := by
  have verbose := line.verbose
  have locale := line.locale
  rw [List.countP_append] at verbose
  rw [List.filterMap_append, List.length_append] at locale
  have verboseFront := Draft.empty.verbose_withOptions line.front
  have localeFront := Draft.empty.locale_withOptions line.front
  have fresh : Draft.empty.verbose.toNat = 0 ∧ Draft.empty.locale.toList.length = 0 := ⟨rfl, rfl⟩
  have back := foldlM_options { Draft.empty.withOptions line.front with value := some value }
    (fun item member => line.options item (List.mem_append_right _ member)) ⟨rfl, rfl⟩
    (by dsimp only; omega) (by dsimp only; omega)
  rw [arguments, read_early, readCommand_front, taken _ line.ready_front rfl]
  simp only [bind, Except.bind, back]
  simp [Draft.withOptions, Draft.finish, Draft.empty, isVerbose, requested, pure, Except.pure]

theorem read_of_refused {operand : String}
    (refused : ∀ draft : Draft, draft.Ready → draft.value = none →
      readArgument .number draft operand = .error (.misuse .unfit)) :
    read ((line.arguments operand).map .whole) = .error (.misuse .unfit) := by
  rw [arguments, read_early, readCommand_front, refused _ line.ready_front rfl]
  rfl

theorem run_of_taken {operand : String} {value : Binary64} {stored : Stored} {settings : Settings}
    {host : Host} {locale : Locale}
    (taken : ∀ draft : Draft, draft.Ready → draft.value = none →
      readArgument .number draft operand = .ok { draft with value := some value })
    (loaded : load stored = .ok settings)
    (resolved : settings.resolveLocale line.requested host.environment = .ok locale) :
    run ((line.arguments operand).map Text.encode) stored host =
      ⟨[locale.formatFloat value], .finished⟩ := by
  have reads : Reads ((line.arguments operand).map Text.encode) (line.arguments operand)
      ⟨line.isVerbose, .number value line.requested⟩ :=
    ⟨mapM_decode?_encode _, line.read_of_taken taken⟩
  exact run_of_shows reads rfl loaded (.number value resolved)

theorem run_of_refused {operand : String}
    (refused : ∀ draft : Draft, draft.Ready → draft.value = none →
      readArgument .number draft operand = .error (.misuse .unfit))
    (stored : Stored) (host : Host) :
    run ((line.arguments operand).map Text.encode) stored host = ⟨[], .misused .unfit⟩ := by
  apply run_of_misused
  rw [MisusedFor, map_ofBytes_iff.mpr (mapM_decode?_encode _)]
  exact line.read_of_refused refused

end NumberLine

theorem hyphen_append_text {literal : Literal} (unsigned : literal.sign = .absent) :
    "-" ++ String.ofList literal.text =
      String.ofList (Literal.text { literal with sign := .minus }) := by
  apply String.toList_inj.mp
  simp [Literal.text, Literal.body, Literal.fractionText, Literal.exponentText, unsigned,
    Binary64.Sign.text]

theorem stdout_singleton (text : String) : (⟨[text], .finished⟩ : Run).stdout = text ++ "\n" := by
  apply String.toList_inj.mp
  simp [Run.stdout, Output.join]

/-- Wherever the options stand, a literal that is told from an option is accepted also with a minus
    sign, and then printed with one. Any other is refused with a minus sign, though it is accepted
    without. -/
theorem number_negative {literal : Literal} (unsigned : literal.sign = .absent)
    (line : NumberLine) {stored : Stored} {settings : Settings} {host : Host} {locale : Locale}
    (loaded : load stored = .ok settings)
    (resolved : settings.resolveLocale line.requested host.environment = .ok locale) :
    let text := String.ofList literal.text
    let positive := run ((line.arguments text).map Text.encode) stored host
    let negative := run ((line.arguments ("-" ++ text)).map Text.encode) stored host
    (positive.ending.exitCode = 0 ∧ ∃ value, Binary64.ofLiteral literal.text = .ok value ∧
      positive.stdout = locale.formatFloat value ++ "\n") ∧
    (literal.Hyphenable →
      negative.ending.exitCode = 0 ∧ negative.stdout = "-" ++ positive.stdout) ∧
    (¬ literal.Hyphenable → negative.ending.exitCode = 2 ∧ negative.stdout = "") := by
  intro text positive negative
  have value := literal.ofLiteral_text
  rw [unsigned] at value
  have accepted : positive =
      ⟨[locale.formatFloat (.ofDecimal false literal.digits literal.power)], .finished⟩ :=
    line.run_of_taken (fun _ => readArgument_unsigned literal unsigned) loaded resolved
  have hyphened (draft : Draft) :=
    @readArgument_hyphened { literal with sign := .minus } rfl draft
  rw [← hyphen_append_text unsigned] at hyphened
  refine ⟨⟨by rw [accepted]; rfl, _, value, by rw [accepted, stdout_singleton]; rfl⟩, ?_, ?_⟩
  · intro hyphenable
    have same : Literal.Hyphenable { literal with sign := .minus } :=
      ⟨hyphenable.whole, hyphenable.exponent⟩
    have taken : negative =
        ⟨[locale.formatFloat (.ofDecimal true literal.digits literal.power)], .finished⟩ := by
      apply line.run_of_taken _ loaded resolved
      intro draft ready fresh
      rw [hyphened draft ready fresh, if_pos same]
      rfl
    rw [taken, accepted, stdout_singleton, stdout_singleton,
      locale.formatFloat_ofDecimal_negative, String.append_assoc]
    exact ⟨rfl, rfl⟩
  · intro option
    have other : ¬ Literal.Hyphenable { literal with sign := .minus } :=
      fun same => option ⟨same.whole, same.exponent⟩
    have refused : negative = ⟨[], .misused .unfit⟩ := by
      apply line.run_of_refused
      intro draft ready fresh
      rw [hyphened draft ready fresh, if_neg other]
    rw [refused]
    exact ⟨rfl, rfl⟩

def scaled : Literal where
  sign := .absent
  whole := "12345".toList
  fraction := some []
  exponent := some ⟨'E', .absent, ['0', '1'], by decide, List.all_eq_true.mp rfl, by decide⟩
  isDigit := List.all_eq_true.mp rfl
  written := by decide

def betweenOptions : NumberLine where
  early := none
  front := [.locale .letter "de"]
  back := [.verbose .word]
  options := by
    intro item member
    rcases List.mem_pair.mp member with rfl | rfl
    · exact ⟨'d', ['e'], rfl, by decide, by decide⟩
    · trivial
  verbose := by decide
  locale := by decide

theorem number_negative_scaled :
    let host : Host := ⟨fun _ => none, .ok 61, [], fun _ => ⟨0⟩⟩
    scaled.sign = .absent ∧ scaled.Hyphenable ∧
      Settings.default.resolveLocale betweenOptions.requested host.environment = .ok .deDE ∧
      let run :=
        run (["number", "-l", "de", "-12345.E01", "--verbose"].map Text.encode) .absent host
      run.ending.exitCode = 0 ∧ run.stdout = "-123.450\n" := by
  intro host
  have unsigned : scaled.sign = .absent := rfl
  have hyphenable : scaled.Hyphenable := by decide
  have loaded : load .absent = .ok .default := rfl
  have resolved : Settings.default.resolveLocale betweenOptions.requested host.environment =
      .ok .deDE := by decide +kernel
  obtain ⟨⟨-, value, read, printed⟩, negative, -⟩ :=
    number_negative unsigned betweenOptions loaded resolved
  have digits : Locale.deDE.formatFloat value = "123.450" := by
    have known : Binary64.ofLiteral scaled.text = .ok (.ofBits 0x40FE23A000000000) := by
      decide +kernel
    obtain rfl := Except.ok.inj (read.symm.trans known)
    decide +kernel
  obtain ⟨exit, minus⟩ := negative hyphenable
  exact ⟨unsigned, hyphenable, resolved, exit, minus.trans (by rw [printed, digits]; rfl)⟩

def halfWithoutZero : Literal where
  sign := .absent
  whole := []
  fraction := some ['5']
  exponent := none
  isDigit := List.all_eq_true.mp rfl
  written := by decide

/-- Without a digit in front, or with a sign in the exponent, a number is refused behind a hyphen,
    although it is accepted without and also where the options have ended. -/
theorem number_refused_behind_hyphen :
    let host : Host := ⟨fun _ => none, .ok 61, [], fun _ => ⟨0⟩⟩
    let answer (arguments : List String) := run (arguments.map Text.encode) .absent host
    answer ["number", ".5"] = ⟨["0.5"], .finished⟩ ∧
      answer ["number", "-.5"] = ⟨[], .misused .unfit⟩ ∧
      answer ["number", "--", "-.5"] = ⟨["-0.5"], .finished⟩ ∧
      answer ["number", "-1e-5"] = ⟨[], .misused .unfit⟩ ∧
      ¬ ∀ (literal : Literal) (stored : Stored) (settings : Settings) (host : Host)
        (locale : Locale), literal.sign = .absent → load stored = .ok settings →
        settings.resolveLocale none host.environment = .ok locale →
        let text := String.ofList literal.text
        let negative := run (["number", "-" ++ text].map Text.encode) stored host
        negative.ending.exitCode = 0 ∧
          negative.stdout = "-" ++ (run (["number", text].map Text.encode) stored host).stdout := by
  intro host answer
  have refused : answer ["number", "-.5"] = ⟨[], .misused .unfit⟩ := by decide +kernel
  refine ⟨by decide +kernel, refused, by decide +kernel, by decide +kernel, ?_⟩
  intro accepted
  have resolved : Settings.default.resolveLocale none host.environment = .ok .enUS := rfl
  obtain ⟨exit, -⟩ := accepted halfWithoutZero .absent .default host .enUS rfl rfl resolved
  have text : "-" ++ String.ofList halfWithoutZero.text = "-.5" := by decide
  rw [text] at exit
  have code : (answer ["number", "-.5"]).ending.exitCode = 2 := by
    rw [refused]
    rfl
  exact absurd (code.symm.trans exit) (by decide)

end Command

end StatusPage
