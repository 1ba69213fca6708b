import StatusPage.Proofs.Command.Counters

namespace StatusPage.Command

inductive VerboseSpelling where
  | letter
  | word
deriving DecidableEq

def VerboseSpelling.argument : VerboseSpelling → String
  | .letter => "-v"
  | .word => "--verbose"

inductive CounterSpelling where
  | apart
  | attached
deriving DecidableEq

inductive LocaleSpelling where
  | word
  | wordAttached
  | letter
  | letterAttached
  | letterEquals
deriving DecidableEq

inductive Item where
  | verbose (spelling : VerboseSpelling)
  | counter (spelling : CounterSpelling) (text : String)
  | locale (spelling : LocaleSpelling) (name : String)
  | operand (text : String)
deriving DecidableEq

namespace Item

def arguments : Item → List String
  | .verbose spelling => [spelling.argument]
  | .counter .apart text => ["--counter", text]
  | .counter .attached text => ["--counter=" ++ text]
  | .locale .word name => ["--locale", name]
  | .locale .wordAttached name => ["--locale=" ++ name]
  | .locale .letter name => ["-l", name]
  | .locale .letterAttached name => ["-l" ++ name]
  | .locale .letterEquals name => ["-l=" ++ name]
  | .operand text => [text]

def isVerbose : Item → Bool
  | .verbose _ => true
  | _ => false

def counter? : Item → Option String
  | .counter _ text => some text
  | _ => none

def locale? : Item → Option String
  | .locale _ name => some name
  | _ => none

def operand? : Item → Option String
  | .operand text => some text
  | _ => none

def put (kind : Kind) (draft : Draft) : Item → Except Usage Draft
  | .verbose _ => draft.setFlag .verbose
  | .counter _ text => draft.setValue text .counter
  | .locale _ name => draft.setValue name .locale
  | .operand text => draft.setOperand kind text

end Item

/-- A locale name that no spelling of its option changes. -/
def IsPlainName (name : String) : Prop :=
  ∃ c rest, name.toList = c :: rest ∧ c ≠ '-' ∧ c ≠ '='

/-- The items that a command takes, with texts that are not taken for options. -/
def Item.Suits (kind : Kind) : Item → Prop
  | .verbose _ => True
  | .counter _ _ => kind = .status
  | .locale _ name => IsPlainName name
  | .operand text => kind = .number ∧ text.toList.head? ≠ some '-'

structure Draft.Ready (draft : Draft) : Prop where
  pending : draft.pending = none
  ended : draft.ended = false

variable {kind : Kind} {draft : Draft} {argument : String}

theorem Shape.of_plain {text : List Char} (head : text.head? ≠ some '-') :
    Shape.of text = .plain := by
  unfold Shape.of
  split <;> simp at head ⊢

theorem isNumber_of_letter {letter : Char} (other : ¬ letter.isDigit) (letters : List Char) :
    isNumber (letter :: letters) = false := by
  have whole : (Binary64.splitPoint (letter :: letters)).1 = [] := by
    rw [Binary64.splitPoint, List.takeWhile_cons_of_neg other]
    split <;> rfl
  rw [isNumber]
  generalize Binary64.splitPoint (letter :: letters) = parts at whole
  obtain ⟨_, fraction, rest⟩ := parts
  subst whole
  rfl

theorem setFlag_verbose (draft : Draft) : draft.setFlag .verbose =
    if draft.verbose then .error (.misuse .unfit) else .ok { draft with verbose := true } := rfl

theorem readArgument_plain (ready : draft.Ready) (shape : Shape.of argument.toList = .plain) :
    readArgument kind draft argument = draft.setOperand kind argument := by
  simp [readArgument, ready.pending, ready.ended, shape]

theorem setValue_awaited (draft : Draft) (awaited parameter : Parameter) (value : String) :
    { draft with pending := some awaited }.setValue value parameter =
      draft.setValue value parameter := by
  cases parameter <;> rfl

theorem readArgument_awaited {parameter : Parameter} {value : String}
    (free : parameter = .counter ∨ Shape.of value.toList = .plain) :
    readArgument kind { draft with pending := some parameter } value =
      draft.setValue value parameter := by
  have taken : parameter = .counter ∨ Shape.of value.toList = .plain ∨
      isOperand kind { draft with pending := some parameter } (Shape.of value.toList) :=
    free.imp_right .inl
  rw [readArgument]
  dsimp only
  rw [readPending, if_pos taken, setValue_awaited]

theorem foldlM_argument (kind : Kind) (draft : Draft) (argument : String) :
    [argument].foldlM (readArgument kind) draft = readArgument kind draft argument := by
  rw [List.foldlM_cons]
  exact bind_pure _

theorem foldlM_awaited {parameter : Parameter} {value : String}
    (read : readArgument kind draft argument = .ok { draft with pending := some parameter })
    (free : parameter = .counter ∨ Shape.of value.toList = .plain) :
    [argument, value].foldlM (readArgument kind) draft = draft.setValue value parameter := by
  simp only [List.foldlM_cons, List.foldlM_nil, bind_pure, read]
  exact readArgument_awaited free

section Parameter

variable {parameter : Parameter} {name : List Char} {letter : Char}

theorem readLong_flag (named : kind.parameterNamed? name = some parameter)
    (flag : parameter.takesValue = false) :
    readLong kind draft name none = draft.setFlag parameter := by
  unfold readLong
  rw [named]
  simp [flag]

theorem readLong_awaiting (named : kind.parameterNamed? name = some parameter)
    (takes : parameter.takesValue) :
    readLong kind draft name none = .ok { draft with pending := some parameter } := by
  unfold readLong
  rw [named]
  simp [takes]

theorem readLong_attached (named : kind.parameterNamed? name = some parameter)
    (value : List Char) :
    readLong kind draft name (some value) = draft.setValue (String.ofList value) parameter := by
  unfold readLong
  rw [named]

theorem readLetters_flag (lettered : kind.parameterLettered? letter = some parameter)
    (flag : parameter.takesValue = false) :
    readLetters kind draft [letter] = draft.setFlag parameter := by
  rw [readLetters, lettered]
  simp only [flag, Bool.false_eq_true, if_false]
  exact bind_pure _

theorem readLetters_awaiting (lettered : kind.parameterLettered? letter = some parameter)
    (takes : parameter.takesValue) :
    readLetters kind draft [letter] = .ok { draft with pending := some parameter } := by
  rw [readLetters, lettered]
  simp [takes]

theorem readLetters_attached (lettered : kind.parameterLettered? letter = some parameter)
    (takes : parameter.takesValue) {c : Char} (other : c ≠ '=') (rest : List Char) :
    readLetters kind draft (letter :: c :: rest) =
      draft.setValue (String.ofList (c :: rest)) parameter := by
  rw [readLetters, lettered]
  simp [takes, other]

theorem readLetters_equals (lettered : kind.parameterLettered? letter = some parameter)
    (takes : parameter.takesValue) (value : List Char) :
    readLetters kind draft (letter :: '=' :: value) =
      draft.setValue (String.ofList value) parameter := by
  rw [readLetters, lettered]
  simp [takes]

end Parameter

section Options

variable (takesLocale : Parameter.locale ∈ kind.parameters)

include takesLocale

theorem isOperand_of_takesLocale (draft : Draft) {shape : Shape}
    (other : ∀ letters, shape = .short letters → isNumber letters = false) :
    isOperand kind draft shape = false := by
  cases kind with
  | uptime => exact absurd takesLocale (by decide)
  | number =>
    cases shape with
    | short letters => simp [isOperand, other letters rfl]
    | ending => simp [isOperand]
    | long name value => simp [isOperand]
    | plain => simp [isOperand]
  | status => simp [isOperand]
  | restart => simp [isOperand]

theorem readArgument_long (ready : draft.Ready) {name : List Char} {value : Option (List Char)}
    (shape : Shape.of argument.toList = .long name value) :
    readArgument kind draft argument = readLong kind draft name value := by
  have option : isOperand kind draft (.long name value) = false :=
    isOperand_of_takesLocale takesLocale draft (by simp)
  simp [readArgument, ready.pending, ready.ended, shape, option]

theorem readArgument_short (ready : draft.Ready) {letter : Char} {letters : List Char}
    (other : ¬ letter.isDigit) (shape : Shape.of argument.toList = .short (letter :: letters)) :
    readArgument kind draft argument = readLetters kind draft (letter :: letters) := by
  have option : isOperand kind draft (.short (letter :: letters)) = false := by
    apply isOperand_of_takesLocale takesLocale
    rintro _ ⟨⟩
    exact isNumber_of_letter other letters
  simp [readArgument, ready.pending, ready.ended, shape, option]

theorem parameterNamed?_locale : kind.parameterNamed? "locale".toList = some .locale := by
  revert takesLocale
  cases kind <;> decide

theorem parameterLettered?_locale : kind.parameterLettered? 'l' = some .locale := by
  revert takesLocale
  cases kind <;> decide

theorem read_verbose (ready : draft.Ready) (spelling : VerboseSpelling) :
    readArgument kind draft spelling.argument = draft.setFlag .verbose := by
  cases spelling with
  | letter =>
    have lettered : kind.parameterLettered? 'v' = some .verbose := by
      cases kind <;> decide
    have shape : Shape.of "-v".toList = .short ['v'] := rfl
    exact (readArgument_short takesLocale ready (by decide) shape).trans
      (readLetters_flag lettered rfl)
  | word =>
    have named : kind.parameterNamed? "verbose".toList = some .verbose := by
      cases kind <;> decide
    have shape : Shape.of "--verbose".toList = .long "verbose".toList none := rfl
    exact (readArgument_long takesLocale ready shape).trans (readLong_flag named rfl)

theorem read_locale (ready : draft.Ready) {name : String} (plain : IsPlainName name)
    (spelling : LocaleSpelling) :
    (Item.locale spelling name).arguments.foldlM (readArgument kind) draft =
      draft.setValue name .locale := by
  obtain ⟨c, rest, text, hyphen, equals⟩ := plain
  have named := parameterNamed?_locale takesLocale
  have lettered := parameterLettered?_locale takesLocale
  have free : Shape.of name.toList = .plain := by
    apply Shape.of_plain
    simpa [text] using hyphen
  cases spelling with
  | word =>
    have shape : Shape.of "--locale".toList = .long "locale".toList none := rfl
    apply foldlM_awaited _ (.inr free)
    rw [readArgument_long takesLocale ready shape, readLong_awaiting named rfl]
  | wordAttached =>
    have shape : Shape.of ("--locale=" ++ name).toList =
        .long "locale".toList (some name.toList) := by
      rw [String.toList_append]
      rfl
    rw [Item.arguments, foldlM_argument, readArgument_long takesLocale ready shape,
      readLong_attached named, String.ofList_toList]
  | letter =>
    have shape : Shape.of "-l".toList = .short ['l'] := rfl
    apply foldlM_awaited _ (.inr free)
    rw [readArgument_short takesLocale ready (by decide) shape, readLetters_awaiting lettered rfl]
  | letterAttached =>
    have shape : Shape.of ("-l" ++ name).toList = .short ('l' :: c :: rest) := by
      rw [String.toList_append, text]
      rfl
    rw [Item.arguments, foldlM_argument, readArgument_short takesLocale ready (by decide) shape,
      readLetters_attached lettered rfl equals, ← text, String.ofList_toList]
  | letterEquals =>
    have shape : Shape.of ("-l=" ++ name).toList = .short ('l' :: '=' :: name.toList) := by
      rw [String.toList_append]
      rfl
    rw [Item.arguments, foldlM_argument, readArgument_short takesLocale ready (by decide) shape,
      readLetters_equals lettered rfl, String.ofList_toList]

end Options

theorem read_counter (ready : draft.Ready) (text : String) (spelling : CounterSpelling) :
    (Item.counter spelling text).arguments.foldlM (readArgument .status) draft =
      draft.setValue text .counter := by
  have takesLocale : Parameter.locale ∈ Kind.status.parameters := by decide
  have named : Kind.status.parameterNamed? "counter".toList = some .counter := by decide
  cases spelling with
  | apart =>
    have shape : Shape.of "--counter".toList = .long "counter".toList none := rfl
    apply foldlM_awaited _ (.inl rfl)
    rw [readArgument_long takesLocale ready shape, readLong_awaiting named rfl]
  | attached =>
    have shape : Shape.of ("--counter=" ++ text).toList =
        .long "counter".toList (some text.toList) := by
      rw [String.toList_append, Shape.of_attached]
    rw [Item.arguments, foldlM_argument, readArgument_long takesLocale ready shape,
      readLong_attached named, String.ofList_toList]

theorem Item.read {item : Item} (takesLocale : Parameter.locale ∈ kind.parameters)
    (suits : item.Suits kind) (ready : draft.Ready) :
    item.arguments.foldlM (readArgument kind) draft = item.put kind draft := by
  cases item with
  | verbose spelling =>
    rw [arguments, foldlM_argument]
    exact read_verbose takesLocale ready spelling
  | counter spelling text =>
    obtain rfl : kind = .status := suits
    exact read_counter ready text spelling
  | locale spelling name => exact read_locale takesLocale ready suits spelling
  | operand text =>
    rw [arguments, foldlM_argument]
    exact readArgument_plain ready (Shape.of_plain suits.2)

end StatusPage.Command
