import StatusPage.Command.Counter
import StatusPage.Text.Bytes

namespace StatusPage

inductive Command where
  | uptime (seconds : Option String) (trim : Bool)
  | number (value : Binary64) (locale : Option String)
  | status (locale : Option String) (counters : List (String × Binary64))
  | restart
deriving DecidableEq

/-- What is found wrong first: a counter or a number that cannot be read, or arguments that do not
    fit the command. -/
inductive Misuse where
  | unfit
  | counter (error : CounterError)
  | number (text : String) (error : Binary64.LiteralError)
deriving DecidableEq

def Misuse.message? : Misuse → Option String
  | .unfit => none
  | .counter error => error.message
  | .number _ error => error.message

inductive Usage where
  | misuse (reason : Misuse)
  | help
deriving DecidableEq

/-- What comes of an argument whose text breaks off where this much of it has been read. -/
def Usage.brokenOff {α : Type} : Except Usage α → Usage
  | .error usage => usage
  | .ok _ => .misuse .unfit

namespace Command

/-- A text, or bytes that are none but begin with one. -/
inductive Argument where
  | whole (text : String)
  | torn (front : String)
deriving DecidableEq

def Argument.ofBytes (bytes : List UInt8) : Argument :=
  match Text.decode? bytes with
  | some text => .whole text
  | none => .torn (Text.front bytes)

def counterOf (text : String) : Except Usage (String × Binary64) :=
  (readCounter text).mapError fun error => .misuse (.counter error)

def numberOf (text : String) : Except Usage Binary64 :=
  (Binary64.ofLiteral text.toList).mapError fun error => .misuse (.number text error)

inductive Kind where
  | uptime
  | number
  | status
  | restart
deriving DecidableEq

inductive Parameter where
  | verbose
  | help
  | trim
  | locale
  | counter
deriving DecidableEq

namespace Parameter

def name : Parameter → String
  | .verbose => "verbose"
  | .help => "help"
  | .trim => "trim"
  | .locale => "locale"
  | .counter => "counter"

def letter? : Parameter → Option Char
  | .verbose => some 'v'
  | .help => some 'h'
  | .locale => some 'l'
  | .trim | .counter => none

def takesValue : Parameter → Bool
  | .locale | .counter => true
  | .verbose | .help | .trim => false

end Parameter

namespace Kind

def all : List Kind := [.uptime, .number, .status, .restart]

def name : Kind → String
  | .uptime => "uptime"
  | .number => "number"
  | .status => "status"
  | .restart => "restart"

def ofName? (name : String) : Option Kind := all.find? fun kind => kind.name = name

def parameters : Kind → List Parameter
  | .uptime => [.verbose, .help, .trim]
  | .number => [.verbose, .help, .locale]
  | .status => [.verbose, .help, .locale, .counter]
  | .restart => [.verbose, .help]

def parameterNamed? (kind : Kind) (name : List Char) : Option Parameter :=
  kind.parameters.find? fun parameter => parameter.name.toList = name

def parameterLettered? (kind : Kind) (letter : Char) : Option Parameter :=
  kind.parameters.find? fun parameter => parameter.letter? = some letter

end Kind

structure Draft where
  verbose : Bool
  trim : Bool
  locale : Option String
  counters : List (String × Binary64)
  seconds : Option String
  value : Option Binary64
  pending : Option Parameter
  ended : Bool
deriving DecidableEq

namespace Draft

def empty : Draft := ⟨false, false, none, [], none, none, none, false⟩

def setFlag (draft : Draft) : Parameter → Except Usage Draft
  | .verbose =>
    if draft.verbose then .error (.misuse .unfit) else .ok { draft with verbose := true }
  | .trim =>
    if draft.trim then .error (.misuse .unfit) else .ok { draft with trim := true }
  | .help => .error .help
  | .locale | .counter => .error (.misuse .unfit)

def setValue (draft : Draft) (value : String) : Parameter → Except Usage Draft
  | .locale =>
    if draft.locale.isSome then .error (.misuse .unfit)
    else .ok { draft with locale := some value, pending := none }
  | .counter => do
    let counter ← counterOf value
    return { draft with counters := draft.counters ++ [counter], pending := none }
  | .verbose | .help | .trim => .error (.misuse .unfit)

def isOpen (draft : Draft) (kind : Kind) : Bool :=
  match kind with
  | .uptime => draft.seconds.isNone
  | .number => draft.value.isNone
  | .status | .restart => false

/-- Take an argument as the operand. A number has to be readable before anything behind it counts,
    also a request for help. -/
def setOperand (kind : Kind) (draft : Draft) (text : String) : Except Usage Draft :=
  match kind, draft.isOpen kind with
  | .uptime, true => .ok { draft with seconds := some text }
  | .number, true => do
    let value ← numberOf text
    return { draft with value := some value }
  | _, _ => .error (.misuse .unfit)

end Draft

inductive Shape where
  | ending
  | long (name : List Char) (value : Option (List Char))
  | short (letters : List Char)
  | plain
deriving DecidableEq

def Shape.of (argument : List Char) : Shape :=
  match argument with
  | ['-', '-'] => .ending
  | '-' :: '-' :: text =>
    .long (text.takeWhile (· ≠ '=')) <|
      match text.dropWhile (· ≠ '=') with
      | [] => none
      | _ :: value => some value
  | '-' :: letter :: letters => .short (letter :: letters)
  | _ => .plain

/-- Whether what stands behind a hyphen makes it a negative number: digits, with a decimal point
    behind the first of them and an exponent without a sign at the end. -/
def isNumber (text : List Char) : Bool :=
  let (whole, _, rest) := Binary64.splitPoint text
  whole ≠ [] && match rest with
    | [] => true
    | mark :: digits => mark.toLower = 'e' && digits ≠ [] && digits.all Char.isDigit

/-- Whether an argument that begins with a hyphen is taken as the operand: for an uptime where it is
    no option, for a number where it looks like one. -/
def isOperand (kind : Kind) (draft : Draft) (shape : Shape) : Bool :=
  draft.isOpen kind && match kind, shape with
    | .uptime, .long name _ => (kind.parameterNamed? name).isNone
    | .uptime, .short letters => letters.any fun letter => (kind.parameterLettered? letter).isNone
    | .number, .short letters => isNumber letters
    | _, _ => false

def readLetters (kind : Kind) (draft : Draft) : List Char → Except Usage Draft
  | [] => .ok draft
  | letter :: letters =>
    match kind.parameterLettered? letter with
    | none => .error (.misuse .unfit)
    | some parameter =>
      if parameter.takesValue then
        match letters with
        | [] => .ok { draft with pending := some parameter }
        | '=' :: value => draft.setValue (String.ofList value) parameter
        | value => draft.setValue (String.ofList value) parameter
      else do readLetters kind (← draft.setFlag parameter) letters

def readLong (kind : Kind) (draft : Draft) (name : List Char) (value : Option (List Char)) :
    Except Usage Draft :=
  match kind.parameterNamed? name, value with
  | none, _ => .error (.misuse .unfit)
  | some parameter, none =>
    if parameter.takesValue then .ok { draft with pending := some parameter }
    else draft.setFlag parameter
  | some parameter, some value => draft.setValue (String.ofList value) parameter

def readPending (kind : Kind) (draft : Draft) (parameter : Parameter) (argument : String) :
    Except Usage Draft :=
  let shape := Shape.of argument.toList
  if parameter = .counter ∨ shape = .plain ∨ isOperand kind draft shape then
    draft.setValue argument parameter
  else .error (.misuse .unfit)

def readArgument (kind : Kind) (draft : Draft) (argument : String) : Except Usage Draft :=
  match draft.pending with
  | some parameter => readPending kind draft parameter argument
  | none =>
    let shape := Shape.of argument.toList
    if draft.ended ∨ isOperand kind draft shape then draft.setOperand kind argument
    else match shape with
      | .ending => .ok { draft with ended := true }
      | .long name value => readLong kind draft name value
      | .short letters => readLetters kind draft letters
      | .plain => draft.setOperand kind argument

/-- An argument that is no text is refused, unless its letters ask for help before it breaks off. -/
def readTorn (kind : Kind) (draft : Draft) (front : String) : Usage :=
  match draft.pending, Shape.of front.toList with
  | none, .short letters =>
    if draft.ended ∨ kind = .uptime ∧ draft.isOpen kind then .misuse .unfit
    else .brokenOff (readLetters kind draft letters)
  | _, _ => .misuse .unfit

def Argument.read (kind : Kind) (draft : Draft) : Argument → Except Usage Draft
  | .whole text => readArgument kind draft text
  | .torn front => .error (readTorn kind draft front)

def Draft.finish (kind : Kind) (draft : Draft) : Except Usage Command :=
  if draft.pending.isSome then .error (.misuse .unfit)
  else match kind with
    | .uptime => .ok (.uptime draft.seconds draft.trim)
    | .number =>
      match draft.value with
      | some value => .ok (.number value draft.locale)
      | none => .error (.misuse .unfit)
    | .status => .ok (.status draft.locale draft.counters)
    | .restart => .ok .restart

def readLeading (verbose : Bool) : List Char → Except Usage Bool
  | [] => .ok verbose
  | 'v' :: letters => if verbose then .error (.misuse .unfit) else readLeading true letters
  | 'h' :: _ => .error .help
  | _ :: _ => .error (.misuse .unfit)

structure Invocation where
  verbose : Bool
  command : Command
deriving DecidableEq

def readCommand (verbose : Bool) (kind : Kind) (arguments : List Argument) :
    Except Usage Invocation := do
  let draft ← arguments.foldlM (Argument.read kind) .empty
  return ⟨verbose || draft.verbose, ← draft.finish kind⟩

def readHelp : List Argument → Usage
  | [] => .help
  | [.whole name] => if (Kind.ofName? name).isSome ∨ name = "help" then .help else .misuse .unfit
  | _ => .misuse .unfit

def readFrom (verbose : Bool) : List Argument → Except Usage Invocation
  | [] => .error (.misuse .unfit)
  | .torn front :: _ =>
    match Shape.of front.toList with
    | .short letters => .error (.brokenOff (readLeading verbose letters))
    | _ => .error (.misuse .unfit)
  | .whole argument :: arguments =>
    match Shape.of argument.toList with
    | .ending => .error (.misuse .unfit)
    | .long name value =>
      if value.isSome then .error (.misuse .unfit)
      else if name = "help".toList then .error .help
      else if name = "verbose".toList ∧ ¬ verbose then readFrom true arguments
      else .error (.misuse .unfit)
    | .short letters =>
      match readLeading verbose letters with
      | .error usage => .error usage
      | .ok verbose => readFrom verbose arguments
    | .plain =>
      match Kind.ofName? argument with
      | some kind => readCommand verbose kind arguments
      | none => .error (if argument = "help" then readHelp arguments else .misuse .unfit)

def read (arguments : List Argument) : Except Usage Invocation := readFrom false arguments

end Command

end StatusPage
