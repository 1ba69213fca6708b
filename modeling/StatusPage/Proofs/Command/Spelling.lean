import StatusPage.Proofs.Command.Items
import StatusPage.Proofs.Command.Output

namespace StatusPage.Command

open Settings (Stored load)

section Draft

variable {kind : Kind} {draft next : Draft}

inductive Item.Puts (draft : Draft) : Item → Draft → Prop where
  | verbose {spelling : VerboseSpelling} (fresh : draft.verbose = false) :
    Puts draft (.verbose spelling) { draft with verbose := true }
  | counter {spelling : CounterSpelling} {text : String} {counter : String × Binary64}
      (read : counterOf text = .ok counter) :
    Puts draft (.counter spelling text)
      { draft with counters := draft.counters ++ [counter], pending := none }
  | locale {spelling : LocaleSpelling} {name : String} (fresh : draft.locale = none) :
    Puts draft (.locale spelling name) { draft with locale := some name, pending := none }
  | operand {text : String} {value : Binary64} (fresh : draft.value = none)
      (read : numberOf text = .ok value) :
    Puts draft (.operand text) { draft with value := some value }

theorem setOperand_number {draft : Draft} (fresh : draft.value = none) (text : String) :
    draft.setOperand .number text = do
      let value ← numberOf text
      return { draft with value := some value } := by
  simp [Draft.setOperand, Draft.isOpen, fresh]

theorem Item.puts_of_put {item : Item} (suits : item.Suits kind)
    (put : item.put kind draft = .ok next) : item.Puts draft next := by
  cases item with
  | verbose spelling =>
    rw [Item.put, setFlag_verbose] at put
    cases fresh : draft.verbose with
    | true => simp [fresh] at put
    | false =>
      simp only [fresh, Bool.false_eq_true, if_false] at put
      cases put
      exact .verbose fresh
  | counter spelling text =>
    obtain ⟨counter, read, put⟩ := exists_of_bind_ok put
    cases put
    exact .counter read
  | locale spelling name =>
    cases fresh : draft.locale with
    | some other => simp [Item.put, Draft.setValue, fresh] at put
    | none =>
      simp only [Item.put, Draft.setValue, fresh, Option.isSome_none, Bool.false_eq_true,
        if_false] at put
      cases put
      exact .locale fresh
  | operand text =>
    obtain rfl : kind = .number := suits.1
    cases fresh : draft.value with
    | some other => simp [Item.put, Draft.setOperand, Draft.isOpen, fresh] at put
    | none =>
      rw [Item.put, setOperand_number fresh] at put
      obtain ⟨value, read, put⟩ := exists_of_bind_ok put
      cases put
      exact .operand fresh read

theorem Item.Puts.ready {item : Item} (puts : item.Puts draft next) (ready : draft.Ready) :
    next.Ready := by
  cases puts with
  | verbose fresh => exact ⟨ready.pending, ready.ended⟩
  | counter read => exact ⟨rfl, ready.ended⟩
  | locale fresh => exact ⟨rfl, ready.ended⟩
  | operand fresh read => exact ⟨ready.pending, ready.ended⟩

/-- What may stand only once stands at most once, in the draft and the items together. -/
structure Once (draft : Draft) (items : List Item) : Prop where
  verbose : draft.verbose.toNat + items.countP Item.isVerbose ≤ 1
  locale : draft.locale.toList.length + (items.filterMap Item.locale?).length ≤ 1
  operand : draft.value.toList.length + (items.filterMap Item.operand?).length ≤ 1

namespace Once

variable {items : List Item}

theorem verbose_eq_false {spelling : VerboseSpelling}
    (once : Once draft (.verbose spelling :: items)) : draft.verbose = false := by
  have bound := once.verbose
  cases set : draft.verbose with
  | false => rfl
  | true => simp [set, Item.isVerbose] at bound

theorem locale_eq_none {spelling : LocaleSpelling} {name : String}
    (once : Once draft (.locale spelling name :: items)) : draft.locale = none := by
  have bound := once.locale
  cases set : draft.locale with
  | none => rfl
  | some other => simp [set, Item.locale?] at bound

theorem value_eq_none {text : String} (once : Once draft (.operand text :: items)) :
    draft.value = none := by
  have bound := once.operand
  cases set : draft.value with
  | none => rfl
  | some other => simp [set, Item.operand?] at bound

end Once

/-- The draft behind a list of items, or what is wrong with the first text that cannot be read. Only
    the order of the counters counts. -/
def Draft.fill (draft : Draft) (items : List Item) : Except Usage Draft := do
  let counters ← (items.filterMap Item.counter?).mapM counterOf
  let values ← (items.filterMap Item.operand?).mapM numberOf
  return { draft with
    verbose := draft.verbose || items.any Item.isVerbose
    locale := draft.locale <|> (items.filterMap Item.locale?).head?
    counters := draft.counters ++ counters
    value := draft.value <|> values.head? }

theorem counters_of_suits {items : List Item} (suits : ∀ item ∈ items, item.Suits .number) :
    items.filterMap Item.counter? = [] := by
  rw [List.filterMap_eq_nil_iff]
  intro item member
  cases item with
  | counter spelling text => cases suits _ member
  | _ => rfl

theorem fill_cons {item : Item} {items : List Item}
    (suits : ∀ other ∈ item :: items, other.Suits kind) (ready : draft.Ready)
    (once : Once draft (item :: items)) :
    draft.fill (item :: items) = item.put kind draft >>= (·.fill items) := by
  cases item with
  | verbose spelling =>
    have fresh : draft.verbose = false := once.verbose_eq_false
    rw [Item.put, setFlag_verbose, fresh]
    simp only [Draft.fill, List.filterMap_cons, List.any_cons, Item.counter?, Item.locale?,
      Item.operand?, Item.isVerbose, fresh]
    rfl
  | counter spelling text =>
    simp only [Draft.fill, List.filterMap_cons, List.any_cons, List.mapM_cons, Item.counter?,
      Item.locale?, Item.operand?, Item.isVerbose, Item.put, Draft.setValue, bind_assoc, pure_bind]
    simp [ready.pending]
  | locale spelling name =>
    have fresh : draft.locale = none := once.locale_eq_none
    simp only [Draft.fill, List.filterMap_cons, List.any_cons, Item.counter?, Item.locale?,
      Item.operand?, Item.isVerbose, Item.put, Draft.setValue, fresh]
    simp [ready.pending]
    rfl
  | operand text =>
    obtain rfl : kind = .number := (suits _ List.mem_cons_self).1
    have fresh : draft.value = none := once.value_eq_none
    have counters := counters_of_suits fun other member =>
      suits other (List.mem_cons_of_mem _ member)
    simp only [Draft.fill, List.filterMap_cons, List.any_cons, List.mapM_cons, Item.counter?,
      Item.locale?, Item.operand?, Item.isVerbose, Item.put, setOperand_number fresh, counters,
      List.mapM_nil, bind_assoc, pure_bind]
    simp [fresh]

theorem Item.Puts.once {item : Item} {items : List Item} (puts : item.Puts draft next)
    (once : Once draft (item :: items)) : Once next items := by
  obtain ⟨verbose, locale, operand⟩ := once
  cases puts with
  | verbose fresh =>
    refine ⟨?_, locale, operand⟩
    simp only [fresh, isVerbose, List.countP_cons, Bool.toNat_false, Bool.toNat_true, if_true]
      at verbose ⊢
    omega
  | counter read => exact ⟨verbose, locale, operand⟩
  | locale fresh =>
    refine ⟨verbose, ?_, operand⟩
    simp only [fresh, locale?, List.filterMap_cons, List.length_cons, Option.toList_none,
      Option.toList_some, List.length_nil] at locale ⊢
    omega
  | operand fresh read =>
    refine ⟨verbose, locale, ?_⟩
    simp only [fresh, operand?, List.filterMap_cons, List.length_cons, Option.toList_none,
      Option.toList_some, List.length_nil] at operand ⊢
    omega

theorem foldlM_items {items : List Item} (takesLocale : Parameter.locale ∈ kind.parameters)
    (suits : ∀ item ∈ items, item.Suits kind) (ready : draft.Ready) (once : Once draft items) :
    (items.flatMap Item.arguments).foldlM (readArgument kind) draft =
      draft.fill items := by
  induction items generalizing draft with
  | nil => simp [Draft.fill]
  | cons item items ih =>
    -- An item leaves no option waiting for its value and takes up its own place, so both
    -- hypotheses hold of the draft behind it.
    have suit : item.Suits kind := suits item List.mem_cons_self
    rw [List.flatMap_cons, List.foldlM_append, item.read takesLocale suit ready,
      fill_cons suits ready once]
    cases put : item.put kind draft with
    | error usage => rfl
    | ok next =>
      have puts := item.puts_of_put suit put
      exact ih (fun other member => suits other (List.mem_cons_of_mem _ member))
        (puts.ready ready) (puts.once once)

end Draft

theorem readFrom_name (verbose : Bool) (kind : Kind) (arguments : List Argument) :
    readFrom verbose (.whole kind.name :: arguments) = readCommand verbose kind arguments := by
  have shape : Shape.of kind.name.toList = .plain := by
    cases kind <;> decide
  have named : Kind.ofName? kind.name = some kind := by
    cases kind <;> decide
  simp only [readFrom, shape, named]

theorem read_early (early : Option VerboseSpelling) (kind : Kind) (arguments : List String) :
    read (((early.map VerboseSpelling.argument).toList ++ kind.name :: arguments).map .whole) =
      readCommand early.isSome kind (arguments.map .whole) := by
  have leading :
      read (((early.map VerboseSpelling.argument).toList ++ kind.name :: arguments).map .whole) =
        readFrom early.isSome (.whole kind.name :: arguments.map .whole) := by
    rw [read]
    cases early with
    | none => rfl
    | some spelling => cases spelling <;> rfl
  rw [leading, readFrom_name]

inductive Request where
  | status (counters : List String) (locale : String)
  | number (value locale : String)
deriving DecidableEq

namespace Request

variable {request : Request}

def kind : Request → Kind
  | .status .. => .status
  | .number .. => .number

def locale : Request → String
  | .status _ locale => locale
  | .number _ locale => locale

def counters : Request → List String
  | .status counters _ => counters
  | .number .. => []

def operands : Request → List String
  | .status .. => []
  | .number value _ => [value]

structure Plain (request : Request) : Prop where
  locale : IsPlainName request.locale
  operands : ∀ text ∈ request.operands, text.toList.head? ≠ some '-'

/-- A command line for a request. The flag may stand in front of the command's name, and once more
    among the items behind it. -/
structure Line (request : Request) where
  early : Option VerboseSpelling
  items : List Item
  verbose : items.countP Item.isVerbose ≤ 1
  locale : items.filterMap Item.locale? = [request.locale]
  counters : items.filterMap Item.counter? = request.counters
  operands : items.filterMap Item.operand? = request.operands

def Line.arguments (line : request.Line) : List String :=
  (line.early.map VerboseSpelling.argument).toList ++
    request.kind.name :: line.items.flatMap Item.arguments

def command : Request → Except Usage Command
  | .status counters locale => return .status (some locale) (← counters.mapM counterOf)
  | .number value locale => return .number (← numberOf value) (some locale)

/-- What a request comes to: it is refused, or its command is performed once there are settings. -/
def answer (request : Request) (stored : Stored) (host : Host) : Run :=
  match request.command with
  | .error usage => .ofUsage usage
  | .ok command =>
    match load stored with
    | .error reason => .failed (.ofLoad reason)
    | .ok settings => command.perform settings host

theorem takesLocale (request : Request) : Parameter.locale ∈ request.kind.parameters := by
  cases request with
  | status counters locale => exact (by decide : Parameter.locale ∈ Kind.status.parameters)
  | number value locale => exact (by decide : Parameter.locale ∈ Kind.number.parameters)

theorem Line.suits (line : request.Line) (plain : request.Plain) :
    ∀ item ∈ line.items, item.Suits request.kind := by
  intro item member
  cases item with
  | verbose spelling => trivial
  | counter spelling text =>
    have listed : text ∈ request.counters :=
      line.counters ▸ List.mem_filterMap.mpr ⟨_, member, rfl⟩
    cases request with
    | status counters locale => rfl
    | number value locale => cases listed
  | locale spelling name =>
    have listed : name ∈ [request.locale] := line.locale ▸ List.mem_filterMap.mpr ⟨_, member, rfl⟩
    obtain rfl := List.mem_singleton.mp listed
    exact plain.locale
  | operand text =>
    have listed : text ∈ request.operands :=
      line.operands ▸ List.mem_filterMap.mpr ⟨_, member, rfl⟩
    cases request with
    | status counters locale => cases listed
    | number value locale => exact ⟨rfl, plain.operands text listed⟩

theorem Line.once (line : request.Line) : Once .empty line.items where
  verbose := (Nat.zero_add _).trans_le line.verbose
  locale := by simp [line.locale, Draft.empty]
  operand := by
    rw [line.operands]
    cases request with
    | status counters locale => exact Nat.zero_le 1
    | number value locale => exact le_rfl

theorem Line.readCommand_items (line : request.Line) (plain : request.Plain) (verbose : Bool) :
    readCommand verbose request.kind ((line.items.flatMap Item.arguments).map .whole) = do
      return ⟨verbose || line.items.any Item.isVerbose, ← request.command⟩ := by
  rw [readCommand, foldlM_whole,
    foldlM_items request.takesLocale (line.suits plain) ⟨rfl, rfl⟩ line.once,
    Draft.fill, line.locale, line.counters, line.operands]
  cases request with
  | status counters locale =>
    simp only [Request.counters, Request.operands, command, kind]
    cases counters.mapM counterOf with
    | error usage => rfl
    | ok counters => rfl
  | number value locale =>
    simp only [Request.counters, Request.operands, command, kind, List.mapM_cons]
    cases numberOf value with
    | error usage => rfl
    | ok value => rfl

theorem Line.read_arguments (line : request.Line) (plain : request.Plain) :
    read (line.arguments.map .whole) = do
      return ⟨line.early.isSome || line.items.any Item.isVerbose, ← request.command⟩ := by
  rw [arguments, read_early, line.readCommand_items plain]

/-- However the options of a request are spelled, and wherever they stand, the run is the same. -/
theorem run_of_line (plain : request.Plain) (line other : request.Line) (stored : Stored)
    (host : Host) :
    run (line.arguments.map Text.encode) stored host =
        run (other.arguments.map Text.encode) stored host ∧
      run (line.arguments.map Text.encode) stored host = request.answer stored host := by
  have answered (line : request.Line) :
      run (line.arguments.map Text.encode) stored host = request.answer stored host := by
    rw [run, map_ofBytes_iff.mpr (mapM_decode?_encode _), line.read_arguments plain, answer]
    cases request.command with
    | error usage => rfl
    | ok command => rfl
  exact ⟨(answered line).trans (answered other).symm, answered line⟩

def hyphened : Request := .status ["-l=3", "--counter=-2", "a = 1.5"] "de"

def hyphenedApart : hyphened.Line where
  early := some .letter
  items := [.counter .apart "-l=3", .locale .letterAttached "de", .counter .apart "--counter=-2",
    .counter .attached "a = 1.5"]
  verbose := by decide
  locale := rfl
  counters := rfl
  operands := rfl

def hyphenedAttached : hyphened.Line where
  early := none
  items := [.locale .wordAttached "de", .counter .attached "-l=3", .verbose .word,
    .counter .attached "--counter=-2", .counter .apart "a = 1.5"]
  verbose := by decide
  locale := rfl
  counters := rfl
  operands := rfl

theorem run_of_line_hyphened :
    let texts := ["-v", "status", "--counter", "-l=3", "-lde", "--counter", "--counter=-2",
      "--counter=a = 1.5"]
    let others := ["status", "--locale=de", "--counter=-l=3", "--verbose",
      "--counter=--counter=-2", "--counter", "a = 1.5"]
    let host : Host := ⟨fun _ => none, .ok 61, [], fun _ => ⟨0⟩⟩
    hyphened.Plain ∧
      run (texts.map Text.encode) .absent host = run (others.map Text.encode) .absent host ∧
      (run (texts.map Text.encode) .absent host).stdout =
        "Status\n======\nUptime:        1 minutes, 1 seconds\nUptime (secs): 61\n" ++
          "-l:            3\n--counter:     -2\na:             1,5\n" := by
  intro texts others host
  have plain : hyphened.Plain := by
    refine ⟨⟨'d', ['e'], rfl, by decide, by decide⟩, ?_⟩
    intro text listed
    cases listed
  obtain ⟨same, answered⟩ := run_of_line plain hyphenedApart hyphenedAttached .absent host
  refine ⟨plain, same, (congrArg Run.stdout answered).trans ?_⟩
  decide +kernel

end Request

end StatusPage.Command
