import StatusPage.Command.Arguments
import StatusPage.Error

namespace StatusPage.Command

variable {argument : String} {draft next : Draft}

def attached? (argument : String) : Option String :=
  if "--counter=".toList <+: argument.toList then some (String.ofList (argument.toList.drop 10))
  else none

/-- The texts of the counters on a command line, in their order. A counter is the argument behind
    `--counter`, whatever that is, or stands in one argument with it. -/
def counterTexts (awaited : Bool) : List String → List String
  | [] => []
  | argument :: arguments =>
    if awaited then argument :: counterTexts false arguments
    else if argument = "--counter" then counterTexts true arguments
    else (attached? argument).toList ++ counterTexts false arguments

theorem Shape.of_eq_long {text name : List Char} {value : Option (List Char)}
    (shape : Shape.of text = .long name value) :
    text = '-' :: '-' :: (name ++ value.elim [] ('=' :: ·)) := by
  unfold Shape.of at shape
  split at shape
  · cases shape
  · rename_i text _
    cases shape
    have parts := List.takeWhile_append_dropWhile (p := fun c => decide (c ≠ '=')) (l := text)
    have head := List.head?_dropWhile_not (fun c => decide (c ≠ '=')) text
    cases rest : text.dropWhile fun c => decide (c ≠ '=') with
    | nil =>
      rw [rest] at parts
      simpa using parts.symm
    | cons c value =>
      rw [rest] at parts head
      obtain rfl : c = '=' := by simpa using head
      simpa using parts.symm
  · cases shape
  · cases shape

theorem Shape.of_attached (value : List Char) :
    Shape.of ("--counter=".toList ++ value) = .long "counter".toList (some value) := by
  rfl

theorem counter_option (argument : String) :
    (argument = "--counter" ∧ Shape.of argument.toList = .long "counter".toList none) ∨
    (∃ value, argument ≠ "--counter" ∧ attached? argument = some (String.ofList value) ∧
      Shape.of argument.toList = .long "counter".toList (some value)) ∨
    (argument ≠ "--counter" ∧ attached? argument = none ∧
      ∀ value, Shape.of argument.toList ≠ .long "counter".toList value) := by
  by_cases bare : argument = "--counter"
  · left
    subst bare
    exact ⟨rfl, rfl⟩
  · right
    by_cases attached : "--counter=".toList <+: argument.toList
    · left
      obtain ⟨value, text⟩ := attached
      refine ⟨value, bare, ?_, text ▸ Shape.of_attached value⟩
      rw [attached?, if_pos ⟨value, text⟩, ← text]
      rfl
    · right
      refine ⟨bare, if_neg attached, ?_⟩
      intro value shape
      have text := Shape.of_eq_long shape
      cases value with
      | none => exact bare (String.toList_inj.mp text)
      | some value => exact attached ⟨value, text.symm⟩

theorem counterTexts_cons (arguments : List String)
    (other : ∀ value, Shape.of argument.toList ≠ .long "counter".toList value) :
    counterTexts false (argument :: arguments) = counterTexts false arguments := by
  rcases counter_option argument with ⟨-, shape⟩ | ⟨value, -, -, shape⟩ | ⟨bare, attached, -⟩
  · exact absurd shape (other none)
  · exact absurd shape (other (some value))
  · simp [counterTexts, bare, attached]

structure Draft.Keeps (draft next : Draft) : Prop where
  counters : next.counters = draft.counters
  pending : next.pending ≠ some .counter

theorem Draft.setFlag_keeps {parameter : Parameter} (set : draft.setFlag parameter = .ok next)
    (pending : draft.pending ≠ some .counter) : draft.Keeps next := by
  cases parameter with
  | verbose =>
    simp only [setFlag] at set
    split at set <;> cases set
    exact ⟨rfl, pending⟩
  | trim =>
    simp only [setFlag] at set
    split at set <;> cases set
    exact ⟨rfl, pending⟩
  | help => cases set
  | locale => cases set
  | counter => cases set

theorem Draft.setValue_keeps {parameter : Parameter} {value : String}
    (set : draft.setValue value parameter = .ok next) (other : parameter ≠ .counter) :
    draft.Keeps next := by
  cases parameter with
  | locale =>
    simp only [setValue] at set
    split at set <;> cases set
    exact ⟨rfl, by simp⟩
  | counter => exact absurd rfl other
  | verbose => cases set
  | help => cases set
  | trim => cases set

theorem readCounter_of_counterOf {text : String} {counter : String × Binary64}
    (taken : counterOf text = .ok counter) : readCounter text = .ok counter := by
  unfold counterOf at taken
  cases read : readCounter text with
  | error reason =>
    rw [read] at taken
    cases taken
  | ok value =>
    rw [read] at taken
    cases taken
    rfl

theorem Draft.setValue_counter {value : String} (set : draft.setValue value .counter = .ok next) :
    ∃ counter, readCounter value = .ok counter ∧ next.counters = draft.counters ++ [counter] ∧
      next.pending = none := by
  obtain ⟨counter, taken, set⟩ := exists_of_bind_ok set
  cases set
  exact ⟨counter, readCounter_of_counterOf taken, rfl, rfl⟩

theorem parameterLettered?_ne_counter (letter : Char) :
    Kind.status.parameterLettered? letter ≠ some .counter := by
  intro found
  have lettered := List.find?_some found
  simp [Parameter.letter?] at lettered

theorem readLetters_keeps {letters : List Char}
    (read : readLetters .status draft letters = .ok next)
    (pending : draft.pending ≠ some .counter) : draft.Keeps next := by
  induction letters generalizing draft with
  | nil =>
    cases read
    exact ⟨rfl, pending⟩
  | cons letter letters ih =>
    unfold readLetters at read
    split at read
    · cases read
    · rename_i parameter found
      have other : parameter ≠ .counter := by
        rintro rfl
        exact parameterLettered?_ne_counter letter found
      split at read
      · split at read
        · cases read
          exact ⟨rfl, by simpa using other⟩
        · exact Draft.setValue_keeps read other
        · exact Draft.setValue_keeps read other
      · obtain ⟨flagged, set, read⟩ := exists_of_bind_ok read
        have kept := Draft.setFlag_keeps set pending
        have rest := ih read kept.pending
        exact ⟨rest.counters.trans kept.counters, rest.pending⟩

theorem readLong_keeps {name : List Char} {value : Option (List Char)}
    (read : readLong .status draft name value = .ok next)
    (pending : draft.pending ≠ some .counter) (other : name ≠ "counter".toList) :
    draft.Keeps next := by
  have named : Kind.status.parameterNamed? name ≠ some .counter := by
    intro found
    have same := List.find?_some found
    exact other (by simpa [Parameter.name, eq_comm] using same)
  unfold readLong at read
  split at read
  · cases read
  · rename_i parameter found
    have noCounter : parameter ≠ .counter := fun same => named (same ▸ found)
    split at read
    · cases read
      exact ⟨rfl, by simpa using noCounter⟩
    · exact Draft.setFlag_keeps read pending
  · rename_i parameter value found
    exact Draft.setValue_keeps read fun same => named (same ▸ found)

theorem isOperand_status (draft : Draft) (shape : Shape) :
    isOperand .status draft shape = false := by
  simp [isOperand, Draft.isOpen]

theorem readPending_keeps {parameter : Parameter}
    (read : readPending .status draft parameter argument = .ok next)
    (other : parameter ≠ .counter) : draft.Keeps next ∧ Shape.of argument.toList = .plain := by
  unfold readPending at read
  simp only [other, isOperand_status, false_or, Bool.false_eq_true, or_false] at read
  split at read
  · rename_i plain
    exact ⟨Draft.setValue_keeps read other, plain⟩
  · cases read

theorem readArgument_keeps (read : readArgument .status draft argument = .ok next)
    (pending : draft.pending ≠ some .counter)
    (other : ∀ value, Shape.of argument.toList ≠ .long "counter".toList value) :
    draft.Keeps next := by
  unfold readArgument at read
  split at read
  · rename_i parameter awaited
    have noCounter : parameter ≠ .counter := fun same => pending (same ▸ awaited)
    exact (readPending_keeps read noCounter).1
  · simp only [isOperand_status, Bool.false_eq_true, or_false] at read
    split at read
    · cases read
    · split at read
      · cases read
        exact ⟨rfl, pending⟩
      · rename_i name value shape
        exact readLong_keeps read pending fun same => other value (same ▸ shape)
      · exact readLetters_keeps read pending
      · cases read

theorem readArgument_option {value : Option (List Char)}
    (read : readArgument .status draft argument = .ok next)
    (pending : draft.pending ≠ some .counter)
    (shape : Shape.of argument.toList = .long "counter".toList value) :
    readLong .status draft "counter".toList value = .ok next := by
  unfold readArgument at read
  split at read
  · -- A locale is awaited. Only a plain argument is taken for one, so `--counter` never is.
    rename_i parameter awaited
    have noCounter : parameter ≠ .counter := fun same => pending (same ▸ awaited)
    have plain := (readPending_keeps read noCounter).2
    simp [shape] at plain
  · simp only [shape, isOperand_status, Bool.false_eq_true, or_false] at read
    split at read
    · cases read
    · exact read

/-- The counters that one argument adds are those that it takes off the texts still to be read. -/
theorem readArgument_counters (read : readArgument .status draft argument = .ok next)
    (arguments : List String) :
    ∃ added, next.counters = draft.counters ++ added ∧
      (counterTexts (draft.pending = some .counter) (argument :: arguments)).map readCounter =
        added.map .ok ++
          (counterTexts (next.pending = some .counter) arguments).map readCounter := by
  by_cases awaited : draft.pending = some .counter
  · have set : draft.setValue argument .counter = .ok next := by
      simpa [readArgument, awaited, readPending] using read
    obtain ⟨counter, found, counters, pending⟩ := Draft.setValue_counter set
    exact ⟨[counter], counters, by simp [counterTexts, awaited, found, pending]⟩
  · rcases counter_option argument with ⟨rfl, shape⟩ | ⟨value, bare, attached, shape⟩ |
      ⟨bare, attached, shape⟩
    · cases readArgument_option read awaited shape
      exact ⟨[], by simp, by simp [counterTexts, awaited]⟩
    · have set : draft.setValue (String.ofList value) .counter = .ok next :=
        readArgument_option read awaited shape
      obtain ⟨counter, found, counters, pending⟩ := Draft.setValue_counter set
      exact ⟨[counter], counters, by simp [counterTexts, awaited, bare, attached, found, pending]⟩
    · have kept := readArgument_keeps read awaited shape
      exact ⟨[], by simp [kept.counters],
        by simp [counterTexts, awaited, bare, attached, kept.pending]⟩

theorem foldlM_counters {arguments : List String}
    (read : arguments.foldlM (readArgument .status) draft = .ok next) :
    ∃ added, next.counters = draft.counters ++ added ∧
      (counterTexts (draft.pending = some .counter) arguments).map readCounter =
        added.map .ok := by
  induction arguments generalizing draft with
  | nil =>
    cases read
    exact ⟨[], by simp, rfl⟩
  | cons argument arguments ih =>
    rw [List.foldlM_cons] at read
    obtain ⟨middle, first, read⟩ := exists_of_bind_ok read
    obtain ⟨front, counters, texts⟩ := readArgument_counters first arguments
    obtain ⟨rest, behind, more⟩ := ih read
    refine ⟨front ++ rest, by rw [behind, counters, List.append_assoc], ?_⟩
    rw [texts, more, List.map_append]

variable {verbose : Bool} {kind : Kind} {invocation : Invocation} {locale : Option String}
  {counters : List (String × Binary64)}

theorem Draft.finish_status (finished : draft.finish kind = .ok (.status locale counters)) :
    kind = .status ∧ draft.counters = counters := by
  unfold Draft.finish at finished
  split at finished
  · cases finished
  · cases kind with
    | status => cases finished; exact ⟨rfl, rfl⟩
    | number =>
      simp only at finished
      split at finished <;> cases finished
    | uptime => cases finished
    | restart => cases finished

theorem foldlM_whole (kind : Kind) (draft : Draft) (texts : List String) :
    (texts.map Argument.whole).foldlM (Argument.read kind) draft =
      texts.foldlM (readArgument kind) draft :=
  List.foldlM_map

theorem readCommand_counters {arguments : List String}
    (read : readCommand verbose kind (arguments.map .whole) = .ok invocation)
    (status : invocation.command = .status locale counters) :
    (counterTexts false arguments).map readCounter = counters.map .ok := by
  obtain ⟨draft, filled, read⟩ := exists_of_bind_ok read
  rw [foldlM_whole] at filled
  obtain ⟨command, finished, read⟩ := exists_of_bind_ok read
  cases read
  obtain rfl : command = .status locale counters := status
  obtain ⟨rfl, same⟩ := Draft.finish_status finished
  obtain ⟨added, sum, texts⟩ := foldlM_counters filled
  rw [← same, sum]
  exact texts

/-- Whatever is read in front of the name of a command is a text, and no option for a counter. -/
theorem readFrom_cases {argument : Argument} {arguments : List Argument}
    (read : readFrom verbose (argument :: arguments) = .ok invocation) :
    ∃ text, argument = .whole text ∧
      (∀ value, Shape.of text.toList ≠ .long "counter".toList value) ∧
      ((∃ verbose, readFrom verbose arguments = .ok invocation) ∨
        ∃ kind, readCommand verbose kind arguments = .ok invocation) := by
  cases argument with
  | torn front =>
    simp only [readFrom] at read
    split at read <;> cases read
  | whole text =>
    refine ⟨text, rfl, ?_⟩
    simp only [readFrom] at read
    split at read
    · cases read
    · rename_i name value shape
      split at read
      · cases read
      · split at read
        · cases read
        · split at read
          · rename_i named
            refine ⟨fun value => ?_, .inl ⟨_, read⟩⟩
            rw [shape, named.1]
            simp
          · cases read
    · rename_i letters shape
      split at read
      · cases read
      · exact ⟨fun value => by simp [shape], .inl ⟨_, read⟩⟩
    · rename_i shape
      split at read
      · exact ⟨fun value => by simp [shape], .inr ⟨_, read⟩⟩
      · cases read

theorem readFrom_counters {arguments : List String}
    (read : readFrom verbose (arguments.map .whole) = .ok invocation)
    (status : invocation.command = .status locale counters) :
    (counterTexts false arguments).map readCounter = counters.map .ok := by
  induction arguments generalizing verbose with
  | nil => cases read
  | cons argument arguments ih =>
    obtain ⟨_, ⟨⟩, other, ⟨_, leading⟩ | ⟨_, command⟩⟩ := readFrom_cases read
    · rw [counterTexts_cons arguments other]
      exact ih leading
    · rw [counterTexts_cons arguments other]
      exact readCommand_counters command status

theorem exists_texts_of_foldlM {arguments : List Argument}
    (read : arguments.foldlM (Argument.read kind) draft = .ok next) :
    ∃ texts, arguments = List.map .whole texts := by
  induction arguments generalizing draft with
  | nil => exact ⟨[], rfl⟩
  | cons argument arguments ih =>
    rw [List.foldlM_cons] at read
    obtain ⟨middle, first, read⟩ := exists_of_bind_ok read
    obtain ⟨texts, rfl⟩ := ih read
    cases argument with
    | torn front => cases first
    | whole text => exact ⟨text :: texts, rfl⟩

theorem exists_texts_of_readFrom {arguments : List Argument}
    (read : readFrom verbose arguments = .ok invocation) :
    ∃ texts, arguments = List.map .whole texts := by
  induction arguments generalizing verbose with
  | nil => exact ⟨[], rfl⟩
  | cons argument arguments ih =>
    obtain ⟨text, rfl, -, ⟨_, leading⟩ | ⟨_, command⟩⟩ := readFrom_cases read
    · obtain ⟨texts, rfl⟩ := ih leading
      exact ⟨text :: texts, rfl⟩
    · obtain ⟨draft, filled, -⟩ := exists_of_bind_ok command
      obtain ⟨texts, rfl⟩ := exists_texts_of_foldlM filled
      exact ⟨text :: texts, rfl⟩

end StatusPage.Command
