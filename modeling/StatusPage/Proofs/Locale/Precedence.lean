import Mathlib
import StatusPage.Command.Run
import StatusPage.Proofs.Locale.Name

namespace StatusPage

open StatusPage.Locale (Denotes ofName ofName_ok_iff ofName_error_iff)

namespace LocaleVariable

variable {environment : Environment} {source : LocaleVariable}

def Undecided (environment : Environment) (source : LocaleVariable) : Prop :=
  ∀ name ∈ environment source, ∀ locale, ¬ Denotes name.toList locale

def warning? (environment : Environment) (source : LocaleVariable) : Option LocaleRecord :=
  (environment source).bind fun name =>
    if name = "" then none else some (.ignoring source (.unknownLocale name))

theorem level_of_warning {record : LocaleRecord} (warned : record ∈ warning? environment source) :
    record.level = "WARN" := by
  obtain ⟨name, -, cited⟩ := Option.bind_eq_some_iff.mp warned
  split at cited
  · cases cited
  · cases cited
    rfl

theorem ofName_of_undecided (undecided : source.Undecided environment) {name : String}
    (value : environment source = some name) : ofName name = .error (.unknownLocale name) :=
  (ofName_error_iff name _).mpr ⟨rfl, undecided name value⟩

theorem undecided_or_denotes (environment : Environment) (source : LocaleVariable) :
    source.Undecided environment ∨
      ∃ name locale, environment source = some name ∧ Denotes name.toList locale := by
  by_cases undecided : source.Undecided environment
  · exact .inl undecided
  · simp only [Undecided, not_forall, not_not] at undecided
    obtain ⟨name, value, locale, denotes⟩ := undecided
    exact .inr ⟨name, locale, value, denotes⟩

end LocaleVariable

namespace LocaleSearch

open LocaleVariable

variable {environment : Environment} {source : LocaleVariable} {rest : List LocaleVariable}

/-- A search through variables: those before the first one that stands for a locale are looked up
    and warned of, that one is looked up and used, and those behind it are left alone. -/
inductive Searches (environment : Environment) : List LocaleVariable → LocaleSearch → Prop
  | found {before : List LocaleVariable} (behind : List LocaleVariable) {source : LocaleVariable}
      {name : String} {locale : Locale} (passed : ∀ earlier ∈ before, earlier.Undecided environment)
      (value : environment source = some name) (denotes : Denotes name.toList locale) :
      Searches environment (before ++ source :: behind)
        ⟨some locale, before ++ [source],
          before.filterMap (warning? environment) ++ [.using locale source]⟩
  | unfound {sources : List LocaleVariable}
      (passed : ∀ source ∈ sources, source.Undecided environment) :
      Searches environment sources ⟨none, sources, sources.filterMap (warning? environment)⟩

theorem run_cons_of_undecided (undecided : source.Undecided environment) :
    run environment (source :: rest) =
      (run environment rest).after source (warning? environment source).toList := by
  rw [run, warning?]
  split
  next value => rw [value]; rfl
  next value => rw [value]; rfl
  next name empty value =>
    have unknown := ofName_of_undecided undecided value
    rw [unknown, value]
    simp [show name ≠ "" from empty]

theorem run_cons_of_denotes {name : String} {locale : Locale}
    (value : environment source = some name) (denotes : Denotes name.toList locale) :
    run environment (source :: rest) = ⟨some locale, [source], [.using locale source]⟩ := by
  have named := (ofName_ok_iff name locale).mpr denotes
  rw [run]
  split
  next absent => rw [absent] at value; cases value
  next empty =>
    rw [empty] at value
    cases value
    rw [show ofName "" = .error (.unknownLocale "") by decide +kernel] at named
    cases named
  next other _ same =>
    rw [value] at same
    cases same
    rw [named]

theorem Searches.after (undecided : source.Undecided environment) {search : LocaleSearch}
    (searches : Searches environment rest search) :
    Searches environment (source :: rest)
      (search.after source (warning? environment source).toList) := by
  have records (passed : List LocaleVariable) :
      (source :: passed).filterMap (warning? environment) =
        (warning? environment source).toList ++ passed.filterMap (warning? environment) := by
    rw [List.filterMap_cons]
    cases warning? environment source <;> rfl
  cases searches with
  | found behind passed value denotes =>
    have found := Searches.found behind (List.forall_mem_cons.mpr ⟨undecided, passed⟩) value denotes
    rw [records, List.append_assoc] at found
    exact found
  | unfound passed =>
    have unfound := Searches.unfound (List.forall_mem_cons.mpr ⟨undecided, passed⟩)
    rw [records] at unfound
    exact unfound

theorem searches_run (environment : Environment) (sources : List LocaleVariable) :
    Searches environment sources (run environment sources) := by
  induction sources with
  | nil => exact .unfound fun _ member => absurd member List.not_mem_nil
  | cons source rest ih =>
    rcases undecided_or_denotes environment source with undecided | ⟨name, locale, value, denotes⟩
    · rw [run_cons_of_undecided undecided]
      exact ih.after undecided
    · rw [run_cons_of_denotes value denotes]
      exact Searches.found rest (fun _ member => absurd member List.not_mem_nil) value denotes

end LocaleSearch

inductive LocalePlace where
  | request
  | settings
  | environment (source : LocaleVariable)

namespace LocalePlace

def all : List LocalePlace := .request :: .settings :: LocaleVariable.all.map .environment

def name? (requested : Option String) (settings : Settings) (environment : Environment) :
    LocalePlace → Option String
  | .request => requested
  | .settings => settings.locale
  | .environment source => environment source

/-- What a name settles where it stands. One that stands for no locale settles nothing in the
    environment, and elsewhere that it is refused. -/
inductive Settles : LocalePlace → String → Except FormatError Locale → Prop
  | locale {place : LocalePlace} {name : String} {locale : Locale}
      (denotes : Denotes name.toList locale) : Settles place name (.ok locale)
  | refusal {place : LocalePlace} {name : String} (binding : ∀ v, place ≠ .environment v)
      (unknown : ∀ locale, ¬ Denotes name.toList locale) :
      Settles place name (.error (.unknownLocale name))

def Open (names : LocalePlace → Option String) (place : LocalePlace) : Prop :=
  ∀ name ∈ names place, ∀ result, ¬ Settles place name result

/-- What places settle one after the other: the first one that is not open decides. -/
inductive FirstSettles (names : LocalePlace → Option String) :
    List LocalePlace → Except FormatError Locale → Prop
  | first {before : List LocalePlace} (behind : List LocalePlace) {place : LocalePlace}
      {name : String} {result : Except FormatError Locale}
      (passed : ∀ earlier ∈ before, Open names earlier) (named : names place = some name)
      (settles : Settles place name result) : FirstSettles names (before ++ place :: behind) result
  | none {places : List LocalePlace} (passed : ∀ place ∈ places, Open names place) :
      FirstSettles names places (.ok .enUS)

variable {names : LocalePlace → Option String} {place : LocalePlace} {places : List LocalePlace}
  {name : String} {result other : Except FormatError Locale}

theorem Settles.ofName_eq (settles : Settles place name result) : ofName name = result := by
  cases settles with
  | locale denotes => exact (ofName_ok_iff name _).mpr denotes
  | refusal _ unknown => exact (ofName_error_iff name _).mpr ⟨rfl, unknown⟩

theorem settles_ofName (binding : ∀ v, place ≠ .environment v) (name : String) :
    Settles place name (ofName name) := by
  cases read : ofName name with
  | ok locale => exact .locale ((ofName_ok_iff name locale).mp read)
  | error reason =>
    obtain ⟨rfl, unknown⟩ := (ofName_error_iff name reason).mp read
    exact .refusal binding unknown

theorem open_of_unnamed (unnamed : names place = .none) : Open names place := by
  intro name named
  rw [unnamed] at named
  cases named

theorem firstSettles_nil : FirstSettles names [] result ↔ result = .ok .enUS := by
  constructor
  · intro settled
    generalize none : [] = places at settled
    cases settled with
    | first => simp at none
    | none => rfl
  · rintro rfl
    exact .none fun _ member => absurd member List.not_mem_nil

theorem firstSettles_cons_iff : FirstSettles names (place :: places) result ↔
    (∃ name, names place = some name ∧ Settles place name result) ∨
      Open names place ∧ FirstSettles names places result := by
  constructor
  · intro settled
    generalize same : place :: places = list at settled
    cases settled with
    | @first before behind _ _ _ passed named settles =>
      cases before with
      | nil =>
        cases same
        exact .inl ⟨_, named, settles⟩
      | cons first before =>
        cases same
        obtain ⟨head, tail⟩ := List.forall_mem_cons.mp passed
        exact .inr ⟨head, .first behind tail named settles⟩
    | none passed =>
      subst same
      obtain ⟨head, tail⟩ := List.forall_mem_cons.mp passed
      exact .inr ⟨head, .none tail⟩
  · rintro (⟨name, named, settles⟩ | ⟨head, settled⟩)
    · have none : ∀ earlier ∈ ([] : List LocalePlace), Open names earlier :=
        fun _ member => absurd member List.not_mem_nil
      exact .first places none named settles
    · cases settled with
      | first behind passed named settles =>
        exact .first behind (List.forall_mem_cons.mpr ⟨head, passed⟩) named settles
      | none passed => exact .none (List.forall_mem_cons.mpr ⟨head, passed⟩)

theorem firstSettles_cons_of_open (passed : Open names place) :
    FirstSettles names (place :: places) result ↔ FirstSettles names places result := by
  have noName : ¬ ∃ name, names place = some name ∧ Settles place name result := by
    rintro ⟨name, named, settles⟩
    exact passed name named result settles
  rw [firstSettles_cons_iff, or_iff_right noName, and_iff_right passed]

theorem firstSettles_cons_of_settles (named : names place = some name)
    (settles : Settles place name result) :
    FirstSettles names (place :: places) other ↔ other = result := by
  have closed : ¬ (Open names place ∧ FirstSettles names places other) :=
    fun passed => passed.1 name named result settles
  rw [firstSettles_cons_iff, or_iff_left closed]
  constructor
  · rintro ⟨rival, named', settlesRival⟩
    cases named.symm.trans named'
    rw [← settlesRival.ofName_eq, settles.ofName_eq]
  · rintro rfl
    exact ⟨name, named, settles⟩

variable {requested : Option String} {settings : Settings} {environment : Environment}

theorem open_of_undecided {source : LocaleVariable} (undecided : source.Undecided environment) :
    Open (name? requested settings environment) (.environment source) := by
  intro name named result settles
  cases settles with
  | locale denotes => exact undecided name named _ denotes
  | refusal binding => exact binding source rfl

theorem firstSettles_environment (sources : List LocaleVariable) :
    FirstSettles (name? requested settings environment) (sources.map .environment) result ↔
      result = .ok ((LocaleSearch.run environment sources).found.getD .enUS) := by
  induction sources with
  | nil => exact firstSettles_nil
  | cons source sources ih =>
    rw [List.map_cons]
    rcases source.undecided_or_denotes environment with undecided | ⟨name, locale, value, denotes⟩
    · rw [firstSettles_cons_of_open (open_of_undecided undecided), ih,
        LocaleSearch.run_cons_of_undecided undecided]
      rfl
    · rw [firstSettles_cons_of_settles value (.locale denotes),
        LocaleSearch.run_cons_of_denotes value denotes]
      rfl

theorem resolveLocale_eq_iff : settings.resolveLocale requested environment = result ↔
    FirstSettles (name? requested settings environment) all result := by
  rw [Settings.resolveLocale, all, eq_comm]
  cases requested with
  | some name =>
    exact (firstSettles_cons_of_settles rfl (settles_ofName (by simp) name)).symm
  | none =>
    rw [firstSettles_cons_of_open (open_of_unnamed rfl)]
    cases locale : settings.locale with
    | some name =>
      exact (firstSettles_cons_of_settles locale (settles_ofName (by simp) name)).symm
    | none =>
      rw [firstSettles_cons_of_open (open_of_unnamed locale), firstSettles_environment]
      rfl

end LocalePlace

/-- A request comes before the settings and the settings before the environment. The environment is
    searched only where neither names a locale, and no name in it is an error. -/
theorem Settings.resolveLocale_precedence (settings : Settings) (requested : Option String)
    (environment : Environment) :
    (∀ result, settings.resolveLocale requested environment = result ↔
      LocalePlace.FirstSettles (LocalePlace.name? requested settings environment)
        LocalePlace.all result) ∧
    LocaleSearch.Searches environment LocaleVariable.all (Locale.ofEnvironment environment) ∧
    (∀ source, ∀ record ∈ LocaleVariable.warning? environment source, record.level = "WARN") ∧
    (∀ value counters, ∀ command ∈ [Command.number value requested, .status requested counters],
      command.records settings environment =
        if requested = none ∧ settings.locale = none then
          (Locale.ofEnvironment environment).records
        else []) := by
  refine ⟨fun _ => LocalePlace.resolveLocale_eq_iff, LocaleSearch.searches_run environment _,
    fun _ _ => LocaleVariable.level_of_warning, ?_⟩
  intro value counters command listed
  have records : command.records settings environment =
      if (requested <|> settings.locale).isSome then []
      else (Locale.ofEnvironment environment).records := by
    rcases List.mem_cons.mp listed with rfl | listed
    · rfl
    · rw [List.mem_singleton.mp listed]
      rfl
  rw [records]
  cases requested <;> cases settings.locale <;> rfl

def mixedEnvironment : Environment
  | .lcAll => some "ja_JP"
  | .lcNumeric => some ""
  | .lang => some "ru_RU.UTF-8"

theorem Settings.resolveLocale_precedence_mixed :
    LocalePlace.FirstSettles (LocalePlace.name? none ⟨some "", .faithful, "2s"⟩ mixedEnvironment)
      LocalePlace.all (.error (.unknownLocale "")) ∧
    LocaleVariable.warning? mixedEnvironment .lcNumeric = none ∧
    (LocaleRecord.ignoring .lcAll (.unknownLocale "ja_JP")).level = "WARN" ∧
    (Command.status none []).records default mixedEnvironment =
      [.ignoring .lcAll (.unknownLocale "ja_JP"), .using .ruRU .lang] := by
  have refused := resolveLocale_precedence ⟨some "", .faithful, "2s"⟩ none mixedEnvironment
  have searched := resolveLocale_precedence default none mixedEnvironment
  refine ⟨(refused.1 _).mp (by decide +kernel), rfl, refused.2.2.1 .lcAll _ rfl, ?_⟩
  rw [searched.2.2.2 (.nan) [] _ (by simp)]
  decide +kernel

end StatusPage
