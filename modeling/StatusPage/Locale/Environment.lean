import StatusPage.Locale.Tag

namespace StatusPage

inductive LocaleVariable where
  | lcAll
  | lcNumeric
  | lang
deriving DecidableEq

namespace LocaleVariable

def name : LocaleVariable → String
  | .lcAll => "LC_ALL"
  | .lcNumeric => "LC_NUMERIC"
  | .lang => "LANG"

def all : List LocaleVariable := [.lcAll, .lcNumeric, .lang]

end LocaleVariable

abbrev Environment := LocaleVariable → Option String

inductive LocaleRecord where
  | using (locale : Locale) (source : LocaleVariable)
  | ignoring (source : LocaleVariable) (reason : FormatError)
deriving DecidableEq

namespace LocaleRecord

def level : LocaleRecord → String
  | .using .. => "DEBUG"
  | .ignoring .. => "WARN"

def message : LocaleRecord → String
  | .using locale source => "using number locale " ++ locale.tag ++ " from " ++ source.name
  | .ignoring source reason => "ignoring " ++ source.name ++ ": " ++ reason.message

end LocaleRecord

structure LocaleSearch where
  found : Option Locale
  asked : List LocaleVariable
  records : List LocaleRecord
deriving DecidableEq

namespace LocaleSearch

def after (source : LocaleVariable) (records : List LocaleRecord) (rest : LocaleSearch) :
    LocaleSearch :=
  ⟨rest.found, source :: rest.asked, records ++ rest.records⟩

/-- The first variable with a value that names a locale decides. One that is empty is passed over
    in silence, one that names no locale with a record. -/
def run (environment : Environment) : List LocaleVariable → LocaleSearch
  | [] => ⟨none, [], []⟩
  | source :: rest =>
    match environment source with
    | none | some "" => (run environment rest).after source []
    | some value =>
      match Locale.ofName value with
      | .ok locale => ⟨some locale, [source], [.using locale source]⟩
      | .error reason => (run environment rest).after source [.ignoring source reason]

end LocaleSearch

def Locale.ofEnvironment (environment : Environment) : LocaleSearch :=
  LocaleSearch.run environment LocaleVariable.all

end StatusPage
