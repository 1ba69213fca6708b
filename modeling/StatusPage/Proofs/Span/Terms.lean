import StatusPage.Proofs.Text.Blank
import StatusPage.Proofs.Text.Join
import StatusPage.Span.Reader

namespace StatusPage

def Scale.nanoseconds (length : Scale) : Nat := length.seconds * nanosPerSecond + length.nanos

theorem TimeUnit.mem_all (unit : TimeUnit) : unit ∈ all := by
  cases unit <;> decide

theorem TimeUnit.ofName?_of_mem {unit : TimeUnit} {name : String} (named : name ∈ unit.names) :
    ofName? name = some unit := by
  have table : ∀ unit ∈ all, ∀ name ∈ unit.names, ofName? name = some unit := by decide
  exact table unit unit.mem_all name named

theorem TimeUnit.name_ne_nil {unit : TimeUnit} {name : String} (named : name ∈ unit.names) :
    name.toList ≠ [] := by
  have table : ∀ unit ∈ all, ∀ name ∈ unit.names, name.toList ≠ [] := by decide
  exact table unit unit.mem_all name named

theorem TimeUnit.letter_of_mem {unit : TimeUnit} {name : String} (named : name ∈ unit.names)
    {c : Char} (member : c ∈ name.toList) :
    Span.isUnitLetter c ∧ ¬ c.isDigit ∧ ¬ Text.isBlank c := by
  have table : ∀ unit ∈ all, ∀ name ∈ unit.names, name.toList.all fun c =>
      Span.isUnitLetter c ∧ ¬ c.isDigit ∧ ¬ Text.isBlank c := by decide
  simpa using List.all_eq_true.mp (table unit unit.mem_all name named) c member

theorem TimeUnit.s_mem_names : "s" ∈ second.names := by decide

theorem TimeUnit.ms_mem_names : "ms" ∈ millisecond.names := by decide

theorem TimeUnit.us_mem_names : "us" ∈ microsecond.names := by decide

namespace Span

/-- A written term: a number and the name of a unit, with blanks before each of them. -/
structure Term where
  before : List Char
  digits : List Char
  between : List Char
  unit : TimeUnit
  name : String
  blankBefore : ∀ c ∈ before, Text.isBlank c
  blankBetween : ∀ c ∈ between, Text.isBlank c
  isDigit : ∀ c ∈ digits, c.isDigit
  written : digits ≠ []
  named : name ∈ unit.names

namespace Term

def text (term : Term) : List Char :=
  term.before ++ (term.digits ++ (term.between ++ term.name.toList))

def value (term : Term) : Nat := Nat.ofDigitChars 10 term.digits 0

def nanoseconds (term : Term) : Nat :=
  term.value * (term.unit.scale.seconds * nanosPerSecond + term.unit.scale.nanos)

def bare (term : Term) : Term := { term with before := [], blankBefore := Text.blank_nil }

/-- The number fits a machine word, and so do its nanoseconds together with another second. -/
structure Fits (term : Term) : Prop where
  value : term.value < wordLimit
  nanos : term.value * term.unit.scale.nanos + nanosPerSecond ≤ wordLimit

theorem Fits.bare {term : Term} (word : term.Fits) : term.bare.Fits :=
  ⟨word.value, word.nanos⟩

def spaced (term : Term) : Term := { term with before := [' '], blankBefore := Text.blank_space }

theorem spaced_text (term : Term) : term.spaced.text = ' ' :: term.bare.text := rfl

end Term

def spaced : List Term → List Term
  | [] => []
  | first :: rest => first.bare :: rest.map Term.spaced

theorem spaced_text (terms : List Term) :
    (spaced terms).flatMap Term.text =
      [' '].intercalate (terms.map fun term => term.bare.text) := by
  cases terms with
  | nil => rfl
  | cons first rest =>
    simp only [spaced, List.flatMap_cons, List.map_cons, intercalate_cons, List.flatMap_map,
      Term.spaced_text, List.singleton_append]

theorem spaced_nanoseconds (terms : List Term) :
    (spaced terms).map Term.nanoseconds = terms.map Term.nanoseconds := by
  cases terms with
  | nil => rfl
  | cons first rest =>
    rw [spaced, List.map_cons, List.map_cons, List.map_map]
    rfl

theorem spaced_fit {terms : List Term} (words : ∀ term ∈ terms, term.Fits) :
    ∀ term ∈ spaced terms, term.Fits := by
  cases terms with
  | nil => simp [spaced]
  | cons first rest =>
    intro term member
    rcases List.mem_cons.mp member with rfl | member
    · exact (words first (by simp)).bare
    · obtain ⟨next, later, rfl⟩ := List.mem_map.mp member
      have word := words next (by simp [later])
      exact ⟨word.value, word.nanos⟩

theorem spaced_ne_nil {terms : List Term} (written : terms ≠ []) : spaced terms ≠ [] := by
  cases terms with
  | nil => exact absurd rfl written
  | cons first rest => exact List.cons_ne_nil _ _

theorem ext_nanoseconds {first second : Span} (same : first.nanoseconds = second.nanoseconds) :
    first = second := by
  cases first
  cases second
  congr 1

theorem checked_of_lt {n : Nat} (fits : n < wordLimit) : checked n = .ok n := by
  simp [checked, fits]

theorem subsecond_lt (span : Span) : span.subsecond < nanosPerSecond :=
  Nat.mod_lt _ (by decide)

theorem Term.nanoseconds_eq (term : Term) :
    term.nanoseconds = term.value * term.unit.scale.seconds * nanosPerSecond +
      term.value * term.unit.scale.nanos := by
  rw [nanoseconds, Nat.mul_add, Nat.mul_assoc]

end Span

end StatusPage
