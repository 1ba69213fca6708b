import Mathlib
import StatusPage.Command.Counter
import StatusPage.Proofs.Binary64.Grammar

namespace StatusPage.Counter

open Binary64 (Spells)
open Text (isBlank trim Trims)

structure Sides (argument : String) (before behind : List Char) : Prop where
  parts : argument.toList = before ++ '=' :: behind
  first : '=' ∉ before

/-- A counter as it is written: a label and a number around an equals sign, with blanks around
    either. -/
inductive Written (argument : String) : String → Binary64 → Prop
  | intro {before behind label value : List Char} {x : Binary64}
      (sides : Sides argument before behind) (named : Trims before label) (labelled : label ≠ [])
      (given : Trims behind value) (spells : Spells value x) :
      Written argument (String.ofList label) x

inductive Refused (argument : String) : String → Prop
  | noValue (absent : '=' ∉ argument.toList) :
      Refused argument ("expected label=value, got '" ++ argument ++ "'")
  | noLabel {before behind : List Char} (sides : Sides argument before behind)
      (blank : ∀ c ∈ before, isBlank c) : Refused argument ("missing label in '" ++ argument ++ "'")
  | badValue {before behind value : List Char} (sides : Sides argument before behind)
      (labelled : ¬ ∀ c ∈ before, isBlank c) (given : Trims behind value)
      (other : ∀ x, ¬ Spells value x) :
      Refused argument ("invalid value in '" ++ argument ++ "': " ++
        if value = [] then "cannot parse float from empty string" else "invalid float literal")

variable {argument : String} {before behind : List Char}

theorem exists_sides (present : '=' ∈ argument.toList) :
    ∃ before behind, Sides argument before behind := by
  obtain ⟨before, behind, parts, first⟩ := List.eq_append_cons_of_mem present
  exact ⟨before, behind, parts, first⟩

theorem ne_of_absent {text : List Char} (absent : '=' ∉ text) : ∀ c ∈ text, decide (c ≠ '=') := by
  intro c member
  rw [decide_eq_true_eq]
  rintro rfl
  exact absent member

theorem read_of_absent (absent : '=' ∉ argument.toList) :
    readCounter argument = .error (.noValue argument) := by
  have none : argument.toList.dropWhile (· ≠ '=') = [] :=
    List.dropWhile_eq_nil_iff.mpr (ne_of_absent absent)
  rw [readCounter, none]

theorem message_badValue (argument : String) (value : List Char) :
    (CounterError.badValue argument (if value = [] then .empty else .invalid)).message =
      "invalid value in '" ++ argument ++ "': " ++
        if value = [] then "cannot parse float from empty string" else "invalid float literal" := by
  split <;> rfl

namespace Sides

variable (sides : Sides argument before behind)

include sides

theorem read_eq : readCounter argument =
    if trim before = [] then .error (.noLabel argument)
    else match Binary64.ofLiteral (trim behind) with
      | .ok x => .ok (String.ofList (trim before), x)
      | .error reason => .error (.badValue argument reason) := by
  have other := ne_of_absent sides.first
  have taken : argument.toList.takeWhile (· ≠ '=') = before := by
    rw [sides.parts, List.takeWhile_append_of_pos other]
    simp
  have dropped : argument.toList.dropWhile (· ≠ '=') = '=' :: behind := by
    rw [sides.parts, List.dropWhile_append_of_pos other]
    simp
  rewrite [readCounter, dropped, taken]
  rfl

theorem read_ok_iff {label : String} {x : Binary64} : readCounter argument = .ok (label, x) ↔
    trim before ≠ [] ∧ label = String.ofList (trim before) ∧ Spells (trim behind) x := by
  rw [sides.read_eq, ← Binary64.ofLiteral_ok_iff]
  by_cases unlabelled : trim before = []
  · simp [unlabelled]
  · rw [if_neg unlabelled]
    cases Binary64.ofLiteral (trim behind) <;> simp [unlabelled, eq_comm]

theorem read_noLabel (blank : ∀ c ∈ before, isBlank c) :
    readCounter argument = .error (.noLabel argument) := by
  rw [sides.read_eq, if_pos (Text.trim_eq_nil_iff.mpr blank)]

theorem read_badValue (labelled : ¬ ∀ c ∈ before, isBlank c)
    (other : ∀ x, ¬ Spells (trim behind) x) : readCounter argument =
      .error (.badValue argument (if trim behind = [] then .empty else .invalid)) := by
  rw [sides.read_eq, if_neg (mt Text.trim_eq_nil_iff.mp labelled),
    Binary64.ofLiteral_error_iff.mpr ⟨other, rfl⟩]

theorem read_of_trims {label : String} {x : Binary64} (read : readCounter argument = .ok (label, x))
    {respaced : String} {left right : List Char} (others : Sides respaced left right)
    (named : Trims left (trim before)) (given : Trims right (trim behind)) :
    readCounter respaced = .ok (label, x) := by
  rw [sides.read_ok_iff] at read
  rwa [others.read_ok_iff, Text.trim_eq_iff.mpr named, Text.trim_eq_iff.mpr given]

end Sides

theorem written_iff {label : String} {x : Binary64} :
    readCounter argument = .ok (label, x) ↔ Written argument label x := by
  constructor
  · intro read
    by_cases present : '=' ∈ argument.toList
    · obtain ⟨before, behind, sides⟩ := exists_sides present
      obtain ⟨labelled, rfl, spells⟩ := sides.read_ok_iff.mp read
      exact .intro sides (Text.trims_trim before) labelled (Text.trims_trim behind) spells
    · rw [read_of_absent present] at read
      cases read
  · rintro ⟨sides, named, labelled, given, spells⟩
    rw [sides.read_ok_iff, Text.trim_eq_iff.mpr named, Text.trim_eq_iff.mpr given]
    exact ⟨labelled, rfl, spells⟩

theorem refused_iff {message : String} :
    (∃ error, readCounter argument = .error error ∧ error.message = message) ↔
      Refused argument message := by
  constructor
  · rintro ⟨error, read, rfl⟩
    by_cases present : '=' ∈ argument.toList
    · obtain ⟨before, behind, sides⟩ := exists_sides present
      by_cases blank : ∀ c ∈ before, isBlank c
      · cases read.symm.trans (sides.read_noLabel blank)
        exact .noLabel sides blank
      · by_cases number : ∃ x, Spells (trim behind) x
        · obtain ⟨x, spells⟩ := number
          have labelled := mt Text.trim_eq_nil_iff.mp blank
          cases read.symm.trans (sides.read_ok_iff.mpr ⟨labelled, rfl, spells⟩)
        · have other := not_exists.mp number
          cases read.symm.trans (sides.read_badValue blank other)
          rw [message_badValue]
          exact .badValue sides blank (Text.trims_trim behind) other
    · cases read.symm.trans (read_of_absent present)
      exact .noValue present
  · intro refused
    cases refused with
    | noValue absent => exact ⟨_, read_of_absent absent, rfl⟩
    | noLabel sides blank => exact ⟨_, sides.read_noLabel blank, rfl⟩
    | badValue sides labelled given other =>
      obtain rfl := Text.trim_eq_iff.mpr given
      exact ⟨_, sides.read_badValue labelled other, message_badValue ..⟩

structure Spacing where
  beforeLabel : List Char
  behindLabel : List Char
  beforeValue : List Char
  behindValue : List Char
  blankLabel : ∀ c ∈ beforeLabel ++ behindLabel, isBlank c
  blankValue : ∀ c ∈ beforeValue ++ behindValue, isBlank c

namespace Spacing

variable (spacing : Spacing)

def around (label value : List Char) : String :=
  String.ofList (spacing.beforeLabel ++ label ++ spacing.behindLabel ++
    '=' :: (spacing.beforeValue ++ value ++ spacing.behindValue))

theorem sides (first : '=' ∉ before) : Sides (spacing.around before behind)
    (spacing.beforeLabel ++ before ++ spacing.behindLabel)
    (spacing.beforeValue ++ behind ++ spacing.behindValue) := by
  refine ⟨by rw [around, String.toList_ofList], ?_⟩
  have blank := List.forall_mem_append.mp spacing.blankLabel
  intro member
  rcases List.mem_append.mp member with member | outside
  · rcases List.mem_append.mp member with outside | inside
    · exact absurd (blank.1 _ outside) (by decide)
    · exact first inside
  · exact absurd (blank.2 _ outside) (by decide)

theorem read_around {label : String} {x : Binary64} {left right : List Char}
    (sides : Sides argument before behind) (read : readCounter argument = .ok (label, x))
    (first : '=' ∉ left) (named : Trims left (trim before)) (given : Trims right (trim behind)) :
    readCounter (spacing.around left right) = .ok (label, x) := by
  have blankLabel := List.forall_mem_append.mp spacing.blankLabel
  have blankValue := List.forall_mem_append.mp spacing.blankValue
  exact sides.read_of_trims read (spacing.sides first) (named.blanks blankLabel.1 blankLabel.2)
    (given.blanks blankValue.1 blankValue.2)

end Spacing

/-- An argument is read for a counter exactly where one is written, and is quoted in what is said of
    it otherwise. Neither side minds blanks around it. -/
theorem accepted_or_refused (argument : String) :
    (∀ label x, readCounter argument = .ok (label, x) ↔ Written argument label x) ∧
    (∀ message, (∃ error, readCounter argument = .error error ∧ error.message = message) ↔
      Refused argument message) ∧
    ∀ label x, readCounter argument = .ok (label, x) →
      (label ≠ "" ∧ '=' ∉ label.toList ∧ (∀ c ∈ label.toList.head?, ¬ isBlank c) ∧
        ∀ c ∈ label.toList.getLast?, ¬ isBlank c) ∧
      ∀ before behind, Sides argument before behind → ∀ spacing : Spacing,
        readCounter (spacing.around before behind) = .ok (label, x) ∧
        readCounter (spacing.around (trim before) (trim behind)) = .ok (label, x) := by
  refine ⟨fun _ _ => written_iff, fun _ => refused_iff, ?_⟩
  intro label x read
  constructor
  · obtain ⟨sides, named, labelled, -, -⟩ := written_iff.mp read
    rw [Ne, ← String.toList_inj, String.toList_ofList]
    exact ⟨labelled, fun member => sides.first (named.mem member), named.head, named.last⟩
  · intro before behind sides spacing
    have named := Text.trims_trim before
    have given := Text.trims_trim behind
    constructor
    · exact spacing.read_around sides read sides.first named given
    · have first : '=' ∉ trim before := fun member => sides.first (named.mem member)
      exact spacing.read_around sides read first named.self given.self

def wideSpacing : Spacing where
  beforeLabel := ['\n']
  behindLabel := ['\u3000']
  beforeValue := ['\u0085', ' ']
  behindValue := ['\t']
  blankLabel := List.all_eq_true.mp rfl
  blankValue := List.all_eq_true.mp rfl

theorem accepted_or_refused_drift :
    let argument := "\u2003Drift (s)\u00a0= -1.50E1 "
    let drift := Binary64.ofBits 0xC02E000000000000
    readCounter argument = .ok ("Drift (s)", drift) ∧ Written argument "Drift (s)" drift ∧
      Sides argument "\u2003Drift (s)\u00a0".toList " -1.50E1 ".toList ∧
      readCounter "\n\u2003Drift (s)\u00a0\u3000=\u0085  -1.50E1 \t" = .ok ("Drift (s)", drift) ∧
      Refused "\u3000=1=2" "missing label in '\u3000=1=2'" ∧
      Refused "x=1=2" "invalid value in 'x=1=2': invalid float literal" := by
  intro argument drift
  have read : readCounter argument = .ok ("Drift (s)", drift) := by decide +kernel
  have blank : readCounter "\u3000=1=2" = .error (.noLabel "\u3000=1=2") := by decide +kernel
  have second : readCounter "x=1=2" = .error (.badValue "x=1=2" .invalid) := by decide +kernel
  have sides : Sides argument "\u2003Drift (s)\u00a0".toList " -1.50E1 ".toList :=
    ⟨by decide, by decide⟩
  obtain ⟨written, -, kept⟩ := accepted_or_refused argument
  obtain ⟨spaced, -⟩ := (kept _ _ read).2 _ _ sides wideSpacing
  refine ⟨read, (written _ _).mp read, sides, spaced, ?_, ?_⟩
  · exact ((accepted_or_refused _).2.1 _).mp ⟨_, blank, rfl⟩
  · exact ((accepted_or_refused _).2.1 _).mp ⟨_, second, rfl⟩

end StatusPage.Counter
