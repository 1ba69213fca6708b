import Mathlib
import StatusPage.Proofs.Binary64.Literal
import StatusPage.Proofs.Binary64.Whole

namespace StatusPage.Binary64

/-- A text that stands for a double: a literal, or a word for an infinity or for no number, in
    capitals or not. A literal that is rounded to zero keeps its sign. -/
inductive Spells : List Char → Binary64 → Prop
  | literal (literal : Literal) {x : Binary64} (rounds : Rounds literal.value x)
      (sign : x.negative = literal.sign.isMinus) : Spells literal.text x
  | infinity (sign : Sign) {word : List Char}
      (listed : word.map Char.toLower ∈ ["inf".toList, "infinity".toList]) :
      Spells (sign.text ++ word) (infinity sign.isMinus)
  | nan (sign : Sign) {word : List Char} (named : word.map Char.toLower = "nan".toList) :
      Spells (sign.text ++ word) nan

theorem exists_sign (text : List Char) :
    ∃ (sign : Sign) (rest : List Char),
      text = sign.text ++ rest ∧ splitSign text = (sign.isMinus, rest) := by
  unfold splitSign
  split
  next rest => exact ⟨.minus, rest, rfl, rfl⟩
  next rest => exact ⟨.plus, rest, rfl, rfl⟩
  next => exact ⟨.absent, text, rfl, rfl⟩

theorem eq_of_toLower_eq_e {c : Char} (lower : c.toLower = 'e') : c = 'e' ∨ c = 'E' := by
  by_cases upper : c.isUpper
  · right
    calc c = c.toUpper := (Char.toUpper_eq_of_not_isLower (Char.not_isLower_of_isUpper upper)).symm
      _ = c.toLower.toUpper := c.toUpper_toLower_eq_toUpper.symm
      _ = 'E' := by rw [lower]; rfl
  · left
    rwa [Char.toLower_eq_of_not_isUpper upper] at lower

theorem exists_exponent {text : List Char} {power : ℤ} (read : exponent? text = some power) :
    ∃ exponent : Option Exponent, text = exponent.elim [] Exponent.text := by
  cases text with
  | nil => exact ⟨none, rfl⟩
  | cons mark rest =>
    obtain ⟨sign, digits, rfl, parts⟩ := exists_sign rest
    rw [exponent?, parts] at read
    obtain ⟨⟨lower, written, all⟩, -⟩ := Option.ite_none_right_eq_some.mp read
    have isDigit := List.all_eq_true.mp all
    exact ⟨some ⟨mark, sign, digits, eq_of_toLower_eq_e lower, isDigit, written⟩, rfl⟩

theorem exists_fraction {text whole places rest : List Char}
    (parts : splitPoint text = (whole, places, rest)) :
    ∃ fraction : Option (List Char), fraction.getD [] = places ∧
      (∀ c ∈ whole ++ places, c.isDigit) ∧
      text = whole ++ (fraction.elim [] ('.' :: ·) ++ rest) := by
  have together := (List.takeWhile_append_dropWhile (p := Char.isDigit) (l := text)).symm
  have digits (chars : List Char) : ∀ c ∈ chars.takeWhile Char.isDigit, c.isDigit :=
    fun c member => List.mem_takeWhile_imp member
  unfold splitPoint at parts
  split at parts
  next behind point =>
    cases parts
    refine ⟨some (behind.takeWhile Char.isDigit), rfl, ?_, ?_⟩
    · intro c member
      exact (List.mem_append.mp member).elim (digits text c) (digits behind c)
    · rw [point] at together
      rwa [Option.elim_some, List.cons_append, List.takeWhile_append_dropWhile]
  next =>
    cases parts
    exact ⟨none, rfl, by simpa using digits text, together⟩

theorem exists_literal {negative : Bool} {text : List Char} {x : Binary64}
    (read : decimal? negative text = some x) (sign : Sign) :
    ∃ literal : Literal, literal.sign = sign ∧ literal.body = text := by
  obtain ⟨whole, places, rest, parts⟩ : ∃ whole places rest,
      splitPoint text = (whole, places, rest) := ⟨_, _, _, rfl⟩
  rw [decimal?, parts] at read
  obtain ⟨written, behind⟩ := Option.ite_none_left_eq_some.mp read
  obtain ⟨power, found, -⟩ := Option.map_eq_some_iff.mp behind
  obtain ⟨exponent, rfl⟩ := exists_exponent found
  obtain ⟨fraction, rfl, isDigit, rfl⟩ := exists_fraction parts
  exact ⟨⟨sign, whole, fraction, exponent, isDigit, mt List.append_eq_nil_iff.mp written⟩, rfl, rfl⟩

theorem Rounds.eq_of_negative {exact : ℚ} {x y : Binary64} (rounds : Rounds exact x)
    (others : Rounds exact y) (sign : x.negative = y.negative) : x = y := by
  ext
  · rw [sign]
  · rw [(rounds.unique others).1]

theorem splitSign_word (sign : Sign) {word letters : List Char} {c : Char}
    (spelled : word.map Char.toLower = c :: letters) (letter : c.isLower) :
    sign.text ++ word ≠ [] ∧ splitSign (sign.text ++ word) = (sign.isMinus, word) := by
  obtain ⟨first, rest, rfl, rfl, -⟩ := List.map_eq_cons_iff.mp spelled
  refine ⟨by simp, ?_⟩
  apply splitSign_text
  · rintro rfl
    exact absurd letter (by decide)
  · rintro rfl
    exact absurd letter (by decide)

theorem ofLiteral_of_splitSign {text rest : List Char} {negative : Bool} (written : text ≠ [])
    (parts : splitSign text = (negative, rest)) : ofLiteral text =
      if rest.map Char.toLower ∈ ["inf".toList, "infinity".toList] then .ok (infinity negative)
      else if rest.map Char.toLower = "nan".toList then .ok nan
      else match decimal? negative rest with
        | some x => .ok x
        | none => .error .invalid := by
  have spelled (word : String) :
      String.ofList (rest.map Char.toLower) = word ↔ rest.map Char.toLower = word.toList := by
    rw [← String.toList_inj, String.toList_ofList]
  have infinite : String.ofList (rest.map Char.toLower) = "inf" ∨
      String.ofList (rest.map Char.toLower) = "infinity" ↔
        rest.map Char.toLower ∈ ["inf".toList, "infinity".toList] := by
    rw [spelled, spelled, List.mem_pair]
  rewrite [ofLiteral, if_neg written, parts]
  exact if_congr infinite rfl (if_congr (spelled "nan") rfl rfl)

theorem Spells.ofLiteral_eq {text : List Char} {x : Binary64} (spells : Spells text x) :
    ofLiteral text = .ok x := by
  cases spells with
  | literal literal rounds sign =>
    rw [literal.ofLiteral_text]
    congr 1
    exact literal.ofLiteral_rounds.eq_of_negative rounds (by rw [negative_ofDecimal, sign])
  | @infinity sign word listed =>
    have parts : sign.text ++ word ≠ [] ∧
        splitSign (sign.text ++ word) = (sign.isMinus, word) := by
      rcases List.mem_pair.mp listed with spelled | spelled
      · exact splitSign_word sign spelled (by decide)
      · exact splitSign_word sign spelled (by decide)
    rw [ofLiteral_of_splitSign parts.1 parts.2, if_pos listed]
  | @nan sign word named =>
    have parts := splitSign_word sign named (by decide)
    have other : ¬ word.map Char.toLower ∈ ["inf".toList, "infinity".toList] := by
      rw [named]
      decide
    rw [ofLiteral_of_splitSign parts.1 parts.2, if_neg other, if_pos named]

theorem spells_of_ofLiteral {text : List Char} {x : Binary64} (read : ofLiteral text = .ok x) :
    Spells text x := by
  by_cases empty : text = []
  · rw [ofLiteral, if_pos empty] at read
    cases read
  · obtain ⟨sign, rest, rfl, parts⟩ := exists_sign text
    rw [ofLiteral_of_splitSign empty parts] at read
    split at read
    next listed =>
      cases read
      exact .infinity sign listed
    next =>
      split at read
      next named =>
        cases read
        exact .nan sign named
      next =>
        split at read
        next found =>
          cases read
          obtain ⟨literal, rfl, rfl⟩ := exists_literal found sign
          rw [literal.decimal?_body] at found
          cases found
          exact .literal literal literal.ofLiteral_rounds (negative_ofDecimal ..)
        next => cases read

theorem ofLiteral_ok_iff {text : List Char} {x : Binary64} :
    ofLiteral text = .ok x ↔ Spells text x :=
  ⟨spells_of_ofLiteral, Spells.ofLiteral_eq⟩

theorem reason_of_ofLiteral {text : List Char} {reason : LiteralError}
    (refused : ofLiteral text = .error reason) :
    reason = if text = [] then .empty else .invalid := by
  by_cases empty : text = []
  · rw [ofLiteral, if_pos empty] at refused
    cases refused
    rw [if_pos empty]
  · obtain ⟨sign, rest, rfl, parts⟩ := exists_sign text
    rw [ofLiteral_of_splitSign empty parts] at refused
    rw [if_neg empty]
    split at refused
    · cases refused
    · split at refused
      · cases refused
      · split at refused
        · cases refused
        · cases refused
          rfl

theorem ofLiteral_error_iff {text : List Char} {reason : LiteralError} :
    ofLiteral text = .error reason ↔
      (∀ x, ¬ Spells text x) ∧ reason = if text = [] then .empty else .invalid := by
  constructor
  · intro refused
    refine ⟨?_, reason_of_ofLiteral refused⟩
    intro x spells
    rw [spells.ofLiteral_eq] at refused
    cases refused
  · rintro ⟨other, rfl⟩
    cases read : ofLiteral text with
    | ok x => exact absurd (spells_of_ofLiteral read) (other x)
    | error reason => rw [reason_of_ofLiteral read]

theorem not_isDigit_of_word {sign : Sign} {word name : List Char} {c : Char}
    (named : word.map Char.toLower = name) (letters : name.all (! ·.isDigit))
    (member : c ∈ sign.text ++ word) : ¬ c.isDigit := by
  intro digit
  rcases List.mem_append.mp member with outside | inside
  · cases sign with
    | absent => exact absurd outside List.not_mem_nil
    | plus => simp [List.mem_singleton.mp outside] at digit
    | minus => simp [List.mem_singleton.mp outside] at digit
  · have lower : c ∈ name := by
      rw [← named, ← Text.toLower_of_isDigit digit]
      exact List.mem_map_of_mem inside
    simpa [digit] using List.all_eq_true.mp letters c lower

theorem ofLiteral_of_foreign {text : List Char} (digit : ∃ c ∈ text, c.isDigit)
    (foreign : ∃ c ∈ text, ¬ InDecimal c) : ofLiteral text = .error .invalid := by
  obtain ⟨d, inside, isDigit⟩ := digit
  obtain ⟨c, member, other⟩ := foreign
  rw [ofLiteral_error_iff, if_neg (List.ne_nil_of_mem member)]
  refine ⟨?_, rfl⟩
  intro x spells
  cases spells with
  | literal literal => exact other (literal.inDecimal_of_mem_text member)
  | infinity sign listed =>
    rcases List.mem_pair.mp listed with named | named
    · exact not_isDigit_of_word named (by decide) inside isDigit
    · exact not_isDigit_of_word named (by decide) inside isDigit
  | nan sign named => exact not_isDigit_of_word named (by decide) inside isDigit

end StatusPage.Binary64
