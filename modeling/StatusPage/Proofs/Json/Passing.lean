import StatusPage.Json.Skip
import StatusPage.Proofs.Json.Text
import StatusPage.Proofs.Json.Written

namespace StatusPage.Json

variable {skip next : Skip} {outer : List Bracket} {rest : List Char}

theorem isHex_of_hexDigit {c : Char} {n : ℕ} (digit : hexDigit? c = some n) :
    (c.isDigit || ('a' ≤ c && c ≤ 'f') || ('A' ≤ c && c ≤ 'F')) = true := by
  have decimal : c.isDigit = true ↔ '0' ≤ c ∧ c ≤ '9' := by simp [Char.isDigit, Char.le_def]
  simp only [hexDigit?] at digit
  simp only [Bool.or_eq_true, Bool.and_eq_true, decide_eq_true_eq, decimal]
  grind

/-- Whether a value ends where a text begins: in front of a blank, a comma or a closing bracket. A
    number would go on with other characters. -/
def EndsValue (rest : List Char) : Prop :=
  ∃ c behind, rest = c :: behind ∧ (isBlank c ∨ c ∈ [',', ']', '\x7d'])

theorem EndsValue.of_mem {c : Char} (ends : c ∈ [',', ']', '\x7d']) (behind : List Char) :
    EndsValue (c :: behind) :=
  ⟨c, behind, rfl, .inr ends⟩

theorem EndsValue.blanks (ends : EndsValue rest) (blanks : Blanks) :
    EndsValue (blanks.text ++ rest) := by
  cases found : blanks.text with
  | nil => exact ends
  | cons c behind =>
    have blank : isBlank c := blanks.isBlank c (by rw [found]; exact List.mem_cons_self)
    exact ⟨c, behind ++ rest, rfl, .inl blank⟩

namespace Skip

theorem run_of_step {c : Char} (stepped : skip.step c = .ok (some next)) :
    skip.run (c :: rest) = next.run rest := by
  rw [run, stepped]

theorem run_of_stop {c : Char} (stepped : skip.step c = .ok none) :
    skip.run (c :: rest) = .ok (c :: rest) := by
  rw [run, stepped]

def Waits (skip : Skip) : Prop := ∀ c, isBlank c → skip.step c = .ok (some skip)

theorem Waits.run_blanks (waits : skip.Waits) (blanks : Blanks) :
    skip.run (blanks.text ++ rest) = skip.run rest := by
  have passed : ∀ text : List Char, (∀ c ∈ text, isBlank c) →
      skip.run (text ++ rest) = skip.run rest := by
    intro text
    induction text with
    | nil => exact fun _ => rfl
    | cons c text ih =>
      intro blank
      rw [List.forall_mem_cons] at blank
      rw [List.cons_append, run_of_step (waits c blank.1), ih blank.2]
  exact passed blanks.text blanks.isBlank

def Opens (skip : Skip) : Prop := skip.stage = .value ∨ skip.stage = .firstElement

def OpensMember (skip : Skip) : Prop := skip.stage = .key ∨ skip.stage = .firstKey

theorem Opens.waits (opens : skip.Opens) : skip.Waits := by
  obtain ⟨brackets, stage⟩ := skip
  intro c blank
  obtain rfl | rfl := opens <;> simp [step, blank]

theorem OpensMember.waits (opens : skip.OpensMember) : skip.Waits := by
  obtain ⟨brackets, stage⟩ := skip
  intro c blank
  obtain rfl | rfl := opens <;> simp [step, blank]

theorem waits_colon (brackets : List Bracket) : Waits ⟨brackets, .colon⟩ := by
  intro c blank
  simp [step, blank]

theorem waits_after (bracket : Bracket) (outer : List Bracket) :
    Waits ⟨bracket :: outer, .after⟩ := by
  intro c blank
  simp [step, afterValue, blank]

theorem Opens.run_start {c : Char} (opens : skip.Opens)
    (started : start skip.brackets c = .ok next) : skip.run (c :: rest) = next.run rest := by
  have noBlank : isBlank c = false := by
    rw [← Bool.not_eq_true]
    intro blank
    have blanks : c = ' ' ∨ c = '\n' ∨ c = '\t' ∨ c = '\r' := by
      simpa [isBlank, or_assoc] using blank
    obtain rfl | rfl | rfl | rfl := blanks <;> cases started
  have noBracket : c ≠ ']' := by
    rintro rfl
    cases started
  obtain ⟨brackets, stage⟩ := skip
  apply run_of_step
  obtain rfl | rfl := opens
  · simp [step, noBlank, started]
  · simp [step, noBlank, noBracket, started]

theorem OpensMember.run_quote (opens : skip.OpensMember) :
    skip.run ('"' :: rest) = run ⟨skip.brackets, .text true⟩ rest := by
  obtain ⟨brackets, stage⟩ := skip
  apply run_of_step
  obtain rfl | rfl := opens <;> rfl

theorem run_after_nil (ends : EndsValue rest) : run ⟨[], .after⟩ rest = .ok rest := by
  obtain ⟨c, behind, rfl, -⟩ := ends
  exact run_of_stop rfl

section Strings

variable {isKey : Bool}

theorem run_hex {bytes : ℕ} (digit : HexDigit) (more : bytes + 1 < 4) :
    run ⟨outer, .hex isKey bytes true⟩ (digit.char :: rest) =
      run ⟨outer, .hex isKey (bytes + 1) true⟩ rest := by
  apply run_of_step
  simp only [step, utf8Size_of_hexDigit digit.hexDigit?_char,
    isHex_of_hexDigit digit.hexDigit?_char, Bool.and_self, more, if_true]

theorem run_lastHex (digit : HexDigit) :
    run ⟨outer, .hex isKey 3 true⟩ (digit.char :: rest) = run ⟨outer, .text isKey⟩ rest := by
  apply run_of_step
  simp only [step, utf8Size_of_hexDigit digit.hexDigit?_char,
    isHex_of_hexDigit digit.hexDigit?_char, Bool.and_self]
  rfl

theorem run_piece (piece : Piece) :
    run ⟨outer, .text isKey⟩ (piece.text ++ rest) = run ⟨outer, .text isKey⟩ rest := by
  cases piece with
  | plain c printable other =>
    apply run_of_step
    have noControl : isControl c = false := by simpa [isControl] using printable
    simp [step, other.1, other.2, noControl]
  | short letter meant listed =>
    have escaped : run ⟨outer, .escape isKey⟩ (letter :: rest) = run ⟨outer, .text isKey⟩ rest := by
      have letters : ∀ pair ∈ shortEscapes,
          pair.1 ≠ 'u' ∧ pair.1 ∈ ['"', '\\', '/', 'b', 'f', 'n', 'r', 't'] := by decide
      obtain ⟨noNumber, known⟩ := letters (letter, meant) listed
      apply run_of_step
      simp only [step, noNumber, known, if_false, if_true]
    exact (run_of_step rfl).trans escaped
  | code digits =>
    have numbered : run ⟨outer, .hex isKey 0 true⟩ (digits.text ++ rest) =
        run ⟨outer, .text isKey⟩ rest := by
      simp only [Code.text, List.cons_append, List.nil_append]
      rw [run_hex _ (by decide), run_hex _ (by decide), run_hex _ (by decide), run_lastHex]
    exact (run_of_step rfl).trans ((run_of_step rfl).trans numbered)

theorem run_pieces (pieces : List Piece) :
    run ⟨outer, .text isKey⟩ (pieces.flatMap Piece.text ++ '"' :: rest) =
      run ⟨outer, closeText isKey⟩ rest := by
  induction pieces with
  | nil => exact run_of_step rfl
  | cons piece pieces ih => rw [List.flatMap_cons, List.append_assoc, run_piece, ih]

end Strings

section Numbers

variable {stage : NumberStage}

theorem run_digits {digits : List Char} (isDigit : ∀ c ∈ digits, c.isDigit)
    (stays : ∀ c, c.isDigit → stage.next? c = some stage) :
    run ⟨outer, .number stage⟩ (digits ++ rest) = run ⟨outer, .number stage⟩ rest := by
  induction digits with
  | nil => rfl
  | cons c digits ih =>
    rw [List.forall_mem_cons] at isDigit
    have stepped : step ⟨outer, .number stage⟩ c = .ok (some ⟨outer, .number stage⟩) := by
      simp only [step, stays c isDigit.1]
    rw [List.cons_append, run_of_step stepped, ih isDigit.2]

theorem run_someDigits {first : NumberStage} {digits : List Char} (written : digits ≠ [])
    (isDigit : ∀ c ∈ digits, c.isDigit) (enters : ∀ c, c.isDigit → first.next? c = some stage)
    (stays : ∀ c, c.isDigit → stage.next? c = some stage) :
    run ⟨outer, .number first⟩ (digits ++ rest) = run ⟨outer, .number stage⟩ rest := by
  cases digits with
  | nil => exact absurd rfl written
  | cons c digits =>
    rw [List.forall_mem_cons] at isDigit
    have stepped : step ⟨outer, .number first⟩ c = .ok (some ⟨outer, .number stage⟩) := by
      simp only [step, enters c isDigit.1]
    rw [List.cons_append, run_of_step stepped, run_digits isDigit.2 stays]

theorem run_complete (complete : stage.complete) (ends : EndsValue rest) :
    run ⟨outer, .number stage⟩ rest = run ⟨outer, .after⟩ rest := by
  obtain ⟨c, behind, rfl, ended⟩ := ends
  have foreign : c.isDigit = false ∧ c ≠ '.' ∧ c ≠ 'e' ∧ c ≠ 'E' := by
    have kinds : c = ' ' ∨ c = '\n' ∨ c = '\t' ∨ c = '\r' ∨ c = ',' ∨ c = ']' ∨ c = '\x7d' := by
      simpa [isBlank, or_assoc] using ended
    obtain rfl | rfl | rfl | rfl | rfl | rfl | rfl := kinds <;> decide
  obtain ⟨noDigit, noPoint, noMark, noUpperMark⟩ := foreign
  have noNext : stage.next? c = none := by
    cases stage <;>
      simp_all [NumberStage.next?, NumberStage.ofMark?, NumberStage.complete]
  have same : step ⟨outer, .number stage⟩ c = step ⟨outer, .after⟩ c := by
    simp [step, noNext, complete, noDigit]
  rw [run, run, same]

theorem run_exponent (exponent : Binary64.Exponent)
    (next : ∀ mark, mark = 'e' ∨ mark = 'E' → stage.next? mark = some .mark)
    (ends : EndsValue rest) :
    run ⟨outer, .number stage⟩ (exponent.text ++ rest) = run ⟨outer, .after⟩ rest := by
  have marked : step ⟨outer, .number stage⟩ exponent.mark = .ok (some ⟨outer, .number .mark⟩) := by
    simp only [step, next exponent.mark exponent.isMark]
  have stays : ∀ c : Char, c.isDigit → NumberStage.exponent.next? c = some .exponent := by
    intro c digit
    simp [NumberStage.next?, digit]
  have signed : run ⟨outer, .number .mark⟩ (exponent.sign.text ++ (exponent.digits ++ rest)) =
      run ⟨outer, .number .exponent⟩ rest := by
    have ofSign : run ⟨outer, .number .markSign⟩ (exponent.digits ++ rest) =
        run ⟨outer, .number .exponent⟩ rest :=
      run_someDigits exponent.written exponent.isDigit stays stays
    cases exponent.sign with
    | absent =>
      exact run_someDigits exponent.written exponent.isDigit
        (fun c digit => by simp [NumberStage.next?, digit]) stays
    | plus => exact (run_of_step rfl).trans ofSign
    | minus => exact (run_of_step rfl).trans ofSign
  rw [Binary64.Exponent.text, List.cons_append, run_of_step marked, List.append_assoc, signed]
  exact run_complete rfl ends

theorem run_exponentText (numeral : Numeral) (complete : stage.complete)
    (next : ∀ mark, mark = 'e' ∨ mark = 'E' → stage.next? mark = some .mark)
    (ends : EndsValue rest) :
    run ⟨outer, .number stage⟩ (numeral.exponentText ++ rest) = run ⟨outer, .after⟩ rest := by
  unfold Numeral.exponentText
  cases numeral.exponent with
  | none => exact run_complete complete ends
  | some exponent => exact run_exponent exponent next ends

theorem run_fractionText (numeral : Numeral) (c : Char) (ends : EndsValue rest) :
    run ⟨outer, .number (.ofDigit c)⟩ (numeral.fractionText ++ (numeral.exponentText ++ rest)) =
      run ⟨outer, .after⟩ rest := by
  have marks : ∀ mark, mark = 'e' ∨ mark = 'E' →
      (NumberStage.ofDigit c).next? mark = some .mark ∧
        NumberStage.fraction.next? mark = some .mark := by
    intro mark isMark
    unfold NumberStage.ofDigit
    split <;> obtain rfl | rfl := isMark <;> decide
  unfold Numeral.fractionText
  cases fraction : numeral.fraction with
  | none =>
    have complete : (NumberStage.ofDigit c).complete := by
      unfold NumberStage.ofDigit
      split <;> rfl
    exact run_exponentText numeral complete (fun mark isMark => (marks mark isMark).1) ends
  | some digits =>
    have written : digits ≠ [] := by
      rintro rfl
      exact numeral.fractionWritten fraction
    have isDigit : ∀ c ∈ digits, c.isDigit := by
      intro c member
      exact numeral.isDigit c (List.mem_append_right _ (by rwa [fraction]))
    have pointed : step ⟨outer, .number (.ofDigit c)⟩ '.' = .ok (some ⟨outer, .number .point⟩) := by
      unfold NumberStage.ofDigit
      split <;> rfl
    have passed : run ⟨outer, .number .point⟩ (digits ++ (numeral.exponentText ++ rest)) =
        run ⟨outer, .number .fraction⟩ (numeral.exponentText ++ rest) :=
      run_someDigits written isDigit (fun c digit => by simp [NumberStage.next?, digit])
        (fun c digit => by simp [NumberStage.next?, digit])
    rw [Option.elim_some, List.cons_append, run_of_step pointed, passed]
    exact run_exponentText numeral rfl (fun mark isMark => (marks mark isMark).2) ends

theorem start_digit {c : Char} (digit : c.isDigit) :
    start outer c = .ok ⟨outer, .number (.ofDigit c)⟩ := by
  have foreign : c ≠ '"' ∧ c ≠ '[' ∧ c ≠ '\x7b' ∧ c ≠ '-' := by
    refine ⟨?_, ?_, ?_, ?_⟩ <;> rintro rfl <;> cases digit
  simp [start, foreign, digit]

theorem Opens.run_numeral (opens : skip.Opens) (numeral : Numeral) (ends : EndsValue rest) :
    skip.run (numeral.text ++ rest) = run ⟨skip.brackets, .after⟩ rest := by
  obtain ⟨c, digits, whole⟩ := List.exists_cons_of_ne_nil numeral.written
  have isDigit : c.isDigit ∧ ∀ d ∈ digits, d.isDigit := by
    have digits := numeral.isDigit
    rw [List.forall_mem_append, whole, List.forall_mem_cons] at digits
    exact digits.1
  have behind : run ⟨skip.brackets, .number (.ofDigit c)⟩
      (digits ++ (numeral.fractionText ++ (numeral.exponentText ++ rest))) =
      run ⟨skip.brackets, .after⟩ rest := by
    rw [← run_fractionText numeral c ends]
    by_cases zero : c = '0'
    · have alone : digits = [] := by
        have unpadded := numeral.unpadded (by rw [whole, zero]; rfl)
        rw [whole] at unpadded
        exact (List.cons.inj unpadded).2
      rw [alone, List.nil_append]
    · have stage : NumberStage.ofDigit c = .whole := by rw [NumberStage.ofDigit, if_neg zero]
      rw [stage]
      exact run_digits isDigit.2 fun d digit => by simp [NumberStage.next?, digit]
  simp only [Numeral.text, whole, List.append_assoc, List.cons_append]
  cases numeral.negative with
  | false => exact (opens.run_start (start_digit isDigit.1)).trans behind
  | true =>
    have signed : step ⟨skip.brackets, .number .sign⟩ c =
        .ok (some ⟨skip.brackets, .number (.ofDigit c)⟩) := by
      simp [step, NumberStage.next?, isDigit.1]
    exact (opens.run_start rfl).trans ((run_of_step signed).trans behind)

end Numbers

/-- What passing over a part of JSON means. The elements of an array and the members of an object
    are passed over together with the bracket behind them. -/
def Passed : {part : Part} → Written part → Prop
  | .value, value => ∀ (skip : Skip) (rest : List Char), skip.Opens → EndsValue rest →
    skip.run (value.text ++ rest) = run ⟨skip.brackets, .after⟩ rest
  | .element, element => ∀ (skip : Skip) (bracket : Bracket) (outer : List Bracket)
      (rest : List Char), skip.Opens → skip.brackets = bracket :: outer → EndsValue rest →
    skip.run (element.text ++ rest) = run ⟨bracket :: outer, .after⟩ rest
  | .elements, elements => ∀ (skip : Skip) (outer : List Bracket) (rest : List Char), skip.Opens →
    skip.brackets = .array :: outer →
    skip.run (elements.text ++ ']' :: rest) = run ⟨outer, .after⟩ rest
  | .member, member => ∀ (skip : Skip) (outer : List Bracket) (rest : List Char),
    skip.OpensMember → skip.brackets = .object :: outer → EndsValue rest →
    skip.run (member.text ++ rest) = run ⟨.object :: outer, .after⟩ rest
  | .members, members => ∀ (skip : Skip) (outer : List Bracket) (rest : List Char),
    skip.OpensMember → skip.brackets = .object :: outer →
    skip.run (members.text ++ '\x7d' :: rest) = run ⟨outer, .after⟩ rest

theorem run_word {letters : List Char} (opens : skip.Opens)
    (listed : letters ∈ ["null".toList, "true".toList, "false".toList]) :
    skip.run (letters ++ rest) = run ⟨skip.brackets, .after⟩ rest := by
  simp only [List.mem_cons, List.not_mem_nil, or_false] at listed
  obtain rfl | rfl | rfl := listed <;> exact (opens.run_start rfl).trans rfl

theorem Opens.run_array (opens : skip.Opens) :
    skip.run ('[' :: rest) = run ⟨.array :: skip.brackets, .firstElement⟩ rest :=
  opens.run_start rfl

theorem Opens.run_object (opens : skip.Opens) :
    skip.run ('\x7b' :: rest) = run ⟨.object :: skip.brackets, .firstKey⟩ rest :=
  opens.run_start rfl

theorem Opens.run_quoted (opens : skip.Opens) (pieces : List Piece) :
    skip.run (quoted pieces ++ rest) = run ⟨skip.brackets, .after⟩ rest := by
  rw [quoted_append, opens.run_start rfl, run_pieces]
  rfl

theorem OpensMember.run_quoted (opens : skip.OpensMember) (name : List Piece) :
    skip.run (quoted name ++ rest) = run ⟨skip.brackets, .colon⟩ rest := by
  rw [quoted_append, opens.run_quote, run_pieces]
  rfl

/-- A reader passes over exactly the value that it stands before, however deep that is. -/
theorem passed {part : Part} (written : Written part) : Passed written := by
  induction written with
  | word letters listed => exact fun skip rest opens _ => run_word opens listed
  | number numeral => exact fun skip rest opens ends => opens.run_numeral numeral ends
  | string pieces => exact fun skip rest opens _ => opens.run_quoted pieces
  | emptyArray blanks =>
    intro skip rest opens _
    have waits : Waits ⟨.array :: skip.brackets, .firstElement⟩ := Opens.waits (.inr rfl)
    simp only [Written.text, List.append_assoc, List.cons_append, List.nil_append]
    rw [opens.run_array, waits.run_blanks]
    exact run_of_step rfl
  | array elements ih =>
    intro skip rest opens _
    simp only [Written.text, List.append_assoc, List.cons_append, List.nil_append]
    rw [opens.run_array]
    exact ih _ skip.brackets rest (.inr rfl) rfl
  | emptyObject blanks =>
    intro skip rest opens _
    have waits : Waits ⟨.object :: skip.brackets, .firstKey⟩ := OpensMember.waits (.inr rfl)
    simp only [Written.text, List.append_assoc, List.cons_append, List.nil_append]
    rw [opens.run_object, waits.run_blanks]
    exact run_of_step rfl
  | object members ih =>
    intro skip rest opens _
    simp only [Written.text, List.append_assoc, List.cons_append, List.nil_append]
    rw [opens.run_object]
    exact ih _ skip.brackets rest (.inr rfl) rfl
  | element before value behind ih =>
    intro skip bracket outer rest opens inside ends
    have value := ih skip (behind.text ++ rest) opens (ends.blanks behind)
    rw [inside] at value
    simp only [Written.text, List.append_assoc]
    rw [opens.waits.run_blanks, value, (waits_after bracket outer).run_blanks]
  | lastElement element ih =>
    intro skip outer rest opens inside
    have last := ih skip .array outer (']' :: rest) opens inside (.of_mem (by decide) rest)
    exact last.trans (run_of_step rfl)
  | nextElement element elements first ih =>
    intro skip outer rest opens inside
    have passed := first skip .array outer (',' :: (elements.text ++ ']' :: rest)) opens inside
      (.of_mem (by decide) _)
    simp only [Written.text, List.append_assoc, List.cons_append]
    rw [passed, ← ih ⟨.array :: outer, .value⟩ outer rest (.inl rfl) rfl]
    exact run_of_step rfl
  | member before name between element ih =>
    intro skip outer rest opens inside ends
    simp only [Written.text, List.append_assoc, List.cons_append]
    rw [opens.waits.run_blanks, opens.run_quoted, inside, (waits_colon _).run_blanks,
      ← ih ⟨.object :: outer, .value⟩ .object outer rest (.inl rfl) rfl ends]
    exact run_of_step rfl
  | lastMember member ih =>
    intro skip outer rest opens inside
    have last := ih skip outer ('\x7d' :: rest) opens inside (.of_mem (by decide) rest)
    exact last.trans (run_of_step rfl)
  | nextMember member members first ih =>
    intro skip outer rest opens inside
    have passed := first skip outer (',' :: (members.text ++ '\x7d' :: rest)) opens inside
      (.of_mem (by decide) _)
    simp only [Written.text, List.append_assoc, List.cons_append]
    rw [passed, ← ih ⟨.object :: outer, .key⟩ outer rest (.inl rfl) rfl]
    exact run_of_step rfl

theorem run_fresh (before : Blanks) (value : Written .value) (ends : EndsValue rest) :
    fresh.run (before.text ++ (value.text ++ rest)) = .ok rest := by
  have opens : fresh.Opens := .inl rfl
  rw [opens.waits.run_blanks, passed value fresh rest opens ends]
  exact run_after_nil ends

end Skip

end StatusPage.Json
