import StatusPage.Json.Fault

namespace StatusPage.Json

inductive Bracket where
  | array
  | object
deriving DecidableEq

def Bracket.closing : Bracket → Char
  | .array => ']'
  | .object => '}'

inductive NumberStage where
  | sign
  | zero
  | whole
  | point
  | fraction
  | mark
  | markSign
  | exponent
deriving DecidableEq

namespace NumberStage

def complete : NumberStage → Bool
  | .zero | .whole | .fraction | .exponent => true
  | .sign | .point | .mark | .markSign => false

def ofDigit (c : Char) : NumberStage := if c = '0' then .zero else .whole

def ofMark? (point : Bool) (c : Char) : Option NumberStage :=
  if point ∧ c = '.' then some .point
  else if c = 'e' ∨ c = 'E' then some .mark
  else none

def next? (stage : NumberStage) (c : Char) : Option NumberStage :=
  match stage with
  | .sign => if c.isDigit then some (ofDigit c) else none
  | .zero => ofMark? true c
  | .whole => if c.isDigit then some .whole else ofMark? true c
  | .point => if c.isDigit then some .fraction else none
  | .fraction => if c.isDigit then some .fraction else ofMark? false c
  | .mark =>
    if c.isDigit then some .exponent
    else if c = '+' ∨ c = '-' then some .markSign
    else none
  | .markSign | .exponent => if c.isDigit then some .exponent else none

end NumberStage

inductive SkipStage where
  | value
  | firstElement
  | firstKey
  | key
  | colon
  | word (letter : Char) (letters : List Char)
  | number (stage : NumberStage)
  | text (isKey : Bool)
  | escape (isKey : Bool)
  | hex (isKey : Bool) (bytes : Nat) (valid : Bool)
  | after
deriving DecidableEq

/-- A reader that passes over a value, with the brackets open around it. -/
structure Skip where
  brackets : List Bracket
  stage : SkipStage
deriving DecidableEq

namespace Skip

def fresh : Skip := ⟨[], .value⟩

def start (brackets : List Bracket) (c : Char) : Except Fault Skip :=
  if c = '"' then .ok ⟨brackets, .text false⟩
  else if c = '[' then .ok ⟨.array :: brackets, .firstElement⟩
  else if c = '\x7b' then .ok ⟨.object :: brackets, .firstKey⟩
  else if c = '-' then .ok ⟨brackets, .number .sign⟩
  else if c.isDigit then .ok ⟨brackets, .number (.ofDigit c)⟩
  else if c = 'n' then .ok ⟨brackets, .word 'u' ['l', 'l']⟩
  else if c = 't' then .ok ⟨brackets, .word 'r' ['u', 'e']⟩
  else if c = 'f' then .ok ⟨brackets, .word 'a' ['l', 's', 'e']⟩
  else .error .malformed

/-- The reader behind a value and one more character, or nothing when the value is not inside of
    another one and the character belongs to something else. -/
def afterValue (brackets : List Bracket) (c : Char) : Except Fault (Option Skip) :=
  match brackets with
  | [] => .ok none
  | bracket :: outer =>
    if isBlank c then .ok (some ⟨brackets, .after⟩)
    else if c = bracket.closing then .ok (some ⟨outer, .after⟩)
    else if c = ',' then .ok (some ⟨brackets, if bracket = .array then .value else .key⟩)
    else .error .malformed

def closeText (isKey : Bool) : SkipStage := if isKey then .colon else .after

def step (skip : Skip) (c : Char) : Except Fault (Option Skip) :=
  let go (stage : SkipStage) : Except Fault (Option Skip) := .ok (some ⟨skip.brackets, stage⟩)
  match skip.stage with
  | .value => if isBlank c then go .value else some <$> start skip.brackets c
  | .firstElement =>
    if isBlank c then go .firstElement
    else if c = ']' then .ok (some ⟨skip.brackets.tail, .after⟩)
    else some <$> start skip.brackets c
  | .firstKey =>
    if isBlank c then go .firstKey
    else if c = '\x7d' then .ok (some ⟨skip.brackets.tail, .after⟩)
    else if c = '"' then go (.text true)
    else .error .malformed
  | .key =>
    if isBlank c then go .key else if c = '"' then go (.text true) else .error .malformed
  | .colon => if isBlank c then go .colon else if c = ':' then go .value else .error .malformed
  | .word letter letters =>
    if c ≠ letter then .error .malformed
    else match letters with
      | [] => go .after
      | letter :: letters => go (.word letter letters)
  | .number stage =>
    match stage.next? c with
    | some stage => go (.number stage)
    | none =>
      if stage.complete ∧ ¬ (stage = .zero ∧ c.isDigit) then afterValue skip.brackets c
      else .error .malformed
  | .text isKey =>
    if c = '"' then go (closeText isKey)
    else if c = '\\' then go (.escape isKey)
    else if isControl c then .error .malformed
    else go (.text isKey)
  | .escape isKey =>
    if c = 'u' then go (.hex isKey 0 true)
    else if c ∈ ['"', '\\', '/', 'b', 'f', 'n', 'r', 't'] then go (.text isKey)
    else .error .malformed
  | .hex isKey bytes valid =>
    let valid := valid && (c.isDigit || ('a' ≤ c && c ≤ 'f') || ('A' ≤ c && c ≤ 'F'))
    if bytes + c.utf8Size < 4 then go (.hex isKey (bytes + c.utf8Size) valid)
    else if valid then go (.text isKey)
    else .error .malformed
  | .after => afterValue skip.brackets c

/-- What it means that the text ends here. A number that lacks its end counts as a broken one. -/
def finish (skip : Skip) : Except Fault Unit :=
  match skip.stage with
  | .after => if skip.brackets = [] then .ok () else .error .truncated
  | .number stage =>
    if ¬ stage.complete then .error .malformed
    else if skip.brackets = [] then .ok ()
    else .error .truncated
  | _ => .error .truncated

def run (skip : Skip) : List Char → Except Fault (List Char)
  | [] => skip.finish.map fun _ => []
  | c :: text =>
    match skip.step c with
    | .error fault => .error fault
    | .ok none => .ok (c :: text)
    | .ok (some skip) => skip.run text

theorem length_of_run {skip : Skip} {text rest : List Char} (passed : skip.run text = .ok rest) :
    rest.length ≤ text.length := by
  induction text generalizing skip with
  | nil =>
    unfold run at passed
    cases finished : skip.finish <;> rw [finished] at passed <;> cases passed
    exact Nat.le_refl _
  | cons c text ih =>
    unfold run at passed
    split at passed
    · cases passed
    · cases passed; exact Nat.le_refl _
    · exact Nat.le_succ_of_le (ih passed)

end Skip

end StatusPage.Json
