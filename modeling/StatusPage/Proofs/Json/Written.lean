import Mathlib
import StatusPage.Json.Text
import StatusPage.Proofs.Binary64.Literal

namespace StatusPage.Json

structure Blanks where
  text : List Char
  isBlank : ∀ c ∈ text, isBlank c

namespace Blanks

def none : Blanks := ⟨[], fun _ member => absurd member List.not_mem_nil⟩

end Blanks

structure HexDigit where
  value : Fin 16
  upper : Bool

def HexDigit.char (digit : HexDigit) : Char :=
  if digit.upper then (Nat.digitChar digit.value).toUpper else Nat.digitChar digit.value

theorem HexDigit.hexDigit?_char (digit : HexDigit) :
    hexDigit? digit.char = some digit.value.val := by
  have all : ∀ (value : Fin 16) (upper : Bool),
      hexDigit? (HexDigit.char ⟨value, upper⟩) = some value.val := by decide
  exact all digit.value digit.upper

structure Code where
  first : HexDigit
  second : HexDigit
  third : HexDigit
  fourth : HexDigit

namespace Code

def text (code : Code) : List Char :=
  [code.first.char, code.second.char, code.third.char, code.fourth.char]

def value (code : Code) : ℕ :=
  16 * (16 * (16 * code.first.value + code.second.value) + code.third.value) + code.fourth.value

end Code

def shortEscapes : List (Char × Char) :=
  [('"', '"'), ('\\', '\\'), ('/', '/'), ('b', '\x08'), ('f', '\x0C'), ('n', '\n'), ('r', '\r'),
    ('t', '\t')]

inductive Piece where
  | plain (c : Char) (printable : 0x20 ≤ c.toNat) (other : c ≠ '"' ∧ c ≠ '\\')
  | short (letter meant : Char) (listed : (letter, meant) ∈ shortEscapes)
  | code (code : Code)

def Piece.text : Piece → List Char
  | .plain c _ _ => [c]
  | .short letter _ _ => ['\\', letter]
  | .code digits => '\\' :: 'u' :: digits.text

def quoted (pieces : List Piece) : List Char := '"' :: (pieces.flatMap Piece.text ++ ['"'])

theorem quoted_append (pieces : List Piece) (rest : List Char) :
    quoted pieces ++ rest = '"' :: (pieces.flatMap Piece.text ++ '"' :: rest) := by
  simp [quoted]

/-- The characters that a string means. One beyond the first plane takes two codes, a surrogate
    pair; half of a pair has no meaning. -/
inductive Means : List Piece → List Char → Prop
  | nil : Means [] []
  | plain {c : Char} {pieces : List Piece} {value : List Char} {printable : 0x20 ≤ c.toNat}
      {other : c ≠ '"' ∧ c ≠ '\\'} (rest : Means pieces value) :
      Means (.plain c printable other :: pieces) (c :: value)
  | short {letter c : Char} {pieces : List Piece} {value : List Char}
      {listed : (letter, c) ∈ shortEscapes} (rest : Means pieces value) :
      Means (.short letter c listed :: pieces) (c :: value)
  | code {code : Code} {c : Char} {pieces : List Piece} {value : List Char}
      (same : code.value = c.toNat) (rest : Means pieces value) :
      Means (.code code :: pieces) (c :: value)
  | pair {high low : Code} {c : Char} {pieces : List Piece} {value : List Char}
      (beyond : 0x10000 ≤ c.toNat) (upper : high.value = 0xD800 + (c.toNat - 0x10000) / 0x400)
      (lower : low.value = 0xDC00 + (c.toNat - 0x10000) % 0x400) (rest : Means pieces value) :
      Means (.code high :: .code low :: pieces) (c :: value)

/-- A number: no zero leads its whole part, and digits stand on both sides of a point. -/
structure Numeral where
  negative : Bool
  whole : List Char
  fraction : Option (List Char)
  exponent : Option Binary64.Exponent
  isDigit : ∀ c ∈ whole ++ fraction.getD [], c.isDigit
  written : whole ≠ []
  unpadded : whole.head? = some '0' → whole = ['0']
  fractionWritten : fraction ≠ some []

namespace Numeral

def fractionText (numeral : Numeral) : List Char := numeral.fraction.elim [] ('.' :: ·)

def exponentText (numeral : Numeral) : List Char := numeral.exponent.elim [] Binary64.Exponent.text

def text (numeral : Numeral) : List Char :=
  (if numeral.negative then ['-'] else []) ++
    (numeral.whole ++ (numeral.fractionText ++ numeral.exponentText))

end Numeral

inductive Part where
  | value
  | element
  | elements
  | member
  | members

/-- JSON as it is written, with the blanks between its tokens. -/
inductive Written : Part → Type
  | word (letters : List Char)
      (listed : letters ∈ ["null".toList, "true".toList, "false".toList]) : Written .value
  | number (numeral : Numeral) : Written .value
  | string (pieces : List Piece) : Written .value
  | emptyArray (blanks : Blanks) : Written .value
  | array (elements : Written .elements) : Written .value
  | emptyObject (blanks : Blanks) : Written .value
  | object (members : Written .members) : Written .value
  | element (before : Blanks) (value : Written .value) (behind : Blanks) : Written .element
  | lastElement (element : Written .element) : Written .elements
  | nextElement (element : Written .element) (rest : Written .elements) : Written .elements
  | member (before : Blanks) (name : List Piece) (between : Blanks) (element : Written .element) :
      Written .member
  | lastMember (member : Written .member) : Written .members
  | nextMember (member : Written .member) (rest : Written .members) : Written .members

structure Entry where
  name : List Piece
  value : Written .value

namespace Written

def text : {part : Part} → Written part → List Char
  | _, .word letters _ => letters
  | _, .number numeral => numeral.text
  | _, .string pieces => quoted pieces
  | _, .emptyArray blanks => '[' :: (blanks.text ++ [']'])
  | _, .array elements => '[' :: (elements.text ++ [']'])
  | _, .emptyObject blanks => '\x7b' :: (blanks.text ++ ['\x7d'])
  | _, .object members => '\x7b' :: (members.text ++ ['\x7d'])
  | _, .element before value behind => before.text ++ (value.text ++ behind.text)
  | _, .lastElement only => only.text
  | _, .nextElement first rest => first.text ++ ',' :: rest.text
  | _, .member before name between item =>
    before.text ++ (quoted name ++ (between.text ++ ':' :: item.text))
  | _, .lastMember only => only.text
  | _, .nextMember first rest => first.text ++ ',' :: rest.text

inductive ValuesIn : Written .elements → List (Written .value) → Prop
  | last {before behind : Blanks} {value : Written .value} :
      ValuesIn (.lastElement (.element before value behind)) [value]
  | next {before behind : Blanks} {value : Written .value} {elements : Written .elements}
      {values : List (Written .value)} (rest : ValuesIn elements values) :
      ValuesIn (.nextElement (.element before value behind) elements) (value :: values)

inductive EntriesIn : Written .members → List Entry → Prop
  | last {start between before behind : Blanks} {name : List Piece} {value : Written .value} :
      EntriesIn (.lastMember (.member start name between (.element before value behind)))
        [⟨name, value⟩]
  | next {start between before behind : Blanks} {name : List Piece} {value : Written .value}
      {members : Written .members} {entries : List Entry} (rest : EntriesIn members entries) :
      EntriesIn (.nextMember (.member start name between (.element before value behind)) members)
        (⟨name, value⟩ :: entries)

inductive HasValues : Written .element → List (Written .value) → Prop
  | none {before blanks behind : Blanks} :
      HasValues (.element before (.emptyArray blanks) behind) []
  | some {before behind : Blanks} {elements : Written .elements} {values : List (Written .value)}
      (inside : ValuesIn elements values) :
      HasValues (.element before (.array elements) behind) values

inductive HasEntries : Written .element → List Entry → Prop
  | none {before blanks behind : Blanks} :
      HasEntries (.element before (.emptyObject blanks) behind) []
  | some {before behind : Blanks} {members : Written .members} {entries : List Entry}
      (inside : EntriesIn members entries) :
      HasEntries (.element before (.object members) behind) entries

end Written

end StatusPage.Json
