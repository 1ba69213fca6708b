import StatusPage.Json.Fault

namespace StatusPage.Json

def hexDigit? (c : Char) : Option Nat :=
  if '0' ≤ c ∧ c ≤ '9' then some (c.toNat - '0'.toNat)
  else if 'a' ≤ c ∧ c ≤ 'f' then some (c.toNat - 'a'.toNat + 10)
  else if 'A' ≤ c ∧ c ≤ 'F' then some (c.toNat - 'A'.toNat + 10)
  else none

def shortEscape? : Char → Option Char
  | '"' => some '"'
  | '\\' => some '\\'
  | '/' => some '/'
  | 'b' => some '\x08'
  | 'f' => some '\x0C'
  | 'n' => some '\n'
  | 'r' => some '\r'
  | 't' => some '\t'
  | _ => none

inductive TextState where
  | plain
  | escape
  /-- Behind `\u`, with the high surrogate before it, the bytes since and their value. The four
      digits take four bytes; other characters among them are a fault once the four are there. -/
  | hex (high : Option Nat) (bytes : Nat) (value : Option Nat)
  | half (high : Nat)
  | halfEscape (high : Nat)
deriving DecidableEq

namespace TextState

def addHex (bytes : Nat) (value : Option Nat) (c : Char) : Nat × Option Nat :=
  (bytes + c.utf8Size, do return 16 * (← value) + (← hexDigit? c))

def ofCode (high : Option Nat) (code : Nat) : Except Fault (TextState × Option Char) :=
  match high with
  | none =>
    if 0xDC00 ≤ code ∧ code ≤ 0xDFFF then .error .malformed
    else if 0xD800 ≤ code ∧ code ≤ 0xDBFF then .ok (.half code, none)
    else .ok (.plain, some (Char.ofNat code))
  | some high =>
    if 0xDC00 ≤ code ∧ code ≤ 0xDFFF then
      .ok (.plain, some (Char.ofNat (0x10000 + (high - 0xD800) * 0x400 + (code - 0xDC00))))
    else .error .malformed

def step (state : TextState) (c : Char) : Except Fault (TextState × Option Char) :=
  match state with
  | .plain =>
    if c = '\\' then .ok (.escape, none)
    else if isControl c then .error .malformed
    else .ok (.plain, some c)
  | .escape =>
    if c = 'u' then .ok (.hex none 0 (some 0), none)
    else match shortEscape? c with
      | some meant => .ok (.plain, some meant)
      | none => .error .malformed
  | .hex high bytes value =>
    let (bytes, value) := addHex bytes value c
    if bytes < 4 then .ok (.hex high bytes value, none)
    else match value with
      | some code => ofCode high code
      | none => .error .malformed
  | .half high => if c = '\\' then .ok (.halfEscape high, none) else .error .malformed
  | .halfEscape high =>
    if c = 'u' then .ok (.hex (some high) 0 (some 0), none) else .error .malformed

end TextState

def readText (state : TextState) (done : List Char) :
    List Char → Except Fault (List Char × List Char)
  | [] => .error .truncated
  | c :: text =>
    if state = .plain ∧ c = '"' then .ok (done.reverse, text)
    else match state.step c with
      | .error fault => .error fault
      | .ok (state, meant) => readText state (meant.toList ++ done) text

theorem length_of_readText {state : TextState} {done text value rest : List Char}
    (read : readText state done text = .ok (value, rest)) : rest.length < text.length := by
  induction text generalizing state done with
  | nil => cases read
  | cons c text ih =>
    unfold readText at read
    split at read
    · cases read; exact Nat.lt_succ_self _
    · split at read
      · cases read
      · exact Nat.lt_succ_of_lt (ih read)

def escape (c : Char) : List Char :=
  match c with
  | '"' => ['\\', '"']
  | '\\' => ['\\', '\\']
  | '\x08' => ['\\', 'b']
  | '\x0C' => ['\\', 'f']
  | '\n' => ['\\', 'n']
  | '\r' => ['\\', 'r']
  | '\t' => ['\\', 't']
  | c =>
    if isControl c then
      ['\\', 'u', '0', '0', Nat.digitChar (c.toNat / 16), Nat.digitChar (c.toNat % 16)]
    else [c]

def quote (text : String) : List Char := '"' :: text.toList.flatMap escape ++ ['"']

end StatusPage.Json
