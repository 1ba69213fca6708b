import StatusPage.Json.Kind
import StatusPage.Json.Skip
import StatusPage.Settings.Basic

namespace StatusPage.Settings

open Json

inductive Field where
  | locale
  | style
  | timeout
deriving DecidableEq

namespace Field

def all : List Field := [.locale, .style, .timeout]

def name : Field → String
  | .locale => "locale"
  | .style => "uptime_style"
  | .timeout => "confirm_timeout"

def ofName? (name : String) : Option Field := all.find? fun field => field.name = name

end Field

def styleOfName (name : String) : Except Fault Uptime.Style :=
  match Uptime.Style.ofName? name with
  | some style => .ok style
  | none => .error .mismatched

def readStyle (text : List Char) : Except Fault (Uptime.Style × List Char) :=
  match skipBlanks text with
  | [] => .error .truncated
  | '"' :: text => do
    let (name, rest) ← readText .plain [] text
    return (← styleOfName (String.ofList name), rest)
  | '\x7b' :: text => do
    let (name, rest) ← readName text
    let style ← styleOfName name
    let rest ← readMark ':' rest
    let rest ← readNull rest
    return (style, ← readMark '\x7d' rest)
  | _ :: _ => .error .malformed

def readField (field : Field) (settings : Settings) (text : List Char) :
    Except Fault (Settings × List Char) :=
  match field with
  | .locale => do
    let (locale, rest) ← readOptional text
    return ({ settings with locale := locale }, rest)
  | .style => do
    let (style, rest) ← readStyle text
    return ({ settings with style := style }, rest)
  | .timeout => do
    let (timeout, rest) ← readString text
    return ({ settings with confirmTimeout := timeout }, rest)

/-- What comes next in an array: its end or a value, with the text behind the one or at the
    other. -/
inductive Element where
  | close (rest : List Char)
  | value (rest : List Char)

def nextElement (isFirst : Bool) (text : List Char) : Except Fault Element :=
  match skipBlanks text with
  | [] => .error .truncated
  | ']' :: rest => .ok (.close rest)
  | c :: rest =>
    if isFirst then .ok (.value (c :: rest))
    else if c ≠ ',' then .error .malformed
    else match skipBlanks rest with
      | [] => .error .truncated
      | ']' :: _ => .error .malformed
      | rest => .ok (.value rest)

def readArray (settings : Settings) (isFirst : Bool) (text : List Char) :
    List Field → Except Fault (Settings × List Char)
  | [] => do return (settings, ← readMark ']' text)
  | field :: fields => do
    match ← nextElement isFirst text with
    | .close rest => return (settings, rest)
    | .value rest =>
      let (settings, rest) ← readField field settings rest
      readArray settings false rest fields

structure Draft where
  settings : Settings
  given : List Field
deriving DecidableEq

def readMember (name : String) (draft : Draft) (text : List Char) :
    Except Fault (Draft × List Char) :=
  match Field.ofName? name with
  | none => do
    let rest ← readMark ':' text
    return (draft, ← Skip.fresh.run rest)
  | some field =>
    if field ∈ draft.given then .error .mismatched
    else do
      let rest ← readMark ':' text
      let (settings, rest) ← readField field draft.settings rest
      return (⟨settings, field :: draft.given⟩, rest)

theorem length_of_readMark {mark : Char} {text rest : List Char}
    (read : readMark mark text = .ok rest) : rest.length ≤ text.length := by
  have blanks := length_skipBlanks_le text
  unfold readMark at read
  split at read
  · cases read
  · rename_i found
    rw [found] at blanks
    split at read <;> cases read
    exact Nat.le_of_succ_le blanks

theorem length_of_readString {text rest : List Char} {value : String}
    (read : readString text = .ok (value, rest)) : rest.length ≤ text.length := by
  have blanks := length_skipBlanks_le text
  unfold readString at read
  split at read
  · rename_i found
    rw [found, List.length_cons] at blanks
    obtain ⟨_, inside, done⟩ := exists_of_bind_ok read
    cases done
    have shorter := length_of_readText inside
    omega
  · cases read

theorem length_of_readName {text rest : List Char} {name : String}
    (read : readName text = .ok (name, rest)) : rest.length ≤ text.length := by
  have blanks := length_skipBlanks_le text
  unfold readName at read
  split at read
  · cases read
  · rename_i found
    rw [found, List.length_cons] at blanks
    obtain ⟨_, inside, done⟩ := exists_of_bind_ok read
    cases done
    have shorter := length_of_readText inside
    omega
  · cases read

theorem length_of_readNull {text rest : List Char} (read : readNull text = .ok rest) :
    rest.length ≤ text.length := by
  have blanks := length_skipBlanks_le text
  unfold readNull at read
  split at read
  · rename_i found
    rw [found, List.length_cons] at blanks
    have shorter := length_of_readWord read
    omega
  · cases read

theorem length_of_readOptional {text rest : List Char} {value : Option String}
    (read : readOptional text = .ok (value, rest)) : rest.length ≤ text.length := by
  have blanks := length_skipBlanks_le text
  unfold readOptional at read
  split at read
  · rename_i found
    rw [found, List.length_cons] at blanks
    obtain ⟨_, word, done⟩ := exists_of_bind_ok read
    cases done
    have shorter := length_of_readWord word
    omega
  · obtain ⟨_, inside, done⟩ := exists_of_bind_ok read
    cases done
    exact Nat.le_trans (length_of_readString inside) blanks

theorem length_of_readStyle {text rest : List Char} {style : Uptime.Style}
    (read : readStyle text = .ok (style, rest)) : rest.length ≤ text.length := by
  have blanks := length_skipBlanks_le text
  unfold readStyle at read
  split at read
  · cases read
  · rename_i found
    rw [found, List.length_cons] at blanks
    obtain ⟨_, inside, named⟩ := exists_of_bind_ok read
    obtain ⟨_, _, done⟩ := exists_of_bind_ok named
    cases done
    have shorter := length_of_readText inside
    omega
  · rename_i found
    rw [found, List.length_cons] at blanks
    obtain ⟨_, name, read⟩ := exists_of_bind_ok read
    obtain ⟨_, _, read⟩ := exists_of_bind_ok read
    obtain ⟨_, colon, read⟩ := exists_of_bind_ok read
    obtain ⟨_, value, read⟩ := exists_of_bind_ok read
    obtain ⟨_, close, read⟩ := exists_of_bind_ok read
    cases read
    have behindName := length_of_readName name
    have behindColon := length_of_readMark colon
    have behindValue := length_of_readNull value
    have behindAll := length_of_readMark close
    omega
  · cases read

theorem length_of_readField {field : Field} {settings next : Settings} {text rest : List Char}
    (read : readField field settings text = .ok (next, rest)) : rest.length ≤ text.length := by
  unfold readField at read
  split at read <;> obtain ⟨_, inside, done⟩ := exists_of_bind_ok read <;> cases done
  · exact length_of_readOptional inside
  · exact length_of_readStyle inside
  · exact length_of_readString inside

theorem length_of_readMember {name : String} {draft next : Draft} {text rest : List Char}
    (read : readMember name draft text = .ok (next, rest)) : rest.length ≤ text.length := by
  unfold readMember at read
  split at read
  · obtain ⟨_, colon, value⟩ := exists_of_bind_ok read
    obtain ⟨_, passed, done⟩ := exists_of_bind_ok value
    cases done
    exact Nat.le_trans (Skip.length_of_run passed) (length_of_readMark colon)
  · split at read
    · cases read
    · obtain ⟨_, colon, value⟩ := exists_of_bind_ok read
      obtain ⟨_, inside, done⟩ := exists_of_bind_ok value
      cases done
      exact Nat.le_trans (length_of_readField inside) (length_of_readMark colon)

def nextMember (text : List Char) : Except Fault Element :=
  match skipBlanks text with
  | [] => .error .truncated
  | '\x7d' :: rest => .ok (.close rest)
  | ',' :: rest =>
    match skipBlanks rest with
    | [] => .error .truncated
    | '"' :: rest => .ok (.value rest)
    | _ => .error .malformed
  | _ => .error .malformed

theorem length_of_nextMember {text rest : List Char} (read : nextMember text = .ok (.value rest)) :
    rest.length ≤ text.length := by
  have blanks := length_skipBlanks_le text
  unfold nextMember at read
  split at read
  · cases read
  · cases read
  · rename_i behind found
    rw [found, List.length_cons] at blanks
    have between := length_skipBlanks_le behind
    split at read
    · cases read
    · rename_i next
      rw [next, List.length_cons] at between
      cases read
      omega
    · cases read
  · cases read

def readMembers (draft : Draft) (text : List Char) : Except Fault (Settings × List Char) :=
  match _ : readText .plain [] text with
  | .error fault => .error fault
  | .ok (name, behindName) =>
    match _ : readMember (String.ofList name) draft behindName with
    | .error fault => .error fault
    | .ok (draft, behindValue) =>
      match _ : nextMember behindValue with
      | .error fault => .error fault
      | .ok (.close rest) => .ok (draft.settings, rest)
      | .ok (.value rest) => readMembers draft rest
termination_by text.length
decreasing_by
  have behindName := length_of_readText ‹readText .plain [] text = _›
  have behindValue := length_of_readMember ‹readMember _ _ _ = _›
  have behindComma := length_of_nextMember ‹nextMember _ = _›
  omega

def readObject (settings : Settings) (text : List Char) : Except Fault (Settings × List Char) :=
  match skipBlanks text with
  | [] => .error .truncated
  | '\x7d' :: rest => .ok (settings, rest)
  | '"' :: rest => readMembers ⟨settings, []⟩ rest
  | _ => .error .malformed

/-- Read settings from JSON: an object, or an array of the fields in their order. What is not given
    is as by default. -/
def ofJson (text : String) : Except Fault Settings := do
  let (settings, rest) ← match skipBlanks text.toList with
    | '[' :: rest => readArray default true rest Field.all
    | '\x7b' :: rest => readObject default rest
    | other => .error (unexpected other)
  readEnd rest
  return settings

def styleOfJson (text : String) : Except Fault Uptime.Style := do
  let (style, rest) ← readStyle text.toList
  readEnd rest
  return style

end StatusPage.Settings
