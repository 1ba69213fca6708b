import StatusPage.Error

namespace StatusPage.Json

inductive Fault where
  | malformed
  | mismatched
  | truncated
deriving DecidableEq

def isBlank (c : Char) : Bool := c = ' ' || c = '\n' || c = '\t' || c = '\r'

def skipBlanks (text : List Char) : List Char := text.dropWhile isBlank

theorem length_skipBlanks_le (text : List Char) : (skipBlanks text).length ≤ text.length :=
  (List.dropWhile_sublist isBlank).length_le

def isControl (c : Char) : Bool := c.toNat < 0x20

def readWord : List Char → List Char → Except Fault (List Char)
  | [], text => .ok text
  | _ :: _, [] => .error .truncated
  | letter :: word, c :: text => if c = letter then readWord word text else .error .malformed

theorem length_of_readWord {word text rest : List Char} (read : readWord word text = .ok rest) :
    rest.length ≤ text.length := by
  fun_induction readWord word text with
  | case1 => cases read; exact Nat.le_refl _
  | case2 => cases read
  | case3 word letter text ih => exact Nat.le_succ_of_le (ih read)
  | case4 => cases read

end StatusPage.Json
