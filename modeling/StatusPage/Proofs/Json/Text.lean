import StatusPage.Json.Kind

namespace StatusPage.Json

open TextState

variable {done text : List Char}

theorem hexDigit?_digitChar : ∀ n < 16, hexDigit? (Nat.digitChar n) = some n := by decide

theorem utf8Size_of_hexDigit {c : Char} {n : Nat} (digit : hexDigit? c = some n) :
    c.utf8Size = 1 := by
  rw [Char.utf8Size_eq_one_iff, UInt32.le_iff_toNat_le]
  simp only [hexDigit?, Char.le_def, UInt32.le_iff_toNat_le] at digit
  have bound : c.val.toNat ≤ 'f'.val.toNat := by
    have order : '9'.val.toNat ≤ 'f'.val.toNat ∧ 'F'.val.toNat ≤ 'f'.val.toNat := by decide
    grind
  exact Nat.le_trans bound (by decide)

theorem readText_step {state next : TextState} {c : Char} {meant : Option Char}
    (inside : ¬ (state = .plain ∧ c = '"')) (stepped : state.step c = .ok (next, meant)) :
    readText state done (c :: text) = readText next (meant.toList ++ done) text := by
  rw [readText, if_neg inside, stepped]

theorem readText_hex {high : Option Nat} {bytes value n : Nat} {c : Char} (more : bytes + 1 < 4)
    (digit : hexDigit? c = some n) :
    readText (.hex high bytes (some value)) done (c :: text) =
      readText (.hex high (bytes + 1) (some (16 * value + n))) done text := by
  have stepped : (hex high bytes (some value)).step c =
      .ok (.hex high (bytes + 1) (some (16 * value + n)), none) := by
    simp [step, addHex, utf8Size_of_hexDigit digit, digit, more]
  exact readText_step (by simp) stepped

theorem readText_code {high : Option Nat} {a b c d : Char} {i j k l : Nat} {next : TextState}
    {meant : Option Char} (first : hexDigit? a = some i) (second : hexDigit? b = some j)
    (third : hexDigit? c = some k) (fourth : hexDigit? d = some l)
    (code : ofCode high (16 * (16 * (16 * i + j) + k) + l) = .ok (next, meant)) :
    readText (.hex high 0 (some 0)) done (a :: b :: c :: d :: text) =
      readText next (meant.toList ++ done) text := by
  rw [readText_hex (by decide) first, readText_hex (by decide) second,
    readText_hex (by decide) third]
  apply readText_step (by simp)
  simpa [step, addHex, utf8Size_of_hexDigit fourth, fourth] using code

theorem readText_control {c : Char} (control : isControl c) :
    readText .plain done (['\\', 'u', '0', '0', Nat.digitChar (c.toNat / 16),
      Nat.digitChar (c.toNat % 16)] ++ text) = readText .plain (c :: done) text := by
  have bound : c.toNat < 32 := by simpa [isControl] using control
  have high := hexDigit?_digitChar (c.toNat / 16) (by omega)
  have low := hexDigit?_digitChar (c.toNat % 16) (by omega)
  have sum : 16 * (16 * (16 * 0 + 0) + c.toNat / 16) + c.toNat % 16 = c.toNat := by omega
  have code : ofCode none (16 * (16 * (16 * 0 + 0) + c.toNat / 16) + c.toNat % 16) =
      .ok (.plain, some c) := by
    rw [sum, ofCode, if_neg (by omega), if_neg (by omega), Char.ofNat_toNat]
  have zero : hexDigit? '0' = some 0 := by decide
  exact readText_code zero zero high low code

theorem readText_escape (c : Char) :
    readText .plain done (escape c ++ text) = readText .plain (c :: done) text := by
  unfold escape
  split
  case h_8 noQuote noBackslash _ _ _ _ _ =>
    split
    case isTrue control => exact readText_control control
    case isFalse noControl =>
      have stepped : plain.step c = .ok (.plain, some c) := by
        rw [step, if_neg noBackslash, if_neg noControl]
      exact readText_step (by simpa using noQuote) stepped
  all_goals rfl

theorem readText_escaped (value : List Char) :
    readText .plain done (value.flatMap escape ++ '"' :: text) =
      .ok (done.reverse ++ value, text) := by
  induction value generalizing done with
  | nil => simp [readText]
  | cons c value ih =>
    rw [List.flatMap_cons, List.append_assoc, readText_escape, ih]
    simp

theorem bind_of_ok {α β : Type} {first : Except Fault α} {value : α} (read : first = .ok value)
    (second : α → Except Fault β) : first.bind second = second value := by
  rw [read, Except.bind]

theorem quote_append (value : String) (text : List Char) :
    quote value ++ text = '"' :: (value.toList.flatMap escape ++ '"' :: text) := by
  simp [quote]

theorem skipBlanks_cons {c : Char} (black : isBlank c = false) :
    skipBlanks (c :: text) = c :: text := by
  simp [skipBlanks, black]

theorem skipBlanks_quote (value : String) (text : List Char) :
    skipBlanks (quote value ++ text) = quote value ++ text := by
  rw [quote_append, skipBlanks_cons (by decide)]

theorem readString_quote (value : String) (text : List Char) :
    readString (quote value ++ text) = .ok (value, text) := by
  rw [readString, skipBlanks_quote, quote_append]
  simp [readText_escaped, Bind.bind, Except.bind, Pure.pure, Except.pure]

theorem readOptional_quote (value : String) (text : List Char) :
    readOptional (quote value ++ text) = .ok (some value, text) := by
  have read := readString_quote value text
  rw [readOptional, skipBlanks_quote]
  rw [quote_append] at read ⊢
  simp [read, Bind.bind, Except.bind, Pure.pure, Except.pure]

theorem readOptional_null (text : List Char) :
    readOptional ("null".toList ++ text) = .ok (none, text) := by
  rfl

end StatusPage.Json
