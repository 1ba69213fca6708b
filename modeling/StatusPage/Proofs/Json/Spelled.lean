import StatusPage.Proofs.Json.Text
import StatusPage.Proofs.Json.Written

namespace StatusPage.Json

open TextState

variable {done value rest : List Char} {pieces : List Piece}

theorem readText_digits {high : Option ℕ} {code : Code} {next : TextState} {meant : Option Char}
    (known : ofCode high code.value = .ok (next, meant)) :
    readText (.hex high 0 (some 0)) done (code.text ++ rest) =
      readText next (meant.toList ++ done) rest := by
  apply readText_code code.first.hexDigit?_char code.second.hexDigit?_char
    code.third.hexDigit?_char code.fourth.hexDigit?_char
  simpa [Code.value] using known

theorem readText_plain {c : Char} (printable : 0x20 ≤ c.toNat) (other : c ≠ '"' ∧ c ≠ '\\') :
    readText .plain done (Piece.text (.plain c printable other) ++ rest) =
      readText .plain (c :: done) rest := by
  have noControl : ¬ isControl c := by simpa [isControl] using printable
  have stepped : plain.step c = .ok (.plain, some c) := by
    rw [step, if_neg other.2, if_neg noControl]
  exact readText_step (by simpa using other.1) stepped

theorem readText_short {letter c : Char} (listed : (letter, c) ∈ shortEscapes) :
    readText .plain done (Piece.text (.short letter c listed) ++ rest) =
      readText .plain (c :: done) rest := by
  have kinds := listed
  simp only [shortEscapes, List.mem_cons, Prod.mk.injEq, List.not_mem_nil, or_false] at kinds
  obtain ⟨rfl, rfl⟩ | ⟨rfl, rfl⟩ | ⟨rfl, rfl⟩ | ⟨rfl, rfl⟩ | ⟨rfl, rfl⟩ | ⟨rfl, rfl⟩ | ⟨rfl, rfl⟩ |
    ⟨rfl, rfl⟩ := kinds <;> rfl

theorem readText_number {code : Code} {c : Char} (same : code.value = c.toNat) :
    readText .plain done (Piece.text (.code code) ++ rest) = readText .plain (c :: done) rest := by
  have scalar : c.toNat < 0xD800 ∨ 0xDFFF < c.toNat := by
    obtain below | ⟨above, -⟩ := c.valid
    · exact .inl below
    · exact .inr above
  have known : ofCode none code.value = .ok (.plain, some c) := by
    rw [same, ofCode, if_neg (by omega), if_neg (by omega), Char.ofNat_toNat]
  exact readText_digits known

theorem readText_pair {high low : Code} {c : Char} (beyond : 0x10000 ≤ c.toNat)
    (upper : high.value = 0xD800 + (c.toNat - 0x10000) / 0x400)
    (lower : low.value = 0xDC00 + (c.toNat - 0x10000) % 0x400) :
    readText .plain done (Piece.text (.code high) ++ (Piece.text (.code low) ++ rest)) =
      readText .plain (c :: done) rest := by
  have bound : c.toNat < 0x110000 := by
    obtain below | ⟨-, below⟩ := c.valid
    · exact Nat.lt_trans below (by decide)
    · exact below
  have first : ofCode none high.value = .ok (.half high.value, none) := by
    rw [ofCode, if_neg (by omega), if_pos (by omega)]
  have second : ofCode (some high.value) low.value = .ok (.plain, some c) := by
    have whole : 0x10000 + (high.value - 0xD800) * 0x400 + (low.value - 0xDC00) = c.toNat := by
      omega
    rw [ofCode, if_pos (by omega), whole, Char.ofNat_toNat]
  exact (readText_digits first).trans (readText_digits second)

/-- A string is read as the characters that it means, up to its closing quote. -/
theorem Means.readText (means : Means pieces value) :
    readText .plain done (pieces.flatMap Piece.text ++ '"' :: rest) =
      .ok (done.reverse ++ value, rest) := by
  induction means generalizing done with
  | nil => simp [Json.readText]
  | plain _ ih =>
    rw [List.flatMap_cons, List.append_assoc, readText_plain, ih]
    simp
  | short _ ih =>
    rw [List.flatMap_cons, List.append_assoc, readText_short, ih]
    simp
  | code same _ ih =>
    rw [List.flatMap_cons, List.append_assoc, readText_number same, ih]
    simp
  | pair beyond upper lower _ ih =>
    rw [List.flatMap_cons, List.flatMap_cons, List.append_assoc, List.append_assoc,
      readText_pair beyond upper lower, ih]
    simp

theorem skipBlanks_blanks (blanks : Blanks) (rest : List Char) :
    skipBlanks (blanks.text ++ rest) = skipBlanks rest :=
  List.dropWhile_append_of_pos blanks.isBlank

theorem skipBlanks_before (blanks : Blanks) {c : Char} (black : isBlank c = false)
    (rest : List Char) : skipBlanks (blanks.text ++ c :: rest) = c :: rest := by
  rw [skipBlanks_blanks, skipBlanks_cons black]

theorem readMark_before (blanks : Blanks) {mark : Char} (black : isBlank mark = false)
    (rest : List Char) : readMark mark (blanks.text ++ mark :: rest) = .ok rest := by
  rw [readMark, skipBlanks_before blanks black]
  exact if_pos rfl

theorem readNull_before (blanks : Blanks) (rest : List Char) :
    readNull (blanks.text ++ ("null".toList ++ rest)) = .ok rest := by
  rw [readNull, skipBlanks_blanks]
  rfl

theorem readOptional_null_before (blanks : Blanks) (rest : List Char) :
    readOptional (blanks.text ++ ("null".toList ++ rest)) = .ok (none, rest) := by
  rw [readOptional, skipBlanks_blanks]
  rfl

theorem Means.readString (means : Means pieces value) (blanks : Blanks) :
    readString (blanks.text ++ (quoted pieces ++ rest)) = .ok (String.ofList value, rest) := by
  rw [Json.readString, quoted_append, skipBlanks_before blanks (by decide)]
  exact bind_of_ok means.readText _

theorem Means.readName (means : Means pieces value) (blanks : Blanks) :
    readName (blanks.text ++ (quoted pieces ++ rest)) = .ok (String.ofList value, rest) := by
  rw [Json.readName, quoted_append, skipBlanks_before blanks (by decide)]
  exact bind_of_ok means.readText _

theorem Means.readOptional (means : Means pieces value) (blanks : Blanks) :
    readOptional (blanks.text ++ (quoted pieces ++ rest)) =
      .ok (some (String.ofList value), rest) := by
  have read : Json.readString (quoted pieces ++ rest) = .ok (String.ofList value, rest) :=
    means.readString .none
  rw [quoted_append] at read
  rw [Json.readOptional, quoted_append, skipBlanks_before blanks (by decide)]
  exact bind_of_ok read _

end StatusPage.Json
