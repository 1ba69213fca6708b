import Mathlib
import StatusPage.Report.Output

namespace StatusPage

namespace Sink

theorem write_append {sink : Sink} {bytes more : List UInt8} (fits : bytes.length ≤ sink.room) :
    sink.write (bytes ++ more) = (sink.write bytes).2.write more := by
  have room : sink.room = bytes.length + (sink.write bytes).2.room := by
    simp only [write, Sink.room, List.length_append, List.length_take] at fits ⊢
    omega
  have whole : bytes.take sink.room = bytes := List.take_of_length_le fits
  have rest : (bytes ++ more).take sink.room =
      bytes ++ more.take (sink.write bytes).2.room := by
    rw [room, List.take_length_add_append]
  have written : (sink.write bytes).2.written = sink.written ++ bytes := by
    simp only [write, whole]
  have enough : (bytes ++ more).length ≤ sink.room ↔
      more.length ≤ (sink.write bytes).2.room := by
    rw [List.length_append]
    omega
  simp only [write] at written rest enough ⊢
  simp only [written, rest, enough, List.append_assoc]

theorem write_append_of_full {sink : Sink} {bytes : List UInt8} (full : sink.room < bytes.length)
    (more : List UInt8) : sink.write (bytes ++ more) = sink.write bytes := by
  have rest : (bytes ++ more).take sink.room = bytes.take sink.room :=
    List.take_append_of_le_length (Nat.le_of_lt full)
  have short : ¬ (bytes ++ more).length ≤ sink.room := by
    rw [List.length_append]
    omega
  simp only [write, rest, if_neg short, if_neg (Nat.not_le.mpr full)]

/-- Pieces written up to the first failure come to one write of all of them together, wherever the
    text is cut. -/
theorem writePieces_eq_write (sink : Sink) (pieces : List String) :
    sink.writePieces pieces = sink.write (Text.encode (String.join pieces)) := by
  induction pieces generalizing sink with
  | nil => simp [writePieces, write, Text.encode]
  | cons piece pieces ih =>
    rw [String.join_cons, Text.encode_append, writePieces]
    by_cases fits : (Text.encode piece).length ≤ sink.room
    · rw [write_append fits, ← ih]
      simp only [write, if_pos fits]
    · rw [write_append_of_full (Nat.not_le.mp fits)]
      simp only [write, if_neg fits]

def answer (limit : Nat) (offered : List UInt8) : Except IoError Unit × Sink :=
  (if offered.length ≤ limit then .ok () else .error .fullBuffer, ⟨limit, offered.take limit⟩)

theorem write_offered (limit : Nat) (offered : List UInt8) {bytes : List UInt8}
    (some : bytes ≠ []) :
    (Sink.mk limit (offered.take limit)).write bytes = answer limit (offered ++ bytes) := by
  have nonempty := List.length_pos_iff.mpr some
  have taken : offered.take limit ++ bytes.take (limit - (offered.take limit).length) =
      (offered ++ bytes).take limit := by
    rw [List.take_append, List.length_take]
    congr 2
    omega
  have enough : bytes.length ≤ limit - (offered.take limit).length ↔
      (offered ++ bytes).length ≤ limit := by
    rw [List.length_take, List.length_append]
    omega
  simp only [write, answer, Sink.room, taken, enough]

end Sink

namespace Report

theorem join_rowPieces (locale : Locale) (counter : String × Binary64) :
    String.join (rowPieces locale counter) = row locale counter ++ "\n" := by
  have spaces (n : Nat) : (List.replicate n " ").flatMap String.toList = List.replicate n ' ' := by
    induction n with
    | zero => rfl
    | succ n ih => simp [List.replicate_succ, ih]
  apply String.toList_injective
  simp [rowPieces, row, toList_heading, spaces]

theorem join_pieces (report : Report) : String.join report.pieces = Output.join report.lines := by
  have rows : String.join (report.counters.flatMap (rowPieces report.locale)) =
      String.join ((report.counters.map (row report.locale)).map (· ++ "\n")) := by
    induction report.counters with
    | nil => rfl
    | cons counter counters ih =>
      rw [List.flatMap_cons, String.join_append, join_rowPieces, ih, List.map_cons, List.map_cons,
        String.join_cons]
  simp only [pieces, lines, Output.join, List.map_cons, String.join_cons, rows,
    String.append_assoc]
  rfl

end Report

namespace Output

theorem join_pieces (output : Output) : String.join output.pieces = output.text := by
  cases output with
  | uptime seconds style => simp [pieces, text, lines, join]
  | number value locale => simp [pieces, text, lines, join]
  | report block => exact block.join_pieces

theorem text_ne_empty (output : Output) : output.text ≠ "" := by
  intro empty
  cases output <;> simp [text, lines, join, Report.lines] at empty

theorem encode_text_ne_nil (output : Output) : Text.encode output.text ≠ [] := by
  intro empty
  have same := Text.decode?_encode output.text
  rw [empty, ← show Text.encode "" = [] from rfl, Text.decode?_encode] at same
  exact output.text_ne_empty (Option.some.inj same).symm

def bytes (outputs : List Output) : List UInt8 := Text.encode (String.join (outputs.map text))

theorem bytes_append_singleton (outputs : List Output) (output : Output) :
    bytes (outputs ++ [output]) = bytes outputs ++ Text.encode output.text := by
  simp [bytes, Text.encode_append]

theorem writeAll_offered (limit : Nat) (front outputs : List Output) :
    writeAll ⟨limit, (bytes front).take limit⟩ outputs =
      (List.range outputs.length).map fun i =>
        Sink.answer limit (bytes (front ++ outputs.take (i + 1))) := by
  induction outputs generalizing front with
  | nil => rfl
  | cons output outputs ih =>
    have written := Sink.write_offered limit (bytes front) output.encode_text_ne_nil
    rw [← bytes_append_singleton, ← join_pieces, ← Sink.writePieces_eq_write] at written
    have next : (Sink.answer limit (bytes (front ++ [output]))).2 =
        ⟨limit, (bytes (front ++ [output])).take limit⟩ := rfl
    rw [writeAll, written, next, ih (front ++ [output]), List.length_cons, List.range_succ_eq_map]
    simp

/-- A buffer keeps the first bytes of everything that is written into it, up to its limit. An output
    fails when all outputs up to it come to more than that, wherever the cut falls. -/
theorem writeAll_bounded (limit : Nat) (outputs : List Output) :
    writeAll (.empty limit) outputs = (List.range outputs.length).map (fun i =>
      (if (bytes (outputs.take (i + 1))).length ≤ limit then .ok () else .error .fullBuffer,
        ⟨limit, (bytes (outputs.take (i + 1))).take limit⟩)) ∧
    (writeAll (.empty limit) outputs).map (fun answer => answer.2.written.length) =
      (List.range outputs.length).map (fun i => min limit (bytes (outputs.take (i + 1))).length) ∧
    ((writeAll (.empty limit) outputs).getLastD (.ok (), .empty limit)).2.written =
      (bytes outputs).take (min limit (bytes outputs).length) := by
  have answers := writeAll_offered limit [] outputs
  have fresh : Sink.mk limit ((bytes []).take limit) = .empty limit := by
    simp [bytes, Text.encode, Sink.empty]
  simp only [fresh, List.nil_append] at answers
  refine ⟨answers, ?_, ?_⟩
  · rw [answers, List.map_map]
    simp [Sink.answer, Function.comp_def]
  · rw [answers, List.getLastD_eq_getLast?, List.getLast?_map, List.getLast?_range]
    cases outputs with
    | nil => simp [bytes, Text.encode, Sink.empty]
    | cons output outputs => simp [Sink.answer]

end Output

end StatusPage
