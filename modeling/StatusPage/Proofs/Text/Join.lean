import Mathlib

namespace StatusPage

theorem intercalate_cons {separator first : List Char} {rest : List (List Char)} :
    separator.intercalate (first :: rest) =
      first ++ rest.flatMap fun next => separator ++ next := by
  induction rest generalizing first with
  | nil => rw [List.intercalate_singleton, List.flatMap_nil, List.append_nil]
  | cons next rest ih =>
    rw [List.intercalate_cons_cons, ih, List.flatMap_cons]
    simp only [List.append_assoc]

theorem mem_of_mem_intercalate {separator : List Char} {pieces : List (List Char)} {c : Char}
    (member : c ∈ separator.intercalate pieces) : c ∈ separator ∨ c ∈ pieces.flatten := by
  cases pieces with
  | nil => exact absurd member List.not_mem_nil
  | cons first rest =>
    simp only [intercalate_cons, List.mem_append, List.mem_flatMap, List.flatten_cons,
      List.mem_flatten] at member ⊢
    rcases member with inside | ⟨next, listed, same | inside⟩
    · exact .inr (.inl inside)
    · exact .inl same
    · exact .inr (.inr ⟨next, listed, inside⟩)

section Separated

variable {separator : Char} {pieces : List (List Char)}

theorem filter_intercalate (absent : separator ∉ pieces.flatten) :
    ([separator].intercalate pieces).filter (· ≠ separator) = pieces.flatten := by
  have kept : ∀ piece ∈ pieces, piece.filter (· ≠ separator) = piece := by
    intro piece member
    rw [List.filter_eq_self]
    intro c inside
    have other : c ≠ separator := fun same =>
      absent (same ▸ List.mem_flatten_of_mem member inside)
    simpa using other
  cases pieces with
  | nil => rfl
  | cons first rest =>
    have dropped : [separator].filter (· ≠ separator) = [] := by simp
    have others : rest.flatMap (fun piece => piece.filter (· ≠ separator)) = rest.flatten :=
      List.flatten_eq_flatMap ▸ List.flatMap_congr fun piece member => kept piece (by simp [member])
    simp only [intercalate_cons, List.filter_append, List.filter_flatMap, dropped,
      List.nil_append, kept first (by simp), others, List.flatten_cons]

theorem getLast?_intercalate (written : ∀ piece ∈ pieces, piece ≠ []) :
    ([separator].intercalate pieces).getLast? = pieces.flatten.getLast? := by
  induction pieces with
  | nil => rfl
  | cons first rest ih =>
    cases rest with
    | nil => simp
    | cons next rest =>
      have behind := ih fun piece member => written piece (List.mem_cons_of_mem _ member)
      have some : (next :: rest).flatten ≠ [] := by
        rw [List.flatten_cons]
        exact List.append_ne_nil_of_left_ne_nil (written next (by simp)) _
      obtain ⟨last, same⟩ := Option.isSome_iff_exists.mp (List.getLast?_isSome.mpr some)
      rw [same] at behind
      show _ = (first ++ (next :: rest).flatten).getLast?
      rw [List.intercalate_cons_cons, List.append_assoc, List.getLast?_append,
        List.getLast?_append, behind, List.getLast?_append, same]
      rfl

theorem intercalate_append_nil (separator : Char) (pieces : List (List Char)) :
    [separator].intercalate (pieces ++ [[]]) = pieces.flatMap (· ++ [separator]) := by
  induction pieces with
  | nil => rfl
  | cons piece pieces ih =>
    rw [List.flatMap_cons, ← ih, List.cons_append]
    cases pieces with
    | nil => simp
    | cons next pieces => rw [List.cons_append, List.intercalate_cons_cons]

end Separated

end StatusPage
