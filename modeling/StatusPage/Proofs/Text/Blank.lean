import StatusPage.Text.Blank

namespace StatusPage.Text

theorem not_isDigit_of_isBlank {c : Char} (blank : isBlank c) : ¬ c.isDigit := by
  intro digit
  have bounds := Char.isDigit_iff_toNat.mp digit
  simp only [isBlank, Bool.or_eq_true, Bool.and_eq_true, decide_eq_true_eq] at blank
  simp only [Char.reduceToNat] at bounds
  omega

theorem blank_nil : ∀ c ∈ ([] : List Char), isBlank c := by
  intro c member
  exact absurd member List.not_mem_nil

theorem blank_space : ∀ c ∈ [' '], isBlank c := by
  intro c member
  rw [List.mem_singleton.mp member]
  decide

theorem toLower_of_not_upper {c : Char} (upper : ¬ ('A'.toNat ≤ c.toNat ∧ c.toNat ≤ 'Z'.toNat)) :
    c.toLower = c := by
  apply dif_neg
  intro bounds
  exact upper ⟨UInt32.le_iff_toNat_le.mp bounds.1, UInt32.le_iff_toNat_le.mp bounds.2⟩

theorem toLower_of_isDigit {c : Char} (digit : c.isDigit) : c.toLower = c := by
  apply toLower_of_not_upper
  have bounds := Char.isDigit_iff_toNat.mp digit
  simp only [Char.reduceToNat] at bounds ⊢
  omega

theorem toLower_of_isBlank {c : Char} (blank : isBlank c) : c.toLower = c := by
  apply toLower_of_not_upper
  simp only [isBlank, Bool.or_eq_true, Bool.and_eq_true, decide_eq_true_eq] at blank
  simp only [Char.reduceToNat]
  omega

theorem dropWhile_blanks_append {blanks body : List Char} (blank : ∀ c ∈ blanks, isBlank c)
    (head : ∀ c ∈ body.head?, ¬ isBlank c) : (blanks ++ body).dropWhile isBlank = body := by
  rw [List.dropWhile_append_of_pos blank]
  cases body with
  | nil => rfl
  | cons c body => exact List.dropWhile_cons_of_neg (head c rfl)

theorem trim_of_blanks {before body behind : List Char} (head : ∀ c ∈ body.head?, ¬ isBlank c)
    (last : ∀ c ∈ body.getLast?, ¬ isBlank c) (blankBefore : ∀ c ∈ before, isBlank c)
    (blankBehind : ∀ c ∈ behind, isBlank c) : trim (before ++ body ++ behind) = body := by
  by_cases empty : body = []
  · subst empty
    have all : ∀ c ∈ before ++ behind, isBlank c := by
      intro c member
      exact (List.mem_append.mp member).elim (blankBefore c) (blankBehind c)
    have dropped : (before ++ behind ++ []).dropWhile isBlank = [] :=
      dropWhile_blanks_append all (by simp)
    simp only [List.append_nil] at dropped ⊢
    rw [trim, dropped]
    rfl
  · obtain ⟨c, rest, rfl⟩ := List.exists_cons_of_ne_nil empty
    have headed : ∀ d ∈ (c :: rest ++ behind).head?, ¬ isBlank d := head
    have reversed : ∀ c ∈ behind.reverse, isBlank c := by simpa using blankBehind
    have ended : ∀ d ∈ (c :: rest).reverse.head?, ¬ isBlank d := by rwa [List.head?_reverse]
    rw [trim, List.append_assoc, dropWhile_blanks_append blankBefore headed, List.reverse_append,
      dropWhile_blanks_append reversed ended, List.reverse_reverse]

theorem isBlank_of_mem_takeWhile {text : List Char} {c : Char}
    (member : c ∈ text.takeWhile isBlank) : isBlank c :=
  List.all_eq_true.mp List.all_takeWhile c member

theorem not_of_head?_dropWhile (p : Char → Bool) (text : List Char) :
    ∀ c ∈ (text.dropWhile p).head?, ¬ p c := by
  intro c head
  have first := List.head?_dropWhile_not p text
  rw [Option.mem_def.mp head] at first
  simpa using first

theorem exists_trim (text : List Char) :
    ∃ before behind, text = before ++ trim text ++ behind ∧
      (∀ c ∈ before, isBlank c) ∧ (∀ c ∈ behind, isBlank c) ∧
      (∀ c ∈ (trim text).head?, ¬ isBlank c) ∧ (∀ c ∈ (trim text).getLast?, ¬ isBlank c) := by
  let inner := text.dropWhile isBlank
  let behind := (inner.reverse.takeWhile isBlank).reverse
  have parts : inner = trim text ++ behind := by
    rw [trim, ← List.reverse_append, List.takeWhile_append_dropWhile, List.reverse_reverse]
  refine ⟨text.takeWhile isBlank, behind, ?_, fun _ => isBlank_of_mem_takeWhile, ?_, ?_, ?_⟩
  · rw [List.append_assoc, ← parts, List.takeWhile_append_dropWhile]
  · intro c member
    exact isBlank_of_mem_takeWhile (List.mem_reverse.mp member)
  · intro c head
    have first := not_of_head?_dropWhile isBlank text
    rw [show text.dropWhile isBlank = trim text ++ behind from parts, List.head?_append] at first
    exact first c (by simp [Option.mem_def.mp head])
  · rw [trim, List.getLast?_reverse]
    exact not_of_head?_dropWhile isBlank _

/-- A text and what is left of it without the blanks around it. -/
inductive Trims : List Char → List Char → Prop
  | intro {before body behind : List Char} (blankBefore : ∀ c ∈ before, isBlank c)
      (blankBehind : ∀ c ∈ behind, isBlank c) (head : ∀ c ∈ body.head?, ¬ isBlank c)
      (last : ∀ c ∈ body.getLast?, ¬ isBlank c) : Trims (before ++ body ++ behind) body

theorem trims_trim (text : List Char) : Trims text (trim text) := by
  obtain ⟨before, behind, parts, blankBefore, blankBehind, head, last⟩ := exists_trim text
  have trims := Trims.intro blankBefore blankBehind head last
  rwa [← parts] at trims

theorem trim_eq_iff {text body : List Char} : trim text = body ↔ Trims text body := by
  constructor
  · rintro rfl
    exact trims_trim text
  · rintro ⟨blankBefore, blankBehind, head, last⟩
    exact trim_of_blanks head last blankBefore blankBehind

namespace Trims

variable {text body before behind : List Char}

theorem blanks (trims : Trims text body) (blankBefore : ∀ c ∈ before, isBlank c)
    (blankBehind : ∀ c ∈ behind, isBlank c) : Trims (before ++ text ++ behind) body := by
  obtain ⟨blankFirst, blankLast, head, last⟩ := trims
  rename_i first rest
  have parts : before ++ (first ++ body ++ rest) ++ behind =
      (before ++ first) ++ body ++ (rest ++ behind) := by simp only [List.append_assoc]
  rw [parts]
  exact .intro (List.forall_mem_append.mpr ⟨blankBefore, blankFirst⟩)
    (List.forall_mem_append.mpr ⟨blankLast, blankBehind⟩) head last

theorem head (trims : Trims text body) : ∀ c ∈ body.head?, ¬ isBlank c := by
  obtain ⟨-, -, head, -⟩ := trims
  exact head

theorem last (trims : Trims text body) : ∀ c ∈ body.getLast?, ¬ isBlank c := by
  obtain ⟨-, -, -, last⟩ := trims
  exact last

theorem self (trims : Trims text body) : Trims body body := by
  have whole := Trims.intro blank_nil blank_nil trims.head trims.last
  rwa [List.nil_append, List.append_nil] at whole

theorem mem (trims : Trims text body) {c : Char} (inside : c ∈ body) : c ∈ text := by
  obtain ⟨-, -, -, -⟩ := trims
  exact List.mem_append_left _ (List.mem_append_right _ inside)

end Trims

theorem trim_eq_nil_iff {text : List Char} : trim text = [] ↔ ∀ c ∈ text, isBlank c := by
  constructor
  · intro empty
    generalize none : [] = body at empty
    obtain ⟨blankBefore, blankBehind, -, -⟩ := trim_eq_iff.mp empty
    rw [← none, List.append_nil]
    exact List.forall_mem_append.mpr ⟨blankBefore, blankBehind⟩
  · intro blank
    have trims : Trims (text ++ [] ++ []) [] := .intro blank blank_nil (by simp) (by simp)
    rw [List.append_nil, List.append_nil] at trims
    exact trim_eq_iff.mpr trims

end StatusPage.Text
