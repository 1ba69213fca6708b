import Mathlib
import StatusPage.Locale.Tag
import StatusPage.Proofs.Text.Blank

namespace StatusPage.Locale

open Text (isBlank trim)

def IsMark (c : Char) : Prop := c = '.' ∨ c = '@'

def IsHyphen (c : Char) : Prop := c = '-' ∨ c = '_'

/-- The part of a name that counts ends before the first mark and has no blanks around it. -/
inductive HasBase : List Char → List Char → Prop
  | intro {before base behind suffix : List Char}
      (blankBefore : ∀ c ∈ before, isBlank c) (blankBehind : ∀ c ∈ behind, isBlank c)
      (head : ∀ c ∈ base.head?, ¬ isBlank c) (last : ∀ c ∈ base.getLast?, ¬ isBlank c)
      (unmarked : ∀ c ∈ base, ¬ IsMark c) (marked : ∀ c ∈ suffix.head?, IsMark c) :
      HasBase (before ++ base ++ behind ++ suffix) base

inductive HasSubtags : List Char → List (List Char) → Prop
  | last {subtag : List Char} (plain : ∀ c ∈ subtag, ¬ IsHyphen c) : HasSubtags subtag [subtag]
  | next {subtag text : List Char} {subtags : List (List Char)} {c : Char}
      (plain : ∀ c ∈ subtag, ¬ IsHyphen c) (hyphen : IsHyphen c)
      (rest : HasSubtags text subtags) : HasSubtags (subtag ++ c :: text) (subtag :: subtags)

def bytes (subtag : List Char) : ℕ := (String.ofList subtag).utf8ByteSize

def IsRegion (subtags : List (List Char)) (region : List Char) : Prop :=
  ∃ before behind, subtags = before ++ region :: behind ∧ bytes region = 2 ∧
    ∀ subtag ∈ before, bytes subtag ≠ 2

def IsSwiss (language : List Char) (subtags : List (List Char)) : Prop :=
  language = "de".toList ∧ ∃ region ∈ ["ch".toList, "li".toList], IsRegion subtags region

def languages : List (List Char × Locale) :=
  [("en".toList, .enUS), ("de".toList, .deDE), ("fr".toList, .frFR), ("ru".toList, .ruRU)]

/-- The locale that subtags in lower case stand for. -/
inductive Names : List (List Char) → Locale → Prop
  | posix {name : List Char} (listed : name ∈ ["c".toList, "posix".toList]) : Names [name] .enUS
  | language {language : List Char} {subtags : List (List Char)} {locale : Locale}
      (listed : (language, locale) ∈ languages) (other : ¬ IsSwiss language subtags) :
      Names (language :: subtags) locale
  | swiss {language : List Char} {subtags : List (List Char)}
      (swiss : IsSwiss language subtags) : Names (language :: subtags) .deCH

def Denotes (name : List Char) (locale : Locale) : Prop :=
  ∃ base subtags, HasBase name base ∧ HasSubtags base subtags ∧
    Names (subtags.map (List.map Char.toLower)) locale

def fold (c : Char) : Char := if c = '_' then '-' else c.toLower

def isUnmarked (c : Char) : Bool := c ≠ '.' && c ≠ '@'

theorem normalize_def (name : List Char) :
    normalize name = (trim (name.takeWhile isUnmarked)).map fold := rfl

theorem toLower_cases (c : Char) : c.toLower = c ∨ c.isUpper ∧ c.toLower.isLower := by
  by_cases upper : c.isUpper
  · exact .inr ⟨upper, by simp [Char.isAlpha, upper]⟩
  · exact .inl (Char.toLower_eq_of_not_isUpper upper)

theorem not_isBlank_of_isAlpha {c : Char} (letter : c.isUpper ∨ c.isLower) : ¬ isBlank c := by
  simp only [Char.isUpper, Char.isLower, Bool.and_eq_true, decide_eq_true_eq, ge_iff_le,
    UInt32.le_iff_toNat_le, Char.reduceVal, UInt32.reduceToNat, Char.toNat_val] at letter
  simp only [isBlank, Bool.or_eq_true, Bool.and_eq_true, decide_eq_true_eq]
  omega

theorem isBlank_fold (c : Char) : isBlank (fold c) = isBlank c := by
  rw [fold]
  split
  next underscore => rw [underscore]; decide
  next =>
    rcases toLower_cases c with same | ⟨upper, lower⟩
    · rw [same]
    · rw [Bool.eq_iff_iff]
      exact iff_of_false (not_isBlank_of_isAlpha (.inr lower)) (not_isBlank_of_isAlpha (.inl upper))

theorem fold_eq_iff {c d : Char} (letter : ¬ d.isUpper ∧ ¬ d.isLower) (other : d ≠ '-' ∧ d ≠ '_') :
    fold c = d ↔ c = d := by
  rw [fold]
  split
  next underscore =>
    rw [underscore]
    exact iff_of_false other.1.symm other.2.symm
  next =>
    rcases toLower_cases c with same | ⟨upper, lower⟩
    · rw [same]
    · exact iff_of_false (fun same => letter.2 (same ▸ lower)) (fun same => letter.1 (same ▸ upper))

theorem fold_eq_hyphen_iff (c : Char) : fold c = '-' ↔ IsHyphen c := by
  rw [fold, IsHyphen]
  split
  next underscore => simp [underscore]
  next other =>
    rcases toLower_cases c with same | ⟨upper, lower⟩
    · simp [same, other]
    · refine iff_of_false (fun same => ?_) (fun same => ?_)
      · rw [same] at lower
        exact absurd lower (by decide)
      · rcases same with rfl | rfl <;> exact absurd upper (by decide)

theorem fold_of_not_isHyphen {c : Char} (plain : ¬ IsHyphen c) : fold c = c.toLower :=
  if_neg fun underscore => plain (.inr underscore)

theorem isUnmarked_iff (c : Char) : isUnmarked c ↔ ¬ IsMark c := by
  simp [isUnmarked, IsMark]

theorem isUnmarked_fold (c : Char) : isUnmarked (fold c) = isUnmarked c := by
  have point := fold_eq_iff (c := c) (d := '.') (by decide) (by decide)
  have sign := fold_eq_iff (c := c) (d := '@') (by decide) (by decide)
  simp [isUnmarked, point, sign]

theorem not_isMark_of_isBlank {c : Char} (blank : isBlank c) : ¬ IsMark c := by
  rintro (rfl | rfl) <;> exact absurd blank (by decide)

theorem trim_map_fold (text : List Char) : trim (text.map fold) = (trim text).map fold := by
  have same : isBlank ∘ fold = isBlank := funext isBlank_fold
  simp only [trim, List.dropWhile_map, same, ← List.map_reverse]

theorem normalize_eq (name : List Char) :
    normalize name = trim ((name.map fold).takeWhile isUnmarked) := by
  have same : isUnmarked ∘ fold = isUnmarked := funext isUnmarked_fold
  rw [normalize_def, List.takeWhile_map, same, trim_map_fold]

theorem normalize_of_hasBase {name base : List Char} (has : HasBase name base) :
    normalize name = base.map fold := by
  obtain ⟨blankBefore, blankBehind, head, last, unmarked, marked⟩ := has
  rename_i before behind suffix
  have kept : ∀ c ∈ before ++ base ++ behind, isUnmarked c := by
    intro c member
    rw [isUnmarked_iff]
    simp only [List.mem_append] at member
    rcases member with (blank | inside) | blank
    · exact not_isMark_of_isBlank (blankBefore c blank)
    · exact unmarked c inside
    · exact not_isMark_of_isBlank (blankBehind c blank)
  have dropped : suffix.takeWhile isUnmarked = [] := by
    cases suffix with
    | nil => rfl
    | cons c suffix =>
      apply List.takeWhile_cons_of_neg
      rw [isUnmarked_iff, not_not]
      exact marked c rfl
  rw [normalize_def, List.takeWhile_append_of_pos kept, dropped, List.append_nil,
    Text.trim_of_blanks head last blankBefore blankBehind]

theorem exists_hasBase (name : List Char) : ∃ base, HasBase name base := by
  let front := name.takeWhile isUnmarked
  obtain ⟨before, behind, parts, blankBefore, blankBehind, head, last⟩ := Text.exists_trim front
  have whole : before ++ trim front ++ behind ++ name.dropWhile isUnmarked = name := by
    rw [← parts]
    exact List.takeWhile_append_dropWhile
  have unmarked : ∀ c ∈ trim front, ¬ IsMark c := by
    intro c member
    have inside : c ∈ front := by
      rw [parts]
      simp [member]
    exact (isUnmarked_iff c).mp (List.mem_takeWhile_imp inside)
  have marked : ∀ c ∈ (name.dropWhile isUnmarked).head?, IsMark c := by
    intro c first
    by_contra plain
    exact Text.not_of_head?_dropWhile isUnmarked name c first ((isUnmarked_iff c).mpr plain)
  exact ⟨trim front, whole ▸ .intro blankBefore blankBehind head last unmarked marked⟩

theorem exists_hasSubtags (text : List Char) : ∃ subtags, HasSubtags text subtags := by
  induction text with
  | nil => exact ⟨[[]], .last fun _ member => absurd member List.not_mem_nil⟩
  | cons c text ih =>
    obtain ⟨subtags, has⟩ := ih
    by_cases hyphen : IsHyphen c
    · exact ⟨[] :: subtags, .next (fun _ member => absurd member List.not_mem_nil) hyphen has⟩
    · cases has with
      | last plain => exact ⟨_, .last (List.forall_mem_cons.mpr ⟨hyphen, plain⟩)⟩
      | next plain mark rest =>
        exact ⟨_, .next (List.forall_mem_cons.mpr ⟨hyphen, plain⟩) mark rest⟩

theorem map_fold_of_plain {subtag : List Char} (plain : ∀ c ∈ subtag, ¬ IsHyphen c) :
    subtag.map fold = subtag.map Char.toLower :=
  List.map_congr_left fun c member => fold_of_not_isHyphen (plain c member)

theorem splitOn_of_plain {subtag : List Char} (plain : ∀ c ∈ subtag, ¬ IsHyphen c) :
    (subtag.map fold).splitOn '-' = [subtag.map Char.toLower] := by
  rw [List.splitOn_eq_splitOnP, List.splitOnP_eq_singleton, map_fold_of_plain plain]
  intro c member
  obtain ⟨d, inside, rfl⟩ := List.mem_map.mp member
  rw [beq_eq_false_iff_ne, ne_eq, fold_eq_hyphen_iff]
  exact plain d inside

theorem splitOn_of_hasSubtags {text : List Char} {subtags : List (List Char)}
    (has : HasSubtags text subtags) :
    (text.map fold).splitOn '-' = subtags.map (List.map Char.toLower) := by
  induction has with
  | last plain => exact splitOn_of_plain plain
  | next plain hyphen rest ih =>
    have alone := splitOn_of_plain plain
    rw [List.splitOn_eq_splitOnP] at ih alone ⊢
    rw [List.map_append, List.map_cons, (fold_eq_hyphen_iff _).mpr hyphen,
      List.splitOnP_append_cons (p := fun c => c == '-') _ _ rfl, alone, ih]
    rfl

theorem region?_eq_some_iff (subtags : List (List Char)) (region : List Char) :
    region? subtags = some region ↔ IsRegion subtags region := by
  rw [region?, List.find?_eq_some_iff_append]
  simp only [IsRegion, bytes, decide_eq_true_eq, Bool.not_eq_true', decide_eq_false_iff_not]
  constructor
  · rintro ⟨two, before, behind, same, others⟩
    exact ⟨before, behind, same, two, others⟩
  · rintro ⟨before, behind, same, two, others⟩
    exact ⟨two, before, behind, same, others⟩

theorem isSwiss_iff (language : List Char) (subtags : List (List Char)) :
    IsSwiss language subtags ↔ language = "de".toList ∧
      (region? subtags = some "ch".toList ∨ region? subtags = some "li".toList) := by
  simp only [IsSwiss, List.mem_cons, List.not_mem_nil, or_false, exists_eq_or_imp,
    exists_eq_left, region?_eq_some_iff]

theorem ofSubtags?_eq_some_iff (language : List Char) (subtags : List (List Char))
    (locale : Locale) : ofSubtags? language (region? subtags) = some locale ↔
      (language, locale) ∈ languages ∧ ¬ IsSwiss language subtags ∨
        IsSwiss language subtags ∧ locale = .deCH := by
  simp only [languages, List.mem_cons, Prod.mk.injEq, List.not_mem_nil, or_false]
  rw [ofSubtags?, isSwiss_iff]
  grind

theorem eq_of_splitOn_eq_singleton {text subtag : List Char}
    (split : text.splitOn '-' = [subtag]) : text = subtag := by
  have joined : ['-'].intercalate (text.splitOn '-') = text := List.intercalate_splitOn '-'
  rw [split, List.intercalate_singleton] at joined
  exact joined.symm

theorem ofName?_eq_some_iff {name base : List Char} {subtags : List (List Char)} {locale : Locale}
    (hasBase : HasBase name base) (hasSubtags : HasSubtags base subtags) :
    ofName? name = some locale ↔ Names (subtags.map (List.map Char.toLower)) locale := by
  have split := splitOn_of_hasSubtags hasSubtags
  rw [← normalize_of_hasBase hasBase] at split
  rw [ofName?, ← split]
  generalize normalize name = tag
  by_cases posix : tag = "c".toList ∨ tag = "posix".toList
  · have alone : tag.splitOn '-' = [tag] := by
      rcases posix with rfl | rfl <;> decide
    rw [if_pos posix, alone]
    constructor
    · intro same
      cases same
      exact .posix (by simpa using posix)
    · intro names
      cases names with
      | posix => rfl
      | language listed => rcases posix with rfl | rfl <;> simp [languages] at listed
      | swiss swiss => rcases posix with rfl | rfl <;> exact absurd swiss.1 (by decide)
  · obtain ⟨language, subtags, pieces⟩ := List.exists_cons_of_ne_nil (List.splitOn_ne_nil '-' tag)
    rw [if_neg posix, pieces]
    dsimp only
    rw [ofSubtags?_eq_some_iff]
    constructor
    · rintro (⟨listed, other⟩ | ⟨swiss, rfl⟩)
      · exact .language listed other
      · exact .swiss swiss
    · intro names
      cases names with
      | posix listed =>
        rw [← eq_of_splitOn_eq_singleton pieces] at listed
        exact absurd (by simpa using listed) posix
      | language listed other => exact .inl ⟨listed, other⟩
      | swiss swiss => exact .inr ⟨swiss, rfl⟩

theorem ofName?_eq_some_iff_denotes (name : List Char) (locale : Locale) :
    ofName? name = some locale ↔ Denotes name locale := by
  obtain ⟨base, hasBase⟩ := exists_hasBase name
  obtain ⟨subtags, hasSubtags⟩ := exists_hasSubtags base
  constructor
  · intro named
    exact ⟨base, subtags, hasBase, hasSubtags, (ofName?_eq_some_iff hasBase hasSubtags).mp named⟩
  · rintro ⟨base, subtags, hasBase, hasSubtags, names⟩
    exact (ofName?_eq_some_iff hasBase hasSubtags).mpr names

/-- One of the changes that leave a name the same. -/
inductive Respelled : List Char → List Char → Prop
  | letters {name other : List Char}
      (cases : List.Forall₂ (fun c d => d = c ∨ d = c.toUpper ∨ d = c.toLower) name other) :
      Respelled name other
  | hyphens {name other : List Char}
      (exchanged : List.Forall₂ (fun c d => d = c ∨ IsHyphen c ∧ IsHyphen d) name other) :
      Respelled name other
  | blanks {name before behind : List Char} (blankBefore : ∀ c ∈ before, isBlank c)
      (blankBehind : ∀ c ∈ behind, isBlank c) : Respelled name (before ++ name ++ behind)
  | suffix {name suffix : List Char} {c : Char} (mark : IsMark c) :
      Respelled name (name ++ c :: suffix)

theorem fold_toLower (c : Char) : fold c.toLower = fold c := by
  rcases toLower_cases c with same | ⟨upper, lower⟩
  · rw [same]
  · have plain : c ≠ '_' := by
      rintro rfl
      exact absurd upper (by decide)
    have lowered : c.toLower ≠ '_' := by
      intro same
      rw [same] at lower
      exact absurd lower (by decide)
    rw [fold, fold, if_neg plain, if_neg lowered, Char.toLower_toLower_eq_toLower]

theorem fold_of_case {c d : Char} (same : d = c ∨ d = c.toUpper ∨ d = c.toLower) :
    fold d = fold c := by
  rcases same with rfl | rfl | rfl
  · rfl
  · rw [← fold_toLower, Char.toLower_toUpper_eq_toLower, fold_toLower]
  · exact fold_toLower c

theorem fold_of_hyphen {c d : Char} (same : d = c ∨ IsHyphen c ∧ IsHyphen d) : fold d = fold c := by
  rcases same with rfl | ⟨hyphen, other⟩
  · rfl
  · rw [(fold_eq_hyphen_iff c).mpr hyphen, (fold_eq_hyphen_iff d).mpr other]

theorem normalize_of_forall₂ {R : Char → Char → Prop} (same : ∀ c d, R c d → fold d = fold c)
    {name other : List Char} (each : List.Forall₂ R name other) :
    normalize other = normalize name := by
  have folded : other.map fold = name.map fold := by
    induction each with
    | nil => rfl
    | cons first rest ih => rw [List.map_cons, List.map_cons, same _ _ first, ih]
  rw [normalize_eq, normalize_eq, folded]

theorem HasBase.blanks {name base before behind : List Char} (has : HasBase name base)
    (blankBefore : ∀ c ∈ before, isBlank c) (blankBehind : ∀ c ∈ behind, isBlank c) :
    HasBase (before ++ name ++ behind) base := by
  obtain ⟨innerBefore, innerBehind, head, last, unmarked, marked⟩ := has
  rename_i first second suffix
  have allBefore : ∀ c ∈ before ++ first, isBlank c :=
    List.forall_mem_append.mpr ⟨blankBefore, innerBefore⟩
  cases suffix with
  | nil =>
    have allBehind : ∀ c ∈ second ++ behind, isBlank c :=
      List.forall_mem_append.mpr ⟨innerBehind, blankBehind⟩
    have has := HasBase.intro allBefore allBehind head last unmarked marked
    simpa only [List.append_assoc, List.append_nil] using has
  | cons c suffix =>
    have stillMarked : ∀ d ∈ (c :: suffix ++ behind).head?, IsMark d := marked
    have has := HasBase.intro allBefore innerBehind head last unmarked stillMarked
    simpa only [List.append_assoc] using has

theorem HasBase.suffix {name base suffix : List Char} {c : Char} (has : HasBase name base)
    (mark : IsMark c) : HasBase (name ++ c :: suffix) base := by
  obtain ⟨blankBefore, blankBehind, head, last, unmarked, marked⟩ := has
  rename_i inner
  have stillMarked : ∀ d ∈ (inner ++ c :: suffix).head?, IsMark d := by
    cases inner with
    | nil =>
      rintro d ⟨⟩
      exact mark
    | cons d inner => exact marked
  have has := HasBase.intro blankBefore blankBehind head last unmarked stillMarked
  simpa only [List.append_assoc] using has

theorem Respelled.normalize_eq {name other : List Char} (respelled : Respelled name other) :
    normalize other = normalize name := by
  obtain ⟨base, has⟩ := exists_hasBase name
  cases respelled with
  | letters cases => exact normalize_of_forall₂ (fun _ _ => fold_of_case) cases
  | hyphens exchanged => exact normalize_of_forall₂ (fun _ _ => fold_of_hyphen) exchanged
  | blanks blankBefore blankBehind =>
    rw [normalize_of_hasBase has, normalize_of_hasBase (has.blanks blankBefore blankBehind)]
  | suffix mark => rw [normalize_of_hasBase has, normalize_of_hasBase (has.suffix mark)]

theorem ofName_ok_iff (name : String) (locale : Locale) :
    ofName name = .ok locale ↔ Denotes name.toList locale := by
  rw [← ofName?_eq_some_iff_denotes, ofName]
  cases ofName? name.toList <;> simp

theorem ofName_error_iff (name : String) (reason : FormatError) :
    ofName name = .error reason ↔
      reason = .unknownLocale name ∧ ∀ locale, ¬ Denotes name.toList locale := by
  simp only [← ofName?_eq_some_iff_denotes, ← Option.eq_none_iff_forall_ne_some]
  rw [ofName]
  cases ofName? name.toList <;> simp [eq_comm]

theorem ofName?_of_respellings {name other : List Char}
    (respelled : Relation.ReflTransGen Respelled name other) : ofName? other = ofName? name := by
  induction respelled with
  | refl => rfl
  | tail _ last ih => rw [← ih, ofName?, ofName?, last.normalize_eq]

/-- A name is read for what it stands for, and refused as it is when it stands for no locale. How it
    is spelled makes no difference. -/
theorem ofName_denotes (name : String) :
    (∀ locale, ofName name = .ok locale ↔ Denotes name.toList locale) ∧
    (∀ reason, ofName name = .error reason ↔
      reason = .unknownLocale name ∧ ∀ locale, ¬ Denotes name.toList locale) ∧
    (∀ other : String, Relation.ReflTransGen Respelled name.toList other.toList →
      ∀ locale, ofName other = .ok locale ↔ ofName name = .ok locale) := by
  refine ⟨ofName_ok_iff name, ofName_error_iff name, ?_⟩
  intro other respelled locale
  rw [ofName_ok_iff, ofName_ok_iff, ← ofName?_eq_some_iff_denotes, ← ofName?_eq_some_iff_denotes,
    ofName?_of_respellings respelled]

theorem ofName_denotes_swiss :
    Relation.ReflTransGen Respelled "de_ch".toList " DE-Ch.UTF-8 ".toList ∧
    ofName "de_ch" = .ok .deCH ∧ ofName " DE-Ch.UTF-8 " = .ok .deCH := by
  have hyphens : Respelled "de_ch".toList "de-ch".toList := .hyphens (by simp [IsHyphen])
  have letters : Respelled "de-ch".toList "DE-Ch".toList := .letters (by simp)
  have suffix : Respelled "DE-Ch".toList ("DE-Ch".toList ++ '.' :: "UTF-8".toList) :=
    .suffix (.inl rfl)
  have blanks : Respelled ("DE-Ch".toList ++ '.' :: "UTF-8".toList)
      ([' '] ++ ("DE-Ch".toList ++ '.' :: "UTF-8".toList) ++ [' ']) :=
    .blanks Text.blank_space Text.blank_space
  have text : " DE-Ch.UTF-8 ".toList =
      [' '] ++ ("DE-Ch".toList ++ '.' :: "UTF-8".toList) ++ [' '] := by decide
  have respelled : Relation.ReflTransGen Respelled "de_ch".toList " DE-Ch.UTF-8 ".toList := by
    rw [text]
    exact (((Relation.ReflTransGen.single hyphens).tail letters).tail suffix).tail blanks
  have swiss : ofName "de_ch" = .ok .deCH := by decide +kernel
  exact ⟨respelled, swiss, ((ofName_denotes "de_ch").2.2 _ respelled .deCH).mpr swiss⟩

example : ofName "de-1996-é-CH" = .ok .deDE := by decide +kernel

end StatusPage.Locale
