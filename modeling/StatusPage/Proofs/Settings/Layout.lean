import StatusPage.Proofs.Json.Passing
import StatusPage.Proofs.Json.Spelled
import StatusPage.Proofs.Settings.RoundTrip

namespace StatusPage.Settings

open Json

inductive Setting where
  | locale (name : Option String)
  | style (style : Uptime.Style)
  | timeout (text : String)

def Setting.field : Setting → Field
  | .locale _ => .locale
  | .style _ => .style
  | .timeout _ => .timeout

def put (settings : Settings) : Setting → Settings
  | .locale name => { settings with locale := name }
  | .style named => { settings with style := named }
  | .timeout text => { settings with confirmTimeout := text }

theorem put_comm {first second : Setting} (other : first.field ≠ second.field)
    (settings : Settings) : (settings.put first).put second = (settings.put second).put first := by
  cases first <;> cases second <;> first
    | rfl
    | exact absurd rfl other

/-- What is given of the settings, field by field. -/
structure Given where
  locale : Option (Option String)
  style : Option Uptime.Style
  timeout : Option String

namespace Given

def list (given : Given) : List Setting :=
  (given.locale.map .locale).toList ++
    ((given.style.map .style).toList ++ (given.timeout.map .timeout).toList)

def settings (given : Given) : Settings :=
  ⟨given.locale.getD default.locale, given.style.getD default.style,
    given.timeout.getD default.confirmTimeout⟩

theorem put_list (given : Given) : given.list.foldl put default = given.settings := by
  obtain ⟨_ | _, _ | _, _ | _⟩ := given <;> rfl

theorem nodup_fields (given : Given) : (given.list.map Setting.field).Nodup := by
  obtain ⟨_ | _, _ | _, _ | _⟩ := given <;> simp [list, Setting.field]

end Given

/-- The ways to write a setting: a style may also be the only key of an object. -/
inductive Denotes : Written .value → Setting → Prop
  | noLocale {listed} : Denotes (.word "null".toList listed) (.locale none)
  | locale {pieces : List Piece} {name : String} (means : Means pieces name.toList) :
      Denotes (.string pieces) (.locale (some name))
  | style {pieces : List Piece} {style : Uptime.Style} (means : Means pieces style.name.toList) :
      Denotes (.string pieces) (.style style)
  | keyedStyle {before between ahead behind : Blanks} {pieces : List Piece} {style : Uptime.Style}
      {listed} (means : Means pieces style.name.toList) :
      Denotes (.object (.lastMember (.member before pieces between
        (.element ahead (.word "null".toList listed) behind)))) (.style style)
  | timeout {pieces : List Piece} {text : String} (means : Means pieces text.toList) :
      Denotes (.string pieces) (.timeout text)

def Gives (entry : Entry) (setting : Setting) : Prop :=
  Means entry.name setting.field.name.toList ∧ Denotes entry.value setting

def Foreign (entry : Entry) : Prop :=
  ∃ name : String, Means entry.name name.toList ∧ ∀ field : Field, name ≠ field.name

variable {value : Written .value} {setting : Setting} {settings : Settings} {rest : List Char}

theorem readStyle_string {pieces : List Piece} {style : Uptime.Style}
    (means : Means pieces style.name.toList) (before : Blanks) :
    readStyle (before.text ++ (quoted pieces ++ rest)) = .ok (style, rest) := by
  rw [readStyle, quoted_append, skipBlanks_before before (by decide)]
  refine (bind_of_ok means.readText _).trans ?_
  simp [styleOfName_name, Bind.bind, Except.bind, Pure.pure, Except.pure]

theorem readStyle_keyed {pieces : List Piece} {style : Uptime.Style}
    (means : Means pieces style.name.toList) (before start between ahead behind : Blanks) :
    readStyle (before.text ++ '\x7b' :: (start.text ++ (quoted pieces ++ (between.text ++ ':' ::
      (ahead.text ++ ("null".toList ++ (behind.text ++ '\x7d' :: rest))))))) =
      .ok (style, rest) := by
  have named : styleOfName (String.ofList style.name.toList) = .ok style := by
    rw [String.ofList_toList, styleOfName_name]
  rw [readStyle, skipBlanks_before before (by decide)]
  refine (bind_of_ok (means.readName start) _).trans ?_
  refine (bind_of_ok named _).trans ?_
  refine (bind_of_ok (readMark_before between (by decide) _) _).trans ?_
  refine (bind_of_ok (readNull_before ahead _) _).trans ?_
  exact bind_of_ok (readMark_before behind (by decide) _) _

theorem Denotes.readField (denotes : Denotes value setting) (before : Blanks) :
    readField setting.field settings (before.text ++ (value.text ++ rest)) =
      .ok (settings.put setting, rest) := by
  cases denotes with
  | noLocale => exact bind_of_ok (readOptional_null_before before rest) _
  | @locale pieces name means =>
    have read : readOptional (before.text ++ (quoted pieces ++ rest)) = .ok (some name, rest) := by
      rw [means.readOptional before, String.ofList_toList]
    exact bind_of_ok read _
  | style means => exact bind_of_ok (readStyle_string means before) _
  | @keyedStyle start between ahead behind pieces style listed means =>
    have text : Written.text (.object (.lastMember (.member start pieces between
        (.element ahead (.word "null".toList listed) behind)))) ++ rest =
        '\x7b' :: (start.text ++ (quoted pieces ++ (between.text ++ ':' ::
          (ahead.text ++ ("null".toList ++ (behind.text ++ '\x7d' :: rest)))))) := by
      simp [Written.text]
    rw [text]
    exact bind_of_ok (readStyle_keyed means before start between ahead behind) _
  | @timeout pieces text means =>
    have read : readString (before.text ++ (quoted pieces ++ rest)) = .ok (text, rest) := by
      rw [means.readString before, String.ofList_toList]
    exact bind_of_ok read _

section Arrays

def lead (isFirst : Bool) : List Char := if isFirst then [] else [',']

theorem Denotes.head (denotes : Denotes value setting) :
    ∃ c behind, value.text = c :: behind ∧ isBlank c = false ∧ c ≠ ']' := by
  cases denotes <;> exact ⟨_, _, rfl, by decide, by decide⟩

theorem nextElement_value (denotes : Denotes value setting) (isFirst : Bool)
    (between before : Blanks) :
    nextElement isFirst (between.text ++ (lead isFirst ++ (before.text ++ (value.text ++ rest)))) =
      .ok (.value (value.text ++ rest)) := by
  obtain ⟨c, behind, text, black, noBracket⟩ := denotes.head
  rw [text, List.cons_append, nextElement, skipBlanks_blanks]
  cases isFirst with
  | true =>
    rw [lead, if_pos rfl, List.nil_append, skipBlanks_before before black]
    simp
  | false =>
    simp [lead, skipBlanks_cons, isBlank, skipBlanks_before before black, noBracket]

theorem readArray_value (denotes : Denotes value setting) (isFirst : Bool)
    (between before : Blanks) (fields : List Field) :
    readArray settings isFirst
        (between.text ++ (lead isFirst ++ (before.text ++ (value.text ++ rest))))
        (setting.field :: fields) = readArray (settings.put setting) false rest fields := by
  refine (bind_of_ok (nextElement_value denotes isFirst between before) _).trans ?_
  exact bind_of_ok (denotes.readField .none) _

theorem readArray_close (isFirst : Bool) (between : Blanks) (fields : List Field) :
    readArray settings isFirst (between.text ++ ']' :: rest) fields = .ok (settings, rest) := by
  cases fields with
  | nil => exact bind_of_ok (readMark_before between (by decide) rest) _
  | cons field fields =>
    have closed : nextElement isFirst (between.text ++ ']' :: rest) = .ok (.close rest) := by
      rw [nextElement, skipBlanks_before between (by decide)]
      rfl
    exact bind_of_ok closed _

theorem readArray_elements {elements : Written .elements} {values : List (Written .value)}
    (inside : elements.ValuesIn values) {given : List Setting}
    (denoted : List.Forall₂ Denotes values given) (settings : Settings) (isFirst : Bool)
    (between : Blanks) {fields : List Field} (leading : given.map Setting.field <+: fields) :
    readArray settings isFirst (between.text ++ (lead isFirst ++ (elements.text ++ ']' :: rest)))
      fields = .ok (given.foldl put settings, rest) := by
  induction inside generalizing given settings isFirst between fields with
  | last =>
    obtain ⟨setting, _, denotes, nothing, rfl⟩ := List.forall₂_cons_left_iff.mp denoted
    obtain rfl := List.forall₂_nil_left_iff.mp nothing
    obtain ⟨others, rfl⟩ := leading
    simp only [Written.text, List.append_assoc, List.map_cons, List.map_nil, List.cons_append,
      List.nil_append]
    rw [readArray_value denotes, readArray_close]
    rfl
  | @next before behind value elements values _ ih =>
    obtain ⟨setting, others, denotes, remaining, rfl⟩ := List.forall₂_cons_left_iff.mp denoted
    obtain ⟨more, rfl⟩ := leading
    have read := ih remaining (settings.put setting) false behind
      (List.prefix_append (others.map Setting.field) more)
    simp only [Written.text, List.append_assoc, List.map_cons, List.cons_append]
    rw [readArray_value denotes]
    exact read

end Arrays

section Objects

variable {entry : Entry} {draft : Draft}

def Adds (entry : Entry) : Option Setting → Prop
  | some setting => Gives entry setting
  | none => Foreign entry

def Draft.add (draft : Draft) : Option Setting → Draft
  | some setting => ⟨draft.settings.put setting, setting.field :: draft.given⟩
  | none => draft

theorem readMember_of_gives (gives : Gives entry setting) (fresh : setting.field ∉ draft.given)
    (between before : Blanks) :
    readMember setting.field.name draft
        (between.text ++ ':' :: (before.text ++ (entry.value.text ++ rest))) =
      .ok (draft.add (some setting), rest) := by
  rw [readMember, Field.ofName?_name]
  simp only [fresh, if_false]
  refine (bind_of_ok (readMark_before between (by decide) _) _).trans ?_
  exact bind_of_ok (gives.2.readField before) _

theorem readMember_of_foreign {name : String} (foreign : ∀ field : Field, name ≠ field.name)
    (value : Written .value) (ends : EndsValue rest) (between before : Blanks) :
    readMember name draft (between.text ++ ':' :: (before.text ++ (value.text ++ rest))) =
      .ok (draft, rest) := by
  have unknown : Field.ofName? name = none := by
    rw [Field.ofName?, List.find?_eq_none]
    intro field _
    simpa using (foreign field).symm
  rw [readMember, unknown]
  refine (bind_of_ok (readMark_before between (by decide) _) _).trans ?_
  exact bind_of_ok (Skip.run_fresh before value ends) _

theorem readMembers_entry {effect : Option Setting} (adds : Adds entry effect)
    (fresh : ∀ setting ∈ effect, setting.field ∉ draft.given) (ends : EndsValue rest)
    (between before : Blanks) :
    readMembers draft (entry.name.flatMap Piece.text ++ '"' ::
        (between.text ++ ':' :: (before.text ++ (entry.value.text ++ rest)))) =
      (nextMember rest).bind fun
        | .close rest => .ok ((draft.add effect).settings, rest)
        | .value rest => readMembers (draft.add effect) rest := by
  have read : ∃ name : String, Means entry.name name.toList ∧
      readMember name draft (between.text ++ ':' :: (before.text ++ (entry.value.text ++ rest))) =
        .ok (draft.add effect, rest) := by
    cases effect with
    | some setting =>
      exact ⟨_, adds.1, readMember_of_gives adds (fresh setting rfl) between before⟩
    | none =>
      obtain ⟨name, means, foreign⟩ := adds
      exact ⟨name, means, readMember_of_foreign foreign entry.value ends between before⟩
  obtain ⟨name, means, member⟩ := read
  rw [readMembers_eq, bind_of_ok means.readText]
  simp only [List.reverse_nil, List.nil_append, String.ofList_toList]
  exact bind_of_ok member _

theorem nextMember_close (behind : Blanks) :
    nextMember (behind.text ++ '\x7d' :: rest) = .ok (.close rest) := by
  rw [nextMember, skipBlanks_before behind (by decide)]
  rfl

theorem nextMember_value (behind : Blanks) {text inside : List Char}
    (next : skipBlanks text = '"' :: inside) :
    nextMember (behind.text ++ ',' :: text) = .ok (.value inside) := by
  rw [nextMember, skipBlanks_before behind (by decide)]
  simp only [next]

def Fresh (draft : Draft) (effects : List (Option Setting)) : Prop :=
  (effects.reduceOption.map Setting.field ++ draft.given).Nodup

theorem Fresh.head {effect : Option Setting} {effects : List (Option Setting)}
    (fresh : Fresh draft (effect :: effects)) :
    ∀ setting ∈ effect, setting.field ∉ draft.given := by
  rintro setting rfl given
  rw [Fresh, List.reduceOption_cons_of_some, List.map_cons, List.cons_append] at fresh
  exact (List.nodup_cons.mp fresh).1 (List.mem_append_right _ given)

theorem Fresh.tail {effect : Option Setting} {effects : List (Option Setting)}
    (fresh : Fresh draft (effect :: effects)) : Fresh (draft.add effect) effects := by
  cases effect with
  | none => exact fresh
  | some setting => exact List.perm_middle.nodup_iff.mpr fresh

theorem foldl_put_cons (effect : Option Setting) (effects : List (Option Setting)) (draft : Draft) :
    (effect :: effects).reduceOption.foldl put draft.settings =
      effects.reduceOption.foldl put (draft.add effect).settings := by
  cases effect <;> rfl

/-- Members give what each of them adds, in their order, whatever stands behind their object. -/
theorem readMembers_entries {members : Written .members} {entries : List Entry}
    (inside : members.EntriesIn entries) {effects : List (Option Setting)}
    (added : List.Forall₂ Adds entries effects) (draft : Draft) (fresh : Fresh draft effects) :
    ∃ text, skipBlanks (members.text ++ '\x7d' :: rest) = '"' :: text ∧
      readMembers draft text = .ok (effects.reduceOption.foldl put draft.settings, rest) := by
  induction inside generalizing effects draft with
  | @last start between before behind name value =>
    obtain ⟨effect, _, adds, nothing, rfl⟩ := List.forall₂_cons_left_iff.mp added
    obtain rfl := List.forall₂_nil_left_iff.mp nothing
    have ends : EndsValue (behind.text ++ '\x7d' :: rest) :=
      (EndsValue.of_mem (by decide) rest).blanks behind
    simp only [Written.text, List.append_assoc, quoted_append, List.cons_append]
    refine ⟨_, skipBlanks_before start (by decide) _, ?_⟩
    rw [readMembers_entry adds fresh.head ends, bind_of_ok (nextMember_close behind),
      foldl_put_cons]
    rfl
  | @next start between before behind name value members entries _ ih =>
    obtain ⟨effect, others, adds, remaining, rfl⟩ := List.forall₂_cons_left_iff.mp added
    obtain ⟨text, next, read⟩ := ih remaining (draft.add effect) fresh.tail
    have ends : EndsValue (behind.text ++ ',' :: (members.text ++ '\x7d' :: rest)) :=
      (EndsValue.of_mem (by decide) _).blanks behind
    simp only [Written.text, List.append_assoc, quoted_append, List.cons_append]
    refine ⟨_, skipBlanks_before start (by decide) _, ?_⟩
    rw [readMembers_entry adds fresh.head ends, bind_of_ok (nextMember_value behind next),
      foldl_put_cons]
    exact read

end Objects

section Files

theorem readEnd_blanks (blanks : Blanks) : readEnd blanks.text = .ok () := by
  have none : skipBlanks blanks.text = [] := by
    have skipped := skipBlanks_blanks blanks []
    rwa [List.append_nil] at skipped
  rw [readEnd, none]
  rfl

theorem ofJson_of_readArray {text : List Char} (before behind : Blanks)
    (read : readArray default true text Field.all = .ok (settings, behind.text)) :
    ofJson (String.ofList (before.text ++ '[' :: text)) = .ok settings := by
  rw [ofJson, String.toList_ofList, skipBlanks_before before (by decide)]
  exact (bind_of_ok read _).trans (bind_of_ok (readEnd_blanks behind) _)

theorem ofJson_of_readObject {text : List Char} (before behind : Blanks)
    (read : readObject default text = .ok (settings, behind.text)) :
    ofJson (String.ofList (before.text ++ '\x7b' :: text)) = .ok settings := by
  rw [ofJson, String.toList_ofList, skipBlanks_before before (by decide)]
  exact (bind_of_ok read _).trans (bind_of_ok (readEnd_blanks behind) _)

theorem ofJson_array {document : Written .element} {values : List (Written .value)}
    {given : List Setting} (has : document.HasValues values)
    (denoted : List.Forall₂ Denotes values given)
    (leading : given.map Setting.field <+: Field.all) :
    ofJson (String.ofList document.text) = .ok (given.foldl put default) := by
  cases has with
  | @none before blanks behind =>
    obtain rfl := List.forall₂_nil_left_iff.mp denoted
    simp only [Written.text, List.cons_append, List.append_assoc, List.nil_append]
    exact ofJson_of_readArray before behind (readArray_close true blanks Field.all)
  | @some before behind elements values inside =>
    simp only [Written.text, List.cons_append, List.append_assoc, List.nil_append]
    exact ofJson_of_readArray before behind
      (readArray_elements inside denoted default true .none leading)

theorem ofJson_object {document : Written .element} {entries : List Entry}
    {effects : List (Option Setting)} (has : document.HasEntries entries)
    (added : List.Forall₂ Adds entries effects)
    (fresh : (effects.reduceOption.map Setting.field).Nodup) :
    ofJson (String.ofList document.text) = .ok (effects.reduceOption.foldl put default) := by
  cases has with
  | @none before blanks behind =>
    obtain rfl := List.forall₂_nil_left_iff.mp added
    have read : readObject default (blanks.text ++ '\x7d' :: behind.text) =
        .ok (default, behind.text) := by
      rw [readObject, skipBlanks_before blanks (by decide)]
      rfl
    simp only [Written.text, List.cons_append, List.append_assoc, List.nil_append]
    exact ofJson_of_readObject before behind read
  | @some before behind members entries inside =>
    have read : readObject default (members.text ++ '\x7d' :: behind.text) =
        .ok (effects.reduceOption.foldl put default, behind.text) := by
      obtain ⟨text, next, read⟩ := readMembers_entries inside added ⟨default, []⟩
        (by rwa [Fresh, List.append_nil])
      rw [readObject, next]
      exact read
    simp only [Written.text, List.cons_append, List.append_assoc, List.nil_append]
    exact ofJson_of_readObject before behind read

theorem load_of_ofJson {text : List Char} (read : ofJson (String.ofList text) = .ok settings) :
    load (.file (Text.encode (String.ofList text))) = .ok settings := by
  rw [load, Text.decode?_encode]
  simp only [read]
  rfl

theorem exists_effects {given : Given} {entries giving others : List Entry}
    (order : entries.Perm (giving ++ others)) (gives : List.Forall₂ Gives giving given.list)
    (foreign : ∀ entry ∈ others, Foreign entry) :
    ∃ effects, List.Forall₂ Adds entries effects ∧ effects.reduceOption.Perm given.list := by
  have known : List.Forall₂ Adds giving (given.list.map some) :=
    List.forall₂_map_right_iff.mpr gives
  have unknown : List.Forall₂ Adds others (others.map fun _ => none) :=
    List.forall₂_map_right_iff.mpr (List.forall₂_same.mpr foreign)
  obtain ⟨effects, added, same⟩ := List.perm_comp_forall₂ order (List.rel_append known unknown)
  have kept : (given.list.map some ++ others.map fun _ => none).reduceOption = given.list := by
    simp [List.reduceOption]
  have reduced : effects.reduceOption.Perm
      (given.list.map some ++ others.map fun _ => none).reduceOption := same.filterMap id
  exact ⟨effects, added, kept ▸ reduced⟩

theorem Given.put_perm {given : Given} {settings : List Setting}
    (order : settings.Perm given.list) : settings.foldl put default = given.settings := by
  have nodup : (settings.map Setting.field).Nodup :=
    (order.map Setting.field).nodup_iff.mpr given.nodup_fields
  rw [← given.put_list]
  apply order.foldl_eq'
  intro first isFirst second isSecond start
  by_cases same : first.field = second.field
  · rw [List.inj_on_of_nodup_map nodup isFirst isSecond same]
  · exact put_comm same start

/-- Settings are loaded from an object with a member for each value that is given and any members
    with other names, in any order, and from an array of the values when these are of the first
    fields. A missing file is like an empty object. -/
theorem load_any_layout (given : Given) :
    (∀ (document : Written .element) (entries giving others : List Entry),
      document.HasEntries entries → entries.Perm (giving ++ others) →
      List.Forall₂ Gives giving given.list → (∀ entry ∈ others, Foreign entry) →
      load (.file (Text.encode (String.ofList document.text))) = .ok given.settings) ∧
    (∀ (document : Written .element) (values : List (Written .value)),
      document.HasValues values → List.Forall₂ Denotes values given.list →
      given.list.map Setting.field <+: Field.all →
      load (.file (Text.encode (String.ofList document.text))) = .ok given.settings) ∧
    load .absent = load (.file (Text.encode "\x7b\x7d")) := by
  refine ⟨?_, ?_, ?_⟩
  · intro document entries giving others has order gives foreign
    obtain ⟨effects, added, same⟩ := exists_effects order gives foreign
    have fresh : (effects.reduceOption.map Setting.field).Nodup :=
      (same.map Setting.field).nodup_iff.mpr given.nodup_fields
    have read := ofJson_object has added fresh
    rw [Given.put_perm same] at read
    exact load_of_ofJson read
  · intro document values has denoted leading
    have read := ofJson_array has denoted leading
    rw [given.put_list] at read
    exact load_of_ofJson read
  · have empty : ofJson (String.ofList ['\x7b', '\x7d']) = .ok default := by decide +kernel
    exact (load_of_ofJson empty).symm

def german : Written .value :=
  .string [.plain 'd' (by decide) (by decide), .plain 'e' (by decide) (by decide)]

def escapedLocale : List Piece :=
  [.code ⟨⟨0, false⟩, ⟨0, false⟩, ⟨6, false⟩, ⟨12, true⟩⟩, .plain 'o' (by decide) (by decide),
    .plain 'c' (by decide) (by decide), .plain 'a' (by decide) (by decide),
    .plain 'l' (by decide) (by decide), .plain 'e' (by decide) (by decide)]

def otherName : List Piece := [.plain 'x' (by decide) (by decide)]

def nested : Written .value :=
  .array (.lastElement (.element .none (.emptyArray .none) .none))

/-- Half of a surrogate pair, which only a value that is passed over may hold. -/
def halfPair : Written .value :=
  .string [.code ⟨⟨13, false⟩, ⟨8, false⟩, ⟨0, false⟩, ⟨0, false⟩⟩]

def germanObject : Written .element :=
  .element .none (.object
    (.nextMember (.member .none otherName .none (.element .none nested .none))
    (.nextMember
      (.member .none escapedLocale ⟨[' '], by simp [isBlank]⟩ (.element .none german .none))
    (.lastMember (.member .none otherName .none (.element .none halfPair .none))))))
    ⟨['\n'], by simp [isBlank]⟩

theorem load_any_layout_german :
    load (.file (Text.encode
      "\x7b\"x\":[[]],\"\\u006Cocale\" :\"de\",\"x\":\"\\ud800\"\x7d\n")) =
      .ok ⟨some "de", .faithful, "2s"⟩ ∧
    load (.file (Text.encode "[\"de\"]")) = .ok ⟨some "de", .faithful, "2s"⟩ := by
  have denotes : Denotes german (.locale (some "de")) := .locale (.plain (.plain .nil))
  have gives : Gives ⟨escapedLocale, german⟩ (.locale (some "de")) :=
    ⟨.code (by decide) (.plain (.plain (.plain (.plain (.plain .nil))))), denotes⟩
  have foreign : ∀ value : Written .value, Foreign ⟨otherName, value⟩ :=
    fun _ => ⟨"x", .plain .nil, fun field => by cases field <;> decide⟩
  have others : ∀ entry ∈ [Entry.mk otherName nested, ⟨otherName, halfPair⟩], Foreign entry :=
    List.forall_mem_cons.mpr ⟨foreign nested, List.forall_mem_singleton.mpr (foreign halfPair)⟩
  have members : germanObject.HasEntries
      [⟨otherName, nested⟩, ⟨escapedLocale, german⟩, ⟨otherName, halfPair⟩] :=
    .some (.next (.next .last))
  obtain ⟨object, array, -⟩ := load_any_layout ⟨some (some "de"), none, none⟩
  constructor
  · exact object germanObject _ [_] _ members (.swap _ _ _) (.cons gives .nil) others
  · have values : Written.HasValues
        (.element .none (.array (.lastElement (.element .none german .none))) .none) [german] :=
      .some .last
    exact array _ _ values (.cons denotes .nil) (by decide)

end Files

end StatusPage.Settings
