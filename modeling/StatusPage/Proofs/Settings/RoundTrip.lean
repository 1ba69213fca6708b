import StatusPage.Proofs.Json.Text
import StatusPage.Settings.Store
import StatusPage.Settings.Writer

namespace StatusPage.Settings

open Json

variable {settings : Settings} {draft : Draft} {text : List Char}

def written (settings : Settings) : Field → List Char
  | .locale => settings.locale.elim "null".toList quote
  | .style => quote settings.style.name
  | .timeout => quote settings.confirmTimeout

def member (settings : Settings) (field : Field) : List Char :=
  field.name.toList.flatMap escape ++ '"' :: ':' :: written settings field

def copy (settings next : Settings) : Field → Settings
  | .locale => { next with locale := settings.locale }
  | .style => { next with style := settings.style }
  | .timeout => { next with confirmTimeout := settings.confirmTimeout }

theorem toList_toJson (settings : Settings) : settings.toJson.toList =
    '\x7b' :: '"' :: (member settings .locale ++ ',' :: '"' :: (member settings .style ++
      ',' :: '"' :: (member settings .timeout ++ ['\x7d']))) := by
  have names : ∀ field : Field, field.name.toList.flatMap escape = field.name.toList := by
    intro field
    cases field <;> decide +kernel
  -- The equation of `toJson` takes the literals apart, so it is opened without that.
  delta toJson
  simp only [member, names]
  simp [written, Field.name]

theorem Field.ofName?_name (field : Field) : ofName? field.name = some field := by
  cases field <;> decide

theorem styleOfName_name (style : Uptime.Style) : styleOfName style.name = .ok style := by
  cases style <;> rfl

theorem readStyle_quote (style : Uptime.Style) (text : List Char) :
    readStyle (quote style.name ++ text) = .ok (style, text) := by
  rw [readStyle, skipBlanks_quote, quote_append]
  simp [readText_escaped, styleOfName_name, Bind.bind, Except.bind, Pure.pure, Except.pure]

theorem readField_written (settings next : Settings) (field : Field) (text : List Char) :
    readField field next (written settings field ++ text) =
      .ok (copy settings next field, text) := by
  cases field with
  | locale =>
    have read : readOptional (written settings .locale ++ text) = .ok (settings.locale, text) := by
      cases locale : settings.locale with
      | none => rw [written, locale]; exact readOptional_null text
      | some name => rw [written, locale]; exact readOptional_quote name text
    exact bind_of_ok read _
  | style => exact bind_of_ok (readStyle_quote settings.style text) _
  | timeout => exact bind_of_ok (readString_quote settings.confirmTimeout text) _

theorem readMark_cons {mark : Char} (black : isBlank mark = false) (text : List Char) :
    readMark mark (mark :: text) = .ok text := by
  rw [readMark, skipBlanks_cons black]
  exact if_pos rfl

theorem readMember_written {field : Field} (fresh : field ∉ draft.given) :
    readMember field.name draft (':' :: written settings field ++ text) =
      .ok (⟨copy settings draft.settings field, field :: draft.given⟩, text) := by
  rw [readMember, Field.ofName?_name]
  simp only [fresh, if_false]
  exact (bind_of_ok (readMark_cons (by decide) _) _).trans
    (bind_of_ok (readField_written settings draft.settings field text) _)

theorem readMembers_eq (draft : Draft) (text : List Char) : readMembers draft text =
    (readText .plain [] text).bind fun name =>
      (readMember (String.ofList name.1) draft name.2).bind fun member =>
        (nextMember member.2).bind fun
          | .close rest => .ok (member.1.settings, rest)
          | .value rest => readMembers member.1 rest := by
  rw [readMembers]
  split
  case h_1 named => rw [named]; rfl
  case h_2 name behindName named =>
    rw [bind_of_ok named]
    split
    case h_1 given => rw [given]; rfl
    case h_2 given =>
      rw [bind_of_ok given]
      split <;> rename_i next <;> rw [next] <;> rfl

theorem readMembers_member {field : Field} (fresh : field ∉ draft.given) (text : List Char) :
    readMembers draft (member settings field ++ text) =
      (nextMember text).bind fun
        | .close rest => .ok (copy settings draft.settings field, rest)
        | .value rest =>
          readMembers ⟨copy settings draft.settings field, field :: draft.given⟩ rest := by
  have name : readText .plain [] (member settings field ++ text) =
      .ok (field.name.toList, ':' :: written settings field ++ text) := by
    rw [member, List.append_assoc]
    exact readText_escaped field.name.toList
  rw [readMembers_eq, bind_of_ok name]
  simp only [String.ofList_toList]
  rw [bind_of_ok (readMember_written fresh)]

theorem readMembers_next {field : Field} (fresh : field ∉ draft.given) (text : List Char) :
    readMembers draft (member settings field ++ ',' :: '"' :: text) =
      readMembers ⟨copy settings draft.settings field, field :: draft.given⟩ text := by
  have next : nextMember (',' :: '"' :: text) = .ok (.value text) := by
    simp [nextMember, skipBlanks_cons, isBlank]
  rw [readMembers_member fresh, bind_of_ok next]

theorem readMembers_last {field : Field} (fresh : field ∉ draft.given) (text : List Char) :
    readMembers draft (member settings field ++ '\x7d' :: text) =
      .ok (copy settings draft.settings field, text) := by
  have next : nextMember ('\x7d' :: text) = .ok (.close text) := by
    simp [nextMember, skipBlanks_cons, isBlank]
  rw [readMembers_member fresh, bind_of_ok next]

theorem ofJson_toJson (settings : Settings) : ofJson settings.toJson = .ok settings := by
  have members : readMembers ⟨default, []⟩ (member settings .locale ++ ',' :: '"' ::
      (member settings .style ++ ',' :: '"' :: (member settings .timeout ++ ['\x7d']))) =
      .ok (settings, []) := by
    rw [readMembers_next (by simp), readMembers_next (by simp), readMembers_last (by simp)]
    rfl
  rw [ofJson, toList_toJson, skipBlanks_cons (by decide)]
  simp only [readObject]
  rw [skipBlanks_cons (by decide)]
  exact bind_of_ok members _

/-- Settings come back from what is written of them, whatever characters stand in them. -/
theorem load_encode_toJson (settings : Settings) :
    load (.file (Text.encode settings.toJson)) = .ok settings := by
  rw [load, Text.decode?_encode]
  simp only [ofJson_toJson]
  rfl

example : toJson ⟨some "a\"\\\x01\n😀", .trimmed, ""⟩ =
    "\x7b\"locale\":\"a\\\"\\\\\\u0001\\n😀\",\"uptime_style\":\"trimmed\"," ++
      "\"confirm_timeout\":\"\"\x7d" := by decide +kernel

end StatusPage.Settings
