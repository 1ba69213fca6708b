import StatusPage.Error
import StatusPage.Locale.Basic
import StatusPage.Text.Blank

namespace StatusPage.Locale

/-- The part of a locale name that counts: what stands before an encoding or a modifier, without
    blanks around it, with hyphens between its subtags and in lower case. -/
def normalize (name : List Char) : List Char :=
  let base := name.takeWhile fun c => c ≠ '.' && c ≠ '@'
  (Text.trim base).map fun c => if c = '_' then '-' else c.toLower

def region? (subtags : List (List Char)) : Option (List Char) :=
  subtags.find? fun subtag => (String.ofList subtag).utf8ByteSize = 2

def ofSubtags? (language : List Char) (region : Option (List Char)) : Option Locale :=
  if language = "en".toList then some .enUS
  else if language = "de".toList then
    if region = some "ch".toList ∨ region = some "li".toList then some .deCH else some .deDE
  else if language = "fr".toList then some .frFR
  else if language = "ru".toList then some .ruRU
  else none

def ofName? (name : List Char) : Option Locale :=
  let tag := normalize name
  if tag = "c".toList ∨ tag = "posix".toList then some .enUS
  else match tag.splitOn '-' with
    | language :: subtags => ofSubtags? language (region? subtags)
    | [] => none

def ofName (name : String) : Except FormatError Locale :=
  match ofName? name.toList with
  | some locale => .ok locale
  | none => .error (.unknownLocale name)

end StatusPage.Locale
