import StatusPage.Settings.Reader
import StatusPage.Text.Bytes

namespace StatusPage.Settings

inductive Stored where
  | absent
  | directory
  | unreadable (reason : IoError)
  | file (content : List UInt8)
deriving DecidableEq

inductive LoadError where
  | io (reason : IoError)
  | json (fault : Json.Fault)
deriving DecidableEq

def relativePath : String := ".upfmt/config.json"

def path (home : String) : String :=
  if home.toList.getLast? = some '/' then home ++ relativePath else home ++ "/" ++ relativePath

def load : Stored → Except LoadError Settings
  | .absent => .ok default
  | .directory => .error (.io (.os 21))
  | .unreadable reason => .error (.io reason)
  | .file content =>
    match Text.decode? content with
    | none => .error (.io .notText)
    | some text => (ofJson text).mapError .json

end StatusPage.Settings
