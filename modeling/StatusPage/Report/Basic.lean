import StatusPage.Locale.Number
import StatusPage.Uptime

namespace StatusPage

structure Report where
  locale : Locale
  style : Uptime.Style
  seconds : Nat
  counters : List (String × Binary64)
deriving DecidableEq

namespace Report

def valueColumn : Nat := 15

def heading (label : String) : String :=
  String.ofList ((label.toList ++ [':']).rightpad valueColumn ' ')

theorem toList_heading (label : String) : (heading label).toList =
    label.toList ++ ':' :: List.replicate (valueColumn - (label.length + 1)) ' ' := by
  simp [heading, List.rightpad, ← String.length_toList]

def row (locale : Locale) (counter : String × Binary64) : String :=
  heading counter.1 ++ locale.formatFloat counter.2

def lines (report : Report) : List String :=
  "Status" :: "======" ::
    (heading "Uptime" ++ Uptime.format report.style report.seconds) ::
    (heading "Uptime (secs)" ++ report.locale.formatNat report.seconds) ::
    report.counters.map (row report.locale)

/-- A row as it is written: the filling goes out one space at a time. -/
def rowPieces (locale : Locale) (counter : String × Binary64) : List String :=
  (counter.1 ++ ":") :: (List.replicate (valueColumn - (counter.1.length + 1)) " " ++
    [locale.formatFloat counter.2, "\n"])

def pieces (report : Report) : List String :=
  "Status\n" :: "======\n" ::
    heading "Uptime" :: Uptime.format report.style report.seconds :: "\n" ::
    heading "Uptime (secs)" :: report.locale.formatNat report.seconds :: "\n" ::
    report.counters.flatMap (rowPieces report.locale)

end Report

end StatusPage
