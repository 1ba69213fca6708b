import StatusPage.Json.Text
import StatusPage.Settings.Basic

namespace StatusPage.Settings

def toJson (settings : Settings) : String :=
  String.ofList <|
    "\x7b\"locale\":".toList ++ settings.locale.elim "null".toList Json.quote ++
    ",\"uptime_style\":".toList ++ Json.quote settings.style.name ++
    ",\"confirm_timeout\":".toList ++ Json.quote settings.confirmTimeout ++ "\x7d".toList

end StatusPage.Settings
