import ScriptIndex.Disk.Fault
import ScriptIndex.Settings.Value

/-!
# Errors of lookups
-/
namespace ScriptIndex

inductive LookupError where
  | contentUnavailable (resource reason : String)
  | unreadable (resource : String) (fault : ReadFault)
  | settingsUnavailable (resource reason : String)
  | invalidSettings (fault : Settings.Fault)

def LookupError.message : LookupError → String
  | contentUnavailable resource reason => "content unavailable for " ++ resource ++ ": " ++ reason
  | unreadable resource fault => "failed to read " ++ resource ++ ": " ++ fault.message
  | settingsUnavailable resource reason =>
    "settings unavailable for " ++ resource ++ ": " ++ reason
  | invalidSettings fault => "invalid settings: " ++ fault.message

end ScriptIndex
