import ScriptIndex.Provider.Basic
import ScriptIndex.Workspace.Basic

/-!
# The provider of a workspace

Texts and URLs come from the workspace. Settings come from the editor if it can be asked, and are
then kept; otherwise the defaults hold.
-/
namespace ScriptIndex.Workspace

/-- The settings in the answer to a query, which has to be a list of one. -/
def settingsIn (id : String) : List Settings.Value → Except LookupError Settings
  | [value] => (Settings.ofValue value).mapError .invalidSettings
  | values =>
    .error (.settingsUnavailable id
      ("expected one configuration entry, received " ++ toString values.length))

def fetchSettings (id : String) (w : Workspace) (connection : Editor.Connection) :
    Except LookupError Settings × Workspace :=
  let (answer, w) := w.ask connection Settings.readValues (.settings (Resource.url? id))
  match answer with
  | .ok values => (settingsIn id values, w)
  | .error fault => (.error (.settingsUnavailable id fault.message), w)

def settingsOf (id : String) (w : Workspace) : Except LookupError Settings × Workspace :=
  match w.asksSettings, w.connection with
  | true, some connection =>
    match w.settings.find? id with
    | some settings => (.ok settings, w)
    | none =>
      match w.fetchSettings id connection with
      | (.ok settings, w) => (.ok settings, { w with settings := w.settings.insert id settings })
      | (.error e, w) => (.error e, w)
  | _, _ => (.ok {}, w)

def provider : Provider Workspace where
  read := read
  resolve := resolve
  settings := settingsOf

end ScriptIndex.Workspace
