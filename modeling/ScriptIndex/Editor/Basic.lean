import ScriptIndex.Settings.Value
import ScriptIndex.Url.Basic

/-!
# The editor

The server asks the editor for settings, for texts that it cannot find itself, and to be told about
changes. Every query and every message to the user is recorded in the order of sending.
-/
namespace ScriptIndex

namespace Editor

/-- What the server wants to be told about. -/
inductive Registration where
  | configuration
  | watchedFiles
  deriving DecidableEq, Repr

def Registration.id : Registration → String
  | configuration => "pory-lsp-did-change-configuration"
  | watchedFiles => "pory-lsp-did-change-watched-files"

def Registration.method : Registration → String
  | configuration => "workspace/didChangeConfiguration"
  | watchedFiles => "workspace/didChangeWatchedFiles"

def Registration.glob? : Registration → Option String
  | configuration => none
  | watchedFiles => some "**/*.\x7bpory,inc,h\x7d"

inductive Query where
  /-- The settings for a URL. -/
  | settings (scope : Option Url)
  /-- The text of a file id. -/
  | readUrl (id : String)
  /-- The text of an include file. -/
  | readInclude (id : String)
  /-- The URL of an include file. -/
  | urlOf (id : String)
  /-- The paths of all script files. -/
  | sources
  | register (registrations : List Registration)
  deriving DecidableEq, Repr

def Query.method : Query → String
  | settings _ => "workspace/configuration"
  | readUrl _ => "poryscript/readfs"
  | readInclude _ => "poryscript/readfile"
  | urlOf _ => "poryscript/getfileuri"
  | sources => "poryscript/getPoryscriptFiles"
  | register _ => "client/registerCapability"

def settingsSection : String := "languageServerPoryscript"

/-- What the server sends. -/
inductive Message where
  | query (query : Query)
  /-- An error to be shown to the user. -/
  | showError (text : String)
  deriving DecidableEq, Repr

inductive Fault where
  /-- The session has not been opened yet. -/
  | closed
  | refused (reason : String)
  | unreadable (fault : Settings.Fault)

def Fault.message : Fault → String
  | closed => "Server error: Server not initialized"
  | refused reason => "Internal error: " ++ reason
  | unreadable fault => "Parse error: " ++ fault.message

end Editor

/-- An editor answers queries by values, or refuses with a reason. -/
structure Editor where
  answer : Editor.Query → Except String Settings.Value

namespace Editor

/-- The connection to an editor. Nothing is sent before the session is open. -/
structure Connection where
  editor : Editor
  isOpen : Bool := false
  /-- The messages sent, last one first. -/
  sent : List Message := []

namespace Connection

def send (message : Message) (c : Connection) : Connection :=
  if c.isOpen then { c with sent := message :: c.sent } else c

def ask {α : Type} (read : Settings.Value → Except Settings.Fault α) (query : Query)
    (c : Connection) : Except Fault α × Connection :=
  let answer :=
    if c.isOpen then
      match c.editor.answer query with
      | .ok value => (read value).mapError Fault.unreadable
      | .error reason => .error (.refused reason)
    else .error .closed
  (answer, c.send (.query query))

end Connection
end Editor
end ScriptIndex
