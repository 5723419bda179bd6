import ScriptIndex.NameMap
import ScriptIndex.Provider.Basic

/-!
# A provider over tables

Texts, URIs and settings are looked up in tables, and every call is recorded.
-/
namespace ScriptIndex

namespace Provider

inductive Call where
  | read (id : String)
  | resolve (id : String)
  | settings (id : String)
  deriving DecidableEq, Repr

structure Tables where
  files : NameMap String := ∅
  uris : NameMap String := ∅
  /-- Settings by resource; the name `*` stands for all resources without an entry. -/
  settings : NameMap Settings.Value := ∅
  /-- The calls so far, last one first. -/
  calls : List Call := []

namespace Tables

def record (tables : Tables) (call : Call) : Tables := { tables with calls := call :: tables.calls }

def text (tables : Tables) (id : String) : Except LookupError String :=
  match tables.files.find? id with
  | some text => .ok text
  | none => .error (.contentUnavailable id "no such file")

/-- The settings of a resource: the defaults when there is no entry. An entry that is a text says why
there are none. -/
def settingsOf (tables : Tables) (id : String) : Except LookupError Settings :=
  match (tables.settings.find? id).or (tables.settings.find? "*") with
  | none => .ok {}
  | some (.string reason) => .error (.settingsUnavailable id reason)
  | some value => (Settings.ofValue value).mapError .invalidSettings

end Tables

def tables : Provider Tables where
  read id t := (t.text id, t.record (.read id))
  resolve id t := ((t.uris.find? id).getD id, t.record (.resolve id))
  settings id t := (t.settingsOf id, t.record (.settings id))

end Provider
end ScriptIndex
