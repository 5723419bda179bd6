import ScriptIndex.Disk.Basic
import ScriptIndex.Buffers
import ScriptIndex.Editor.Basic
import ScriptIndex.LookupError
import ScriptIndex.Resource
import ScriptIndex.Settings.Basic

/-!
# Workspaces

A workspace is a disk with the directories to search, and the documents that are open. A text is
taken from the open document, else from the disk, else from the editor if there is one.
-/
namespace ScriptIndex

structure Workspace where
  disk : Disk := {}
  buffers : Buffers := {}
  roots : List DiskPath := []
  connection : Option Editor.Connection := none
  /-- Whether the editor can be asked for settings. -/
  asksSettings : Bool := false
  /-- The settings that the editor has given, by resource. -/
  settings : NameMap Settings := ∅

namespace Workspace

/-- Paths without those that are the same as an earlier one. -/
def distinct (paths : List DiskPath) : List DiskPath :=
  paths.foldl (fun kept path => if kept.any (·.same path) then kept else kept ++ [path]) []

def withRoots (w : Workspace) (roots : List DiskPath) : Workspace := { w with roots := distinct roots }

/-- The first file that an include names below a root. -/
def find? (w : Workspace) (id : String) : Option DiskPath :=
  (w.roots.map (·.join id)).find? w.disk.isFile

def pathOf (w : Workspace) (id : String) : Except LookupError DiskPath :=
  if Resource.isFile id then
    match (Resource.url? id).bind Url.diskPath? with
    | some path => .ok path
    | none => .error (.contentUnavailable id "not a local file URI")
  else
    match w.find? id with
    | some path => .ok path
    | none => .error (.contentUnavailable id "not found under any workspace root")

def readDisk (w : Workspace) (id : String) : Except LookupError String :=
  match w.pathOf id with
  | .error e => .error e
  | .ok path => (w.disk.read path).mapError (.unreadable id)

def ask {α : Type} (w : Workspace) (connection : Editor.Connection)
    (read : Settings.Value → Except Settings.Fault α) (query : Editor.Query) :
    Except Editor.Fault α × Workspace :=
  let (answer, connection) := connection.ask read query
  (answer, { w with connection := some connection })

def readQuery (id : String) : Editor.Query :=
  if Resource.isFile id then .readUrl id else .readInclude id

def read (id : String) (w : Workspace) : Except LookupError String × Workspace :=
  match w.buffers.text? id with
  | some text => (.ok text, w)
  | none =>
    match w.readDisk id, w.connection with
    | .ok text, _ => (.ok text, w)
    | .error e, none => (.error e, w)
    | .error _, some connection =>
      let (answer, w) := w.ask connection Settings.readText (readQuery id)
      (answer.mapError fun fault => .contentUnavailable id fault.message, w)

/-- The id of the file that a resource is read from. -/
def resolve (id : String) (w : Workspace) : String × Workspace :=
  if Resource.isFile id then (id, w)
  else
    match (w.find? id).bind Resource.ofPath?, w.connection with
    | some owner, _ => (owner, w)
    | none, none => (id, w)
    | none, some connection =>
      match w.ask connection Settings.readText (.urlOf id) with
      | (.ok url, w) => (Resource.canonical url, w)
      | (.error _, w) => (id, w)

end Workspace
end ScriptIndex
