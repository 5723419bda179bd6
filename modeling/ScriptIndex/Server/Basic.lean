import ScriptIndex.Lookup.Merge
import ScriptIndex.Server.Message
import ScriptIndex.Workspace.Provider
import ScriptIndex.Workspace.Sources

/-!
# The server

The server holds a workspace and a store of facts over it. A change of a document drops what the store
holds about it, and the symbols of a script file are then looked up again at once.
-/
namespace ScriptIndex

/-- How far a session has come. -/
inductive Server.Phase where
  | fresh
  | running
  | stopped
  deriving DecidableEq, Repr

structure Server where
  workspace : Workspace
  phase : Server.Phase := .fresh
  store : FactStore := {}
  /-- Whether the server asks to be told about watched files. -/
  watchesFiles : Bool := false

abbrev ServerM := StateM Server

namespace Server

def lookup {α : Type} (run : LookupM Workspace α) : ServerM α := fun server =>
  let (answer, store, workspace) := run (server.store, server.workspace)
  (answer, { server with store, workspace })

def modifyStore (f : FactStore → FactStore) : ServerM Unit :=
  modify fun server => { server with store := f server.store }

def modifyWorkspace (f : Workspace → Workspace) : ServerM Unit :=
  modify fun server => { server with workspace := f server.workspace }

def send (message : Editor.Message) : ServerM Unit :=
  modifyWorkspace fun w => { w with connection := w.connection.map (·.send message) }

/-- Drops what the store holds about a resource; the symbols of a script file are looked up again. -/
def renew (id : String) : ServerM Unit := do
  modifyStore (·.forget id)
  if Resource.isSource id then
    let _ ← lookup (Lookup.symbols Workspace.provider id)

/-- What the user is told about a text over the size limit. -/
def sizeError (size limit : Nat) : String :=
  "Document too large: " ++ toString size ++ " bytes exceeds maximum of " ++ toString limit ++
    " bytes (" ++ toString (limit / 1048576) ++ " MB)"

def takeText (url : Url) (text : String) : ServerM Unit := do
  let id := Resource.ofUrl url
  let held := (← get).workspace.buffers
  let (outcome, buffers) := held.put id text
  modifyWorkspace fun w => { w with buffers }
  if outcome = .rejected then send (.showError (sizeError text.utf8ByteSize held.maxSize))
  if outcome.isChange then renew id

def dropText (url : Url) : ServerM Unit := do
  let id := Resource.ofUrl url
  modifyWorkspace fun w => { w with buffers := w.buffers.remove id }
  renew id

/-- Looks up the symbols of resources; the number of those that could be had. -/
def warm : List String → ServerM Nat
  | [] => pure 0
  | id :: ids => do
    let symbols ← lookup (Lookup.symbols Workspace.provider id)
    let rest ← warm ids
    return if symbols.isOk then rest + 1 else rest

def warmUp : ServerM Nat := do
  let server ← get
  let (sources, workspace) := server.workspace.sources
  set { server with workspace }
  match sources with
  | .ok ids => warm ids
  | .error _ => return 0

def registrations (server : Server) : List Editor.Registration :=
  (if server.workspace.asksSettings then [.configuration] else []) ++
    (if server.watchesFiles then [.watchedFiles] else [])

def register : ServerM Unit := do
  let wanted := (← get).registrations
  if !wanted.isEmpty then send (.query (.register wanted))

def directories (urls : List Url) : List DiskPath := urls.filterMap Url.diskPath?

def changeFolders (added removed : List Url) (w : Workspace) : Workspace :=
  let gone := directories removed
  w.withRoots ((w.roots.filter fun root => !gone.any (·.same root)) ++ directories added)

def changeFile (url : Url) (change : FileChange) : ServerM Unit :=
  let id := Resource.ofUrl url
  match change with
  | .deleted => modifyStore (·.forget id)
  | .written => renew id

end Server
end ScriptIndex
