import ScriptIndex.Feature.Definition
import ScriptIndex.Highlight.Kind
import ScriptIndex.Server.Basic

/-!
# Sessions

A session is opened by the first request that introduces the editor, and ended by a shutdown. Before
and after, requests are refused and notifications passed over.
-/
namespace ScriptIndex.Server

def version : String := "1.0.4"

/-- What the editor is told when the session is opened. -/
def offer : Welcome where
  name := "pory-lsp"
  version := version
  openClose := true
  sync := .whole
  resolvesCompletions := false
  signatureTriggers := ["(", ","]
  definitions := true
  tokenTypes := Highlight.Kind.all.map Highlight.Kind.name
  tokenModifiers := []
  tokensOfRange := false
  tokensOfDocument := true
  folders := true
  folderChanges := true

def readUrl (text : String) : Except RequestError Url :=
  (Url.parse text).mapError fun fault => .invalidParams fault text

/-- The roots that the editor names: its folders, then the older ways to name one. -/
def rootsOf (introduction : Introduction) : Except RequestError (List DiskPath) := do
  let rootUrl ← (introduction.rootUrl.toList).mapM readUrl
  let folders ← introduction.folders.mapM readUrl
  let path := introduction.rootPath.toList.filter fun path => !path.isEmpty
  return directories folders ++ directories rootUrl ++ path.map DiskPath.mk

def welcome (introduction : Introduction) : ServerM (Except RequestError Reply) := do
  match rootsOf introduction with
  | .error e => return .error e
  | .ok roots =>
    modify fun server =>
      { server with
        phase := .running
        watchesFiles := introduction.watchedFiles
        workspace :=
          { server.workspace.withRoots roots with
            asksSettings := introduction.configuration
            connection := server.workspace.connection.map fun c => { c with isOpen := true } } }
    return .ok (.welcome offer)

/-- Answers a request from the facts about a document. -/
def withFacts (url : String) (answer : Facts → Reply) :
    ServerM (Except RequestError Reply) := do
  match readUrl url with
  | .error e => return .error e
  | .ok url =>
    let facts ← lookup (Lookup.facts Workspace.provider (Resource.ofUrl url))
    match facts with
    | .ok facts => return .ok (answer facts)
    | .error e => return .error (.failed e)

def respondRunning : Request → ServerM (Except RequestError Reply)
  | .introduce _ => return .error .invalidRequest
  | .shutdown => do
    modify fun server => { server with phase := .stopped }
    return .ok .done
  | .completion url => withFacts url fun facts => .completion (completions facts)
  | .definition url line character =>
    withFacts url fun facts => .definition (definitionAt? facts line character)
  | .signatureHelp url line character =>
    withFacts url fun facts => .signatureHelp (signatureHelpAt? facts line character)
  | .highlight url => withFacts url fun facts => .highlight (Highlight.tokenData facts)
  | .hover url =>
    match readUrl url with
    | .error e => return .error e
    | .ok _ => return .error .methodNotFound

def respond (request : Request) : ServerM (Except RequestError Reply) := do
  match (← get).phase, request with
  | .fresh, .introduce introduction => welcome introduction
  | .fresh, _ => return .error .notInitialized
  | .running, request => respondRunning request
  | .stopped, _ => return .error .invalidRequest

def readChange (change : String × FileChange) : Option (Url × FileChange) :=
  (Url.parse? change.1).map fun url => (url, change.2)

/-- Takes in a notification of an open session; one with a text that is no URL is passed over. -/
def noteRunning : Notification → ServerM Unit
  | .ready => do
    register
    let _ ← warmUp
  | .opened url text =>
    match Url.parse? url with
    | some url => takeText url text
    | none => return
  | .changed url texts =>
    match Url.parse? url, texts.getLast? with
    | some url, some text => takeText url text
    | _, _ => return
  | .closed url =>
    match Url.parse? url with
    | some url => dropText url
    | none => return
  | .configurationChanged => do
    modifyWorkspace fun w => { w with settings := ∅ }
    modifyStore FactStore.forgetIncludes
  | .filesChanged changes =>
    match changes.mapM readChange with
    | none => return
    | some changes => do
      modifyStore FactStore.forgetIncludes
      changes.forM fun (url, change) => changeFile url change
  | .foldersChanged added removed =>
    match added.mapM Url.parse?, removed.mapM Url.parse? with
    | some added, some removed => modifyWorkspace (changeFolders added removed)
    | _, _ => return

def note (notification : Notification) : ServerM Unit := do
  if (← get).phase = .running then noteRunning notification

end ScriptIndex.Server
