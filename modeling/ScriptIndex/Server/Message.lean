import ScriptIndex.LookupError
import ScriptIndex.Feature.Completion
import ScriptIndex.Feature.Location
import ScriptIndex.Feature.SignatureHelp

/-!
# Messages of the editor

A request is answered by a reply or an error. A notification has no answer. URLs in messages are
texts that may turn out to be none.
-/
namespace ScriptIndex.Server

/-- What the editor says about itself when it opens the session. -/
structure Introduction where
  folders : List String := []
  rootUrl : Option String := none
  rootPath : Option String := none
  configuration : Bool := false
  watchedFiles : Bool := false
  deriving DecidableEq, Repr

inductive Request where
  | introduce (introduction : Introduction)
  | shutdown
  | completion (url : String)
  | definition (url : String) (line character : Nat)
  | signatureHelp (url : String) (line character : Nat)
  | hover (url : String)
  | highlight (url : String)
  deriving DecidableEq, Repr

/-- What happened to a watched file. -/
inductive FileChange where
  | written
  | deleted
  deriving DecidableEq, Repr

inductive Notification where
  | ready
  | opened (url text : String)
  | changed (url : String) (texts : List String)
  | closed (url : String)
  | configurationChanged
  | filesChanged (changes : List (String × FileChange))
  | foldersChanged (added removed : List String)
  deriving DecidableEq, Repr

/-- How much of a document the editor is to send when it has changed. -/
inductive SyncKind where
  | nothing
  | whole
  | changes
  deriving DecidableEq, Repr

/-- What the server says about itself and what it offers. -/
structure Welcome where
  name : String
  version : String
  /-- Whether the editor is to report documents that are opened and closed. -/
  openClose : Bool
  sync : SyncKind
  resolvesCompletions : Bool
  /-- The characters that call for signature help. -/
  signatureTriggers : List String
  definitions : Bool
  /-- The names of the kinds of highlighted words, in the order in which they are numbered. -/
  tokenTypes : List String
  tokenModifiers : List String
  /-- Whether parts of a document can be highlighted, and whether all of it can. -/
  tokensOfRange : Bool
  tokensOfDocument : Bool
  folders : Bool
  folderChanges : Bool
  deriving DecidableEq, Repr

inductive Reply where
  | welcome (welcome : Welcome)
  | done
  | completion (items : List CompletionItem)
  | definition (location : Option Location)
  | signatureHelp (help : Option SignatureHelp)
  | highlight (data : List Nat)
  deriving DecidableEq, Repr

inductive RequestError where
  | notInitialized
  | invalidRequest
  | methodNotFound
  | invalidParams (fault : Url.Fault) (url : String)
  | failed (error : LookupError)

def RequestError.code : RequestError → Int
  | notInitialized => -32002
  | invalidRequest => -32600
  | methodNotFound => -32601
  | invalidParams .. => -32602
  | failed _ => -32603

def RequestError.message : RequestError → String
  | notInitialized => "Server not initialized"
  | invalidRequest => "Invalid request"
  | methodNotFound => "Method not found"
  | invalidParams fault url => fault.message ++ ": " ++ Text.quoted url
  | failed error => error.message

end ScriptIndex.Server
