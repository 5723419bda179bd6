import ScriptIndex.Url.OnDisk
import ScriptIndex.Url.Parse

/-!
# Resource ids

A resource id is the unescaped text of a URL, or the path of an include file. Ids are compared as
texts, so every id is brought into this form before it is used as a key.
-/
namespace ScriptIndex.Resource

open Text

/-- An id with its escapes replaced. An id whose bytes are no text then stays as it is. -/
def canonical (id : String) : String := (decode? (Url.unescape (bytes id.toList))).getD id

def ofUrl (url : Url) : String := canonical url.text

def ofPath? (path : DiskPath) : Option String := (Url.ofDiskPath? path).map ofUrl

/-- The id of the file along names that are given by their bytes. -/
def ofNameBytes (names : List (List UInt8)) : String := ofUrl (Url.ofNameBytes names)

/-- The start of the ids of files. -/
def fileMark : String := "file://"

def isFile (id : String) : Bool := fileMark.toList.isPrefixOf id.toList

def isSource (id : String) : Bool :=
  (splitLast? '.' id.toList).any fun split => split.2 == "pory".toList

/-- The URL of an id. The path of a file id is taken name by name, so that no character of a name is
read as a mark of the URL. -/
def url? (id : String) : Option Url :=
  if isFile id then
    let rest := id.toList.drop fileMark.length
    let host := rest.takeWhile (· != '/')
    let path := (rest.dropWhile (· != '/')).drop 1
    (Url.parse? (fileMark ++ String.ofList host ++ "/")).map fun url =>
      { url with path := .rooted (Url.namedSegments (pieces (· == '/') path)) }
  else Url.parse? id

end ScriptIndex.Resource
