import ScriptIndex.Disk.Path
import ScriptIndex.Text.Lossy
import ScriptIndex.Url.Basic
import ScriptIndex.Url.Escape

/-!
# URLs of paths

A URL with segments stands for an absolute path, and every absolute path has a URL.
-/
namespace ScriptIndex.Url

open Text

/-- A path that ends in a drive letter gets a slash after it. -/
def closeDrive (path : List UInt8) : List UInt8 :=
  match path.reverse with
  | mark :: letter :: _ :: _ =>
    if (mark == 0x3A || mark == 0x7C) && (Char.ofNat letter.toNat).isAlpha then path ++ [0x2F]
    else path
  | _ => path

/-- The path that a URL stands for, when it has segments and no foreign host. -/
def diskPath? (url : Url) : Option DiskPath :=
  match url.path with
  | .rootless _ | .rooted [] => none
  | .rooted segments =>
    let host := url.authority.elim "" Authority.host
    if host = "" ∨ host = "localhost" then
      let path := segments.flatMap fun segment => 0x2F :: unescape (bytes segment.toList)
      some ⟨shown (closeDrive path)⟩
    else none

/-- The URL of the path along names that are given by their bytes. -/
def ofNameBytes (names : List (List UInt8)) : Url :=
  let segments := names.map fun name => String.ofList (escapeBytes segmentSet name)
  { scheme := "file"
    authority := some {}
    path := .rooted (if segments.isEmpty then [""] else segments) }

def ofDiskPath? (path : DiskPath) : Option Url :=
  if path.isAbsolute then some (ofNameBytes (DiskPath.nameBytes path.parts)) else none

end ScriptIndex.Url
