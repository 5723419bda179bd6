import ScriptIndex.Text.Bytes
import ScriptIndex.Text.Pieces

/-!
# Paths

A path is kept as it is written. Two paths are the same when they have the same parts, so doubled
slashes and dots between slashes make no difference.
-/
namespace ScriptIndex

structure DiskPath where
  text : String
  deriving DecidableEq, Repr

namespace DiskPath

open Text

def pieces (path : DiskPath) : List String :=
  (Text.pieces (· == '/') path.text.toList).map String.ofList

def isAbsolute (path : DiskPath) : Bool := path.text.toList.head? == some '/'

/-- The pieces that lead somewhere: empty pieces and dots are left out, but for a dot at the start of
a path that is not absolute. -/
def parts (path : DiskPath) : List String :=
  match path.pieces with
  | [] => []
  | first :: rest => [first].filter (· != "") ++ rest.filter fun piece => piece != "" && piece != "."

def nameBytes (names : List String) : List (List UInt8) := names.map fun name => bytes name.toList

def same (p q : DiskPath) : Bool := p.isAbsolute == q.isAbsolute && p.parts == q.parts

/-- A path continued by another one; an absolute path stands for itself. -/
def join (path : DiskPath) (next : String) : DiskPath :=
  if isAbsolute ⟨next⟩ then ⟨next⟩
  else if path.text.isEmpty || path.text.toList.getLast? == some '/' then ⟨path.text ++ next⟩
  else ⟨path.text ++ "/" ++ next⟩

/-- What follows the last dot of the last part, when something stands before that dot. -/
def extension? (path : DiskPath) : Option String :=
  match path.parts.getLast?.bind fun name => splitLast? '.' name.toList with
  | some (_ :: _, after) => some (String.ofList after)
  | _ => none

end DiskPath
end ScriptIndex
