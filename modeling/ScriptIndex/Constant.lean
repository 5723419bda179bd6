import ScriptIndex.Comment
import ScriptIndex.Declaration
import ScriptIndex.Text.Lines
import ScriptIndex.Text.Position

/-!
# Constants of a script

A constant is declared outside comments by `const NAME =`. Its position is that of its name.
-/
namespace ScriptIndex

structure Constant where
  name : String
  position : Position
  resource : String
  deriving DecidableEq, Repr

namespace Constant

/-- The constants of a line, by name and byte offset. -/
def inLine (line : List Char) : List (Nat × List Char) :=
  Declaration.findAll "const".toList '=' (Comment.before line)

def extract (content resource : String) : List Constant :=
  (Text.lines content.toList).zipIdx.flatMap fun (line, number) =>
    (inLine line).map fun (offset, name) =>
      ⟨String.ofList name, Position.clipped number offset, resource⟩

end Constant
end ScriptIndex
