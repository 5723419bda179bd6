import ScriptIndex.Resource
import ScriptIndex.Text.Position

/-!
# Locations of facts
-/
namespace ScriptIndex

/-- A range of a resource, given by its URL. -/
structure Location where
  url : Url
  start : Position
  stop : Position
  deriving DecidableEq, Repr

def Location.ofName? (resource : String) (position : Position) (name : String) : Option Location :=
  (Resource.url? resource).map fun url => ⟨url, position, position.shift name.utf8ByteSize⟩

end ScriptIndex
