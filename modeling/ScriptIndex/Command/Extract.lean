import ScriptIndex.Command.Assignments
import ScriptIndex.Command.Macros

/-!
# Commands of an include file
-/
namespace ScriptIndex.Command

def extract (content : String) : List Command :=
  extractMacros content ++ extractAssemblerConstants content ++ extractMovementConstants content

end ScriptIndex.Command
