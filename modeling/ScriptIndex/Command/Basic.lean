import ScriptIndex.Text.Bytes

/-!
# Commands

A command is a name that a script may use as a statement or as an operand of one: a macro with its
parameters, a constant of the assembler, a movement, or a keyword of the script language.
-/
namespace ScriptIndex

inductive CommandKind where
  | macroCall
  | assemblerConstant
  | movementConstant
  | keyword
  deriving DecidableEq, Repr

inductive ParamKind where
  | required
  | withDefault (value : String)
  | optional
  | vararg
  deriving DecidableEq, Repr

structure Param where
  name : String
  kind : ParamKind
  deriving DecidableEq, Repr

namespace Param

def default? (p : Param) : Option String :=
  match p.kind with
  | .withDefault value => some value
  | .required | .optional | .vararg => none

def label (p : Param) : String :=
  match p.kind with
  | .required => p.name
  | .withDefault value => p.name ++ "=" ++ value
  | .optional => p.name ++ "?"
  | .vararg => p.name ++ "..."

end Param

structure Command where
  name : String
  kind : CommandKind
  documentation : String := ""
  detail : String := ""
  /-- The snippet that an editor inserts in place of the name. -/
  insertText : Option String := none
  parameters : List Param := []
  deriving DecidableEq, Repr

/-- A call as it is shown, with the byte range of each parameter in it. -/
structure Signature where
  label : String
  ranges : List (Nat × Nat)
  deriving DecidableEq, Repr

namespace Command

/-- The ranges of texts that stand one after the other from byte `start`, two bytes apart. -/
def rangesFrom (start : Nat) : List String → List (Nat × Nat)
  | [] => []
  | text :: texts =>
    let stop := start + text.utf8ByteSize
    (Text.clip start, Text.clip stop) :: rangesFrom (stop + 2) texts

def signature (c : Command) : Signature :=
  let labels := c.parameters.map Param.label
  { label := c.name ++ "(" ++ ", ".intercalate labels ++ ")"
    ranges := rangesFrom (c.name.utf8ByteSize + 1) labels }

end Command
end ScriptIndex
