import ScriptIndex.Pattern.Machine
import ScriptIndex.Text.Lines
import ScriptIndex.Text.Position

/-!
# Misc tokens

A misc token is a name that a pattern finds in an include file: its first group is the name, and for
a define its second group is the value.
-/
namespace ScriptIndex

inductive TokenType where
  | special
  | define
  | other (tag : String)
  deriving DecidableEq, Repr

namespace TokenType

def ofTag (tag : String) : TokenType :=
  if tag = "special" then .special else if tag = "define" then .define else .other tag

def tag : TokenType → String
  | special => "special"
  | define => "define"
  | other tag => tag

end TokenType

structure MiscToken where
  name : String
  position : Position
  type : TokenType
  resource : String
  value : Option String
  deriving DecidableEq, Repr

namespace MiscToken

/-- The value of a match: the second group, for a define. -/
def valueOf (type : TokenType) (line : List Char) (slots : Pattern.Slots) : Option String :=
  match type with
  | .define => (Pattern.captured? line slots 2).map fun found => String.ofList found.2
  | .special | .other _ => none

/-- The token of a match, when the first group took part in it. -/
def ofMatch? (type : TokenType) (resource : String) (number : Nat) (line : List Char)
    (slots : Pattern.Slots) : Option MiscToken :=
  (Pattern.captured? line slots 1).map fun (offset, name) =>
    { name := String.ofList name
      position := .clipped number offset
      type
      resource
      value := valueOf type line slots }

/-- The tokens that a pattern finds in a text, line by line. -/
def extract (content : String) (pattern : Pattern.Program) (type : TokenType) (resource : String) :
    List MiscToken :=
  (Text.lines content.toList).zipIdx.flatMap fun (line, number) =>
    (pattern.findAll line).filterMap (ofMatch? type resource number line)

/-- The tokens that a pattern given as text finds; a text that is no pattern finds none. -/
def extractWith (content expression : String) (type : TokenType) (resource : String) :
    List MiscToken :=
  match Pattern.compile? expression with
  | some pattern => extract content pattern type resource
  | none => []

end MiscToken
end ScriptIndex
