import ScriptIndex.Comment
import ScriptIndex.Declaration
import ScriptIndex.Text.Lines
import ScriptIndex.Text.Position

/-!
# Symbols of a script

A block symbol is declared outside comments by a block keyword, a name and an opening brace. A label
is a name at the start of a line, with an optional scope in parentheses, before a colon.
-/
namespace ScriptIndex

inductive SymbolKind where
  | script
  | movement
  | mart
  | text
  | mapScripts
  | label
  deriving DecidableEq, Repr

def SymbolKind.detail : SymbolKind → String
  | .script => "Script"
  | .movement => "Movement Script"
  | .mart => "Mart Items"
  | .text => "Text"
  | .mapScripts => "Map Scripts"
  | .label => "Label"

structure Symbol where
  name : String
  position : Position
  resource : String
  kind : SymbolKind
  deriving DecidableEq, Repr

namespace Symbol

open Text

/-- The block keywords, in the order in which a line is searched for them. -/
def blockRules : List (String × SymbolKind) :=
  [("script", .script), ("movement", .movement), ("mart", .mart), ("mapscripts", .mapScripts),
    ("text", .text)]

def afterScope? (cs : List Char) : Option (List Char) :=
  match cs with
  | '(' :: cs =>
    let inner := cs.dropWhile isBlank
    let afterWord :=
      (Declaration.dropLiteral? "local".toList inner).or
        (Declaration.dropLiteral? "global".toList inner)
    match afterWord.map (·.dropWhile isBlank) with
    | some (')' :: rest) => some rest
    | _ => none
  | _ => none

/-- The label at the start of a line, by name and byte offset. -/
def labelOf? (line : List Char) : Option (Nat × List Char) :=
  let blanks := line.takeWhile isBlank
  let afterBlanks := line.dropWhile isBlank
  let name := afterBlanks.takeWhile isWordChar
  let afterName := (afterBlanks.dropWhile isWordChar).dropWhile isBlank
  let rest := (afterScope? afterName).getD afterName
  if !name.isEmpty && (rest.dropWhile isBlank).head? = some ':' then
    some (byteLength blanks, name)
  else none

/-- The symbols of a line, by kind, name and byte offset: blocks rule by rule, then the label. -/
def inLine (line : List Char) : List (SymbolKind × Nat × List Char) :=
  let code := Comment.before line
  (blockRules.flatMap fun (keyword, kind) =>
    (Declaration.findAll keyword.toList '\x7b' code).map fun found => (kind, found)) ++
    (labelOf? code).toList.map fun found => (.label, found)

def extract (content resource : String) : List Symbol :=
  (lines content.toList).zipIdx.flatMap fun (line, number) =>
    (inLine line).map fun (kind, offset, name) =>
      ⟨String.ofList name, Position.clipped number offset, resource, kind⟩

end Symbol
end ScriptIndex
