import ScriptIndex.Command.Basic
import ScriptIndex.Declaration
import ScriptIndex.Text.Lines

/-!
# Constants of include files

An assembler constant is a line `NAME = value`. A movement constant is declared by
`create_movement_action NAME` and may name its value after a comma.
-/
namespace ScriptIndex.Command

open Text

/-- Name and value of the assembler constant that a line declares. -/
def assignment? (line : List Char) : Option (List Char × List Char) :=
  let afterBlanks := line.dropWhile isBlank
  let name := afterBlanks.takeWhile isWordChar
  match (afterBlanks.dropWhile isWordChar).dropWhile isBlank with
  | '=' :: rest =>
    let value := trim rest
    if name.isEmpty || value.isEmpty then none else some (name, value)
  | _ => none

/-- The name after a comma at the front of a text. -/
def secondName? (cs : List Char) : Option (List Char) :=
  match cs.dropWhile isBlank with
  | ',' :: rest =>
    let name := (rest.dropWhile isBlank).takeWhile isWordChar
    if name.isEmpty then none else some name
  | _ => none

/-- Name and value of the movement constant that a line declares. -/
def movementAction? (line : List Char) : Option (List Char × List Char) :=
  match Declaration.dropLiteral? "create_movement_action".toList (line.dropWhile isBlank) with
  | none => none
  | some afterKeyword =>
    let afterBlanks := afterKeyword.dropWhile isBlank
    let name := afterBlanks.takeWhile isWordChar
    if (afterKeyword.takeWhile isBlank).isEmpty || name.isEmpty then none
    else some (name, (secondName? (afterBlanks.dropWhile isWordChar)).getD [])

def extractAssemblerConstants (content : String) : List Command :=
  (lines content.toList).filterMap fun line =>
    (assignment? line).map fun (name, value) =>
      { name := String.ofList name, kind := .assemblerConstant, detail := String.ofList value }

def extractMovementConstants (content : String) : List Command :=
  (lines content.toList).filterMap fun line =>
    (movementAction? line).map fun (name, value) =>
      { name := String.ofList name, kind := .movementConstant, detail := String.ofList value }

end ScriptIndex.Command
