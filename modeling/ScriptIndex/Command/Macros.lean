import ScriptIndex.Command.Basic
import ScriptIndex.Declaration
import ScriptIndex.Text.Lines

/-!
# Macro declarations

A line that starts with `.macro` declares a command: its name, and parameters that blanks and commas
separate. The lines directly above it that start with `@` document it.
-/
namespace ScriptIndex.Command

open Text

def dropEnding? (ending cs : List Char) : Option (List Char) :=
  (Declaration.dropLiteral? ending.reverse cs.reverse).map List.reverse

/-- Reads a parameter. The ending `:req` or `:vararg` decides first, then the first equals sign. -/
def paramOf (token : List Char) : Param :=
  match dropEnding? ":req".toList token with
  | some name => ⟨String.ofList name, .required⟩
  | none =>
    match dropEnding? ":vararg".toList token with
    | some name => ⟨String.ofList name, .vararg⟩
    | none =>
      match token.dropWhile (· != '=') with
      | _ :: value =>
        ⟨String.ofList (token.takeWhile (· != '=')), .withDefault (String.ofList value)⟩
      | [] => ⟨String.ofList token, .optional⟩

def isSeparator (c : Char) : Bool := isBlank c || c == ','

/-- Name and parameter text of the macro that a line declares. -/
def macroHead? (line : List Char) : Option (List Char × List Char) :=
  match Declaration.dropLiteral? ".macro".toList (line.dropWhile isBlank) with
  | none => none
  | some afterKeyword =>
    let afterBlanks := afterKeyword.dropWhile isBlank
    let name := afterBlanks.takeWhile isWordChar
    if (afterKeyword.takeWhile isBlank).isEmpty || name.isEmpty then none
    else some (name, afterBlanks.dropWhile isWordChar)

/-- The text of a documentation line: what follows `@` after leading spaces and tabs. -/
def docText? (line : List Char) : Option (List Char) :=
  match line.dropWhile fun c => c == ' ' || c == '\t' with
  | '@' :: text => some (trim text)
  | _ => none

/-- The documentation texts that end just above line `n`, nearest line first. -/
def docBlock (index : NumberedLines) : Nat → List (List Char)
  | 0 => []
  | n + 1 =>
    match (index.line? n).bind docText? with
    | some text => text :: docBlock index n
    | none => []

def documentationAt (index : NumberedLines) (n : Nat) : String :=
  " ".intercalate (((docBlock index n).reverse.filter (!·.isEmpty)).map String.ofList)

def extractMacros (content : String) : List Command :=
  let index := NumberedLines.ofText content.toList
  index.toList.filterMap fun (number, line) =>
    (macroHead? line).map fun (name, params) =>
      { name := String.ofList name
        kind := .macroCall
        documentation := documentationAt index number
        parameters := (fields isSeparator params).map paramOf }

end ScriptIndex.Command
