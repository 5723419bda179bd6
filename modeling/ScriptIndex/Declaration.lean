import ScriptIndex.Text.Blank
import ScriptIndex.Text.Bytes
import ScriptIndex.Text.Word

/-!
# Declarations in a line

A declaration is a keyword that starts a word, at least one blank, a name of word characters,
optional blanks, and a mark such as an equals sign or an opening brace. The search reads a line from
left to right and goes on after the mark of each declaration it finds.
-/
namespace ScriptIndex.Declaration

open Text

/-- A declaration at the front of a text. -/
structure Match where
  /-- The keyword and the blanks after it. -/
  lead : List Char
  name : List Char
  /-- The blanks after the name and the mark. -/
  tail : List Char
  deriving DecidableEq, Repr

def Match.text (m : Match) : List Char := m.lead ++ m.name ++ m.tail

def dropLiteral? : List Char → List Char → Option (List Char)
  | [], cs => some cs
  | _ :: _, [] => none
  | k :: ks, c :: cs => if k = c then dropLiteral? ks cs else none

def match? (keyword : List Char) (mark : Char) (cs : List Char) : Option Match :=
  match dropLiteral? keyword cs with
  | none => none
  | some afterKeyword =>
    let blanks := afterKeyword.takeWhile isBlank
    let afterBlanks := afterKeyword.dropWhile isBlank
    let name := afterBlanks.takeWhile isWordChar
    let afterName := afterBlanks.dropWhile isWordChar
    let gap := afterName.takeWhile isBlank
    if blanks.isEmpty || name.isEmpty then none
    else if (afterName.dropWhile isBlank).head? = some mark then
      some ⟨keyword ++ blanks, name, gap ++ [mark]⟩
    else none

def startsWord (before : Option Char) : Bool := !(before.any isWordChar)

/-- The byte offsets and names of the declarations of a line. -/
def findAll (keyword : List Char) (mark : Char) (line : List Char) : List (Nat × List Char) :=
  go none 0 0 line
where
  /-- `before` is the character just passed, `offset` its end in bytes, and `skip` counts the
  characters of the last declaration that are still to be passed. -/
  go (before : Option Char) (offset : Nat) : Nat → List Char → List (Nat × List Char)
    | _, [] => []
    | skip + 1, c :: cs => go (some c) (offset + c.utf8Size) skip cs
    | 0, c :: cs =>
      match (if startsWord before then match? keyword mark (c :: cs) else none) with
      | some m =>
        (offset + byteLength m.lead, m.name) ::
          go (some c) (offset + c.utf8Size) (m.text.length - 1) cs
      | none => go (some c) (offset + c.utf8Size) 0 cs

end ScriptIndex.Declaration
