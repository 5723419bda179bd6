import ScriptIndex.Text.Bytes
import ScriptIndex.Text.Lines
import ScriptIndex.Text.Word

/-!
# Words of a document

Words are read outside strings, raw blocks and comments. A string ends with its line at the latest,
while a raw block goes on until the next backquote. A run of word bytes that starts with a digit is
no word.
-/
namespace ScriptIndex.Highlight

open Text

structure Word where
  line : Nat
  /-- Byte column of the first byte. -/
  start : Nat
  text : String
  /-- The line that holds the word. -/
  lineText : List Char
  deriving DecidableEq, Repr

/-- Where the scan of a line stands. -/
inductive Mode where
  | code
  /-- Inside a word; `run` holds its bytes, last one first. -/
  | word (run : List UInt8)
  | string
  /-- After a backslash in a string. -/
  | escaped
  | raw
  deriving DecidableEq, Repr

/-- The word that ends before column `column`, unless it starts with a digit. -/
def finishWord (column : Nat) (run : List UInt8) : List (Nat × List UInt8) :=
  let text := run.reverse
  if text.head?.any isWordStartByte then [(column - text.length, text)] else []

/-- The mode after a byte in code that is neither a word byte nor the start of a comment. -/
def codeStep (b : UInt8) : Mode :=
  if b = 0x60 then .raw else if b = 0x22 then .string else .code

def startsComment : List UInt8 → Bool
  | [] => false
  | [b] => b == 0x23
  | b :: c :: _ => b == 0x23 || (b == 0x2F && c == 0x2F)

/-- The words of a line with their columns, and whether a raw block is still open at its end. -/
def scanLine : Mode → Nat → List UInt8 → List (Nat × List UInt8) × Bool
  | .raw, _, [] => ([], true)
  | .word run, column, [] => (finishWord column run, false)
  | _, _, [] => ([], false)
  | .raw, column, b :: bs => scanLine (if b = 0x60 then .code else .raw) (column + 1) bs
  | .string, column, b :: bs =>
    scanLine (if b = 0x22 then .code else if b = 0x5C then .escaped else .string) (column + 1) bs
  | .escaped, column, _ :: bs => scanLine .string (column + 1) bs
  | .code, column, b :: bs =>
    if isWordByte b then scanLine (.word [b]) (column + 1) bs
    else if startsComment (b :: bs) then ([], false)
    else scanLine (codeStep b) (column + 1) bs
  | .word run, column, b :: bs =>
    if isWordByte b then scanLine (.word (b :: run)) (column + 1) bs
    else if startsComment (b :: bs) then (finishWord column run, false)
    else
      let (words, openRaw) := scanLine (codeStep b) (column + 1) bs
      (finishWord column run ++ words, openRaw)

/-- The words of the lines from number `number` on; `inRaw` tells whether a raw block is open. -/
def scanLines (inRaw : Bool) (number : Nat) : List (List Char) → List Word
  | [] => []
  | line :: rest =>
    let (words, openRaw) := scanLine (if inRaw then .raw else .code) 0 (bytes line)
    (words.map fun (start, text) => ⟨clip number, start, ofAscii text, line⟩) ++
      scanLines openRaw (number + 1) rest

def codeWords (content : String) : List Word := scanLines false 0 (lines content.toList)

end ScriptIndex.Highlight
