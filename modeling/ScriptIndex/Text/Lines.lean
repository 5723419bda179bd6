/-!
# Lines of a text

There are two views of the lines. `lines` ends each line at a line feed and drops the carriage
return that stands before it. `NumberedLines` keeps where each line starts and drops a carriage return
at the end of every line, also of a last line that no line feed ends.
-/
namespace ScriptIndex.Text

/-- A line without the carriage return at its end, both written last character first. -/
def dropReturn : List Char → List Char
  | '\r' :: cs => cs
  | cs => cs

def lines (cs : List Char) : List (List Char) := go [] cs
where
  /-- `acc` is the line read so far, last character first. -/
  go (acc : List Char) : List Char → List (List Char)
    | [] => if acc.isEmpty then [] else [acc.reverse]
    | c :: cs => if c = '\n' then (dropReturn acc).reverse :: go [] cs else go (c :: acc) cs

/-- Where the lines after the first one start, when `i` characters stand before the text. -/
def laterStarts (i : Nat) : List Char → List Nat
  | [] => []
  | [_] => []
  | c :: d :: cs =>
    if c = '\n' then (i + 1) :: laterStarts (i + 1) (d :: cs) else laterStarts (i + 1) (d :: cs)

/-- A text with the offset of the first character of each line. -/
structure NumberedLines where
  text : Array Char
  starts : Array Nat

namespace NumberedLines

def ofText (cs : List Char) : NumberedLines where
  text := cs.toArray
  starts := (if cs.isEmpty then [] else 0 :: laterStarts 0 cs).toArray

def size (index : NumberedLines) : Nat := index.starts.size

def stop (index : NumberedLines) (i : Nat) : Nat :=
  match index.starts[i + 1]? with
  | some next => next - 1
  | none => if index.text.back? = some '\n' then index.text.size - 1 else index.text.size

def line? (index : NumberedLines) (i : Nat) : Option (List Char) :=
  (index.starts[i]?).map fun start =>
    (dropReturn (index.text.extract start (index.stop i)).toList.reverse).reverse

def toList (index : NumberedLines) : List (Nat × List Char) :=
  (List.range index.size).filterMap fun i => (index.line? i).map fun line => (i, line)

end NumberedLines
end ScriptIndex.Text
