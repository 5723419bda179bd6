import ScriptIndex.Url.Escape

/-!
# Path segments

A path is built from left to right. A segment of one dot is left out, and one of two dots takes the
segment before it away, unless that is a drive letter.
-/
namespace ScriptIndex.Url

/-- A letter followed by a colon or a bar. -/
def isDriveLetter : List Char → Bool
  | [a, b] => a.isAlpha && (b == ':' || b == '|')
  | _ => false

/-- A drive letter is written with a colon. -/
def normalDrive (segment : List Char) : List Char :=
  if isDriveLetter segment then segment.take 1 ++ [':'] else segment

def isSingleDot (segment : List Char) : Bool :=
  [".", "%2e", "%2E"].any (·.toList == segment)

def isDoubleDot (segment : List Char) : Bool :=
  ["..", ".%2e", ".%2E", "%2e.", "%2E.", "%2e%2e", "%2e%2E", "%2E%2e", "%2E%2E"].any
    (·.toList == segment)

/-- The segments without the last one, which stays if it is a drive letter. -/
def shorten (segments : List String) : List String :=
  match segments.getLast? with
  | some last => if isDriveLetter last.toList then segments else segments.dropLast
  | none => segments

/-- Takes in the next segment of a written path; `slash` tells whether a slash ends it. -/
def pushWritten (file slash : Bool) (segments : List String) (segment : List Char) : List String :=
  if isDoubleDot segment then
    if slash then shorten segments else shorten segments ++ [""]
  else if isSingleDot segment then
    if slash then segments else segments ++ [""]
  else
    let segment := if file && segments.isEmpty then normalDrive segment else segment
    segments ++ [String.ofList (escape pathSet segment)]

/-- Reads a written path after its first slash. -/
def writtenSegments (file special : Bool) (segments : List String) (current : List Char) :
    List Char → List String
  | [] => pushWritten file false segments current.reverse
  | c :: cs =>
    if c == '/' || (special && c == '\\') then
      writtenSegments file special (pushWritten file true segments current.reverse) [] cs
    else writtenSegments file special segments (c :: current) cs

/-- The segments of a file path, which do not start with empty ones. -/
def trimEmpty (segments : List String) : List String :=
  match segments.dropWhile (· == "") with
  | [] => [""]
  | rest => rest

def isSkipped (c : Char) : Bool := c == '\t' || c == '\n' || c == '\r'

/-- Adds a segment that is given by its name to the segments of a file path. -/
def pushName (segments : List String) (name : List Char) : List String :=
  let front := if segments == [""] then [] else segments
  let name := name.filter fun c => !isSkipped c
  trimEmpty
    (if name == ['.', '.'] then shorten front ++ [""]
    else if name == ['.'] then front ++ [""]
    else
      let name := if front.isEmpty then normalDrive name else name
      front ++ [String.ofList (escape segmentSet name)])

/-- The segments of a file path that is given by names. Dot names are left out. -/
def namedSegments (names : List (List Char)) : List String :=
  (names.filter fun name => name != ['.'] && name != ['.', '.']).foldl pushName [""]

end ScriptIndex.Url
