import ScriptIndex.Pattern.Reader

/-!
# Escapes

An escape stands for a character, for a class of characters, or for a condition on a place. Back
references are no escapes.
-/
namespace ScriptIndex.Pattern

open Text Reader

/-- What an escape or a plain character stands for. -/
inductive Atom where
  /-- A character; `byte` tells whether it was written as two hexadecimal digits. -/
  | literal (c : Char) (byte : Bool)
  | set (chars : CharSet)
  | look (condition : Look)

def isMeta (c : Char) : Bool := "\\.+*?()|[]\x7b\x7d^$#&-~".toList.contains c

/-- Characters that a backslash may stand in front of without changing them. -/
def isEscapable (c : Char) : Bool :=
  isMeta c || (c.toNat < 128 && !c.isAlphanum && c != '<' && c != '>')

def charAt? (n : Nat) : Option Char := if h : n.isValidChar then some (Char.ofNatAux n h) else none

def readHexDigits : Nat → Nat → Reader Nat
  | 0, value => return value
  | count + 1, value => do
    let some digit := hexDigit? (← char) | failure
    bumpSpace
    readHexDigits count (16 * value + digit)

def readHexBrace : Nat → List Nat → Reader Nat
  | 0, _ => failure
  | rounds + 1, digits => do
    bumpSpace!
    let c ← char
    if c == '\x7d' then
      bumpSpace
      if digits.isEmpty then failure
      return digits.reverse.foldl (fun n d => 16 * n + d) 0
    let some digit := hexDigit? c | failure
    readHexBrace rounds (digit :: digits)

/-- Reads a code point after `x`, `u` or `U`. -/
def readHex (count : Nat) : Reader Atom := do
  bumpSpace!
  let braced := (← char) == '\x7b'
  let value ← if braced then readHexBrace ((← get).rest.length + 1) [] else readHexDigits count 0
  let some c := charAt? value | failure
  return .literal c (count == 2 && !braced)

def readPropertyName : Nat → List Char → Reader (List Char)
  | 0, _ => failure
  | rounds + 1, name => do
    bumpSpace!
    let c ← char
    if c == '\x7d' then
      bump
      return name.reverse
    readPropertyName rounds (c :: name)

def splitAt? (mark : List Char) : List Char → Option (List Char × List Char)
  | [] => none
  | c :: cs =>
    if mark.isPrefixOf (c :: cs) then some ([], (c :: cs).drop mark.length)
    else (splitAt? mark cs).map fun (a, b) => (c :: a, b)

/-- The characters of a property; the flag tells whether they are left out. -/
def propertySet? (name : List Char) : Option (CharSet × Bool) :=
  match splitAt? ['!', '='] name with
  | some (property, value) => (valueRanges? property value).map fun rs => (.table rs, true)
  | none =>
    match (splitAt? [':'] name).or (splitAt? ['='] name) with
    | some (property, value) => (valueRanges? property value).map fun rs => (.table rs, false)
    | none => (propertyRanges? name).map fun rs => (.table rs, false)

/-- The set in every case, when the flags say so. -/
def foldSet (flags : Flags) (s : CharSet) : CharSet := if flags.anyCase then .anyCase s else s

def negate (negated : Bool) (s : CharSet) : CharSet := if negated then .compl s else s

def readProperty : Reader CharSet := do
  let negated := (← char) == 'P'
  bumpSpace!
  let c ← char
  let name ←
    if c == '\x7b' then readPropertyName ((← get).rest.length + 1) []
    else if c == '\\' then failure
    else do
      bumpSpace
      pure [c]
  let flags := (← get).flags
  if !flags.unicode then failure
  let some (s, unequal) := propertySet? name | failure
  return negate (negated != unequal) (foldSet flags s)

/-- The class of a letter such as `d`, with the upper case letter for its complement. -/
def letterClass? (flags : Flags) (c : Char) : Option CharSet :=
  match c with
  | 'd' => some (if flags.unicode then .digit else .asciiDigit)
  | 's' => some (if flags.unicode then .blank else .asciiBlank)
  | 'w' => some (if flags.unicode then .word else .asciiWord)
  | 'D' => some (.compl (if flags.unicode then .digit else .asciiDigit))
  | 'S' => some (.compl (if flags.unicode then .blank else .asciiBlank))
  | 'W' => some (.compl (if flags.unicode then .word else .asciiWord))
  | _ => none

def isEdgeChar (c : Char) : Bool := c.isAlpha || c == '-'

def readEdgeName : Nat → List Char → Reader (List Char)
  | 0, _ => failure
  | rounds + 1, name => do
    match ← peek with
    | some c =>
      if isEdgeChar c then
        bumpSpace
        readEdgeName rounds (c :: name)
      else return name.reverse
    | none => return name.reverse

/-- Reads what follows `\b`: the name of an edge in braces, or nothing. -/
def readEdge : Reader WordEdge := do
  if (← peek) != some '\x7b' then return .boundary
  let saved ← get
  bumpSpace!
  if !isEdgeChar (← char) then
    set saved
    return .boundary
  let name ← readEdgeName ((← get).rest.length + 1) []
  if (← peek) != some '\x7d' then failure
  bump
  match String.ofList name with
  | "start" => return .start
  | "end" => return .stop
  | "start-half" => return .startHalf
  | "end-half" => return .stopHalf
  | _ => failure

def readEscape : Reader Atom := do
  bump
  let c ← char
  let flags := (← get).flags
  match c with
  | 'x' => readHex 2
  | 'u' => readHex 4
  | 'U' => readHex 8
  | 'p' | 'P' => return .set (← readProperty)
  | _ =>
    bump
    if let some s := letterClass? flags c then return .set s
    if isEscapable c then return .literal c false
    match c with
    | 'a' => return .literal '\x07' false
    | 'f' => return .literal '\x0c' false
    | 't' => return .literal '\t' false
    | 'n' => return .literal '\n' false
    | 'r' => return .literal '\r' false
    | 'v' => return .literal '\x0b' false
    | 'A' => return .look .startText
    | 'z' => return .look .stopText
    | 'b' => return .look (.word (← readEdge) flags.unicode)
    | 'B' => return .look (.word .inside flags.unicode)
    | '<' => return .look (.word .start flags.unicode)
    | '>' => return .look (.word .stop flags.unicode)
    | _ => failure

end ScriptIndex.Pattern
