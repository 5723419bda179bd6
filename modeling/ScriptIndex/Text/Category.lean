import ScriptIndex.Text.Blank
import ScriptIndex.Text.CategoryTable
import ScriptIndex.Text.PropertyTable
import ScriptIndex.Text.Word

/-!
# Unicode properties by name

A property is asked for by one of its names. Case, spaces, hyphens and underscores of a name do not
matter, nor does a leading `is`.
-/
namespace ScriptIndex.Text

def hexDigit? (c : Char) : Option Nat :=
  let n := c.toNat
  if 0x30 ≤ n && n ≤ 0x39 then some (n - 0x30)
  else if 0x41 ≤ n && n ≤ 0x46 then some (n - 0x37)
  else if 0x61 ≤ n && n ≤ 0x66 then some (n - 0x57)
  else none

/-- The value of a run of hexadecimal digits; other characters count as zero. -/
def hexValue (cs : List Char) : Nat := cs.foldl (fun n c => 16 * n + (hexDigit? c).getD 0) 0

/-- Reads ranges that are written in hexadecimal. -/
def readRanges (table : String) : List (Nat × Nat) :=
  (fields isBlank table.toList).map fun range =>
    let lo := hexValue (range.takeWhile (· != '-'))
    match range.dropWhile (· != '-') with
    | _ :: hi => (lo, hexValue hi)
    | [] => (lo, lo)

def tableRanges (table : List (String × String)) (names : List String) : List (Nat × Nat) :=
  (table.filter fun entry => names.contains entry.1).flatMap fun entry => readRanges entry.2

/-- The code points outside ascending ranges, from `start` on. -/
def gaps (start : Nat) : List (Nat × Nat) → List (Nat × Nat)
  | [] => if start ≤ 0x10FFFF then [(start, 0x10FFFF)] else []
  | (lo, hi) :: ranges =>
    (if start < lo then [(start, lo - 1)] else []) ++ gaps (max start (hi + 1)) ranges

def unassigned : List (Nat × Nat) :=
  let assigned := (categoryTable.flatMap fun entry => readRanges entry.2) ++ [(0xD800, 0xDFFF)]
  gaps 0 (assigned.mergeSort fun a b => a.1 ≤ b.1)

/-- A name in the form in which names are compared. -/
def looseName (name : List Char) : String :=
  let kept := (name.filter fun c => !(isBlank c || c == '_' || c == '-') && c.toNat < 128).map
    Char.toLower
  match kept with
  | 'i' :: 's' :: rest => if rest == ['c'] then "isc" else String.ofList rest
  | _ => String.ofList kept

/-- The short names of the categories that a category name stands for. -/
def categoryNames? (name : String) : Option (List String) :=
  match name with
  | "l" | "letter" => some ["lu", "ll", "lt", "lm", "lo"]
  | "lc" | "casedletter" => some ["lu", "ll", "lt"]
  | "m" | "mark" | "combiningmark" => some ["mn", "mc", "me"]
  | "n" | "number" => some ["nd", "nl", "no"]
  | "p" | "punct" | "punctuation" => some ["pc", "pd", "ps", "pe", "pi", "pf", "po"]
  | "s" | "symbol" => some ["sm", "sc", "sk", "so"]
  | "z" | "separator" => some ["zs", "zl", "zp"]
  | "lu" | "uppercaseletter" => some ["lu"]
  | "ll" | "lowercaseletter" => some ["ll"]
  | "lt" | "titlecaseletter" => some ["lt"]
  | "lm" | "modifierletter" => some ["lm"]
  | "lo" | "otherletter" => some ["lo"]
  | "mn" | "nonspacingmark" => some ["mn"]
  | "mc" | "spacingmark" => some ["mc"]
  | "me" | "enclosingmark" => some ["me"]
  | "nd" | "decimalnumber" | "digit" => some ["nd"]
  | "nl" | "letternumber" => some ["nl"]
  | "no" | "othernumber" => some ["no"]
  | "pc" | "connectorpunctuation" => some ["pc"]
  | "pd" | "dashpunctuation" => some ["pd"]
  | "ps" | "openpunctuation" => some ["ps"]
  | "pe" | "closepunctuation" => some ["pe"]
  | "pi" | "initialpunctuation" => some ["pi"]
  | "pf" | "finalpunctuation" => some ["pf"]
  | "po" | "otherpunctuation" => some ["po"]
  | "sm" | "mathsymbol" => some ["sm"]
  | "sc" | "currencysymbol" => some ["sc"]
  | "sk" | "modifiersymbol" => some ["sk"]
  | "so" | "othersymbol" => some ["so"]
  | "zs" | "spaceseparator" => some ["zs"]
  | "zl" | "lineseparator" => some ["zl"]
  | "zp" | "paragraphseparator" => some ["zp"]
  | "cc" | "control" | "cntrl" => some ["cc"]
  | "cf" | "format" => some ["cf"]
  | "co" | "privateuse" => some ["co"]
  | "cs" | "surrogate" => some []
  | _ => none

def categoryRanges? (name : String) : Option (List (Nat × Nat)) :=
  match name with
  | "any" => some [(0, 0x10FFFF)]
  | "ascii" => some [(0, 0x7F)]
  | "assigned" => some (categoryTable.flatMap fun entry => readRanges entry.2)
  | "cn" | "unassigned" => some unassigned
  | "c" | "other" => some (tableRanges categoryTable ["cc", "cf", "co"] ++ unassigned)
  | _ => (categoryNames? name).map (tableRanges categoryTable)

def scriptName (name : String) : String :=
  match name with
  | "latn" => "latin"
  | "grek" => "greek"
  | "cyrl" => "cyrillic"
  | "hani" => "han"
  | "hira" => "hiragana"
  | "kana" => "katakana"
  | "hang" => "hangul"
  | "arab" => "arabic"
  | "hebr" => "hebrew"
  | "deva" => "devanagari"
  | _ => name

def scriptRanges? (name : String) : Option (List (Nat × Nat)) :=
  (scriptTable.find? fun entry => entry.1 == scriptName name).map fun entry => readRanges entry.2

def flagRanges? (name : String) : Option (List (Nat × Nat)) :=
  match name with
  | "alphabetic" | "alpha" => some (readRanges alphabeticTable)
  | "uppercase" | "upper" =>
    some (tableRanges categoryTable ["lu"] ++ readRanges otherUppercaseTable)
  | "lowercase" | "lower" =>
    some (tableRanges categoryTable ["ll"] ++ readRanges otherLowercaseTable)
  | "whitespace" | "wspace" | "space" =>
    some (readRanges "9-d 20 85 a0 1680 2000-200a 2028 2029 202f 205f 3000")
  | "asciihexdigit" | "ahex" => some (readRanges "30-39 41-46 61-66")
  | "hexdigit" | "hex" => some (readRanges "30-39 41-46 61-66 ff10-ff19 ff21-ff26 ff41-ff46")
  | "joincontrol" | "joinc" => some [(0x200C, 0x200D)]
  | "graphemeextend" | "grext" => some (readRanges graphemeExtendTable)
  | _ => none

/-- The code points of a property without a value: a flag, a category or a script. -/
def propertyRanges? (name : List Char) : Option (List (Nat × Nat)) :=
  let key := looseName name
  ((flagRanges? key).or (categoryRanges? key)).or (scriptRanges? key)

/-- The code points for which a property has a value. -/
def valueRanges? (property value : List Char) : Option (List (Nat × Nat)) :=
  match looseName property with
  | "gc" | "generalcategory" => categoryRanges? (looseName value)
  | "sc" | "script" | "scx" | "scriptextensions" => scriptRanges? (looseName value)
  | _ => none

end ScriptIndex.Text
