import ScriptIndex.Facts
import ScriptIndex.Highlight.Span
import ScriptIndex.Highlight.Words
import ScriptIndex.Text.Columns

/-!
# Highlighted words

A word is highlighted by what it names: a command, a constant of another line, a symbol or a misc
token. The first of these that gives a kind decides.
-/
namespace ScriptIndex.Highlight

inductive Kind where
  | keyword
  | function
  | enumMember
  | variableName
  deriving DecidableEq, Repr

def Kind.all : List Kind := [.keyword, .function, .enumMember, .variableName]

def Kind.name : Kind → String
  | keyword => "keyword"
  | function => "function"
  | enumMember => "enumMember"
  | variableName => "variable"

def Kind.index : Kind → Nat
  | keyword => 0
  | function => 1
  | enumMember => 2
  | variableName => 3

def commandKind? : CommandKind → Option Kind
  | .macroCall => some .function
  | .assemblerConstant | .movementConstant => some .keyword
  | .keyword => none

def symbolKind? : SymbolKind → Option Kind
  | .script | .mapScripts => some .function
  | .movement | .text => some .variableName
  | .mart | .label => none

def tokenKind : TokenType → Kind
  | .special => .function
  | .define => .enumMember
  | .other _ => .keyword

/-- The kind of a word as a command; `switch` and `case` are never one. -/
def asCommand? (facts : Facts) (word : Word) : Option Kind :=
  if word.text = "switch" ∨ word.text = "case" then none
  else (facts.commands.find? word.text).bind fun c => commandKind? c.kind

/-- The kind of a word as a constant, except on the line that declares it. -/
def asConstant? (facts : Facts) (word : Word) : Option Kind :=
  (facts.constants.find? word.text).bind fun c =>
    if c.position.line = word.line then none else some .enumMember

def kindOf? (facts : Facts) (word : Word) : Option Kind :=
  (((asCommand? facts word).or (asConstant? facts word)).or
    ((facts.symbols.find? word.text).bind fun x => symbolKind? x.kind)).or
      ((facts.miscTokens.find? word.text).map fun t => tokenKind t.type)

/-- The span of a word with its kind; columns count UTF-16 units. -/
def spanOf (word : Word) (kind : Kind) : Span where
  line := word.line
  start := Text.unitsOfBytes word.lineText word.start
  length := Text.clip word.text.utf8ByteSize
  kind := kind.index
  modifiers := 0

def spans (facts : Facts) : List Span :=
  (codeWords facts.content).filterMap fun word => (kindOf? facts word).map (spanOf word)

def tokenData (facts : Facts) : List Nat := encode (spans facts)

end ScriptIndex.Highlight
