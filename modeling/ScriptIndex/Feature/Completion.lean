import ScriptIndex.Facts

/-!
# Completion

Every name that a document may use is offered: commands, constants, symbols and misc tokens, each
group in the order of its names.
-/
namespace ScriptIndex

inductive CompletionKind where
  | function
  | field
  | value
  | keyword
  | constant
  deriving DecidableEq, Repr

structure CompletionItem where
  label : String
  kind : CompletionKind
  detail : Option String := none
  documentation : Option String := none
  /-- The snippet to insert in place of the label. -/
  snippet : Option String := none
  deriving DecidableEq, Repr

namespace CompletionItem

def nonempty? (text : String) : Option String := if text.isEmpty then none else some text

def commandKind : CommandKind → CompletionKind
  | .macroCall => .function
  | .assemblerConstant | .movementConstant => .constant
  | .keyword => .keyword

/-- The detail of a command; a macro with parameters and no detail shows how it is called. -/
def commandDetail (c : Command) : Option String :=
  if c.kind = .macroCall ∧ c.detail.isEmpty ∧ ¬c.parameters.isEmpty then some c.signature.label
  else nonempty? c.detail

def ofCommand (c : Command) : CompletionItem where
  label := c.name
  kind := commandKind c.kind
  detail := commandDetail c
  documentation := nonempty? c.documentation
  snippet := c.insertText

def ofConstant (c : Constant) : CompletionItem where
  label := c.name
  kind := .constant

def symbolKind : SymbolKind → CompletionKind
  | .script | .mapScripts | .label => .function
  | .movement | .mart | .text => .field

def ofSymbol (x : Symbol) : CompletionItem where
  label := x.name
  kind := symbolKind x.kind
  detail := some x.kind.detail

def tokenKind : TokenType → CompletionKind
  | .special => .function
  | .define => .constant
  | .other _ => .value

def tokenDetail (t : MiscToken) : Option String :=
  match t.type with
  | .special => some "Special Function"
  | .define => t.value
  | .other _ => none

def ofMiscToken (t : MiscToken) : CompletionItem where
  label := t.name
  kind := tokenKind t.type
  detail := tokenDetail t

end CompletionItem

def completions (facts : Facts) : List CompletionItem :=
  facts.commands.values.map .ofCommand ++ facts.constants.values.map .ofConstant ++
    facts.symbols.values.map .ofSymbol ++ facts.miscTokens.values.map .ofMiscToken

end ScriptIndex
