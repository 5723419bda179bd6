import ScriptIndex.Cursor.Token
import ScriptIndex.Facts
import ScriptIndex.Feature.Location
import ScriptIndex.Text.Columns

/-!
# Going to a definition

The word under the cursor is looked up among the constants, the symbols and the misc tokens, in this
order. The first that has it decides.
-/
namespace ScriptIndex

def locationOf? (facts : Facts) (name : String) : Option Location :=
  match facts.constants.find? name with
  | some c => Location.ofName? c.resource c.position c.name
  | none =>
    match facts.symbols.find? name with
    | some x => Location.ofName? x.resource x.position x.name
    | none =>
      (facts.miscTokens.find? name).bind fun t => Location.ofName? t.resource t.position t.name

/-- Where the word under a cursor is declared; the column counts UTF-16 units. -/
def definitionAt? (facts : Facts) (line character : Nat) : Option Location :=
  let column := Text.bytesAtCursor facts.content.toList line character
  let token := Cursor.wordAt facts.content line column
  if token.isEmpty then none else locationOf? facts token

end ScriptIndex
