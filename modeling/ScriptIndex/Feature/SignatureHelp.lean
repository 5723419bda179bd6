import ScriptIndex.Cursor.CallSite
import ScriptIndex.Facts
import ScriptIndex.Feature.Completion
import ScriptIndex.Text.Columns

/-!
# Signature help

Inside the parentheses of a call the signature of its command is shown, with the parameter at the
cursor. A vararg stays active for all further arguments.
-/
namespace ScriptIndex

structure SignatureHelp where
  signature : Signature
  documentation : Option String
  activeParameter : Nat
  deriving DecidableEq, Repr

def activeParameter (parameters : List Param) (argument : Nat) : Nat :=
  let last := parameters.length - 1
  if argument > last ∧ (parameters[last]?).any fun p => p.kind = .vararg then last else argument

/-- The help for a cursor in a document; the column counts UTF-16 units. -/
def signatureHelpAt? (facts : Facts) (line character : Nat) : Option SignatureHelp :=
  let column := Text.bytesAtCursor facts.content.toList line character
  match Cursor.callSiteAt facts.content line column with
  | .error _ => none
  | .ok site =>
    match facts.commands.find? site.command with
    | none => none
    | some command =>
      if command.parameters.isEmpty ∨ column ≤ site.openParen.character ∨
          site.closeParen.character < column then none
      else
        let argument := (site.commas.filter fun comma => comma.character < column).length
        some
          { signature := command.signature
            documentation := CompletionItem.nonempty? command.documentation
            activeParameter := Text.clip (activeParameter command.parameters argument) }

end ScriptIndex
