import ScriptIndex.MiscToken
import ScriptIndex.Settings.Value

/-!
# Settings

The settings of a resource name the include files that declare commands, and the include files that a
pattern is searched for to find misc tokens. An include whose expression is no pattern is disabled.
-/
namespace ScriptIndex

/-- A file in which a pattern finds misc tokens. -/
structure PatternInclude where
  expression : String
  type : TokenType
  file : String
  /-- The pattern of the expression, if it is one. -/
  pattern : Option Pattern.Program
  compiled : pattern = Pattern.compile? expression
  deriving DecidableEq, Repr

def PatternInclude.ofParts (expression tag file : String) : PatternInclude :=
  ⟨expression, .ofTag tag, file, Pattern.compile? expression, rfl⟩

structure Settings where
  commandIncludes : List String := ["asm/macros/event.inc", "asm/macros/movement.inc"]
  symbolIncludes : List PatternInclude := []
  commandConfigFilepath : String := "tools/poryscript/command_config.json"
  deriving DecidableEq, Repr

namespace Settings

/-- The fields of a symbol include that were read so far. -/
structure IncludeFields where
  expression : Option String := none
  tag : Option String := none
  file : Option String := none

def IncludeFields.take (fields : IncludeFields) (field : String × Value) :
    Except Fault IncludeFields := do
  match field.1 with
  | "expression" => return { fields with expression := some (← readText field.2) }
  | "type" => return { fields with tag := some (← readText field.2) }
  | "file" => return { fields with file := some (← readText field.2) }
  | _ => return fields

def IncludeFields.finish (fields : IncludeFields) : Except Fault PatternInclude :=
  match fields.expression, fields.tag, fields.file with
  | some expression, some tag, some file => .ok (.ofParts expression tag file)
  | none, _, _ => .error (.missingField "expression")
  | _, none, _ => .error (.missingField "type")
  | _, _, none => .error (.missingField "file")

/-- Reads a symbol include from its fields or from a list of expression, type and file. -/
def readInclude : Value → Except Fault PatternInclude
  | .object fields => do (← fields.foldlM IncludeFields.take {}).finish
  | .array items => do
    let texts ← (items.take 3).mapM readText
    match texts with
    | [expression, tag, file] =>
      if items.length > 3 then throw (.longList items.length)
      return .ofParts expression tag file
    | _ => throw (.shortInclude items.length)
  | value => .error (.wrongType value .symbolInclude)

def takeCommands (settings : Settings) (value : Value) : Except Fault Settings := do
  return { settings with commandIncludes := ← readList readText value }

def takeSymbols (settings : Settings) (value : Value) : Except Fault Settings := do
  return { settings with symbolIncludes := ← readList readInclude value }

def takeConfig (settings : Settings) (value : Value) : Except Fault Settings := do
  return { settings with commandConfigFilepath := ← readText value }

def takeField (settings : Settings) (field : String × Value) : Except Fault Settings :=
  match field.1 with
  | "commandIncludes" => takeCommands settings field.2
  | "symbolIncludes" => takeSymbols settings field.2
  | "commandConfigFilepath" => takeConfig settings field.2
  | _ => .ok settings

/-- Reads settings from their fields, or from a list of them in this order. What is missing keeps its
default, and null stands for all defaults. -/
def ofValue : Value → Except Fault Settings
  | .null => .ok {}
  | .object fields => fields.foldlM takeField {}
  | .array items => do
    let settings ← (items.zip [takeCommands, takeSymbols, takeConfig]).foldlM
      (fun settings (value, take) => take settings value) {}
    if items.length > 3 then throw (.longList items.length)
    return settings
  | value => .error (.wrongType value .settings)

end Settings
end ScriptIndex
