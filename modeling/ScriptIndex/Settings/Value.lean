import ScriptIndex.Settings.Decimal
import ScriptIndex.Text.Quoted

/-!
# Values that an editor sends

An editor answers with values of one dynamic type. Reading a value as a text or as a list fails with
a fault that says what was found and what was expected.
-/
namespace ScriptIndex.Settings

inductive Value where
  | null
  | bool (b : Bool)
  | integer (n : Int)
  | real (x : Decimal)
  | string (text : String)
  | array (items : List Value)
  /-- Fields in the order of their names. -/
  | object (fields : List (String × Value))
  deriving Repr, Inhabited

/-- What a reader expects. -/
inductive Shape where
  | text
  | list
  | settings
  | symbolInclude
  deriving DecidableEq, Repr

def Shape.name : Shape → String
  | text => "a string"
  | list => "a sequence"
  | settings => "struct PorySettings"
  | symbolInclude => "struct SymbolInclude"

def Value.describe : Value → String
  | null => "null"
  | bool b => "boolean `" ++ (if b then "true" else "false") ++ "`"
  | integer n => "integer `" ++ toString n ++ "`"
  | real x => "floating point `" ++ x.text ++ "`"
  | string text => "string " ++ Text.quoted text
  | array _ => "sequence"
  | object _ => "map"

inductive Fault where
  | wrongType (found : Value) (expected : Shape)
  | missingField (name : String)
  /-- A symbol include is given as a list that ends too soon. -/
  | shortInclude (length : Nat)
  | longList (length : Nat)

def Fault.message : Fault → String
  | wrongType found expected =>
    "invalid type: " ++ found.describe ++ ", expected " ++ expected.name
  | missingField name => "missing field `" ++ name ++ "`"
  | shortInclude length =>
    "invalid length " ++ toString length ++ ", expected struct SymbolInclude with 3 elements"
  | longList length =>
    "invalid length " ++ toString length ++ ", expected fewer elements in array"

def readText : Value → Except Fault String
  | .string text => .ok text
  | value => .error (.wrongType value .text)

def readValues : Value → Except Fault (List Value)
  | .array items => .ok items
  | value => .error (.wrongType value .list)

def readList {α : Type} (item : Value → Except Fault α) (value : Value) : Except Fault (List α) :=
  match readValues value with
  | .ok items => items.mapM item
  | .error fault => .error fault

end ScriptIndex.Settings
