import ScriptIndex.Command.Extract
import ScriptIndex.FactStore
import ScriptIndex.Provider.Basic

/-!
# Lookups through the store

A lookup answers from the store if it can. Otherwise it asks the provider, and keeps what it found; a
failure leaves the store as it was.
-/
namespace ScriptIndex

abbrev LookupM (σ : Type) := StateM (FactStore × σ)

namespace Lookup

open FactStore

variable {σ κ α : Type}

def call (f : σ → α × σ) : LookupM σ α := fun (store, state) =>
  let (answer, state) := f state
  (answer, store, state)

/-- Answers from a category, or computes the answer and keeps it unless it is an error. -/
def remember (category : Category κ α) (key : κ) (compute : LookupM σ (Except LookupError α)) :
    LookupM σ (Except LookupError α) := fun (store, state) =>
  match category.find? store key with
  | some fact => (.ok fact, store, state)
  | none =>
    match compute (store, state) with
    | (.ok fact, store, state) => (.ok fact, category.insert store key fact, state)
    | (.error e, rest) => (.error e, rest)

variable (p : Provider σ)

def readWith (parse : String → α) (key : String) : LookupM σ (Except LookupError α) := fun st =>
  let (answer, st) := call (p.read key) st
  (answer.map parse, st)

def content (id : String) : LookupM σ (Except LookupError String) :=
  let key := Resource.canonical id
  remember contentCategory key (readWith p (fun text => text) key)

def commandsIn (file : String) : LookupM σ (Except LookupError (NameMap Command)) :=
  let key := Resource.canonical file
  remember commandCategory key
    (readWith p (fun text => .ofFacts Command.name (Command.extract text)) key)

def constants (id : String) : LookupM σ (Except LookupError (NameMap Constant)) :=
  let key := Resource.canonical id
  remember constantCategory key
    (readWith p (fun text => .ofFacts Constant.name (Constant.extract text key)) key)

def symbols (id : String) : LookupM σ (Except LookupError (NameMap Symbol)) :=
  let key := Resource.canonical id
  remember symbolCategory key
    (readWith p (fun text => .ofFacts Symbol.name (Symbol.extract text key)) key)

/-- The tokens that a pattern finds in a file, with the id of the file they were read from. -/
def readTokens (pattern : Pattern.Program) (type : TokenType) (file : String) :
    LookupM σ (Except LookupError (NameMap MiscToken)) := do
  match ← call (p.read file) with
  | .error e => return .error e
  | .ok text =>
    let owner ← call (p.resolve file)
    return .ok (.ofFacts MiscToken.name (MiscToken.extract text pattern type owner))

/-- The misc tokens of an include; a disabled include has none. -/
def miscTokensIn (inc : PatternInclude) : LookupM σ (Except LookupError (NameMap MiscToken)) :=
  match inc.pattern with
  | none => pure (.ok ∅)
  | some pattern =>
    let file := Resource.canonical inc.file
    remember miscCategory (file, inc.expression) (readTokens p pattern inc.type file)

end Lookup
end ScriptIndex
