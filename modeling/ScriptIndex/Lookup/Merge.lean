import ScriptIndex.Command.Keywords
import ScriptIndex.Lookup.Basic

/-!
# Facts from several files

Facts of several files are merged in order, so that the last file that declares a name wins. A file
that cannot be had is passed over.
-/
namespace ScriptIndex.Lookup

variable {σ α ι : Type} (p : Provider σ)

/-- Merges the facts of the items that can be had, in order. -/
def mergeAll (lookup : ι → LookupM σ (Except LookupError (NameMap α))) :
    List ι → NameMap α → LookupM σ (NameMap α)
  | [], merged => pure merged
  | item :: items, merged => do
    match ← lookup item with
    | .ok facts => mergeAll lookup items (merged.merge facts)
    | .error _ => mergeAll lookup items merged

/-- The commands that a resource may use: those of its command includes, and the keywords. -/
def commands (id : String) : LookupM σ (Except LookupError (NameMap Command)) := do
  match ← call (p.settings (Resource.canonical id)) with
  | .error e => return .error e
  | .ok settings =>
    let merged ← mergeAll (commandsIn p) settings.commandIncludes ∅
    return .ok (Command.keywords.foldl (fun acc c => acc.insert c.name c) merged)

def miscTokens (id : String) : LookupM σ (Except LookupError (NameMap MiscToken)) := do
  match ← call (p.settings (Resource.canonical id)) with
  | .error e => return .error e
  | .ok settings => return .ok (← mergeAll (miscTokensIn p) settings.symbolIncludes ∅)

/-- The symbols of all resources in the store, merged in the order of their ids. -/
def knownSymbols (store : FactStore) : NameMap Symbol :=
  store.symbols.values.foldl NameMap.merge ∅

/-- The symbols of the workspace, after those of the resource have been looked up. -/
def allSymbols (id : String) : LookupM σ (NameMap Symbol) := do
  let _ ← symbols p id
  return knownSymbols (← get).1

def orNone (facts : Except LookupError (NameMap α)) : NameMap α :=
  match facts with
  | .ok facts => facts
  | .error _ => ∅

/-- The facts about a document. Only its text has to be there. -/
def facts (id : String) : LookupM σ (Except LookupError Facts) := do
  let id := Resource.canonical id
  match ← content p id with
  | .error e => return .error e
  | .ok content =>
    let commands ← commands p id
    let constants ← constants p id
    let symbols ← allSymbols p id
    let miscTokens ← miscTokens p id
    return .ok
      { content
        commands := orNone commands
        constants := orNone constants
        symbols
        miscTokens := orNone miscTokens }

end ScriptIndex.Lookup
