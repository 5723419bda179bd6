import ScriptIndex.Facts
import ScriptIndex.Resource

/-!
# The fact store

The store keeps, by canonical id, the text of a resource and the facts found in it, each category on
its own. Misc tokens are kept by file and expression.
-/
namespace ScriptIndex

structure FactStore where
  contents : NameMap String := ∅
  commands : NameMap (NameMap Command) := ∅
  constants : NameMap (NameMap Constant) := ∅
  symbols : NameMap (NameMap Symbol) := ∅
  /-- By file, and then by expression. -/
  miscTokens : NameMap (NameMap (NameMap MiscToken)) := ∅

namespace FactStore

/-- A category of the store, with keys of type `κ` and facts of type `α`. -/
structure Category (κ α : Type) where
  find? : FactStore → κ → Option α
  insert : FactStore → κ → α → FactStore

def contentCategory : Category String String where
  find? store id := store.contents.find? id
  insert store id text := { store with contents := store.contents.insert id text }

def commandCategory : Category String (NameMap Command) where
  find? store id := store.commands.find? id
  insert store id facts := { store with commands := store.commands.insert id facts }

def constantCategory : Category String (NameMap Constant) where
  find? store id := store.constants.find? id
  insert store id facts := { store with constants := store.constants.insert id facts }

def symbolCategory : Category String (NameMap Symbol) where
  find? store id := store.symbols.find? id
  insert store id facts := { store with symbols := store.symbols.insert id facts }

/-- The key is a file and an expression. -/
def miscCategory : Category (String × String) (NameMap MiscToken) where
  find? store key := (store.miscTokens.find? key.1).bind (·.find? key.2)
  insert store key facts :=
    let ofFile := (store.miscTokens.find? key.1).getD ∅
    { store with miscTokens := store.miscTokens.insert key.1 (ofFile.insert key.2 facts) }

def forget (store : FactStore) (id : String) : FactStore :=
  let key := Resource.canonical id
  { contents := store.contents.erase key
    commands := store.commands.erase key
    constants := store.constants.erase key
    symbols := store.symbols.erase key
    miscTokens := store.miscTokens.erase key }

def forgetIncludes (store : FactStore) : FactStore :=
  { store with commands := ∅, miscTokens := ∅ }

structure Counts where
  documents : Nat
  commands : Nat
  constants : Nat
  symbols : Nat
  miscTokens : Nat
  deriving DecidableEq, Repr

def counts (store : FactStore) : Counts where
  documents := store.contents.size
  commands := store.commands.size
  constants := store.constants.size
  symbols := store.symbols.size
  miscTokens := store.miscTokens.values.foldl (fun n tokens => n + tokens.size) 0

end FactStore
end ScriptIndex
