import Mathlib.Logic.Relation
import ScriptIndex.Lookup.Merge
import ScriptIndex.Provider.Tables

/-!
# What a lookup may do

A lookup calls the provider and fills the store. It never takes an entry away, and every entry that it
adds is found in the text that the provider answers with. So a store that agrees with the answers of
the provider goes on agreeing with them as long as these stay the same.
-/
namespace ScriptIndex

/-- What a provider answers, by resource. -/
@[ext] structure Answers where
  text : String → Except LookupError String
  owner : String → String
  settings : String → Except LookupError Settings

namespace Provider

variable {σ : Type} (p : Provider σ)

def answers (s : σ) : Answers where
  text id := (p.read id s).1
  owner id := (p.resolve id s).1
  settings id := (p.settings id s).1

/-- A call of a provider takes one state to another. -/
inductive Asked : σ → σ → Prop
  | read (id : String) (s : σ) : Asked s (p.read id s).2
  | resolve (id : String) (s : σ) : Asked s (p.resolve id s).2
  | settings (id : String) (s : σ) : Asked s (p.settings id s).2

/-- A provider is steady when calls do not change its answers. -/
def Steady : Prop := ∀ s t, p.Asked s t → p.answers t = p.answers s

variable {p}

theorem Steady.answers_eq (hp : p.Steady) {s t : σ} (h : Relation.ReflTransGen p.Asked s t) :
    p.answers t = p.answers s := by
  induction h with
  | refl => rfl
  | tail _ hstep ih => rw [hp _ _ hstep, ih]

theorem tables_steady : tables.Steady := by
  intro s t h
  cases h <;> rfl

end Provider

/-- The kinds of facts that the store keeps by resource. -/
inductive FactKind where
  | content
  | commands
  | constants
  | symbols
  deriving DecidableEq

namespace FactKind

abbrev Fact : FactKind → Type
  | content => String
  | commands => NameMap Command
  | constants => NameMap Constant
  | symbols => NameMap Symbol

def category : (kind : FactKind) → FactStore.Category String kind.Fact
  | content => FactStore.contentCategory
  | commands => FactStore.commandCategory
  | constants => FactStore.constantCategory
  | symbols => FactStore.symbolCategory

def parse : (kind : FactKind) → (key text : String) → kind.Fact
  | content, _, text => text
  | commands, _, text => .ofFacts Command.name (Command.extract text)
  | constants, key, text => .ofFacts Constant.name (Constant.extract text key)
  | symbols, key, text => .ofFacts Symbol.name (Symbol.extract text key)

def held (kind : FactKind) (store : FactStore) (key : String) : Option kind.Fact :=
  kind.category.find? store key

/-- What a provider lets one find in the text of a resource. -/
def found (kind : FactKind) (a : Answers) (key : String) : Except LookupError kind.Fact :=
  (a.text key).map (kind.parse key)

@[simp] theorem held_empty (kind : FactKind) (key : String) : kind.held {} key = none := by
  cases kind <;> rfl

theorem held_insert_self (kind : FactKind) (store : FactStore) (key k : String) (fact : kind.Fact) :
    kind.held (kind.category.insert store key fact) k =
      if k = key then some fact else kind.held store k := by
  cases kind <;> exact NameMap.find?_insert _ _ _ _

theorem held_insert_of_ne {kind other : FactKind} (h : kind ≠ other) (store : FactStore)
    (key k : String) (fact : other.Fact) :
    kind.held (other.category.insert store key fact) k = kind.held store k := by
  cases kind <;> cases other <;> first | rfl | exact absurd rfl h

theorem held_forget (kind : FactKind) (store : FactStore) (id k : String) :
    kind.held (store.forget id) k =
      if k = Resource.canonical id then none else kind.held store k := by
  cases kind <;> exact NameMap.find?_erase _ _ _

theorem held_forgetIncludes (kind : FactKind) (store : FactStore) (k : String) :
    kind.held store.forgetIncludes k =
      if kind = commands then none else kind.held store k := by
  cases kind <;> rfl

end FactKind

namespace Lookup

variable {σ α β ι : Type} {p : Provider σ}

/-- What a lookup may do to the store and to the state behind the provider. -/
structure Extends (p : Provider σ) (st later : FactStore × σ) : Prop where
  asked : Relation.ReflTransGen p.Asked st.2 later.2
  kept : ∀ (kind : FactKind) (key : String) (fact : kind.Fact),
    kind.held st.1 key = some fact → kind.held later.1 key = some fact
  added : ∀ (kind : FactKind) (key : String) (fact : kind.Fact), kind.held later.1 key = some fact →
    kind.held st.1 key = some fact ∨ kind.found (p.answers st.2) key = .ok fact

theorem Extends.refl (st : FactStore × σ) : Extends p st st :=
  ⟨.refl, fun _ _ _ h => h, fun _ _ _ h => Or.inl h⟩

/-- A call of the provider that leaves the store alone. -/
theorem Extends.of_asked {st : FactStore × σ} {t : σ} (h : p.Asked st.2 t) :
    Extends p st (st.1, t) :=
  ⟨.single h, fun _ _ _ h => h, fun _ _ _ h => Or.inl h⟩

theorem Extends.trans (hp : p.Steady) {st mid later : FactStore × σ} (h : Extends p st mid)
    (h' : Extends p mid later) : Extends p st later := by
  refine ⟨h.asked.trans h'.asked, fun kind key fact hk => h'.kept _ _ _ (h.kept _ _ _ hk), ?_⟩
  intro kind key fact hk
  rcases h'.added kind key fact hk with hk | hk
  · exact h.added kind key fact hk
  · rw [hp.answers_eq h.asked] at hk
    exact Or.inr hk

theorem Extends.answers_eq (hp : p.Steady) {st later : FactStore × σ} (h : Extends p st later) :
    p.answers later.2 = p.answers st.2 := hp.answers_eq h.asked

/-- A run that does no more than a lookup may do. -/
def Calm (p : Provider σ) (run : LookupM σ α) : Prop := ∀ st, Extends p st (run st).2

theorem calm_pure (a : α) : Calm p (pure a) := fun st => .refl st

theorem calm_bind (hp : p.Steady) {run : LookupM σ α} {next : α → LookupM σ β} (h : Calm p run)
    (h' : ∀ a, Calm p (next a)) : Calm p (run >>= next) :=
  fun st => (h st).trans hp (h' (run st).1 (run st).2)

theorem settings_calm (id : String) : Calm p (call (p.settings id)) :=
  fun st => .of_asked (.settings id st.2)

def fact (p : Provider σ) (kind : FactKind) (id : String) : LookupM σ (Except LookupError kind.Fact) :=
  let key := Resource.canonical id
  remember kind.category key (readWith p (kind.parse key) key)

theorem content_eq (id : String) : content p id = fact p .content id := rfl

theorem commandsIn_eq (id : String) : commandsIn p id = fact p .commands id := rfl

theorem fact_of_held {kind : FactKind} {id : String} {st : FactStore × σ} {held : kind.Fact}
    (h : kind.held st.1 (Resource.canonical id) = some held) : fact p kind id st = (.ok held, st) := by
  change kind.category.find? st.1 _ = _ at h
  simp only [fact, remember, h]

theorem fact_of_text {kind : FactKind} {id text : String} {st : FactStore × σ}
    (h : kind.held st.1 (Resource.canonical id) = none)
    (ht : (p.answers st.2).text (Resource.canonical id) = .ok text) :
    fact p kind id st =
      (.ok (kind.parse (Resource.canonical id) text),
        kind.category.insert st.1 (Resource.canonical id) (kind.parse (Resource.canonical id) text),
        (p.read (Resource.canonical id) st.2).2) := by
  change kind.category.find? st.1 _ = _ at h
  change (p.read _ _).1 = _ at ht
  simp only [fact, remember, h, readWith, call, ht, Except.map]

theorem fact_of_fault {kind : FactKind} {id : String} {st : FactStore × σ} {e : LookupError}
    (h : kind.held st.1 (Resource.canonical id) = none)
    (ht : (p.answers st.2).text (Resource.canonical id) = .error e) :
    fact p kind id st = (.error e, st.1, (p.read (Resource.canonical id) st.2).2) := by
  change kind.category.find? st.1 _ = _ at h
  change (p.read _ _).1 = _ at ht
  simp only [fact, remember, h, readWith, call, ht, Except.map]

/-- A new entry that is found in the text of its resource. -/
theorem Extends.of_insert {kind : FactKind} {key text : String} {st : FactStore × σ}
    (h : kind.held st.1 key = none) (ht : (p.answers st.2).text key = .ok text) :
    Extends p st (kind.category.insert st.1 key (kind.parse key text), (p.read key st.2).2) := by
  refine ⟨.single (.read key st.2), ?_, ?_⟩
  · intro other k held hk
    by_cases hkind : other = kind
    · subst hkind
      rw [FactKind.held_insert_self, if_neg]
      · exact hk
      · intro heq
        rw [heq, h] at hk
        cases hk
    · rw [FactKind.held_insert_of_ne hkind]
      exact hk
  · intro other k held hk
    by_cases hkind : other = kind
    · subst hkind
      rw [FactKind.held_insert_self] at hk
      split at hk
      · rename_i heq
        cases hk
        rw [heq, FactKind.found, ht]
        exact Or.inr rfl
      · exact Or.inl hk
    · rw [FactKind.held_insert_of_ne hkind] at hk
      exact Or.inl hk

theorem fact_calm (kind : FactKind) (id : String) : Calm p (fact p kind id) := by
  intro st
  cases h : kind.held st.1 (Resource.canonical id) with
  | some held =>
    rw [fact_of_held h]
    exact .refl st
  | none =>
    cases ht : (p.answers st.2).text (Resource.canonical id) with
    | ok text =>
      rw [fact_of_text h ht]
      exact .of_insert h ht
    | error e =>
      rw [fact_of_fault h ht]
      exact .of_asked (.read _ st.2)

def tokensOf (a : Answers) (pattern : Pattern.Program) (type : TokenType) (file text : String) :
    NameMap MiscToken :=
  .ofFacts MiscToken.name (MiscToken.extract text pattern type (a.owner file))

def tokenKey (inc : PatternInclude) : String × String := (Resource.canonical inc.file, inc.expression)

theorem miscTokensIn_of_disabled {inc : PatternInclude} (h : inc.pattern = none)
    (st : FactStore × σ) : miscTokensIn p inc st = (.ok ∅, st) := by
  simp only [miscTokensIn, h]
  rfl

theorem miscTokensIn_of_held {inc : PatternInclude} {pattern : Pattern.Program}
    (h : inc.pattern = some pattern) {st : FactStore × σ} {held : NameMap MiscToken}
    (hk : FactStore.miscCategory.find? st.1 (tokenKey inc) = some held) :
    miscTokensIn p inc st = (.ok held, st) := by
  rw [tokenKey] at hk
  simp only [miscTokensIn, h, remember, hk]

theorem miscTokensIn_of_text (hp : p.Steady) {inc : PatternInclude} {pattern : Pattern.Program}
    (h : inc.pattern = some pattern) {st : FactStore × σ} {text : String}
    (hk : FactStore.miscCategory.find? st.1 (tokenKey inc) = none)
    (ht : (p.answers st.2).text (Resource.canonical inc.file) = .ok text) :
    miscTokensIn p inc st =
      (.ok (tokensOf (p.answers st.2) pattern inc.type (Resource.canonical inc.file) text),
        FactStore.miscCategory.insert st.1 (tokenKey inc)
          (tokensOf (p.answers st.2) pattern inc.type (Resource.canonical inc.file) text),
        (p.resolve (Resource.canonical inc.file) (p.read (Resource.canonical inc.file) st.2).2).2) := by
  rw [tokenKey] at hk
  change (p.read _ _).1 = _ at ht
  rw [← hp _ _ (.read (Resource.canonical inc.file) st.2)]
  simp only [miscTokensIn, h, remember, hk, readTokens, bind, StateT.bind, call, ht]
  rfl

theorem miscTokensIn_of_fault {inc : PatternInclude} {pattern : Pattern.Program}
    (h : inc.pattern = some pattern) {st : FactStore × σ} {e : LookupError}
    (hk : FactStore.miscCategory.find? st.1 (tokenKey inc) = none)
    (ht : (p.answers st.2).text (Resource.canonical inc.file) = .error e) :
    miscTokensIn p inc st = (.error e, st.1, (p.read (Resource.canonical inc.file) st.2).2) := by
  rw [tokenKey] at hk
  change (p.read _ _).1 = _ at ht
  simp only [miscTokensIn, h, remember, hk, readTokens, bind, StateT.bind, call, ht]
  rfl

/-- The misc tokens are kept apart from the facts of the other kinds. -/
theorem held_insert_misc (kind : FactKind) (store : FactStore) (file : String × String)
    (tokens : NameMap MiscToken) (key : String) :
    kind.held (FactStore.miscCategory.insert store file tokens) key = kind.held store key := by
  cases kind <;> rfl

theorem miscTokensIn_calm (hp : p.Steady) (inc : PatternInclude) : Calm p (miscTokensIn p inc) := by
  intro st
  cases h : inc.pattern with
  | none =>
    rw [miscTokensIn_of_disabled h]
    exact .refl st
  | some pattern =>
    cases hk : FactStore.miscCategory.find? st.1 (tokenKey inc) with
    | some held =>
      rw [miscTokensIn_of_held h hk]
      exact .refl st
    | none =>
      cases ht : (p.answers st.2).text (Resource.canonical inc.file) with
      | error e =>
        rw [miscTokensIn_of_fault h hk ht]
        exact .of_asked (.read _ st.2)
      | ok text =>
        rw [miscTokensIn_of_text hp h hk ht]
        refine ⟨.tail (.single (.read _ st.2)) (.resolve _ _), ?_, ?_⟩
        · intro kind key fact hf
          rw [held_insert_misc]
          exact hf
        · intro kind key fact hf
          rw [held_insert_misc] at hf
          exact Or.inl hf

theorem mergeAll_calm (hp : p.Steady) {lookup : ι → LookupM σ (Except LookupError (NameMap α))}
    (h : ∀ item, Calm p (lookup item)) (items : List ι) (merged : NameMap α) :
    Calm p (mergeAll lookup items merged) := by
  induction items generalizing merged with
  | nil => exact calm_pure merged
  | cons item items ih =>
    apply calm_bind hp (h item)
    intro answer
    cases answer with
    | ok facts => exact ih (merged.merge facts)
    | error e => exact ih merged

theorem commands_calm (hp : p.Steady) (id : String) : Calm p (commands p id) := by
  apply calm_bind hp (settings_calm _)
  intro answer
  cases answer with
  | error e => exact calm_pure _
  | ok settings =>
    exact calm_bind hp (mergeAll_calm hp (fact_calm .commands) _ _) fun merged => calm_pure _

theorem miscTokens_calm (hp : p.Steady) (id : String) : Calm p (miscTokens p id) := by
  apply calm_bind hp (settings_calm _)
  intro answer
  cases answer with
  | error e => exact calm_pure _
  | ok settings =>
    exact calm_bind hp (mergeAll_calm hp (miscTokensIn_calm hp) _ _) fun merged => calm_pure _

theorem allSymbols_calm (id : String) : Calm p (allSymbols p id) :=
  fun st => fact_calm .symbols id st

theorem facts_calm (hp : p.Steady) (id : String) : Calm p (facts p id) := by
  apply calm_bind hp (fact_calm .content _)
  intro answer
  cases answer with
  | error e => exact calm_pure _
  | ok content =>
    apply calm_bind hp (commands_calm hp _)
    intro commands
    apply calm_bind hp (fact_calm .constants _)
    intro constants
    apply calm_bind hp (allSymbols_calm _)
    intro symbols
    exact calm_bind hp (miscTokens_calm hp _) fun miscTokens => calm_pure _

end Lookup
end ScriptIndex
