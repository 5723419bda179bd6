import Mathlib.Data.Set.Insert
import ScriptIndex.Proofs.Lookup.Coherence

/-!
# Lookups with and without a store

A run mixes lookups with changes of what the provider answers, and forgets what it held about the
resources that changed before it looks anything up again. Such a run gives the same replies as one
that starts every lookup with nothing in store. Misc tokens are not among the lookups here, since the
store keeps them without their type.
-/
namespace ScriptIndex.Lookup

variable {σ : Type} {p : Provider σ}

/-- The lookups whose replies the store must not change. -/
inductive Get where
  | content (id : String)
  | commandsIn (file : String)
  | constants (id : String)
  | symbols (id : String)
  | commands (id : String)

namespace Get

abbrev Fact : Get → Type
  | content _ => String
  | commandsIn _ => NameMap Command
  | constants _ => NameMap Constant
  | symbols _ => NameMap Symbol
  | commands _ => NameMap Command

def run (p : Provider σ) : (get : Get) → LookupM σ (Except LookupError get.Fact)
  | content id => Lookup.content p id
  | commandsIn file => Lookup.commandsIn p file
  | constants id => Lookup.constants p id
  | symbols id => Lookup.symbols p id
  | commands id => Lookup.commands p id

/-- The reply that the answers of a provider call for. -/
def wanted (a : Answers) : (get : Get) → Except LookupError get.Fact
  | content id => FactKind.content.found a (Resource.canonical id)
  | commandsIn file => FactKind.commands.found a (Resource.canonical file)
  | constants id => FactKind.constants.found a (Resource.canonical id)
  | symbols id => FactKind.symbols.found a (Resource.canonical id)
  | commands id => a.commands id

theorem run_calm (hp : p.Steady) (get : Get) : Calm p (get.run p) := by
  cases get with
  | content id => exact fact_calm .content id
  | commandsIn file => exact fact_calm .commands file
  | constants id => exact fact_calm .constants id
  | symbols id => exact fact_calm .symbols id
  | commands id => exact commands_calm hp id

theorem run_answer (hp : p.Steady) (get : Get) {st : FactStore × σ}
    (h : ∀ (kind : FactKind) (key : String), kind.Coherent (p.answers st.2) st.1 key) :
    (get.run p st).1 = get.wanted (p.answers st.2) := by
  cases get with
  | content id => exact fact_answer (h .content _)
  | commandsIn file => exact fact_answer (h .commands _)
  | constants id => exact fact_answer (h .constants _)
  | symbols id => exact fact_answer (h .symbols _)
  | commands id => exact commands_answer hp fun _ _ file _ => h .commands _

end Get

/-- What happens to a store and to the state behind its provider. -/
inductive Event (σ : Type) where
  | get (get : Get)
  | forget (id : String)
  | forgetIncludes
  /-- The state behind the provider becomes another one, and with it the answers. -/
  | change (state : σ)

/-- A lookup with the reply to it. -/
abbrev Reply := (get : Get) × Except LookupError get.Fact

/-- The replies of a run that keeps a store. -/
def replies (p : Provider σ) : List (Event σ) → FactStore × σ → List Reply
  | [], _ => []
  | .get get :: events, st => ⟨get, (get.run p st).1⟩ :: replies p events (get.run p st).2
  | .forget id :: events, st => replies p events (st.1.forget id, st.2)
  | .forgetIncludes :: events, st => replies p events (st.1.forgetIncludes, st.2)
  | .change s :: events, st => replies p events (st.1, s)

/-- The replies of a run that looks everything up with an empty store. -/
def uncachedReplies (p : Provider σ) : List (Event σ) → σ → List Reply
  | [], _ => []
  | .get get :: events, s =>
    ⟨get, (get.run p ({}, s)).1⟩ :: uncachedReplies p events (get.run p ({}, s)).2.2
  | .forget _ :: events, s => uncachedReplies p events s
  | .forgetIncludes :: events, s => uncachedReplies p events s
  | .change s :: events, _ => uncachedReplies p events s

/-- Every resource whose text changes is forgotten, under some spelling of its id, before the next
lookup. The resources in `stale` have changed and have not been forgotten since. -/
def Disciplined (p : Provider σ) : Set String → List (Event σ) → σ → Prop
  | _, [], _ => True
  | stale, .get get :: events, s => stale = ∅ ∧ Disciplined p ∅ events (get.run p ({}, s)).2.2
  | stale, .forget id :: events, s => Disciplined p (stale \ {Resource.canonical id}) events s
  | stale, .forgetIncludes :: events, s => Disciplined p stale events s
  | stale, .change t :: events, s =>
    Disciplined p (stale ∪ {key | (p.answers t).text key ≠ (p.answers s).text key}) events t

/-- The two runs side by side: the store is coherent about all resources that are not stale. -/
theorem replies_eq_of_coherent (hp : p.Steady) (events : List (Event σ)) {stale : Set String}
    {store : FactStore} {s t : σ} (hst : p.answers s = p.answers t)
    (hc : ∀ (kind : FactKind) (key : String), key ∉ stale → kind.Coherent (p.answers s) store key)
    (h : Disciplined p stale events t) :
    replies p events (store, s) = uncachedReplies p events t := by
  induction events generalizing stale store s t with
  | nil => rfl
  | cons event events ih =>
    cases event with
    | get get =>
      obtain ⟨rfl, h⟩ := h
      have hall : ∀ (kind : FactKind) (key : String), kind.Coherent (p.answers s) store key :=
        fun kind key => hc kind key (Set.notMem_empty key)
      have hcached := get.run_calm hp (store, s)
      have hfresh := get.run_calm hp (({} : FactStore), t)
      have hreply : (get.run p (store, s)).1 = (get.run p ({}, t)).1 := by
        rw [get.run_answer hp hall, get.run_answer hp fun kind key => .empty kind _ key]
        exact congrArg get.wanted hst
      rw [replies, uncachedReplies, hreply]
      congr 1
      refine ih ?_ (fun kind key _ => (hall kind key).of_extends hp hcached) h
      rw [hcached.answers_eq hp, hfresh.answers_eq hp]
      exact hst
    | forget id =>
      refine ih hst ?_ h
      intro kind key hkey
      by_cases heq : key = Resource.canonical id
      · rw [heq]
        exact .of_forget kind _ store id
      · exact (hc kind key fun hmem => hkey ⟨hmem, heq⟩).forget id
    | forgetIncludes =>
      exact ih hst (fun kind key hkey => .forgetIncludes fun _ => hc kind key hkey) h
    | change u =>
      refine ih rfl ?_ h
      intro kind key hkey
      have hsame : (p.answers u).text key = (p.answers s).text key := by
        rw [hst]
        by_contra hne
        exact hkey (Or.inr hne)
      refine (hc kind key fun hmem => hkey (Or.inl hmem)).of_text ?_
      intro text htext
      rw [hsame, htext]

/-- A run that forgets what has changed replies like one without a store. -/
theorem replies_eq_uncachedReplies (hp : p.Steady) (events : List (Event σ)) (s : σ)
    (h : Disciplined p ∅ events s) : replies p events ({}, s) = uncachedReplies p events s :=
  replies_eq_of_coherent hp events rfl (fun kind key _ => .empty kind _ key) h

def Reply.constantNames : Reply → List String
  | ⟨.constants _, .ok constants⟩ => constants.toList.map (·.1)
  | _ => []

def tablesOf (text : String) : Provider.Tables :=
  { files := (∅ : NameMap String).insert "maps/a b.pory" text }

/-- A file is looked up, written, forgotten under another spelling of its id, and looked up again. -/
def rewriteEvents : List (Event Provider.Tables) :=
  [.get (.constants "maps/a b.pory"),
    .change (tablesOf "const NEW = 1"),
    .forget "maps/a%20b.pory",
    .get (.constants "maps/a%20b.pory")]

theorem rewriteEvents_disciplined :
    Disciplined Provider.tables ∅ rewriteEvents (tablesOf "const OLD = 1") := by
  refine ⟨rfl, ?_, trivial⟩
  have hkey : Resource.canonical "maps/a%20b.pory" = "maps/a b.pory" := by decide
  rw [hkey, Set.empty_union]
  apply Set.eq_empty_of_forall_notMem
  rintro key ⟨hne, hother⟩
  rw [Set.mem_singleton_iff] at hother
  apply hne
  rw [((Get.constants "maps/a b.pory").run_calm Provider.tables_steady
    ({}, tablesOf "const OLD = 1")).answers_eq Provider.tables_steady]
  simp only [Provider.answers, Provider.tables, Provider.Tables.text, tablesOf, NameMap.find?_insert]
  rw [if_neg hother, if_neg hother]

/-- What was held about the old text is dropped, and the new one is read. -/
theorem replies_rewriteEvents :
    let first := (Get.constants "maps/a b.pory").run Provider.tables ({}, tablesOf "const OLD = 1")
    Provider.tables.Steady ∧ Disciplined Provider.tables ∅ rewriteEvents (tablesOf "const OLD = 1") ∧
      (FactKind.constants.held first.2.1 "maps/a b.pory").isSome = true ∧
      replies Provider.tables rewriteEvents ({}, tablesOf "const OLD = 1") =
        uncachedReplies Provider.tables rewriteEvents (tablesOf "const OLD = 1") ∧
      (uncachedReplies Provider.tables rewriteEvents (tablesOf "const OLD = 1")).map
        Reply.constantNames = [["OLD"], ["NEW"]] := by
  refine ⟨Provider.tables_steady, rewriteEvents_disciplined, by decide +kernel, ?_, by decide +kernel⟩
  exact replies_eq_uncachedReplies Provider.tables_steady rewriteEvents _ rewriteEvents_disciplined

end ScriptIndex.Lookup
