import ScriptIndex.Proofs.Lookup.Answers

/-!
# Stores that agree with the provider

A store is coherent about a resource when what it holds is found in the current text of the resource.
A lookup serves what the store holds, coherent or not, and what is found where it holds nothing. So
lookups keep coherence, and answer from a coherent store as they would answer without one.
-/
namespace ScriptIndex

variable {σ α ι : Type} {p : Provider σ} {kind : FactKind} {a : Answers} {key : String}

/-- What the store holds about a resource is found in its current text. -/
def FactKind.Coherent (kind : FactKind) (a : Answers) (store : FactStore) (key : String) : Prop :=
  ∀ fact, kind.held store key = some fact → kind.found a key = .ok fact

namespace FactKind.Coherent

theorem empty (kind : FactKind) (a : Answers) (key : String) : kind.Coherent a {} key := by
  intro fact h
  rw [held_empty] at h
  cases h

theorem of_extends (hp : p.Steady) {st later : FactStore × σ}
    (h : kind.Coherent (p.answers st.2) st.1 key) (hext : Lookup.Extends p st later) :
    kind.Coherent (p.answers later.2) later.1 key := by
  intro fact hk
  rw [hext.answers_eq hp]
  rcases hext.added kind key fact hk with hk | hk
  · exact h fact hk
  · exact hk

/-- A change of the answers that leaves a text as it is keeps coherence. -/
theorem of_text {store : FactStore} {b : Answers} (h : kind.Coherent a store key)
    (ht : ∀ text, a.text key = .ok text → b.text key = .ok text) : kind.Coherent b store key := by
  intro fact hk
  have hf := h fact hk
  cases hx : a.text key with
  | error e =>
    rw [FactKind.found, hx] at hf
    cases hf
  | ok text =>
    rw [FactKind.found, hx] at hf
    rw [FactKind.found, ht text hx]
    exact hf

theorem forget {store : FactStore} (h : kind.Coherent a store key) (id : String) :
    kind.Coherent a (store.forget id) key := by
  intro fact hk
  rw [FactKind.held_forget] at hk
  split at hk
  · cases hk
  · exact h fact hk

/-- Nothing is held about a resource that was just forgotten. -/
theorem of_forget (kind : FactKind) (a : Answers) (store : FactStore) (id : String) :
    kind.Coherent a (store.forget id) (Resource.canonical id) := by
  intro fact hk
  rw [FactKind.held_forget, if_pos rfl] at hk
  cases hk

theorem forgetIncludes {store : FactStore} (h : kind ≠ .commands → kind.Coherent a store key) :
    kind.Coherent a store.forgetIncludes key := by
  intro fact hk
  rw [FactKind.held_forgetIncludes] at hk
  split at hk
  · cases hk
  · rename_i hne
    exact h hne fact hk

end FactKind.Coherent

namespace FactKind

/-- What is served about a resource: what is held, or else what is found. -/
def served (kind : FactKind) (a : Answers) (store : FactStore) (key : String) :
    Except LookupError kind.Fact :=
  match kind.held store key with
  | some fact => .ok fact
  | none => kind.found a key

variable {store : FactStore}

theorem served_of_held {fact : kind.Fact} (h : kind.held store key = some fact) :
    kind.served a store key = .ok fact := by
  simp only [served, h]

theorem served_of_none (h : kind.held store key = none) :
    kind.served a store key = kind.found a key := by
  simp only [served, h]

theorem served_of_coherent (h : kind.Coherent a store key) :
    kind.served a store key = kind.found a key := by
  cases hheld : kind.held store key with
  | some fact => rw [served_of_held hheld, h fact hheld]
  | none => exact served_of_none hheld

/-- Where nothing but facts of the current text is held, these are served. -/
theorem served_of_text {text : String} (ht : a.text key = .ok text)
    (h : ∀ fact, kind.held store key = some fact → fact = kind.parse key text) :
    kind.served a store key = .ok (kind.parse key text) := by
  cases hheld : kind.held store key with
  | some fact => rw [served_of_held hheld, h fact hheld]
  | none =>
    rw [served_of_none hheld, found, ht]
    rfl

theorem served_congr {b : Answers} {other : FactStore} (htext : b.text key = a.text key)
    (hheld : kind.held other key = kind.held store key) :
    kind.served b other key = kind.served a store key := by
  simp only [served, found, htext, hheld]

/-- A store that has grown by what is found serves the same. -/
theorem served_of_added {later : FactStore}
    (kept : ∀ fact, kind.held store key = some fact → kind.held later key = some fact)
    (added : ∀ fact, kind.held later key = some fact →
      kind.held store key = some fact ∨ kind.found a key = .ok fact) :
    kind.served a later key = kind.served a store key := by
  cases hheld : kind.held store key with
  | some fact => rw [served_of_held hheld, served_of_held (kept fact hheld)]
  | none =>
    rw [served_of_none hheld]
    cases hlater : kind.held later key with
    | none => exact served_of_none hlater
    | some fact =>
      rcases added fact hlater with hbefore | hfound
      · rw [hheld] at hbefore
        cases hbefore
      · rw [served_of_held hlater, hfound]

theorem served_forgetIncludes (hkind : kind ≠ commands) :
    kind.served a store.forgetIncludes key = kind.served a store key := by
  simp only [served, held_forgetIncludes, hkind, if_false]

end FactKind

namespace Lookup

theorem fact_served (kind : FactKind) (id : String) (st : FactStore × σ) :
    (fact p kind id st).1 = kind.served (p.answers st.2) st.1 (Resource.canonical id) := by
  cases hheld : kind.held st.1 (Resource.canonical id) with
  | some held => rw [fact_of_held hheld, FactKind.served_of_held hheld]
  | none =>
    rw [FactKind.served_of_none hheld, FactKind.found]
    cases ht : (p.answers st.2).text (Resource.canonical id) with
    | ok text =>
      rw [fact_of_text hheld ht]
      rfl
    | error e =>
      rw [fact_of_fault hheld ht]
      rfl

/-- A lookup answers by what is found in the current text. -/
theorem fact_answer {id : String} {st : FactStore × σ}
    (h : kind.Coherent (p.answers st.2) st.1 (Resource.canonical id)) :
    (fact p kind id st).1 = kind.found (p.answers st.2) (Resource.canonical id) :=
  (fact_served kind id st).trans (FactKind.served_of_coherent h)

/-- Lookups do not change what later ones are served. -/
theorem Extends.served_eq (hp : p.Steady) {st later : FactStore × σ} (h : Extends p st later)
    (key : String) : kind.served (p.answers later.2) later.1 key =
      kind.served (p.answers st.2) st.1 key := by
  rw [h.answers_eq hp]
  exact FactKind.served_of_added (h.kept kind key) (h.added kind key)

/-- After a lookup the store holds what was found. -/
theorem held_fact {id text : String} {st : FactStore × σ}
    (h : kind.Coherent (p.answers st.2) st.1 (Resource.canonical id))
    (ht : (p.answers st.2).text (Resource.canonical id) = .ok text) :
    kind.held (fact p kind id st).2.1 (Resource.canonical id) =
      some (kind.parse (Resource.canonical id) text) := by
  cases hk : kind.held st.1 (Resource.canonical id) with
  | some held =>
    have hf := h held hk
    rw [FactKind.found, ht] at hf
    rw [fact_of_held hk, hk, Except.ok.inj hf]
  | none =>
    rw [fact_of_text hk ht]
    change kind.held (kind.category.insert _ _ _) _ = _
    rw [FactKind.held_insert_self, if_pos rfl]

/-- The facts of the answers that are no errors, merged in order. -/
def mergeFound (answers : List (Except LookupError (NameMap α))) (merged : NameMap α) : NameMap α :=
  answers.foldl (fun merged answer => merged.merge (orNone answer)) merged

theorem mergeAll_cons (lookup : ι → LookupM σ (Except LookupError (NameMap α))) (item : ι)
    (items : List ι) (merged : NameMap α) (st : FactStore × σ) :
    mergeAll lookup (item :: items) merged st =
      mergeAll lookup items (merged.merge (orNone (lookup item st).1)) (lookup item st).2 := by
  have hbind (next : Except LookupError (NameMap α) → LookupM σ (NameMap α)) :
      (lookup item >>= next) st = next (lookup item st).1 (lookup item st).2 := rfl
  rw [mergeAll, hbind]
  cases (lookup item st).1 with
  | ok facts => rfl
  | error e => rfl

/-- Merging answers as wanted, when every lookup gives the wanted answer and keeps it so. -/
theorem mergeAll_answer {lookup : ι → LookupM σ (Except LookupError (NameMap α))} {items : List ι}
    (want : ι → Except LookupError (NameMap α)) (good : FactStore × σ → Prop)
    (hgood : ∀ item st, good st → good (lookup item st).2)
    (hwant : ∀ item ∈ items, ∀ st, good st → (lookup item st).1 = want item)
    (merged : NameMap α) {st : FactStore × σ} (h : good st) :
    (mergeAll lookup items merged st).1 = mergeFound (items.map want) merged := by
  induction items generalizing merged st with
  | nil => rfl
  | cons item items ih =>
    rw [mergeAll_cons, hwant item List.mem_cons_self st h, List.map_cons, mergeFound,
      List.foldl_cons]
    exact ih (fun other ho => hwant other (List.mem_cons_of_mem _ ho)) _ (hgood item st h)

end Lookup

def Answers.commands (a : Answers) (id : String) : Except LookupError (NameMap Command) :=
  (a.settings (Resource.canonical id)).map fun settings =>
    Command.keywords.foldl (fun acc c => acc.insert c.name c)
      (Lookup.mergeFound (settings.commandIncludes.map fun file =>
        FactKind.commands.found a (Resource.canonical file)) ∅)

def Answers.IncludesCoherent (a : Answers) (store : FactStore) (id : String) : Prop :=
  ∀ settings, a.settings (Resource.canonical id) = .ok settings →
    ∀ file ∈ settings.commandIncludes, FactKind.commands.Coherent a store (Resource.canonical file)

/-- The commands that a resource may use, with those of its includes as they are served. -/
def Answers.commandsFrom (a : Answers) (store : FactStore) (key : String) :
    Except LookupError (NameMap Command) :=
  (a.settings key).map fun settings =>
    Command.keywords.foldl (fun acc c => acc.insert c.name c)
      (Lookup.mergeFound (settings.commandIncludes.map fun file =>
        FactKind.commands.served a store (Resource.canonical file)) ∅)

theorem Answers.commandsFrom_of_coherent {store : FactStore} {id : String}
    (h : a.IncludesCoherent store id) :
    a.commandsFrom store (Resource.canonical id) = a.commands id := by
  cases hs : a.settings (Resource.canonical id) with
  | error e => simp only [commandsFrom, commands, hs, Except.map]
  | ok settings =>
    have hincludes : settings.commandIncludes.map (fun file =>
          FactKind.commands.served a store (Resource.canonical file)) =
        settings.commandIncludes.map (fun file =>
          FactKind.commands.found a (Resource.canonical file)) := by
      apply List.map_congr_left
      intro file hfile
      exact FactKind.served_of_coherent (h settings hs file hfile)
    simp only [commandsFrom, commands, hs, Except.map, hincludes]

namespace Lookup

theorem commands_of_fault {id : String} {st : FactStore × σ} {e : LookupError}
    (h : (p.answers st.2).settings (Resource.canonical id) = .error e) :
    commands p id st = (.error e, st.1, (p.settings (Resource.canonical id) st.2).2) := by
  change (p.settings _ _).1 = _ at h
  simp only [commands, bind, StateT.bind, call, h]
  rfl

theorem commands_of_settings {id : String} {st : FactStore × σ} {settings : Settings}
    (h : (p.answers st.2).settings (Resource.canonical id) = .ok settings) :
    commands p id st =
      let merging := mergeAll (commandsIn p) settings.commandIncludes ∅
        (st.1, (p.settings (Resource.canonical id) st.2).2)
      (.ok (Command.keywords.foldl (fun acc c => acc.insert c.name c) merging.1), merging.2) := by
  change (p.settings _ _).1 = _ at h
  simp only [commands, bind, StateT.bind, call, h]
  rfl

theorem miscTokens_of_fault {id : String} {st : FactStore × σ} {e : LookupError}
    (h : (p.answers st.2).settings (Resource.canonical id) = .error e) :
    miscTokens p id st = (.error e, st.1, (p.settings (Resource.canonical id) st.2).2) := by
  change (p.settings _ _).1 = _ at h
  simp only [miscTokens, bind, StateT.bind, call, h]
  rfl

theorem miscTokens_of_settings {id : String} {st : FactStore × σ} {settings : Settings}
    (h : (p.answers st.2).settings (Resource.canonical id) = .ok settings) :
    miscTokens p id st =
      let merging := mergeAll (miscTokensIn p) settings.symbolIncludes ∅
        (st.1, (p.settings (Resource.canonical id) st.2).2)
      (.ok merging.1, merging.2) := by
  change (p.settings _ _).1 = _ at h
  simp only [miscTokens, bind, StateT.bind, call, h]
  rfl

theorem commands_served (hp : p.Steady) (id : String) (st : FactStore × σ) :
    (commands p id st).1 = (p.answers st.2).commandsFrom st.1 (Resource.canonical id) := by
  rw [Answers.commandsFrom]
  cases hs : (p.answers st.2).settings (Resource.canonical id) with
  | error e =>
    rw [commands_of_fault hs]
    rfl
  | ok settings =>
    rw [commands_of_settings hs]
    -- the includes are looked up one after the other, which changes nothing for the later ones
    have hmerge : (mergeAll (commandsIn p) settings.commandIncludes ∅
        (st.1, (p.settings (Resource.canonical id) st.2).2)).1 =
        mergeFound (settings.commandIncludes.map fun file =>
          FactKind.commands.served (p.answers st.2) st.1 (Resource.canonical file)) ∅ := by
      apply mergeAll_answer _ (Extends p st)
      · intro file now hnow
        exact hnow.trans hp (fact_calm .commands file now)
      · intro file _ now hnow
        exact (fact_served .commands file now).trans (hnow.served_eq hp _)
      · exact .of_asked (.settings (Resource.canonical id) st.2)
    exact congrArg (fun merged => Except.ok
      (Command.keywords.foldl (fun acc c => acc.insert c.name c) merged)) hmerge

theorem commands_answer (hp : p.Steady) {id : String} {st : FactStore × σ}
    (h : (p.answers st.2).IncludesCoherent st.1 id) :
    (commands p id st).1 = (p.answers st.2).commands id :=
  (commands_served hp id st).trans (Answers.commandsFrom_of_coherent h)

theorem Extends.commandsFrom_eq (hp : p.Steady) {st later : FactStore × σ} (h : Extends p st later)
    (key : String) : (p.answers later.2).commandsFrom later.1 key =
      (p.answers st.2).commandsFrom st.1 key := by
  have hserved : FactKind.commands.served (p.answers later.2) later.1 =
      FactKind.commands.served (p.answers st.2) st.1 := by
    ext1 file
    exact h.served_eq hp file
  rw [Answers.commandsFrom, Answers.commandsFrom, hserved, h.answers_eq hp]

/-- The facts about a document, in the order in which they are looked up. -/
theorem facts_of_content {id text : String} {st : FactStore × σ}
    (h : (content p (Resource.canonical id) st).1 = .ok text) :
    facts p id st =
      let key := Resource.canonical id
      let st₁ := (content p key st).2
      let st₂ := (commands p key st₁).2
      let st₃ := (constants p key st₂).2
      let st₄ := (allSymbols p key st₃).2
      (.ok
        { content := text
          commands := orNone (commands p key st₁).1
          constants := orNone (constants p key st₂).1
          symbols := (allSymbols p key st₃).1
          miscTokens := orNone (miscTokens p key st₄).1 },
        (miscTokens p key st₄).2) := by
  simp only [facts, bind, StateT.bind]
  split
  rename_i answer later heq
  rw [heq] at h ⊢
  cases h
  rfl

theorem facts_of_contentFault {id : String} {st : FactStore × σ} {e : LookupError}
    (h : (content p (Resource.canonical id) st).1 = .error e) :
    facts p id st = (.error e, (content p (Resource.canonical id) st).2) := by
  simp only [facts, bind, StateT.bind]
  split
  rename_i answer later heq
  rw [heq] at h ⊢
  cases h
  rfl

theorem facts_of_fault {id : String} {st : FactStore × σ} {e : LookupError}
    (hc : FactKind.content.Coherent (p.answers st.2) st.1
      (Resource.canonical (Resource.canonical id)))
    (ht : (p.answers st.2).text (Resource.canonical (Resource.canonical id)) = .error e) :
    (facts p id st).1 = .error e := by
  have hanswer := fact_answer hc
  rw [FactKind.found, ht] at hanswer
  rw [facts_of_contentFault hanswer]

/-- The facts about a document agree with its current text wherever the store is coherent. -/
theorem facts_of_text (hp : p.Steady) {id text : String} {st : FactStore × σ}
    (hc : ∀ kind : FactKind, kind ≠ .commands → kind.Coherent (p.answers st.2) st.1
      (Resource.canonical (Resource.canonical id)))
    (ht : (p.answers st.2).text (Resource.canonical (Resource.canonical id)) = .ok text) :
    ∃ found, (facts p id st).1 = .ok found ∧ found.content = text ∧
      found.constants =
        FactKind.constants.parse (Resource.canonical (Resource.canonical id)) text ∧
      FactKind.symbols.held (facts p id st).2.1 (Resource.canonical (Resource.canonical id)) =
        some (FactKind.symbols.parse (Resource.canonical (Resource.canonical id)) text) ∧
      ((p.answers st.2).IncludesCoherent st.1 (Resource.canonical id) →
        found.commands = orNone ((p.answers st.2).commands (Resource.canonical id))) := by
  have hcontent : (content p (Resource.canonical id) st).1 = .ok text := by
    rw [content_eq, fact_answer (hc .content (by decide)), FactKind.found, ht]
    rfl
  have hext₁ := fact_calm (p := p) .content (Resource.canonical id) st
  have hext₂ := hext₁.trans hp (commands_calm hp (Resource.canonical id) _)
  have hext₃ := hext₂.trans hp (fact_calm .constants (Resource.canonical id) _)
  rw [facts_of_content hcontent]
  refine ⟨_, rfl, rfl, ?_, ?_, ?_⟩
  · have hconstants := fact_answer ((hc .constants (by decide)).of_extends hp hext₂)
    rw [hext₂.answers_eq hp, FactKind.found, ht] at hconstants
    exact congrArg orNone hconstants
  · rw [← hext₃.answers_eq hp] at ht
    have hsymbols := held_fact ((hc .symbols (by decide)).of_extends hp hext₃) ht
    exact (miscTokens_calm hp (Resource.canonical id) _).kept .symbols _ _ hsymbols
  · intro hincludes
    have hcommands := (commands_served hp (Resource.canonical id) _).trans
      (hext₁.commandsFrom_eq hp _)
    rw [Answers.commandsFrom_of_coherent hincludes] at hcommands
    exact congrArg orNone hcommands

end Lookup
end ScriptIndex
