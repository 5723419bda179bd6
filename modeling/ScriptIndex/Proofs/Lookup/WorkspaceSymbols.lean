import ScriptIndex.Proofs.Lookup.Coherence
import ScriptIndex.Proofs.NameMap
import ScriptIndex.Proofs.Text.Order

/-!
# Which declaration of a symbol counts

The symbols of the workspace are those of all resources in the store, merged in the order of their ids.
A store that was filled by visiting resources holds the symbols of those that can be read, whatever the
order of the visits, the number of visits to each and the spelling of their ids. So the merged symbols
are one function of the provider and of the set of resources: a name is what the resource with the
greatest id that declares it says last.
-/
namespace ScriptIndex

/-- What a text declares as a symbol under a name: the last declaration, line by line. -/
def Symbol.lastDeclared? (name text resource : String) : Option Symbol :=
  (extract text resource).reverse.find? fun x => x.name = name

/-- What the text of a resource declares as a symbol under a name, nothing if the text cannot be had. -/
def Answers.lastSymbol? (a : Answers) (name key : String) : Option Symbol :=
  (a.text key).toOption.bind fun text => Symbol.lastDeclared? name text key

namespace Lookup

variable {α β σ : Type} {p : Provider σ} {kind : FactKind}

/-- Looked for from the end, entries in ascending order give the value of the greatest name that has
one. -/
theorem findSome?_reverse_iff {es : List (String × α)} (h : es.Pairwise fun a b => a.1 < b.1)
    {f : α → Option β} {x : β} : (es.reverse.findSome? fun e => f e.2) = some x ↔
      ∃ e ∈ es, f e.2 = some x ∧ ∀ later ∈ es, e.1 < later.1 → f later.2 = none := by
  induction es with
  | nil => simp
  | cons first es ih =>
    have hfirst : ∀ e ∈ es, first.1 < e.1 := fun e he => List.rel_of_pairwise_cons h he
    rw [List.reverse_cons, List.findSome?_append]
    cases hes : es.reverse.findSome? fun e => f e.2 with
    | none =>
      -- no later entry has a value, so the first one counts
      simp only [List.findSome?_eq_none_iff, List.mem_reverse] at hes
      have hlater : ∀ e ∈ es, f e.2 ≠ some x := fun e he heq => by simp [hes e he] at heq
      simp only [Option.none_or, List.findSome?_singleton, List.mem_cons, exists_eq_or_imp]
      constructor
      · intro hx
        refine Or.inl ⟨hx, ?_⟩
        rintro later (rfl | hmem) hlt
        · exact absurd hlt (String.lt_irrefl _)
        · exact hes later hmem
      · rintro (⟨hx, -⟩ | ⟨e, he, hx, -⟩)
        · exact hx
        · exact absurd hx (hlater e he)
    | some y =>
      have hiff := ih h.of_cons
      rw [hes] at hiff
      rw [Option.some_or, hiff]
      simp only [List.mem_cons, exists_eq_or_imp, forall_eq_or_imp]
      constructor
      · rintro ⟨e, he, hx, hgreatest⟩
        refine Or.inr ⟨e, he, hx, fun hlt => ?_, hgreatest⟩
        exact absurd (String.lt_trans hlt (hfirst e he)) (String.lt_irrefl _)
      · rintro (⟨-, -, hnone⟩ | ⟨e, he, hx, -, hgreatest⟩)
        · have hall : (es.reverse.findSome? fun e => f e.2) = none := by
            simp only [List.findSome?_eq_none_iff, List.mem_reverse]
            exact fun e he => hnone e he (hfirst e he)
          rw [hes] at hall
          cases hall
        · exact ⟨e, he, hx, hgreatest⟩

theorem find?_knownSymbols (store : FactStore) (name : String) :
    (knownSymbols store).find? name =
      store.symbols.entries.reverse.findSome? fun e => e.2.find? name := by
  rw [knownSymbols, NameMap.find?_foldl_merge, NameMap.find?_empty, Option.or_none, NameMap.values,
    ← List.map_reverse, List.findSome?_map]
  rfl

theorem mem_symbols_iff {store : FactStore} {key : String} {facts : NameMap Symbol} :
    (key, facts) ∈ store.symbols.entries ↔ FactKind.symbols.held store key = some facts :=
  NameMap.mem_entries_iff

theorem find?_knownSymbols_eq_some_iff {store : FactStore} {name : String} {x : Symbol} :
    (knownSymbols store).find? name = some x ↔
      ∃ key facts, FactKind.symbols.held store key = some facts ∧ facts.find? name = some x ∧
        ∀ later others, FactKind.symbols.held store later = some others → key < later →
          others.find? name = none := by
  rw [find?_knownSymbols]
  refine (findSome?_reverse_iff store.symbols.sorted (f := fun facts => facts.find? name)).trans ?_
  simp only [Prod.exists, Prod.forall, mem_symbols_iff]

theorem find?_knownSymbols_eq_none_iff {store : FactStore} {name : String} :
    (knownSymbols store).find? name = none ↔
      ∀ key facts, FactKind.symbols.held store key = some facts → facts.find? name = none := by
  rw [find?_knownSymbols, List.findSome?_eq_none_iff]
  simp only [List.mem_reverse, Prod.forall, mem_symbols_iff]

/-- What the store holds after a lookup: under the id what was served, and all else as before. -/
theorem held_after_fact (kind : FactKind) (id : String) (st : FactStore × σ) (key : String) :
    kind.held (fact p kind id st).2.1 key =
      if key = Resource.canonical id then (kind.served (p.answers st.2) st.1 key).toOption
      else kind.held st.1 key := by
  cases hheld : kind.held st.1 (Resource.canonical id) with
  | some held =>
    rw [fact_of_held hheld]
    split
    · next hkey =>
      rw [hkey, hheld, FactKind.served_of_held hheld]
      rfl
    · rfl
  | none =>
    have hserved := FactKind.served_of_none (a := p.answers st.2) hheld
    cases ht : (p.answers st.2).text (Resource.canonical id) with
    | ok text =>
      rw [fact_of_text hheld ht]
      refine (kind.held_insert_self st.1 _ key _).trans ?_
      split
      · next hkey =>
        rw [hkey, hserved, FactKind.found, ht]
        rfl
      · rfl
    | error e =>
      rw [fact_of_fault hheld ht]
      split
      · next hkey =>
        rw [hkey, hheld, hserved, FactKind.found, ht]
        rfl
      · rfl

/-- Looks up the symbols of resources, one after the other. -/
def visit (p : Provider σ) (ids : List String) (st : FactStore × σ) : FactStore × σ :=
  ids.foldl (fun st id => (symbols p id st).2) st

theorem held_visit (hp : p.Steady) (ids : List String) {st : FactStore × σ}
    (hc : ∀ key, FactKind.symbols.Coherent (p.answers st.2) st.1 key) (key : String) :
    FactKind.symbols.held (visit p ids st).1 key =
      if key ∈ ids.map Resource.canonical then (FactKind.symbols.found (p.answers st.2) key).toOption
      else FactKind.symbols.held st.1 key := by
  induction ids generalizing st with
  | nil => simp [visit]
  | cons id ids ih =>
    have hext : Extends p st (symbols p id st).2 := fact_calm .symbols id st
    have hnext : ∀ key, FactKind.symbols.Coherent (p.answers (symbols p id st).2.2)
        (symbols p id st).2.1 key := fun key => (hc key).of_extends hp hext
    have hstep := held_after_fact (p := p) .symbols id st key
    rw [FactKind.served_of_coherent (hc key)] at hstep
    rw [visit, List.foldl_cons]
    refine (ih hnext).trans ?_
    rw [hext.answers_eq hp, List.map_cons]
    by_cases hlater : key ∈ ids.map Resource.canonical
    · rw [if_pos hlater, if_pos (List.mem_cons_of_mem _ hlater)]
    · rw [if_neg hlater]
      refine hstep.trans ?_
      simp only [List.mem_cons, hlater, or_false]

theorem symbols_visit_eq (hp : p.Steady) (s : σ) {ids others : List String}
    (h : ∀ key, key ∈ ids.map Resource.canonical ↔ key ∈ others.map Resource.canonical) :
    (visit p ids ({}, s)).1.symbols = (visit p others ({}, s)).1.symbols := by
  apply NameMap.eq_of_find?
  intro key
  have hvisit (ids : List String) : FactKind.symbols.held (visit p ids ({}, s)).1 key = _ :=
    held_visit hp ids (fun key => .empty .symbols _ key) key
  refine (hvisit ids).trans (Eq.trans ?_ (hvisit others).symm)
  simp only [h key]

/-- The resource is one of those that were visited, and its text can be had. -/
def Visited (a : Answers) (ids : List String) (key : String) : Prop :=
  key ∈ ids.map Resource.canonical ∧ ∃ text, a.text key = .ok text

theorem held_visited (hp : p.Steady) (ids : List String) (s : σ) {key : String}
    {facts : NameMap Symbol} :
    FactKind.symbols.held (visit p ids ({}, s)).1 key = some facts ↔
      key ∈ ids.map Resource.canonical ∧ FactKind.symbols.found (p.answers s) key = .ok facts := by
  rw [held_visit hp ids fun key => .empty .symbols _ key, FactKind.held_empty]
  by_cases hkey : key ∈ ids.map Resource.canonical
  · rw [if_pos hkey]
    cases FactKind.symbols.found (p.answers s) key with
    | ok found => simp [hkey, Except.toOption]
    | error e => simp [Except.toOption]
  · simp [hkey]

/-- The resources whose symbols are held are those that were visited and can be read. -/
theorem isSome_held_visited (hp : p.Steady) (ids : List String) (s : σ) (key : String) :
    (FactKind.symbols.held (visit p ids ({}, s)).1 key).isSome = true ↔
      Visited (p.answers s) ids key := by
  rw [Option.isSome_iff_exists, Visited]
  simp only [held_visited hp, exists_and_left, FactKind.found]
  cases (p.answers s).text key with
  | ok text => simp [Except.map]
  | error e => simp [Except.map]

theorem lastSymbol?_of_found {a : Answers} {key : String} {facts : NameMap Symbol}
    (h : FactKind.symbols.found a key = .ok facts) (name : String) :
    a.lastSymbol? name key = facts.find? name := by
  rw [FactKind.found] at h
  rw [Answers.lastSymbol?]
  cases ht : a.text key with
  | error e =>
    rw [ht] at h
    cases h
  | ok text =>
    rw [ht] at h
    cases h
    exact (NameMap.find?_ofFacts Symbol.name (Symbol.extract text key) name).symm

/-- The symbols of the workspace after visits to resources depend on the set of resources only. A name
is what the resource with the greatest id, byte by byte, that declares it says last. -/
theorem allSymbols_of_visited (hp : p.Steady) (s : σ) (id : String) {ids others : List String}
    (h : ∀ key, key ∈ ids.map Resource.canonical ↔ key ∈ others.map Resource.canonical) :
    let a := p.answers s
    let run := allSymbols p id (visit p ids ({}, s))
    let Cached := Visited a (ids ++ [id])
    (allSymbols p id (visit p others ({}, s))).1 = run.1 ∧
    (∀ key, (FactKind.symbols.held run.2.1 key).isSome = true ↔ Cached key) ∧
    (∀ name x, run.1.find? name = some x ↔
      ∃ key, Cached key ∧ a.lastSymbol? name key = some x ∧
        ∀ later, Cached later → Text.bytes key.toList < Text.bytes later.toList →
          a.lastSymbol? name later = none) ∧
    (∀ name, run.1.find? name = none ↔ ∀ key, Cached key → a.lastSymbol? name key = none) := by
  intro a run Cached
  have hrun (ids : List String) : allSymbols p id (visit p ids ({}, s)) =
      (knownSymbols (visit p (ids ++ [id]) ({}, s)).1, visit p (ids ++ [id]) ({}, s)) := by
    simp only [visit, List.foldl_append]
    rfl
  have hcached (key : String) : Cached key ↔ ∃ facts, FactKind.symbols.held
      (visit p (ids ++ [id]) ({}, s)).1 key = some facts := by
    rw [← Option.isSome_iff_exists, isSome_held_visited hp]
  have hlast {key : String} {facts : NameMap Symbol} (hheld : FactKind.symbols.held
      (visit p (ids ++ [id]) ({}, s)).1 key = some facts) (name : String) :
      a.lastSymbol? name key = facts.find? name :=
    lastSymbol?_of_found ((held_visited hp _ s).1 hheld).2 name
  refine ⟨?_, ?_, ?_, ?_⟩
  · have hsymbols : (visit p (others ++ [id]) ({}, s)).1.symbols =
        (visit p (ids ++ [id]) ({}, s)).1.symbols := symbols_visit_eq hp s (by simp [h])
    simp only [run, hrun, knownSymbols, hsymbols]
  · intro key
    simp only [run, hrun]
    exact isSome_held_visited hp _ s key
  · intro name x
    simp only [run, hrun, find?_knownSymbols_eq_some_iff, hcached, Text.bytes_lt_iff]
    constructor
    · rintro ⟨key, facts, hheld, hx, hgreatest⟩
      refine ⟨key, ⟨facts, hheld⟩, (hlast hheld name).trans hx, ?_⟩
      rintro later ⟨others, hothers⟩ hlt
      exact (hlast hothers name).trans (hgreatest later others hothers hlt)
    · rintro ⟨key, ⟨facts, hheld⟩, hx, hgreatest⟩
      refine ⟨key, facts, hheld, (hlast hheld name).symm.trans hx, ?_⟩
      intro later others hothers hlt
      exact (hlast hothers name).symm.trans (hgreatest later ⟨others, hothers⟩ hlt)
  · intro name
    simp only [run, hrun, find?_knownSymbols_eq_none_iff, hcached]
    constructor
    · rintro hnone key ⟨facts, hheld⟩
      exact (hlast hheld name).trans (hnone key facts hheld)
    · intro hnone key facts hheld
      exact (hlast hheld name).symm.trans (hnone key ⟨facts, hheld⟩)

/-- Four files that declare one name, and one of them declares it twice. -/
def twinTables : Provider.Tables where
  files := ((((∅ : NameMap String).insert "a b.pory" "script Start \x7b\n").insert "m.pory"
    "Start:\n").insert "ｚ.pory" "text Start \x7b\n").insert "😀.pory" "mart Start \x7b\nStart:\n"

/-- The files are visited in two orders, one of them twice and under two spellings of its id, and so
is a file that is not there. The id that counts is the greatest one by bytes and would not be by
UTF-16 units. -/
theorem allSymbols_of_visited_twins :
    let ids := ["😀.pory", "a%20b.pory", "gone.pory", "ｚ.pory", "a b.pory"]
    let others := ["ｚ.pory", "gone.pory", "a b.pory", "😀.pory"]
    let run := allSymbols Provider.tables "m.pory" (visit Provider.tables ids ({}, twinTables))
    (∀ key, key ∈ ids.map Resource.canonical ↔ key ∈ others.map Resource.canonical) ∧
      (allSymbols Provider.tables "m.pory" (visit Provider.tables others ({}, twinTables))).1 = run.1 ∧
      run.1.find? "Start" = some ⟨"Start", ⟨1, 0⟩, "😀.pory", .label⟩ := by
  intro ids others run
  have hkeys : ids.map Resource.canonical =
        ["😀.pory", "a b.pory", "gone.pory", "ｚ.pory", "a b.pory"] ∧
      others.map Resource.canonical = ["ｚ.pory", "gone.pory", "a b.pory", "😀.pory"] := by
    decide +kernel
  have hsame : ∀ key, key ∈ ids.map Resource.canonical ↔ key ∈ others.map Resource.canonical := by
    intro key
    rw [hkeys.1, hkeys.2]
    simp only [List.mem_cons, List.not_mem_nil, or_false]
    grind
  have htwins := allSymbols_of_visited Provider.tables_steady twinTables "m.pory" hsame
  exact ⟨hsame, htwins.1, by decide +kernel⟩

end Lookup
end ScriptIndex
