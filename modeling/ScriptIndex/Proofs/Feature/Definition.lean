import ScriptIndex.Feature.Definition
import ScriptIndex.Proofs.Declaration
import ScriptIndex.Proofs.Lookup.Served
import ScriptIndex.Proofs.Lookup.WorkspaceSymbols

/-!
# Definitions stand where they are said to stand

The word under the cursor is looked up by name among facts that may come from other files. When the
store agrees with the provider, the constant or symbol that is found stands in the current text of its
resource, and the location that is answered cuts exactly this word out of it.
-/
namespace ScriptIndex

variable {σ α : Type} {p : Provider σ} {a : Answers} {store : FactStore}

def Answers.Declares (a : Answers) (resource name : String) (position : Position) : Prop :=
  ∃ text, a.text resource = .ok text ∧ Declared text name position

/-- What is found under a name among the facts of a text is declared there. -/
theorem declares_of_found {name resource : α → String} {position : α → Position}
    {extract : String → List α} {key word : String} {facts : NameMap α} {fact : α}
    (hextract : ∀ text, ∀ fact ∈ extract text,
      resource fact = key ∧ Declared text (name fact) (position fact))
    (hfacts : ((a.text key).map fun text => NameMap.ofFacts name (extract text)) = .ok facts)
    (hfact : facts.find? word = some fact) :
    name fact = word ∧ a.Declares (resource fact) word (position fact) := by
  cases ht : a.text key with
  | error e =>
    rw [ht] at hfacts
    cases hfacts
  | ok text =>
    rw [ht] at hfacts
    cases hfacts
    obtain ⟨hresource, hdeclared⟩ := hextract text fact (NameMap.mem_of_find?_ofFacts hfact)
    have hname := NameMap.name_of_find?_ofFacts hfact
    rw [hname] at hdeclared
    rw [hresource]
    exact ⟨hname, text, ht, hdeclared⟩

theorem declares_of_constants {key word : String} {c : Constant}
    (h : FactKind.constants.Coherent a store key)
    (hc : (Lookup.orNone (FactKind.constants.served a store key)).find? word = some c) :
    c.name = word ∧ a.Declares c.resource word c.position := by
  rw [FactKind.served_of_coherent h] at hc
  cases hfound : FactKind.constants.found a key with
  | error e =>
    rw [hfound] at hc
    cases hc
  | ok facts =>
    rw [hfound] at hc
    exact declares_of_found (fun text fact => Constant.declared_of_mem_extract) hfound hc

theorem declares_of_symbols {key word : String} {x : Symbol}
    (h : ∀ key, FactKind.symbols.Coherent a store key)
    (hx : (a.symbolsFrom store key).find? word = some x) :
    x.name = word ∧ a.Declares x.resource word x.position := by
  rw [Answers.symbolsFrom, Lookup.find?_knownSymbols_eq_some_iff] at hx
  obtain ⟨other, facts, hother, hfact, -⟩ := hx
  -- the symbols of the resource itself are put into the store before it is read
  have hfound : FactKind.symbols.found a other = .ok facts := by
    cases hserved : FactKind.symbols.served a store key with
    | error e =>
      rw [hserved] at hother
      exact h other facts hother
    | ok own =>
      rw [hserved] at hother
      simp only [FactKind.held_insert_self] at hother
      split at hother
      · next hkey =>
        cases hother
        rw [hkey, ← FactKind.served_of_coherent (h key), hserved]
      · exact h other facts hother
  exact declares_of_found (fun text fact => Symbol.declared_of_mem_extract) hfound hfact

/-- The location of a name that is declared cuts the name out of the text of its resource. -/
theorem Answers.Declares.location {resource name : String} {position : Position}
    (h : a.Declares resource name position)
    (hsize : ∀ key text, a.text key = .ok text → text.utf8ByteSize < 2 ^ 32) :
    ∃ text start stop, a.text resource = .ok text ∧ CutOut text name start stop ∧
      Location.ofName? resource position name = (Resource.url? resource).map (⟨·, start, stop⟩) := by
  obtain ⟨text, ht, hdeclared⟩ := h
  exact ⟨text, position, position.shift name.utf8ByteSize, ht, hdeclared.cutOut (hsize _ _ ht), rfl⟩

theorem Answers.Declares.isEmpty_eq_false {resource name : String} {position : Position}
    (h : a.Declares resource name position) : name.isEmpty = false := by
  obtain ⟨text, -, hdeclared⟩ := h
  simpa using hdeclared.ne_empty

/-- The constants and symbols among the facts about a document are declared in the current texts. -/
theorem declares_of_facts (hp : p.Steady) {id : String} {st : FactStore × σ}
    (hconstants : ∀ key, FactKind.constants.Coherent (p.answers st.2) st.1 key)
    (hsymbols : ∀ key, FactKind.symbols.Coherent (p.answers st.2) st.1 key)
    {found : Facts} (hfound : (Lookup.facts p id st).1 = .ok found) (word : String) :
    (∀ c, found.constants.find? word = some c →
      c.name = word ∧ (p.answers st.2).Declares c.resource word c.position) ∧
    (∀ x, found.symbols.find? word = some x →
      x.name = word ∧ (p.answers st.2).Declares x.resource word x.position) := by
  rw [Lookup.facts_served hp, Answers.factsFrom] at hfound
  cases hcontent : FactKind.content.served (p.answers st.2) st.1
      (Resource.canonical (Resource.canonical id)) with
  | error e =>
    rw [hcontent] at hfound
    cases hfound
  | ok content =>
    rw [hcontent] at hfound
    cases hfound
    exact ⟨fun c hc => declares_of_constants (hconstants _) hc,
      fun x hx => declares_of_symbols hsymbols hx⟩

/-- When the store agrees with the current texts, the definition of a word cuts this word out of the
text of the resource that declares it, for a constant and, where there is none, for a symbol. -/
theorem definition_cuts_out_word (hp : p.Steady) {id : String} {st : FactStore × σ}
    (hconstants : ∀ key, FactKind.constants.Coherent (p.answers st.2) st.1 key)
    (hsymbols : ∀ key, FactKind.symbols.Coherent (p.answers st.2) st.1 key)
    (hsize : ∀ key text, (p.answers st.2).text key = .ok text → text.utf8ByteSize < 2 ^ 32)
    {found : Facts} (hfound : (Lookup.facts p id st).1 = .ok found) (line character : Nat) :
    let word := Cursor.wordAt found.content line
      (Text.bytesAtCursor found.content.toList line character)
    (∀ c, found.constants.find? word = some c → ∃ text start stop,
      (p.answers st.2).text c.resource = .ok text ∧ CutOut text word start stop ∧
        definitionAt? found line character = (Resource.url? c.resource).map (⟨·, start, stop⟩)) ∧
    (found.constants.find? word = none → ∀ x, found.symbols.find? word = some x →
      ∃ text start stop, (p.answers st.2).text x.resource = .ok text ∧ CutOut text word start stop ∧
        definitionAt? found line character = (Resource.url? x.resource).map (⟨·, start, stop⟩)) := by
  intro word
  obtain ⟨hconstant, hsymbol⟩ := declares_of_facts hp hconstants hsymbols hfound word
  have hdefinition (hword : word.isEmpty = false) :
      definitionAt? found line character = locationOf? found word := by
    change (if word.isEmpty then none else locationOf? found word) = _
    rw [hword]
    rfl
  constructor
  · intro c hc
    obtain ⟨hname, hdeclares⟩ := hconstant c hc
    rw [hdefinition hdeclares.isEmpty_eq_false, locationOf?, hc]
    simp only [hname]
    exact hdeclares.location hsize
  · intro hnone x hx
    obtain ⟨hname, hdeclares⟩ := hsymbol x hx
    rw [hdefinition hdeclares.isEmpty_eq_false, locationOf?, hnone, hx]
    simp only [hname]
    exact hdeclares.location hsize

/-- One script names a block of another one. -/
def crossroads : Provider.Tables where
  files := ((∅ : NameMap String).insert "file:///a.pory" "😀 Go\n").insert "file:///b.pory"
    "# Go:\néé script Go \x7b // Go:\n"

/-- The cursor stands inside the word after a character of two units, and its definition after two
characters of two bytes each, in a file whose symbols are held. -/
theorem definition_cuts_out_word_crossroads :
    let st := (Lookup.symbols Provider.tables "file:///b.pory" ({}, crossroads)).2
    ∃ found, (Lookup.facts Provider.tables "file:///a.pory" st).1 = .ok found ∧
      (definitionAt? found 0 4).map (fun loc => (loc.start, loc.stop)) = some (⟨1, 12⟩, ⟨1, 14⟩) ∧
      CutOut "# Go:\néé script Go \x7b // Go:\n" "Go" ⟨1, 12⟩ ⟨1, 14⟩ := by
  intro st
  have hlookup : Lookup.Extends Provider.tables ({}, crossroads) st :=
    Lookup.fact_calm .symbols "file:///b.pory" ({}, crossroads)
  have hanswers : Provider.tables.answers st.2 = Provider.tables.answers crossroads :=
    hlookup.answers_eq Provider.tables_steady
  have hcoherent (kind : FactKind) (key : String) :
      kind.Coherent (Provider.tables.answers st.2) st.1 key :=
    (FactKind.Coherent.empty kind _ key).of_extends Provider.tables_steady hlookup
  have hfiles : ∀ entry ∈ crossroads.files.entries, entry.2.utf8ByteSize < 2 ^ 32 := by
    decide +kernel
  have hsize : ∀ key text, (Provider.tables.answers st.2).text key = .ok text →
      text.utf8ByteSize < 2 ^ 32 := by
    intro key text ht
    rw [hanswers] at ht
    change crossroads.text key = .ok text at ht
    rw [Provider.Tables.text] at ht
    split at ht
    · next hfind =>
      cases ht
      exact hfiles _ (NameMap.mem_of_findEntry hfind)
    · cases ht
  have hrun : (Lookup.facts Provider.tables "file:///a.pory" st).1.toOption.map (fun found =>
      (Cursor.wordAt found.content 0 (Text.bytesAtCursor found.content.toList 0 4),
        found.constants.find? "Go", (found.symbols.find? "Go").map Symbol.resource,
        (definitionAt? found 0 4).map fun loc => (loc.start, loc.stop))) =
      some ("Go", none, some "file:///b.pory", some (⟨1, 12⟩, ⟨1, 14⟩)) := by decide +kernel
  cases hfacts : (Lookup.facts Provider.tables "file:///a.pory" st).1 with
  | error e =>
    rw [hfacts] at hrun
    cases hrun
  | ok found =>
    rw [hfacts] at hrun
    simp only [Except.toOption, Option.map_some, Option.some.injEq, Prod.mk.injEq,
      Option.map_eq_some_iff] at hrun
    obtain ⟨hword, hnone, ⟨x, hx, hresource⟩, loc, hloc, hrange⟩ := hrun
    have hcut := (definition_cuts_out_word Provider.tables_steady (hcoherent .constants)
      (hcoherent .symbols) hsize hfacts 0 4).2
    rw [hword] at hcut
    obtain ⟨text, start, stop, ht, hcut, hdefinition⟩ := hcut hnone x hx
    have htext : (Provider.tables.answers crossroads).text "file:///b.pory" =
        .ok "# Go:\néé script Go \x7b // Go:\n" := rfl
    rw [hresource, hanswers, htext] at ht
    cases ht
    rw [hloc] at hdefinition
    obtain ⟨url, -, rfl⟩ := Option.map_eq_some_iff.1 hdefinition.symm
    obtain ⟨rfl, rfl⟩ := hrange
    exact ⟨found, rfl, by rw [hloc]; rfl, hcut⟩

end ScriptIndex
