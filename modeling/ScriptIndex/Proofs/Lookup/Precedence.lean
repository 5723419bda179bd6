import ScriptIndex.Proofs.Lookup.Coherence
import ScriptIndex.Proofs.NameMap

/-!
# Which declaration of a command counts

The commands of a resource are gathered by two folds: each include file becomes a map in which the
last declaration of a name stays, and the maps of the files are merged one after the other, with the
keywords on top. What a name means in the end is one rule: a keyword is itself, and any other name is
what the last file that can be read and declares it says last.
-/
namespace ScriptIndex

namespace Lookup

variable {α : Type}

/-- Of several answers the last one with a name gives its value. -/
theorem find?_mergeFound (answers : List (Except LookupError (NameMap α))) (merged : NameMap α)
    (k : String) : (mergeFound answers merged).find? k =
      (answers.reverse.findSome? fun answer => (orNone answer).find? k).or (merged.find? k) := by
  have hfold : mergeFound answers merged = (answers.map orNone).foldl NameMap.merge merged := by
    rw [List.foldl_map, mergeFound]
  rw [hfold, NameMap.find?_foldl_merge, ← List.map_reverse, List.findSome?_map]
  rfl

end Lookup

namespace Command

/-- What a text declares under a name: the last declaration, where macros come first and movement
constants last. -/
def lastDeclared? (name text : String) : Option Command :=
  (extractMacros text ++ extractAssemblerConstants text ++
    extractMovementConstants text).reverse.find? fun c => c.name = name

theorem find?_ofFacts_extract (text name : String) :
    (NameMap.ofFacts Command.name (extract text)).find? name = lastDeclared? name text :=
  NameMap.find?_ofFacts Command.name (extract text) name

/-- No keyword stands in the table twice. -/
theorem keywords_nodup : (keywords.map Command.name).Nodup := by
  decide +kernel

/-- Among commands with different names it does not matter from which end a name is looked for. -/
theorem find?_reverse {cs : List Command} (h : (cs.map Command.name).Nodup) (name : String) :
    (cs.reverse.find? fun c => c.name = name) = cs.find? fun c => c.name = name := by
  induction cs with
  | nil => rfl
  | cons c cs ih =>
    rw [List.map_cons, List.nodup_cons] at h
    rw [List.reverse_cons, List.find?_append, ih h.2]
    by_cases hc : c.name = name
    · have hlater : (cs.find? fun c => c.name = name) = none := by
        rw [List.find?_eq_none]
        intro other ho heq
        apply h.1
        rw [hc, ← of_decide_eq_true heq]
        exact List.mem_map_of_mem ho
      simp [hc, hlater]
    · simp [hc]

end Command

/-- What the text of a resource declares under a name, nothing if the text cannot be had. -/
def Answers.lastDeclared? (a : Answers) (name key : String) : Option Command :=
  (a.text key).toOption.bind (Command.lastDeclared? name)

theorem Answers.find?_commands_found (a : Answers) (key name : String) :
    (Lookup.orNone (FactKind.commands.found a key)).find? name = a.lastDeclared? name key := by
  rw [FactKind.found, Answers.lastDeclared?]
  cases a.text key with
  | ok text => exact Command.find?_ofFacts_extract text name
  | error e => rfl

/-- What a name means as a command, given the include files in order. -/
def Answers.command? (a : Answers) (includes : List String) (name : String) : Option Command :=
  (Command.keywords.find? fun c => c.name = name).or
    (includes.reverse.findSome? fun file => a.lastDeclared? name (Resource.canonical file))

theorem Answers.commands_of_settings {a : Answers} {id : String} {settings : Settings}
    (h : a.settings (Resource.canonical id) = .ok settings) :
    ∃ found, a.commands id = .ok found ∧
      ∀ name, found.find? name = a.command? settings.commandIncludes name := by
  rw [Answers.commands, h]
  refine ⟨_, rfl, ?_⟩
  intro name
  rw [NameMap.find?_foldl_insert, Command.find?_reverse Command.keywords_nodup,
    Lookup.find?_mergeFound, NameMap.find?_empty, Option.or_none, ← List.map_reverse,
    List.findSome?_map, Answers.command?]
  congr 2
  ext1 file
  exact a.find?_commands_found (Resource.canonical file) name

namespace Lookup

variable {σ : Type} {p : Provider σ}

/-- A name among the commands of a resource is a keyword, or else what the last readable include that
declares it says last. It makes no difference which includes are in the store. -/
theorem commands_precedence (hp : p.Steady) {id : String} {st : FactStore × σ} {settings : Settings}
    (hs : (p.answers st.2).settings (Resource.canonical id) = .ok settings)
    (hc : (p.answers st.2).IncludesCoherent st.1 id) :
    ∃ found, (commands p id st).1 = .ok found ∧
      (∀ name, found.find? name = (p.answers st.2).command? settings.commandIncludes name) ∧
      ∀ other : FactStore × σ, p.answers other.2 = p.answers st.2 →
        (p.answers st.2).IncludesCoherent other.1 id → (commands p id other).1 = .ok found := by
  obtain ⟨found, hfound, hrule⟩ := Answers.commands_of_settings hs
  refine ⟨found, (commands_answer hp hc).trans hfound, hrule, ?_⟩
  intro other hanswers hother
  rw [← hanswers] at hother hfound
  exact (commands_answer hp hother).trans hfound

/-- Three include files, one of them given twice and one that is not there. -/
def walkTables : Provider.Tables where
  files := ((∅ : NameMap String).insert "event.inc" ".macro if\n.macro walk\nwalk = 3\n").insert
    "movement.inc" "create_movement_action walk, UP\ncreate_movement_action run, FAST\n"
  settings := (∅ : NameMap Settings.Value).insert "*" (.object [("commandIncludes", .array
    [.string "event.inc", .string "movement.inc", .string "gone.inc", .string "event.inc"])])

/-- One of the includes has been looked up before. -/
theorem commands_precedence_walk :
    let st := (commandsIn Provider.tables "event.inc" ({}, walkTables)).2
    (FactKind.commands.held st.1 "event.inc").isSome = true ∧
      (FactKind.commands.held st.1 "movement.inc").isSome = false ∧
      ∃ found, (commands Provider.tables "a.pory" st).1 = .ok found ∧
        (commands Provider.tables "a.pory" ({}, walkTables)).1 = .ok found ∧
        ["if", "walk", "run", "UP"].map (fun name => (found.find? name).map (·.kind)) =
          [some .keyword, some .assemblerConstant, some .movementConstant, none] := by
  intro st
  have hext : Extends Provider.tables ({}, walkTables) st := fact_calm .commands "event.inc" _
  have hanswers := hext.answers_eq Provider.tables_steady
  have hsettings : ∃ settings, (Provider.tables.answers st.2).settings
      (Resource.canonical "a.pory") = .ok settings ∧
        settings.commandIncludes = ["event.inc", "movement.inc", "gone.inc", "event.inc"] :=
    ⟨_, rfl, rfl⟩
  obtain ⟨settings, hs, hincludes⟩ := hsettings
  have hc : (Provider.tables.answers st.2).IncludesCoherent st.1 "a.pory" := by
    intro _ _ file _
    exact FactKind.Coherent.of_extends Provider.tables_steady (.empty _ _ _) hext
  obtain ⟨found, hfound, hrule, hother⟩ := commands_precedence Provider.tables_steady hs hc
  refine ⟨by decide +kernel, by decide +kernel, found, hfound, ?_, ?_⟩
  · exact hother ({}, walkTables) hanswers.symm fun _ _ file _ => .empty _ _ _
  · simp only [hrule, hincludes]
    decide +kernel

end Lookup
end ScriptIndex
