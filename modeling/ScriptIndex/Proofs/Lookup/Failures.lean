import ScriptIndex.Proofs.Lookup.Served

/-!
# How far a failure reaches

Facts are gathered from many files, and a file that cannot be had is passed over. So an include without
facts may stand anywhere among the includes of a resource and changes nothing. Without settings there are
no commands and no misc tokens, and all other facts about a document are as they would be. Without its
text there are no facts about it at all.
-/
namespace ScriptIndex

/-- Two states behind a provider that answer alike but for the settings. -/
structure Provider.SameTexts {σ : Type} (p : Provider σ) (s t : σ) : Prop where
  text : (p.answers t).text = (p.answers s).text
  owner : (p.answers t).owner = (p.answers s).owner

/-- The settings have no part in what is served about a single resource. -/
theorem Provider.SameTexts.served_eq {σ : Type} {p : Provider σ} {s t : σ} (h : p.SameTexts s t)
    (kind : FactKind) (store : FactStore) (key : String) :
    kind.served (p.answers t) store key = kind.served (p.answers s) store key :=
  FactKind.served_congr (congrFun h.text key) rfl

namespace Lookup

variable {σ α ι : Type} {p : Provider σ}

/-- The second list is the first one with items put in at any places, all of the given sort. -/
inductive Padded (sort : ι → Prop) : List ι → List ι → Prop
  | nil : Padded sort [] []
  | keep (item : ι) {items padded : List ι} (h : Padded sort items padded) :
      Padded sort (item :: items) (item :: padded)
  | put {item : ι} (hitem : sort item) {items padded : List ι} (h : Padded sort items padded) :
      Padded sort items (item :: padded)

/-- Items without facts make no difference to the merged facts. -/
theorem mergeFound_of_padded {sort : ι → Prop} {items padded : List ι}
    (h : Padded sort items padded) (want want' : ι → Except LookupError (NameMap α))
    (hsort : ∀ item, sort item → orNone (want' item) = ∅)
    (hkept : ∀ item, orNone (want' item) = orNone (want item)) (merged : NameMap α) :
    mergeFound (padded.map want') merged = mergeFound (items.map want) merged := by
  induction h generalizing merged with
  | nil => rfl
  | @keep item items padded _ ih =>
    simp only [mergeFound, List.map_cons, List.foldl_cons, hkept item]
    exact ih _
  | @put item hitem items padded _ ih =>
    simp only [mergeFound, List.map_cons, List.foldl_cons, hsort item hitem]
    exact ih merged

theorem find?_of_padded {sort : ι → Prop} {items padded : List ι} (h : Padded sort items padded)
    {wanted : ι → Bool} (hsort : ∀ item, sort item → wanted item = false) :
    padded.find? wanted = items.find? wanted := by
  induction h with
  | nil => rfl
  | keep item _ ih => simp only [List.find?_cons, ih]
  | put hitem _ ih => simp only [List.find?_cons, hsort _ hitem, ih]

theorem commands_eq_error_iff (id : String) (st : FactStore × σ) (e : LookupError) :
    (commands p id st).1 = .error e ↔
      (p.answers st.2).settings (Resource.canonical id) = .error e := by
  cases hs : (p.answers st.2).settings (Resource.canonical id) with
  | error fault => simp [commands_of_fault hs]
  | ok settings => simp [commands_of_settings hs]

theorem miscTokens_eq_error_iff (id : String) (st : FactStore × σ) (e : LookupError) :
    (miscTokens p id st).1 = .error e ↔
      (p.answers st.2).settings (Resource.canonical id) = .error e := by
  cases hs : (p.answers st.2).settings (Resource.canonical id) with
  | error fault => simp [miscTokens_of_fault hs]
  | ok settings => simp [miscTokens_of_settings hs]

theorem facts_eq_error_iff (id : String) (st : FactStore × σ) (e : LookupError) :
    (facts p id st).1 = .error e ↔ (content p (Resource.canonical id) st).1 = .error e := by
  cases hcontent : (content p (Resource.canonical id) st).1 with
  | error fault => simp [facts_of_contentFault hcontent]
  | ok text => simp [facts_of_content hcontent]

/-- A command include that has no commands: it is not held and cannot be read. -/
def NoCommands (p : Provider σ) (st : FactStore × σ) (file : String) : Prop :=
  ∃ e, (commandsIn p file st).1 = .error e

/-- A symbol include that has no tokens: its expression is none, or it is not held and cannot be read. -/
def NoTokens (p : Provider σ) (st : FactStore × σ) (inc : PatternInclude) : Prop :=
  inc.pattern = none ∨ ∃ e, (miscTokensIn p inc st).1 = .error e

/-- Command includes without commands may be put in anywhere. -/
theorem commands_of_padded (hp : p.Steady) {id : String} {st : FactStore × σ} {t : σ}
    (h : p.SameTexts st.2 t) {settings more : Settings}
    (hs : (p.answers st.2).settings (Resource.canonical id) = .ok settings)
    (hmore : (p.answers t).settings (Resource.canonical id) = .ok more)
    (hpadded : Padded (NoCommands p st) settings.commandIncludes more.commandIncludes) :
    (commands p id (st.1, t)).1 = (commands p id st).1 := by
  have hnone (file : String) (hfile : NoCommands p st file) :
      orNone (FactKind.commands.served (p.answers t) st.1 (Resource.canonical file)) = ∅ := by
    obtain ⟨e, he⟩ := hfile
    rw [commandsIn_eq, fact_served] at he
    rw [h.served_eq, he]
    rfl
  have hmerged := mergeFound_of_padded hpadded
    (fun file => FactKind.commands.served (p.answers st.2) st.1 (Resource.canonical file))
    (fun file => FactKind.commands.served (p.answers t) st.1 (Resource.canonical file))
    hnone (fun file => congrArg orNone (h.served_eq _ _ _)) ∅
  rw [commands_served hp, commands_served hp]
  simp only [Answers.commandsFrom, hs, hmore, Except.map, hmerged]

theorem noTokens_iff (hp : p.Steady) {st : FactStore × σ} {inc : PatternInclude} :
    NoTokens p st inc ↔ inc.pattern = none ∨
      FactStore.miscCategory.find? st.1 (tokenKey inc) = none ∧
        ∃ e, (p.answers st.2).text (Resource.canonical inc.file) = .error e := by
  rw [NoTokens, miscTokensIn_fst hp, servedTokens]
  cases inc.pattern with
  | none => simp
  | some pattern =>
    cases FactStore.miscCategory.find? st.1 (tokenKey inc) with
    | some tokens => simp
    | none =>
      cases (p.answers st.2).text (Resource.canonical inc.file) with
      | ok text => simp [Except.map]
      | error e => simp [Except.map]

/-- Whether an include has tokens is a matter of its file and expression. -/
theorem NoTokens.of_key (hp : p.Steady) {st : FactStore × σ} {inc other : PatternInclude}
    (h : NoTokens p st inc) (hkey : tokenKey other = tokenKey inc) : NoTokens p st other := by
  have hfile : Resource.canonical other.file = Resource.canonical inc.file := congrArg Prod.fst hkey
  have hexpression : other.expression = inc.expression := congrArg Prod.snd hkey
  have hpattern : other.pattern = inc.pattern := by
    rw [other.compiled, inc.compiled, hexpression]
  rw [noTokens_iff hp] at h ⊢
  rw [hpattern, hkey, hfile]
  exact h

theorem NoTokens.served (hp : p.Steady) {st : FactStore × σ} {inc : PatternInclude}
    (h : NoTokens p st inc) (includes : List PatternInclude) :
    orNone (servedTokens (p.answers st.2) st.1 includes inc) = ∅ := by
  rw [noTokens_iff hp] at h
  rw [servedTokens]
  rcases h with hpattern | ⟨hheld, e, he⟩
  · simp [hpattern, orNone]
  · cases hpattern : inc.pattern with
    | none => simp [orNone]
    | some pattern => simp [hheld, he, Except.map, orNone]

/-- Symbol includes without tokens may be put in anywhere. -/
theorem miscTokens_of_padded (hp : p.Steady) {id : String} {st : FactStore × σ} {t : σ}
    (h : p.SameTexts st.2 t) {settings more : Settings}
    (hs : (p.answers st.2).settings (Resource.canonical id) = .ok settings)
    (hmore : (p.answers t).settings (Resource.canonical id) = .ok more)
    (hpadded : Padded (NoTokens p st) settings.symbolIncludes more.symbolIncludes) :
    (miscTokens p id (st.1, t)).1 = (miscTokens p id st).1 := by
  have hserved (inc : PatternInclude) : servedTokens (p.answers t) st.1 more.symbolIncludes inc =
      servedTokens (p.answers st.2) st.1 more.symbolIncludes inc :=
    servedTokens_congr (congrFun h.text _) (congrFun h.owner _)
  have hkept (inc : PatternInclude) :
      orNone (servedTokens (p.answers st.2) st.1 more.symbolIncludes inc) =
        orNone (servedTokens (p.answers st.2) st.1 settings.symbolIncludes inc) := by
    by_cases hinc : NoTokens p st inc
    · rw [hinc.served hp, hinc.served hp]
    -- an include with tokens shares its key with none of those put in
    · have htype : firstType more.symbolIncludes inc = firstType settings.symbolIncludes inc := by
        rw [firstType, firstType, find?_of_padded hpadded]
        intro other hother
        apply decide_eq_false
        intro hkey
        exact hinc (hother.of_key hp hkey.symm)
      simp only [servedTokens, htype]
  have hmerged := mergeFound_of_padded hpadded
    (servedTokens (p.answers st.2) st.1 settings.symbolIncludes)
    (servedTokens (p.answers t) st.1 more.symbolIncludes)
    (fun inc hinc => (congrArg orNone (hserved inc)).trans (hinc.served hp _))
    (fun inc => (congrArg orNone (hserved inc)).trans (hkept inc)) ∅
  rw [miscTokens_served hp, miscTokens_served hp]
  simp only [Answers.tokensFrom, hs, hmore, Except.map, hmerged]

/-- Without settings a document has no commands and no misc tokens, and its other facts. -/
theorem facts_of_settingsFault (hp : p.Steady) {id : String} {st : FactStore × σ} {t : σ}
    (h : p.SameTexts st.2 t) {e : LookupError}
    (hfault : (p.answers t).settings (Resource.canonical (Resource.canonical id)) = .error e) :
    (facts p id (st.1, t)).1 =
      (facts p id st).1.map fun found => { found with commands := ∅, miscTokens := ∅ } := by
  rw [facts_served hp, facts_served hp]
  simp only [Answers.factsFrom, Answers.symbolsFrom, Answers.commandsFrom, Answers.tokensFrom,
    h.served_eq, hfault]
  cases FactKind.content.served (p.answers st.2) st.1
      (Resource.canonical (Resource.canonical id)) with
  | error fault => rfl
  | ok content => rfl

/-- Commands and misc tokens cannot be had exactly without settings, and the facts about a document
exactly without its text, which is read under an id that is normalised twice. Includes without facts
may stand anywhere among the others. Without settings only the commands and misc tokens are missing. -/
theorem failures_stay_local (id : String) (st : FactStore × σ) :
    (∀ e, (commands p id st).1 = .error e ↔
      (p.answers st.2).settings (Resource.canonical id) = .error e) ∧
    (∀ e, (miscTokens p id st).1 = .error e ↔
      (p.answers st.2).settings (Resource.canonical id) = .error e) ∧
    (∀ e, (facts p id st).1 = .error e ↔ (content p (Resource.canonical id) st).1 = .error e) ∧
    (Resource.canonical (Resource.canonical id) = Resource.canonical id →
      content p (Resource.canonical id) = content p id) ∧
    (p.Steady → ∀ t, p.SameTexts st.2 t →
      (∀ settings more, (p.answers st.2).settings (Resource.canonical id) = .ok settings →
        (p.answers t).settings (Resource.canonical id) = .ok more →
        (Padded (NoCommands p st) settings.commandIncludes more.commandIncludes →
          (commands p id (st.1, t)).1 = (commands p id st).1) ∧
        (Padded (NoTokens p st) settings.symbolIncludes more.symbolIncludes →
          (miscTokens p id (st.1, t)).1 = (miscTokens p id st).1)) ∧
      (∀ e, (p.answers t).settings (Resource.canonical (Resource.canonical id)) = .error e →
        (facts p id (st.1, t)).1 =
          (facts p id st).1.map fun found => { found with commands := ∅, miscTokens := ∅ })) := by
  refine ⟨commands_eq_error_iff id st, miscTokens_eq_error_iff id st, facts_eq_error_iff id st,
    ?_, ?_⟩
  · intro hkey
    simp only [content, hkey]
  · intro hp t ht
    constructor
    · intro settings more hs hmore
      exact ⟨commands_of_padded hp ht hs hmore, miscTokens_of_padded hp ht hs hmore⟩
    · intro e hfault
      exact facts_of_settingsFault hp ht hfault

/-- A script with a macro file and a list of items, and settings for all resources. -/
def harbour (settings : Settings.Value) : Provider.Tables where
  files := (((∅ : NameMap String).insert "m.pory" "const A = 1\nscript Go \x7b\n").insert "sail.inc"
    ".macro sail\n").insert "items.h" "item Rope\n"
  settings := (∅ : NameMap Settings.Value).insert "*" settings

/-- Settings that name files which can be had. -/
def harbourSettings : Settings.Value :=
  .array [.array [.string "sail.inc"],
    .array [.array [.string "item (\\w+)", .string "define", .string "items.h"]]]

/-- Files that are not there and an expression that is none stand before and after. -/
def harbourPadded : Settings.Value :=
  .array [.array [.string "gone.inc", .string "sail.inc", .string "gone.inc"],
    .array [.array [.string "(", .string "other", .string "items.h"],
      .array [.string "item (\\w+)", .string "define", .string "items.h"],
      .array [.string "item (\\w+)", .string "special", .string "gone.h"]]]

theorem failures_stay_local_harbour :
    let st := (({} : FactStore), harbour harbourSettings)
    Provider.tables.SameTexts st.2 (harbour harbourPadded) ∧
      (commands Provider.tables "m.pory" ({}, harbour harbourPadded)).1 =
        (commands Provider.tables "m.pory" st).1 ∧
      (miscTokens Provider.tables "m.pory" ({}, harbour harbourPadded)).1 =
        (miscTokens Provider.tables "m.pory" st).1 ∧
      (facts Provider.tables "m.pory" ({}, harbour (.string "offline"))).1 =
        (facts Provider.tables "m.pory" st).1.map
          (fun found => { found with commands := ∅, miscTokens := ∅ }) ∧
      (facts Provider.tables "m.pory" st).1.toOption.map (fun found =>
        ((found.commands.find? "sail").isSome, (found.constants.find? "A").isSome,
          (found.symbols.find? "Go").isSome, (found.miscTokens.find? "Rope").isSome)) =
        some (true, true, true, true) := by
  intro st
  have hkey : Resource.canonical "m.pory" = "m.pory" := by decide +kernel
  have hgone : Resource.canonical "gone.inc" = "gone.inc" ∧ Resource.canonical "gone.h" = "gone.h" := by
    decide +kernel
  have hlocal := failures_stay_local (p := Provider.tables) "m.pory" st
  rw [hkey] at hlocal
  obtain ⟨-, -, -, -, hsteady⟩ := hlocal
  have hpadded := (hsteady Provider.tables_steady (harbour harbourPadded) ⟨rfl, rfl⟩).1 _ _ rfl rfl
  have hoffline := (hsteady Provider.tables_steady (harbour (.string "offline")) ⟨rfl, rfl⟩).2 _
    (by rw [hkey]; rfl)
  have hnocommands : NoCommands Provider.tables st "gone.inc" := by
    refine ⟨.contentUnavailable "gone.inc" "no such file", ?_⟩
    rw [commandsIn_eq, fact_served, hgone.1]
    rfl
  have hnotokens : NoTokens Provider.tables st (.ofParts "item (\\w+)" "special" "gone.h") := by
    rw [noTokens_iff Provider.tables_steady]
    right
    change _ ∧ ∃ e, (Provider.tables.answers st.2).text (Resource.canonical "gone.h") = .error e
    rw [hgone.2]
    exact ⟨rfl, _, rfl⟩
  have hinvalid : NoTokens Provider.tables st (.ofParts "(" "other" "items.h") := by
    left
    decide +kernel
  refine ⟨⟨rfl, rfl⟩, ?_, ?_, hoffline, by decide +kernel⟩
  · exact hpadded.1 (.put hnocommands (.keep _ (.put hnocommands .nil)))
  · exact hpadded.2 (.put hinvalid (.keep _ (.put hnotokens .nil)))

/-- A text with an escaped percent sign in its id can be had, and the facts about it cannot. -/
theorem facts_of_escaped_text :
    let tables : Provider.Tables :=
      { files := (∅ : NameMap String).insert "a%20b.pory" "const A = 1\n" }
    (content Provider.tables "a%2520b.pory" ({}, tables)).1 = .ok "const A = 1\n" ∧
      (facts Provider.tables "a%2520b.pory" ({}, tables)).1 =
        .error (.contentUnavailable "a b.pory" "no such file") := by
  intro tables
  have hkey : Resource.canonical "a%2520b.pory" = "a%20b.pory" ∧
      Resource.canonical "a%20b.pory" = "a b.pory" := by decide +kernel
  constructor
  · rw [content_eq, fact_served, hkey.1]
    rfl
  · rw [facts_eq_error_iff, content_eq, fact_served, hkey.1, hkey.2]
    rfl

end Lookup
end ScriptIndex
