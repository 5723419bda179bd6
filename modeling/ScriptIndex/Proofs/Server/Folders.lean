import ScriptIndex.Proofs.Server.OpenDocuments

/-!
# Changes of the workspace folders

Include files are looked for below the workspace folders. A change of the folders drops nothing that is
held about them: what is held is served as before, and what is not held is found below the new folders.
-/
namespace ScriptIndex

/-- What a store holds of the tokens of a resource's includes is what would be found now. -/
def Answers.TokensCoherent (a : Answers) (store : FactStore) (id : String) : Prop :=
  ∀ settings, a.settings (Resource.canonical id) = .ok settings →
    ∀ inc ∈ settings.symbolIncludes, inc.pattern.isSome = true → ∀ tokens,
      FactStore.miscCategory.find? store (Lookup.tokenKey inc) = some tokens →
      Lookup.servedTokens a {} settings.symbolIncludes inc = .ok tokens

namespace Answers

variable {a : Answers} {store : FactStore} {id : String}

theorem servedTokens_of_none {includes : List PatternInclude} {inc : PatternInclude}
    (h : FactStore.miscCategory.find? store (Lookup.tokenKey inc) = none) :
    Lookup.servedTokens a store includes inc = Lookup.servedTokens a {} includes inc := by
  have hempty : FactStore.miscCategory.find? {} (Lookup.tokenKey inc) = none := rfl
  simp only [Lookup.servedTokens, h, hempty]

theorem tokensFrom_of_coherent (h : a.TokensCoherent store id) :
    a.tokensFrom store (Resource.canonical id) = a.tokensFrom {} (Resource.canonical id) := by
  cases hs : a.settings (Resource.canonical id) with
  | error e => simp only [tokensFrom, hs, Except.map]
  | ok settings =>
    have hincludes : settings.symbolIncludes.map
          (Lookup.servedTokens a store settings.symbolIncludes) =
        settings.symbolIncludes.map (Lookup.servedTokens a {} settings.symbolIncludes) := by
      apply List.map_congr_left
      intro inc hinc
      cases hheld : FactStore.miscCategory.find? store (Lookup.tokenKey inc) with
      | none => exact servedTokens_of_none hheld
      | some tokens =>
        cases hpattern : inc.pattern with
        | none => simp only [Lookup.servedTokens, hpattern]
        | some pattern =>
          rw [h settings hs inc hinc (by simp [hpattern]) tokens hheld]
          simp only [Lookup.servedTokens, hpattern, hheld]
    simp only [tokensFrom, hs, Except.map, hincludes]

end Answers

namespace Lookup

variable {σ : Type} {p : Provider σ}

/-- The commands and the misc tokens in the facts about a document, from any store. -/
theorem facts_includes (hp : p.Steady) (id : String) (st : FactStore × σ) :
    (facts p id st).1.map (fun found => (found.commands, found.miscTokens)) =
      (FactKind.content.served (p.answers st.2) st.1
        (Resource.canonical (Resource.canonical id))).map fun _ =>
          (orNone ((p.answers st.2).commandsFrom st.1 (Resource.canonical (Resource.canonical id))),
            orNone ((p.answers st.2).tokensFrom st.1
              (Resource.canonical (Resource.canonical id)))) := by
  rw [facts_served hp, Answers.factsFrom]
  cases FactKind.content.served (p.answers st.2) st.1
      (Resource.canonical (Resource.canonical id)) with
  | error e => rfl
  | ok text => rfl

end Lookup

namespace Workspace

open Resource

/-- Other roots make no difference to an include that is found where it was. -/
theorem answers_withRoots {w : Workspace} {roots : List DiskPath} {id : String}
    (h : isFile id = true ∨ (w.withRoots roots).find? id = w.find? id) :
    (provider.answers (w.withRoots roots)).text id = (provider.answers w).text id ∧
      (provider.answers (w.withRoots roots)).owner id = (provider.answers w).owner id := by
  have hread : (w.withRoots roots).readDisk id = w.readDisk id := by
    rw [readDisk, readDisk, pathOf, pathOf]
    by_cases hfile : isFile id = true
    · simp only [hfile, if_true]
      rfl
    · rw [h.resolve_left hfile]
      rfl
  constructor
  · have hbuffers : (w.withRoots roots).buffers = w.buffers := rfl
    have hbelow : (w.withRoots roots).textBelow id = w.textBelow id := by
      rw [textBelow, textBelow, hread]
      rfl
    rw [text_eq, text_eq, hbuffers, hbelow]
  · rw [owner_eq, owner_eq]
    by_cases hfile : isFile id = true
    · simp only [hfile, if_true]
    · rw [h.resolve_left hfile]
      rfl

theorem settings_withRoots (w : Workspace) (roots : List DiskPath) (id : String) :
    (provider.answers (w.withRoots roots)).settings id = (provider.answers w).settings id := by
  have hcongr : (settingsOf id (w.withRoots roots)).1 = (settingsOf id w).1 :=
    @settingsOf_congr w (w.withRoots roots) rfl rfl rfl id
  exact hcongr

/-- The includes of a resource are found in the same places. -/
def FindsAlike (w later : Workspace) (id : String) : Prop :=
  ∀ settings, (provider.answers w).settings (canonical id) = .ok settings →
    ∀ file, (file ∈ settings.commandIncludes ∨ ∃ inc ∈ settings.symbolIncludes, inc.file = file) →
      isFile (canonical file) = true ∨ later.find? (canonical file) = w.find? (canonical file)

variable {w : Workspace} {roots : List DiskPath} {store : FactStore} {id : String}

theorem FindsAlike.includesCoherent (h : FindsAlike w (w.withRoots roots) id)
    (hheld : (provider.answers w).IncludesCoherent store id) :
    (provider.answers (w.withRoots roots)).IncludesCoherent store id := by
  intro settings hsettings file hfile
  rw [settings_withRoots] at hsettings
  apply (hheld settings hsettings file hfile).of_text
  intro text htext
  rw [(answers_withRoots (h settings hsettings file (Or.inl hfile))).1, htext]

theorem FindsAlike.tokensCoherent (h : FindsAlike w (w.withRoots roots) id)
    (hheld : (provider.answers w).TokensCoherent store id) :
    (provider.answers (w.withRoots roots)).TokensCoherent store id := by
  intro settings hsettings inc hinc hpattern tokens htokens
  rw [settings_withRoots] at hsettings
  have hsame := answers_withRoots (h settings hsettings inc.file (Or.inr ⟨inc, hinc, rfl⟩))
  rw [Lookup.servedTokens_congr hsame.1 hsame.2]
  exact hheld settings hsettings inc hinc hpattern tokens htokens

end Workspace

namespace Server

open Workspace

theorem noteRunning_folders {added removed : List String} {new gone : List Url}
    (hadded : added.mapM Url.parse? = some new) (hremoved : removed.mapM Url.parse? = some gone)
    (server : Server) : (noteRunning (.foldersChanged added removed) server).2 =
      { server with workspace := changeFolders new gone server.workspace } := by
  simp only [noteRunning, hadded, hremoved]
  rfl

/-- The commands and the misc tokens that a document is served over a workspace. -/
def includeFacts (store : FactStore) (w : Workspace) (id : String) :
    Except LookupError (NameMap Command × NameMap MiscToken) :=
  (Lookup.facts provider id (store, w)).1.map fun facts => (facts.commands, facts.miscTokens)

/-- Stores without facts about include files serve what is found now. -/
theorem includeFacts_of_coherent {store : FactStore} {w : Workspace} {id : String}
    (hcommands : (provider.answers w).IncludesCoherent store (Resource.canonical id))
    (htokens : (provider.answers w).TokensCoherent store (Resource.canonical id)) :
    includeFacts store w id = includeFacts store.forgetIncludes w id := by
  have hnone : (provider.answers w).IncludesCoherent store.forgetIncludes (Resource.canonical id) :=
    fun _ _ _ _ => .forgetIncludes fun hne => absurd rfl hne
  have hempty : (provider.answers w).TokensCoherent store.forgetIncludes (Resource.canonical id) := by
    intro settings _ inc _ _ tokens hheld
    cases hheld
  rw [includeFacts, includeFacts, Lookup.facts_includes provider_steady,
    Lookup.facts_includes provider_steady]
  dsimp only
  rw [FactKind.served_forgetIncludes (by decide), Answers.commandsFrom_of_coherent hcommands,
    Answers.commandsFrom_of_coherent hnone, Answers.tokensFrom_of_coherent htokens,
    Answers.tokensFrom_of_coherent hempty]

/-- A change of the folders drops nothing. A document is then served what is held about its includes
from before, and what the others give below the new folders. This is what an empty store would give if
what is held is what would be found now, so in particular if it was so before and no include has moved. -/
theorem folders_reach_includes_not_held {server : Server} (hrunning : server.phase = .running)
    {added removed : List String} {new gone : List Url}
    (hadded : added.mapM Url.parse? = some new) (hremoved : removed.mapM Url.parse? = some gone) :
    let later := (note (.foldersChanged added removed) server).2
    later.workspace = changeFolders new gone server.workspace ∧ later.store = server.store ∧
    (∀ id, let key := Resource.canonical (Resource.canonical id)
      includeFacts later.store later.workspace id =
        (FactKind.content.served later.answers server.store key).map fun _ =>
          (Lookup.orNone (later.answers.commandsFrom server.store key),
            Lookup.orNone (later.answers.tokensFrom server.store key))) ∧
    (∀ id, later.answers.IncludesCoherent server.store (Resource.canonical id) →
      later.answers.TokensCoherent server.store (Resource.canonical id) →
      includeFacts later.store later.workspace id =
        includeFacts later.store.forgetIncludes later.workspace id) ∧
    (∀ id, FindsAlike server.workspace later.workspace (Resource.canonical id) →
      server.answers.IncludesCoherent server.store (Resource.canonical id) →
      server.answers.TokensCoherent server.store (Resource.canonical id) →
      includeFacts later.store later.workspace id =
        includeFacts later.store.forgetIncludes later.workspace id) := by
  intro later
  have hlater : later = { server with workspace := changeFolders new gone server.workspace } := by
    simp only [later]
    rw [note_of_running _ hrunning, noteRunning_folders hadded hremoved]
  clear_value later
  subst hlater
  refine ⟨rfl, rfl, ?_, ?_, ?_⟩
  · intro id
    exact Lookup.facts_includes provider_steady id _
  · intro id hcommands htokens
    exact includeFacts_of_coherent hcommands htokens
  · intro id halike hcommands htokens
    exact includeFacts_of_coherent (halike.includesCoherent hcommands) (halike.tokensCoherent htokens)

def twoFolders : Disk :=
  { nodes := (sampleDisk "" ".macro old\n").nodes ++
      [(["ws", "d.h"], .file (Text.bytes "#define OLD 1\n".toList)), (["new"], .directory),
        (["new", "m.inc"], .file (Text.bytes ".macro new\n".toList)),
        (["new", "d.h"], .file (Text.bytes "#define NEW 1\n".toList))] }

def defineInclude : PatternInclude := .ofParts "#define ([A-Z]+)" "define" "d.h"

/-- An editor that knows nothing but the two include files. -/
def folderEditor : Editor where
  answer
    | .settings _ => .ok (.array [.object [("commandIncludes", .array [.string "m.inc"]),
        ("symbolIncludes", .array [.object [("expression", .string "#define ([A-Z]+)"),
          ("type", .string "define"), ("file", .string "d.h")]])]])
    | _ => .error "no answer"

/-- A session in which the includes have been looked up in the first folder. -/
def lookedUp : Server :=
  (respond (.completion "file:///ws/a%20b.pory") (introduced twoFolders folderEditor)).2

theorem lookedUp_grows : Grows (introduced twoFolders folderEditor) lookedUp := by
  have hphase : (introduced twoFolders folderEditor).phase = .running := by decide +kernel
  rw [lookedUp, respond_of_running _ hphase]
  exact respondRunning_grows (by simp) _

theorem includes_of_lookedUp {settings : Settings} (h : lookedUp.answers.settings
      (Resource.canonical (Resource.canonical "file:///ws/a b.pory")) = .ok settings) :
    settings.commandIncludes = ["m.inc"] ∧ settings.symbolIncludes = [defineInclude] := by
  have hgiven : (lookedUp.answers.settings
      (Resource.canonical (Resource.canonical "file:///ws/a b.pory"))).toOption.map
        (fun settings => (settings.commandIncludes, settings.symbolIncludes)) =
          some (["m.inc"], [defineInclude]) := by
    decide +kernel
  simpa [h, Except.toOption] using hgiven

/-- The tokens that were found on the way are those that would be found now. -/
theorem tokensCoherent_lookedUp : lookedUp.answers.TokensCoherent lookedUp.store
    (Resource.canonical "file:///ws/a b.pory") := by
  have hsame : (Lookup.servedTokens lookedUp.answers {} [defineInclude] defineInclude).toOption.map
      NameMap.entries =
        (FactStore.miscCategory.find? lookedUp.store (Lookup.tokenKey defineInclude)).map
          NameMap.entries := by
    decide +kernel
  intro settings hgiven inc hinc _ tokens htokens
  rw [(includes_of_lookedUp hgiven).2] at hinc ⊢
  obtain rfl := List.mem_singleton.1 hinc
  rw [htokens] at hsame
  cases hserved : Lookup.servedTokens lookedUp.answers {} [defineInclude] defineInclude with
  | error fault =>
    rw [hserved] at hsame
    cases hsame
  | ok found =>
    rw [hserved] at hsame
    rw [NameMap.entries_inj (Option.some.inj hsame)]

/-- A folder that comes after the one with the include files makes no difference, although the commands
and the tokens of the includes are held. -/
theorem folder_added_behind_finds_alike :
    let later := (note (.foldersChanged ["file:///new"] []) lookedUp).2
    (FactKind.commands.held later.store "m.inc").isSome = true ∧
      (FactStore.miscCategory.find? later.store (Lookup.tokenKey defineInclude)).isSome = true ∧
      includeFacts later.store later.workspace "file:///ws/a b.pory" =
        includeFacts later.store.forgetIncludes later.workspace "file:///ws/a b.pory" ∧
      (includeFacts later.store later.workspace "file:///ws/a b.pory").toOption.map (fun facts =>
        ((facts.1.find? "old").isSome, (facts.2.find? "OLD").isSome)) = some (true, true) := by
  have hphase : (introduced twoFolders folderEditor).phase = .running := by decide +kernel
  have hadded : ["file:///new"].mapM Url.parse? = some [.ofSegments ["new"]] := by decide +kernel
  have hremoved : ([] : List String).mapM Url.parse? = some [] := rfl
  intro later
  have hfound : (FactKind.commands.held later.store "m.inc").isSome = true ∧
      (FactStore.miscCategory.find? later.store (Lookup.tokenKey defineInclude)).isSome = true ∧
      (∀ file ∈ ["m.inc", "d.h"], later.workspace.find? (Resource.canonical file) =
        lookedUp.workspace.find? (Resource.canonical file)) ∧
      (includeFacts later.store later.workspace "file:///ws/a b.pory").toOption.map (fun facts =>
        ((facts.1.find? "old").isSome, (facts.2.find? "OLD").isSome)) = some (true, true) := by
    decide +kernel
  obtain ⟨-, -, -, -, halike⟩ :=
    folders_reach_includes_not_held (lookedUp_grows.phase.trans hphase) hadded hremoved
  refine ⟨hfound.1, hfound.2.1, halike _ ?_ ?_ tokensCoherent_lookedUp, hfound.2.2.2⟩
  · intro settings hgiven file hfile
    obtain ⟨hcommands, hsymbols⟩ := includes_of_lookedUp hgiven
    rw [hcommands, hsymbols] at hfile
    refine Or.inr (hfound.2.2.1 file ?_)
    rcases hfile with hfile | ⟨inc, hinc, rfl⟩
    · exact List.mem_append_left ["d.h"] hfile
    · rw [List.mem_singleton.1 hinc]
      decide
  · intro settings _ file _
    exact lookedUp_grows.coherent (.empty _ _ _)

/-- The commands of a folder that is gone are still served, and those of the new folder are not. -/
theorem commands_of_gone_folder_served :
    let later := (note (.foldersChanged ["file:///new"] ["file:///ws"]) lookedUp).2
    let shown (facts : Except LookupError (NameMap Command × NameMap MiscToken)) :=
      facts.toOption.map fun facts => ((facts.1.find? "old").isSome, (facts.1.find? "new").isSome)
    later.phase = .running ∧ later.workspace.roots = [⟨"/new"⟩] ∧
      shown (includeFacts later.store later.workspace "file:///ws/a b.pory") = some (true, false) ∧
      shown (includeFacts later.store.forgetIncludes later.workspace "file:///ws/a b.pory") =
        some (false, true) := by
  decide +kernel

end Server
end ScriptIndex
