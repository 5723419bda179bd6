import Mathlib.Data.List.Induction
import ScriptIndex.Proofs.Server.Freshness
import ScriptIndex.Proofs.Sources

/-!
# No script file is lost from the index

The symbols of all script files are looked up when the session is ready. What drops the symbols of a
script file after that looks them up again at once, unless the file is gone.
-/
namespace ScriptIndex.Server

open Workspace

/-- The symbols of a resource are held whenever it has a text. -/
def HoldsSymbols (key : String) (server : Server) : Prop :=
  ∀ text, server.answers.text key = .ok text →
    FactKind.symbols.held server.store key = some (FactKind.symbols.parse key text)

namespace HoldsSymbols

variable {key id : String} {server later : Server}

theorem of_grows (h : HoldsSymbols key server) (hgrows : Grows server later) :
    HoldsSymbols key later := by
  intro text ht
  rw [hgrows.answers_eq] at ht
  exact hgrows.kept .symbols key _ (h text ht)

theorem of_text (h : HoldsSymbols key server) (hstore : later.store = server.store)
    (htext : ∀ text, later.answers.text key = .ok text → server.answers.text key = .ok text) :
    HoldsSymbols key later := by
  intro text ht
  rw [hstore]
  exact h text (htext text ht)

theorem forgetting (h : HoldsSymbols key server) (hne : Resource.canonical id ≠ key) :
    HoldsSymbols key (server.forgetting id) := by
  intro text ht
  change FactKind.symbols.held (server.store.forget id) key = _
  rw [FactKind.held_forget, if_neg fun heq => hne heq.symm]
  exact h text ht

theorem forgettingIncludes (h : HoldsSymbols key server) :
    HoldsSymbols key server.forgettingIncludes := by
  intro text ht
  change FactKind.symbols.held server.store.forgetIncludes key = _
  rw [FactKind.held_forgetIncludes, if_neg (by decide)]
  exact h text ht

theorem of_renewed (hrenewed : Renewed id server later) (hid : Resource.canonical id = key)
    (hsource : Resource.isSource id = true) : HoldsSymbols key later := by
  subst hid
  intro text ht
  rw [hrenewed.grows.answers_eq] at ht
  exact hrenewed.held hsource text ht

/-- Where an edit drops the symbols of a script file, it looks them up again. -/
theorem of_edited (h : HoldsSymbols key server) (hedit : Edited id server later)
    (hsource : Resource.canonical id = key → Resource.isSource id = true)
    (hself : key = id → Resource.canonical key = key) : HoldsSymbols key later := by
  obtain ⟨buffers, hother, ⟨hsame, rfl⟩ | hrenewed⟩ := hedit
  · have hkey : buffers.text? key = server.workspace.buffers.text? key := by
      by_cases heq : key = id
      · rw [heq]
        exact hsame
      · exact hother key heq
    exact h.of_text rfl fun text ht => (text_of_buffers hkey).symm.trans ht
  · by_cases hid : Resource.canonical id = key
    · exact of_renewed hrenewed hid (hsource hid)
    · have hne : key ≠ id := fun heq => hid (by rw [← heq, hself heq])
      have hbuffers : HoldsSymbols key (server.withBuffers buffers) :=
        h.of_text rfl fun text ht => (text_of_buffers (hother key hne)).symm.trans ht
      exact (hbuffers.forgetting hid).of_grows hrenewed.grows

end HoldsSymbols

/-- The last thing told about the file with an id. -/
def lastTold? (id : String) (changes : List (Url × FileChange)) : Option FileChange :=
  (changes.reverse.find? fun change => Resource.ofUrl change.1 = id).map (·.2)

/-- What is told last about a script file decides whether its symbols are held. -/
theorem HoldsSymbols.of_changed {key : String} {server : Server} {changes : List (Url × FileChange)}
    (hstable : Resource.canonical key = key) (hsource : Resource.isSource key = true)
    (hspares : ∀ change ∈ changes, Resource.canonical (Resource.ofUrl change.1) = key →
      Resource.ofUrl change.1 = key ∨
        (change.2 = .written ∧ Resource.isSource (Resource.ofUrl change.1) = true))
    (hlast : lastTold? key changes ≠ some .deleted)
    (h : (∀ change ∈ changes, Resource.canonical (Resource.ofUrl change.1) ≠ key) →
      HoldsSymbols key server) : HoldsSymbols key (changed changes server) := by
  induction changes using List.reverseRecOn with
  | nil => exact h fun _ hmem => absurd hmem List.not_mem_nil
  | append_singleton changes change ih =>
    rw [changed, List.foldl_append]
    change HoldsSymbols key (changeFile change.1 change.2 (changed changes server)).2
    have hcases := changeFile_cases change.1 change.2 (changed changes server)
    by_cases htouch : Resource.canonical (Resource.ofUrl change.1) = key
    · have hwritten : change.2 = .written ∧ Resource.isSource (Resource.ofUrl change.1) = true := by
        rcases hspares change (List.mem_append_right _ (List.mem_singleton.2 rfl)) htouch with
          hself | hwritten
        · refine ⟨?_, by rw [hself]; exact hsource⟩
          cases hkind : change.2 with
          | written => rfl
          | deleted =>
            apply absurd _ hlast
            simp [lastTold?, hself, hkind]
        · exact hwritten
      rcases hcases with ⟨hdeleted, -⟩ | ⟨-, hrenewed⟩
      · rw [hwritten.1] at hdeleted
        cases hdeleted
      · exact of_renewed hrenewed htouch hwritten.2
    · have hself : Resource.ofUrl change.1 ≠ key := fun heq => htouch (by rw [heq, hstable])
      have hmiddle : HoldsSymbols key (changed changes server) := by
        apply ih
        · intro other hmem
          exact hspares other (List.mem_append_left _ hmem)
        · simpa [lastTold?, hself] using hlast
        · intro hnone
          apply h
          intro other hmem
          rcases List.mem_append.1 hmem with hmem | hmem
          · exact hnone other hmem
          · rw [List.mem_singleton.1 hmem]
            exact htouch
      rcases hcases with ⟨-, hlater⟩ | ⟨-, hrenewed⟩
      · rw [hlater]
        exact hmiddle.forgetting htouch
      · exact (hmiddle.forgetting htouch).of_grows hrenewed.grows

/-- The last thing told about a file is that it is gone just when it is. -/
def Truthful (disk : Disk) (changes : List (String × FileChange)) : Prop :=
  ∀ names id, (∀ name ∈ names, DiskPath.IsName name) → Resource.ofPath? (.ofNames names) = some id →
    ∀ change, lastTold? id (changes.filterMap readChange) = some change →
      (change = .deleted ↔ disk.bytesAt? (.ofNames names) = none)

theorem ofNames_eq_of_fileId {names others : List String}
    (h : Resource.fileId names = Resource.fileId others) :
    DiskPath.ofNames names = DiskPath.ofNames others := by
  have hlists := congrArg String.toList h
  rw [Resource.fileId, Resource.fileId, String.toList_append, String.toList_append] at hlists
  have htext := String.toList_injective (List.append_cancel_left hlists)
  rw [DiskPath.ofNames, DiskPath.ofNames, htext]

/-- A report is truthful when it is so about the files that it names. -/
theorem truthful_of_places {disk : Disk} {changes : List (String × FileChange)}
    (places : List (List String))
    (h : ∀ told ∈ changes.filterMap readChange, ∃ names ∈ places,
      Resource.ofUrl told.1 = Resource.fileId names ∧
        ∀ change ∈ lastTold? (Resource.ofUrl told.1) (changes.filterMap readChange),
          (change = .deleted ↔ disk.bytesAt? (.ofNames names) = none)) :
    Truthful disk changes := by
  intro names id hnames hid change hlast
  obtain ⟨told, hfind, -⟩ := Option.map_eq_some_iff.1 hlast
  have htold : Resource.ofUrl told.1 = id := by simpa using List.find?_some hfind
  have hmem := List.mem_reverse.1 (List.mem_of_find?_eq_some hfind)
  obtain ⟨others, -, hothers, hsays⟩ := h told hmem
  rw [htold] at hothers hsays
  have hne : names ≠ [] := by
    rintro rfl
    cases hid
  have hparts := DiskPath.parts_ofNames hnames
  rw [Resource.ofPath?_eq (DiskPath.isAbsolute_ofNames hne) (by rw [hparts]; exact hne), hparts,
    Option.some.injEq, hothers] at hid
  rw [ofNames_eq_of_fileId hid]
  exact hsays change hlast

namespace Step

/-- Watched files are reported as they are. -/
def Truthful : Step → Server → Prop
  | note (.filesChanged changes), server => Server.Truthful server.workspace.disk changes
  | disk later changes, _ => Server.Truthful later changes
  | _, _ => True

/-- The ids that a step drops facts about, each with what happened to it. -/
def touched : Step → List (String × FileChange)
  | note (.filesChanged changes) | disk _ changes =>
      (changes.filterMap readChange).map fun change => (Resource.ofUrl change.1, change.2)
  | step => step.edits.map fun id => (id, .written)

theorem mem_touched_of_edits {step : Step} {id : String} (h : id ∈ step.edits) :
    (id, .written) ∈ step.touched := by
  cases step with
  | note notification =>
    cases notification with
    | filesChanged changes => cases h
    | _ => exact List.mem_map.2 ⟨id, h, rfl⟩
  | disk later changes => cases h
  | request asked => cases h
  | settings editor => cases h

/-- No other resource with the same canonical id is dropped without being looked up again. -/
def Spares (key : String) (step : Step) : Prop :=
  ∀ told ∈ step.touched, Resource.canonical told.1 = key →
    told.1 = key ∨ (told.2 = .written ∧ Resource.isSource told.1 = true)

end Step

/-- Each step is allowed and truthful in the state it meets, and spares a resource. -/
def AllTruthful (key : String) : List Step → Server → Prop
  | [], _ => True
  | step :: steps, server =>
      (step.Allowed server ∧ step.Truthful server ∧ step.Spares key) ∧
        AllTruthful key steps (step.run server)

theorem filterMap_readChange {changes : List (String × FileChange)} {read : List (Url × FileChange)}
    (h : changes.mapM readChange = some read) : changes.filterMap readChange = read := by
  induction changes generalizing read with
  | nil =>
    cases h
    rfl
  | cons first changes ih =>
    rw [List.mapM_cons] at h
    obtain ⟨head, hhead, h⟩ := Option.bind_eq_some_iff.1 h
    obtain ⟨tail, htail, h⟩ := Option.bind_eq_some_iff.1 h
    cases h
    rw [List.filterMap_cons, hhead, ih htail]

theorem mem_told {changes : List (String × FileChange)} {read : List (Url × FileChange)}
    (h : changes.mapM readChange = some read) {change : Url × FileChange} (hmem : change ∈ read) :
    (Resource.ofUrl change.1, change.2) ∈
      (changes.filterMap readChange).map fun change => (Resource.ofUrl change.1, change.2) := by
  rw [filterMap_readChange h]
  generalize Resource.ofUrl = idOf
  exact List.mem_map.2 ⟨change, hmem, rfl⟩

theorem withDisk_self (server : Server) : server.withDisk server.workspace.disk = server := rfl

/-- What is told about watched files changes neither the phase nor the disk. -/
theorem changed_unchanged (changes : List (Url × FileChange)) (server : Server) :
    (changed changes server).phase = server.phase ∧
      (changed changes server).workspace.disk = server.workspace.disk := by
  induction changes generalizing server with
  | nil => exact ⟨rfl, rfl⟩
  | cons change changes ih =>
    obtain ⟨hphase, hdisk⟩ := ih (changeFile change.1 change.2 server).2
    rcases changeFile_cases change.1 change.2 server with ⟨-, hlater⟩ | ⟨-, hrenewed⟩
    · have hnext : changed (change :: changes) server =
          changed changes (changeFile change.1 change.2 server).2 := rfl
      rw [hnext, hphase, hdisk, hlater]
      exact ⟨rfl, rfl⟩
    · exact ⟨hphase.trans hrenewed.grows.phase, hdisk.trans hrenewed.grows.disk_eq⟩

theorem Edited.unchanged {id : String} {server later : Server} (h : Edited id server later) :
    later.phase = server.phase ∧ later.workspace.disk = server.workspace.disk := by
  obtain ⟨buffers, -, ⟨-, rfl⟩ | hrenewed⟩ := h
  · exact ⟨rfl, rfl⟩
  · exact ⟨hrenewed.grows.phase, hrenewed.grows.disk_eq⟩

/-- In an open session, the symbols of a script file are held while the file is on the disk. -/
structure Indexed (names : List String) (server : Server) : Prop where
  running : server.phase = .running
  held : server.workspace.disk.bytesAt? (.ofNames names) ≠ none →
    HoldsSymbols (Resource.fileId names) server

namespace Indexed

variable {names : List String} {server later : Server}

theorem of_grows (h : Indexed names server) (hgrows : Grows server later) : Indexed names later := by
  refine ⟨hgrows.phase.trans h.running, fun hbytes => ?_⟩
  rw [hgrows.disk_eq] at hbytes
  exact (h.held hbytes).of_grows hgrows

theorem of_configurationChanged (hrunning : server.phase = .running)
    (h : server.workspace.disk.bytesAt? (.ofNames names) ≠ none →
      HoldsSymbols (Resource.fileId names) server) :
    Indexed names (noteRunning .configurationChanged server).2 := by
  refine ⟨hrunning, fun hbytes => ?_⟩
  refine (h hbytes).forgettingIncludes.of_text rfl fun text ht => ?_
  exact (text_of_settings server.workspace ∅ _).symm.trans ht

theorem of_settings (h : Indexed names server) {editor : Editor}
    (hsame : ∀ c, server.workspace.connection = some c →
      editor.answer (readQuery (Resource.fileId names)) =
        c.editor.answer (readQuery (Resource.fileId names))) :
    Indexed names (noteRunning .configurationChanged (server.withEditor editor)).2 := by
  have hrunning : (server.withEditor editor).phase = .running := h.running
  apply of_configurationChanged hrunning
  intro hbytes
  refine (h.held hbytes).of_text rfl fun text ht => ?_
  exact (text_of_editor hsame).symm.trans ht

variable (hscript : IsScript names)
  (hstable : Resource.canonical (Resource.fileId names) = Resource.fileId names)

include hscript hstable

theorem of_edited {id : String} (h : Indexed names server) (hedit : Edited id server later)
    (hspares : Resource.canonical id = Resource.fileId names →
      id = Resource.fileId names ∨ Resource.isSource id = true) : Indexed names later := by
  obtain ⟨hphase, hdisk⟩ := hedit.unchanged
  refine ⟨hphase.trans h.running, fun hbytes => ?_⟩
  rw [hdisk] at hbytes
  refine (h.held hbytes).of_edited hedit (fun hid => ?_) fun _ => hstable
  rcases hspares hid with rfl | hsource
  · exact hscript.isSource
  · exact hsource

/-- A report over a disk that may have changed: either it names the file, or the file is as before. -/
theorem of_report {disk : Disk} {changes : List (String × FileChange)}
    {read : List (Url × FileChange)} (h : Indexed names server)
    (hread : changes.mapM readChange = some read) (htrue : Truthful disk changes)
    (hspares : ∀ change ∈ read, Resource.canonical (Resource.ofUrl change.1) = Resource.fileId names →
      Resource.ofUrl change.1 = Resource.fileId names ∨
        (change.2 = .written ∧ Resource.isSource (Resource.ofUrl change.1) = true))
    (htold : disk.bytesAt? (.ofNames names) ≠ server.workspace.disk.bytesAt? (.ofNames names) →
      ∃ change ∈ read, Resource.ofUrl change.1 = Resource.fileId names) :
    Indexed names (changed read (server.withDisk disk).forgettingIncludes) := by
  obtain ⟨hphase, hdisk⟩ := changed_unchanged read (server.withDisk disk).forgettingIncludes
  refine ⟨hphase.trans h.running, fun hbytes => ?_⟩
  rw [hdisk] at hbytes
  change disk.bytesAt? (.ofNames names) ≠ none at hbytes
  have hid : Resource.ofPath? (.ofNames names) = some (Resource.fileId names) := by
    have hparts := DiskPath.parts_ofNames hscript.kept.isName
    have hne : (DiskPath.ofNames names).parts ≠ [] := by
      rw [hparts]
      exact hscript.ne_nil
    rw [Resource.ofPath?_eq (DiskPath.isAbsolute_ofNames hscript.ne_nil) hne, hparts]
  apply HoldsSymbols.of_changed hstable hscript.isSource hspares
  · intro hlast
    rw [← filterMap_readChange hread] at hlast
    exact hbytes ((htrue names _ hscript.kept.isName hid _ hlast).1 rfl)
  · intro hnone
    have hsame : disk.bytesAt? (.ofNames names) = server.workspace.disk.bytesAt? (.ofNames names) := by
      by_contra hdiffers
      obtain ⟨change, hmem, hchange⟩ := htold hdiffers
      exact hnone change hmem (by rw [hchange, hstable])
    have hfile : Resource.IsFileId (Resource.fileId names) :=
      ⟨names, hscript.kept, Or.inl ⟨hscript.ne_nil, rfl⟩⟩
    rw [hsame] at hbytes
    apply HoldsSymbols.forgettingIncludes
    refine (h.held hbytes).of_text rfl fun text ht => ?_
    have hbefore : ∀ others, Url.Kept others → others ≠ [] →
        Resource.fileId names = Resource.fileId others →
        server.workspace.disk.bytesAt? (.ofNames others) =
          (server.withDisk disk).workspace.disk.bytesAt? (.ofNames others) := by
      intro others _ _ heq
      rw [← ofNames_eq_of_fileId heq]
      exact hsame.symm
    exact text_of_disk hfile hbefore text ht

theorem of_filesChanged (h : Indexed names server) {changes : List (String × FileChange)}
    (htrue : Truthful server.workspace.disk changes)
    (hspares : (Step.note (.filesChanged changes)).Spares (Resource.fileId names)) :
    Indexed names (noteRunning (.filesChanged changes) server).2 := by
  cases hread : changes.mapM readChange with
  | none =>
    rw [noteRunning, hread]
    exact h
  | some read =>
    rw [noteRunning_filesChanged hread]
    have hreport : Indexed names
        (changed read (server.withDisk server.workspace.disk).forgettingIncludes) := by
      refine h.of_report hscript hstable hread htrue ?_ fun hdiffers => absurd rfl hdiffers
      intro change hmem
      have htold := hspares _ (mem_told hread hmem)
      dsimp only at htold
      exact htold
    rw [withDisk_self] at hreport
    exact hreport

theorem of_noteRunning (h : Indexed names server) {notification : Notification}
    (hallowed : (Step.note notification).Allowed server)
    (htrue : (Step.note notification).Truthful server)
    (hspares : (Step.note notification).Spares (Resource.fileId names)) :
    Indexed names (noteRunning notification server).2 := by
  rcases noteRunning_cases hallowed with hgrows | ⟨id, hmem, hedited⟩ | rfl | ⟨changes, rfl⟩
  · exact h.of_grows hgrows
  · refine h.of_edited hscript hstable hedited fun hid => ?_
    exact (hspares (id, .written) (Step.mem_touched_of_edits hmem) hid).imp_right And.right
  · exact .of_configurationChanged h.running h.held
  · exact h.of_filesChanged hscript hstable htrue hspares

theorem of_disk (h : Indexed names server) {disk : Disk} {changes : List (String × FileChange)}
    (hreported : Reported server.workspace.disk disk changes) (htrue : Truthful disk changes)
    (hspares : (Step.disk disk changes).Spares (Resource.fileId names)) :
    Indexed names (noteRunning (.filesChanged changes) (server.withDisk disk)).2 := by
  obtain ⟨read, hread⟩ := Option.isSome_iff_exists.1 hreported.readable
  rw [noteRunning_filesChanged hread]
  apply h.of_report hscript hstable hread htrue
  · intro change hmem
    have htold := hspares _ (mem_told hread hmem)
    dsimp only at htold
    exact htold
  · intro hdiffers
    exact hreported.exists_told hread hscript.kept hscript.ne_nil hdiffers

end Indexed

/-- The session has been opened, and a script file is indexed as long as it stays open. -/
structure Serving (names : List String) (server : Server) : Prop where
  opened : server.phase ≠ .fresh
  session : server.phase = .running → Indexed names server

namespace Serving

variable {names : List String} {server : Server}

theorem of_indexed (h : Indexed names server) : Serving names server := by
  refine ⟨?_, fun _ => h⟩
  rw [h.running]
  decide

theorem of_stopped (h : server.phase = .stopped) : Serving names server := by
  refine ⟨?_, fun hphase => ?_⟩
  · rw [h]
    decide
  · rw [h] at hphase
    cases hphase

theorem of_respond (h : Serving names server) (request : Request) :
    Serving names (respond request server).2 := by
  cases hphase : server.phase with
  | fresh => exact absurd hphase h.opened
  | running =>
    rw [respond_of_running request hphase]
    rcases respondRunning_cases request server with hgrows | hstopped
    · exact of_indexed ((h.session hphase).of_grows hgrows)
    · exact of_stopped hstopped
  | stopped =>
    rw [respond_of_stopped request hphase]
    exact h

variable (hscript : IsScript names)
  (hstable : Resource.canonical (Resource.fileId names) = Resource.fileId names)

include hscript hstable

theorem of_step (h : Serving names server) {step : Step} (hallowed : step.Allowed server)
    (htrue : step.Truthful server) (hspares : step.Spares (Resource.fileId names)) :
    Serving names (step.run server) := by
  cases step with
  | request request => exact h.of_respond request
  | note notification =>
    rw [Step.run]
    by_cases hphase : server.phase = .running
    · rw [note_of_running notification hphase]
      exact of_indexed ((h.session hphase).of_noteRunning hscript hstable hallowed htrue hspares)
    · rw [note_of_ne notification hphase]
      exact h
  | disk disk changes =>
    rw [Step.run]
    by_cases hphase : server.phase = .running
    · rw [note_of_running _ (show (server.withDisk disk).phase = .running from hphase)]
      exact of_indexed ((h.session hphase).of_disk hscript hstable hallowed htrue hspares)
    · rw [note_of_ne _ (show (server.withDisk disk).phase ≠ .running from hphase)]
      exact ⟨h.opened, fun hrunning => absurd hrunning hphase⟩
  | settings editor =>
    rw [Step.run]
    by_cases hphase : server.phase = .running
    · rw [note_of_running _ (show (server.withEditor editor).phase = .running from hphase)]
      exact of_indexed ((h.session hphase).of_settings fun c hc =>
        hallowed c hc _ (readQuery_ne_settings _))
    · rw [note_of_ne _ (show (server.withEditor editor).phase ≠ .running from hphase)]
      exact ⟨h.opened, fun hrunning => absurd hrunning hphase⟩

theorem of_steps (h : Serving names server) {steps : List Step}
    (hsteps : AllTruthful (Resource.fileId names) steps server) :
    Serving names (after steps server) := by
  induction steps generalizing server with
  | nil => exact h
  | cons step steps ih =>
    obtain ⟨⟨hallowed, htrue, hspares⟩, hrest⟩ := hsteps
    exact ih (h.of_step hscript hstable hallowed htrue hspares) hrest

end Serving

/-- After the symbols of some resources were looked up, those of each one with a text are held. -/
theorem held_warm {ids : List String} {id : String} (hmem : id ∈ ids) {server : Server}
    (hcoherent : FactKind.symbols.Coherent server.answers server.store (Resource.canonical id))
    {text : String} (ht : server.answers.text (Resource.canonical id) = .ok text) :
    FactKind.symbols.held (warm ids server).2.store (Resource.canonical id) =
      some (FactKind.symbols.parse (Resource.canonical id) text) := by
  induction ids generalizing server with
  | nil => cases hmem
  | cons first ids ih =>
    have hgrows := lookup_grows (Lookup.fact_calm .symbols first) server
    change FactKind.symbols.held
      (warm ids (lookup (Lookup.fact provider .symbols first) server).2).2.store _ = _
    by_cases heq : first = id
    · subst heq
      apply (warm_grows ids _).kept .symbols
      change FactKind.symbols.held (Lookup.fact provider .symbols first
        (server.store, server.workspace)).2.1 _ = _
      exact Lookup.held_fact hcoherent ht
    · rw [← hgrows.answers_eq] at ht
      exact ih ((List.mem_cons.1 hmem).resolve_left (Ne.symm heq)) (hgrows.coherent hcoherent) ht

theorem warmUp_of_roots {server : Server} {root : DiskPath} (h : root ∈ server.workspace.roots) :
    (warmUp server).2 = (warm server.workspace.scriptsInRoots server).2 := by
  have hsources : server.workspace.sources = (.ok server.workspace.scriptsInRoots, server.workspace) := by
    rw [sources]
    cases hroots : server.workspace.roots with
    | nil =>
      rw [hroots] at h
      cases h
    | cons first roots => rfl
  rw [warmUp_eq, hsources]

/-- Once the session is ready, every script file below a root is indexed. -/
theorem Indexed.of_ready {server : Server} {root : DiskPath} (hroot : root ∈ server.workspace.roots)
    (habsolute : root.isAbsolute = true) {below : List String} (hbelow : below ≠ [])
    (hscript : IsScript (root.parts ++ below))
    (hstable : Resource.canonical (Resource.fileId (root.parts ++ below)) =
      Resource.fileId (root.parts ++ below))
    (h : Fresh .symbols (Resource.fileId (root.parts ++ below)) server) :
    Indexed (root.parts ++ below) (noteRunning .ready server).2 := by
  have hregister := register_grows server
  have hfresh := h.of_grows hregister
  rw [← hregister.roots_eq] at hroot
  change Indexed _ (warmUp (register server).2).2
  rw [warmUp_of_roots hroot]
  have hwarm := warm_grows (register server).2.workspace.scriptsInRoots (register server).2
  refine ⟨hwarm.phase.trans hfresh.running, fun hbytes text ht => ?_⟩
  rw [hwarm.disk_eq] at hbytes
  obtain ⟨content, hcontent⟩ := Option.ne_none_iff_exists'.1 hbytes
  have hlisted := mem_scriptsInRoots hroot habsolute hbelow hscript hcontent
  have hcoherent := hfresh.coherent
  rw [hwarm.answers_eq] at ht
  rw [← hstable] at hcoherent ht ⊢
  exact held_warm hlisted hcoherent ht

theorem text_of_script {w : Workspace} {names : List String} (hscript : IsScript names)
    {content : List UInt8} {text : String} (hbytes : w.disk.bytesAt? (.ofNames names) = some content)
    (htext : Text.decode? content = some text) :
    (provider.answers w).text (Resource.fileId names) =
      .ok ((w.buffers.text? (Resource.fileId names)).getD text) := by
  have hdisk : w.readDisk (Resource.fileId names) = .ok text :=
    (readDisk_eq_ok_iff (hscript.pathOf w)).2 ⟨content, hbytes, htext⟩
  rw [text_eq]
  cases w.buffers.text? (Resource.fileId names) with
  | some opened => rfl
  | none =>
    rw [textBelow, hdisk]
    rfl

/-- A script file below a root is never lost from the index once the session was ready: the symbols held
about it are those of the open document, or else of the file. The steps after that report each change of
the disk truthfully, and drop nothing under another id with the same canonical form. -/
theorem symbols_of_scripts_are_held (disk : Disk) (maxSize : Nat) (editor : Editor)
    (before later : List Step) (hbefore : AllAllowed before (atStart disk maxSize editor))
    (hopened : (after before (atStart disk maxSize editor)).phase = .running)
    {root : DiskPath} (hroot : root ∈ (after before (atStart disk maxSize editor)).workspace.roots)
    (habsolute : root.isAbsolute = true) {below : List String} (hbelow : below ≠ [])
    (hscript : IsScript (root.parts ++ below))
    (hstable : Resource.canonical (Resource.fileId (root.parts ++ below)) =
      Resource.fileId (root.parts ++ below))
    (hlater : AllTruthful (Resource.fileId (root.parts ++ below)) later
      (note .ready (after before (atStart disk maxSize editor))).2)
    (hrunning : (after later (note .ready (after before (atStart disk maxSize editor))).2).phase =
      .running)
    {content : List UInt8} {text : String}
    (hbytes : (after later (note .ready
      (after before (atStart disk maxSize editor))).2).workspace.disk.bytesAt?
        (.ofNames (root.parts ++ below)) = some content)
    (htext : Text.decode? content = some text) :
    let server := after later (note .ready (after before (atStart disk maxSize editor))).2
    let id := Resource.fileId (root.parts ++ below)
    server.store.symbols.find? id = some (.ofFacts Symbol.name
      (Symbol.extract ((server.workspace.buffers.text? id).getD text) id)) := by
  intro server id
  have hfile : Resource.IsFileId id := ⟨_, hscript.kept, Or.inl ⟨hscript.ne_nil, rfl⟩⟩
  have hfresh : Fresh .symbols id (after before (atStart disk maxSize editor)) :=
    ((Sound.atStart .symbols id disk maxSize editor).of_steps hbefore
      (fun _ => ⟨hfile, hstable⟩) (Or.inl hstable)).session hopened
  have hready : Indexed (root.parts ++ below)
      (note .ready (after before (atStart disk maxSize editor))).2 := by
    rw [note_of_running _ hopened]
    exact .of_ready hroot habsolute hbelow hscript hstable hfresh
  have hserving := (Serving.of_indexed hready).of_steps hscript hstable hlater
  have hheld := (hserving.session hrunning).held (by rw [hbytes]; exact Option.some_ne_none _)
  exact hheld _ (text_of_script hscript hbytes htext)

theorem isScript_of_names {names : List String} (hnames : ∀ name ∈ names,
      name ≠ "" ∧ name ≠ "." ∧ name ≠ ".." ∧ '/' ∉ name.toList ∧
        name.toList.all (fun c => Url.isSkipped c = false) = true)
    (hfirst : ∀ name ∈ names.head?, Url.normalDrive name.toList = name.toList)
    (hextension : (DiskPath.ofNames names).extension? = some "pory") : IsScript names where
  kept := (Url.kept_iff names).2 ⟨hnames, hfirst⟩
  extension := hextension

/-- The script is opened with another text and closed, then it is deleted and written anew before the
server is told. -/
def indexedSteps : List Step :=
  [.note (.opened "file:///ws/a%20b.pory" "script Draft \x7b\n\x7d\n"),
    .request (.completion "file:///ws/a%20b.pory"),
    .note (.closed "file:///ws/a%20b.pory"),
    .disk (sampleDisk "script New \x7b\n\x7d\n" "")
      [("file:///ws/a%20b.pory", .deleted), ("file:///ws/a%20b.pory", .written)]]

def openingSteps : List Step := [.request (.introduce { folders := ["file:///ws"] })]

theorem indexedSteps_truthful : AllTruthful "file:///ws/a b.pory" indexedSteps
    (note .ready (after openingSteps
      (atStart (sampleDisk "script Old \x7b\n\x7d\n" "") 100 (sampleEditor [])))).2 := by
  refine ⟨⟨trivial, trivial, ?_⟩, ⟨trivial, trivial, ?_⟩, ⟨trivial, trivial, ?_⟩, ⟨?_, ?_, ?_⟩, trivial⟩
  · rw [Step.Spares]
    decide +kernel
  · rw [Step.Spares]
    decide +kernel
  · rw [Step.Spares]
    decide +kernel
  · apply reported_of_files
    · decide +kernel
    · decide +kernel
  · apply truthful_of_places [["ws", "a b.pory"]]
    decide +kernel
  · rw [Step.Spares]
    decide +kernel

/-- The file is indexed with the text that it was written with last. -/
theorem symbols_held_after_rewrite :
    (after indexedSteps (note .ready (after openingSteps
      (atStart (sampleDisk "script Old \x7b\n\x7d\n" "") 100
        (sampleEditor [])))).2).store.symbols.find? "file:///ws/a b.pory" =
      some (.ofFacts Symbol.name
        (Symbol.extract "script New \x7b\n\x7d\n" "file:///ws/a b.pory")) := by
  have hnames : (⟨"/ws"⟩ : DiskPath).parts ++ ["a b.pory"] = ["ws", "a b.pory"] := by decide +kernel
  have hid : Resource.fileId ["ws", "a b.pory"] = "file:///ws/a b.pory" := by decide +kernel
  have hscript : IsScript ["ws", "a b.pory"] :=
    isScript_of_names (by decide +kernel) (by decide +kernel) (by decide +kernel)
  -- one evaluation of the session for all that is needed of its end
  have hend : (after indexedSteps (note .ready (after openingSteps
        (atStart (sampleDisk "script Old \x7b\n\x7d\n" "") 100 (sampleEditor [])))).2).phase =
          .running ∧
      (after indexedSteps (note .ready (after openingSteps
        (atStart (sampleDisk "script Old \x7b\n\x7d\n" "") 100
          (sampleEditor [])))).2).workspace.disk.bytesAt? (.ofNames ["ws", "a b.pory"]) =
          some (Text.bytes "script New \x7b\n\x7d\n".toList) ∧
      (after indexedSteps (note .ready (after openingSteps
        (atStart (sampleDisk "script Old \x7b\n\x7d\n" "") 100
          (sampleEditor [])))).2).workspace.buffers.text? "file:///ws/a b.pory" = none := by
    decide +kernel
  have hmain := @symbols_of_scripts_are_held (sampleDisk "script Old \x7b\n\x7d\n" "") 100
    (sampleEditor []) openingSteps indexedSteps ⟨trivial, trivial⟩ (by decide +kernel) ⟨"/ws"⟩
    (by decide +kernel) (by decide +kernel) ["a b.pory"] (by decide)
  rw [hnames, hid] at hmain
  have hheld := hmain hscript (by decide +kernel) indexedSteps_truthful hend.1 hend.2.1
    (Text.decode?_bytes _)
  dsimp only at hheld
  rw [hend.2.2, Option.getD_none, String.ofList_toList] at hheld
  exact hheld

def twinDisk (others : List (List String × Disk.Node)) : Disk :=
  { nodes := [(["ws"], .directory),
      (["ws", "a b.pory"], .file (Text.bytes "script Kept \x7b\n\x7d\n".toList)),
      (["ws", "m.pory"], .file [])] ++ others }

/-- The session is ready, and there is a file whose name is that of a script with its space escaped. -/
def twinReady : Server :=
  (note .ready (after openingSteps (atStart (twinDisk [(["ws", "a%20b.pory"],
    .file (Text.bytes "script Gone \x7b\n\x7d\n".toList))]) 100 (sampleEditor [])))).2

def twinStep : Step := .disk (twinDisk []) [("file:///ws/a%2520b.pory", .deleted)]

theorem twinStep_allowed : twinStep.Allowed twinReady := by
  apply reported_of_files
  · decide +kernel
  · decide +kernel

theorem twinStep_truthful : twinStep.Truthful twinReady := by
  apply truthful_of_places [["ws", "a%20b.pory"]]
  decide +kernel

/-- The report that a file is gone drops the symbols of another file, whose id is the canonical form of
the first one's id. -/
theorem deleted_twin_drops_symbols :
    (twinStep.Allowed twinReady ∧ twinStep.Truthful twinReady ∧
      (twinStep.run twinReady).phase = .running ∧ ⟨"/ws"⟩ ∈ twinReady.workspace.roots ∧
      IsScript ["ws", "a b.pory"] ∧ Resource.fileId ["ws", "a b.pory"] = "file:///ws/a b.pory" ∧
      Resource.canonical "file:///ws/a b.pory" = "file:///ws/a b.pory") ∧
    (twinReady.store.symbols.find? "file:///ws/a b.pory").isSome = true ∧
    ((twinStep.run twinReady).workspace.disk.read ⟨"/ws/a b.pory"⟩).toOption =
      some "script Kept \x7b\n\x7d\n" ∧
    ((twinStep.run twinReady).store.symbols.find? "file:///ws/a b.pory").isSome = false := by
  have hscript : IsScript ["ws", "a b.pory"] :=
    isScript_of_names (by decide +kernel) (by decide +kernel) (by decide +kernel)
  have hready : ⟨"/ws"⟩ ∈ twinReady.workspace.roots ∧
      (twinReady.store.symbols.find? "file:///ws/a b.pory").isSome = true := by decide +kernel
  have hend : (twinStep.run twinReady).phase = .running ∧
      ((twinStep.run twinReady).workspace.disk.read ⟨"/ws/a b.pory"⟩).toOption =
        some "script Kept \x7b\n\x7d\n" ∧
      ((twinStep.run twinReady).store.symbols.find? "file:///ws/a b.pory").isSome = false := by
    decide +kernel
  have hid : Resource.fileId ["ws", "a b.pory"] = "file:///ws/a b.pory" := by decide +kernel
  have hstable : Resource.canonical "file:///ws/a b.pory" = "file:///ws/a b.pory" := by
    decide +kernel
  exact ⟨⟨twinStep_allowed, twinStep_truthful, hend.1, hready.1, hscript, hid, hstable⟩, hready.2,
    hend.2⟩

end ScriptIndex.Server
