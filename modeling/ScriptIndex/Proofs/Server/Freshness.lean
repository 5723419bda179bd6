import ScriptIndex.Proofs.Server.Handlers

/-!
# Facts stay fresh over a session

Texts come from open documents and from a disk that other programs write to, settings from an editor
that may give others at any time. As long as the server is told about each of these changes, what it
holds about a file agrees with the text that the file has now.
-/
namespace ScriptIndex.Server

open Workspace

/-- The session is open, and the settings that the server keeps are those of the editor. -/
structure InSession (server : Server) : Prop where
  running : server.phase = .running
  current : Current server.workspace

theorem InSession.of_grows {server later : Server} (h : InSession server)
    (hgrows : Grows server later) : InSession later :=
  ⟨hgrows.phase.trans h.running, hgrows.current h.current⟩

theorem InSession.of_changeFile {server : Server} (h : InSession server) (url : Url)
    (change : FileChange) : InSession (changeFile url change server).2 := by
  have hforget : InSession (server.forgetting (Resource.ofUrl url)) := ⟨h.running, h.current⟩
  rcases changeFile_cases url change server with ⟨_, hlater⟩ | ⟨_, hlater⟩
  · rw [hlater]
    exact hforget
  · exact hforget.of_grows hlater.grows

/-- What the server holds of one kind about one key agrees with the texts. -/
structure Fresh (kind : FactKind) (key : String) (server : Server) : Prop extends
    InSession server where
  coherent : kind.Coherent server.answers server.store key

namespace Fresh

variable {kind : FactKind} {key : String} {server later : Server}

theorem of_grows (h : Fresh kind key server) (hgrows : Grows server later) : Fresh kind key later :=
  ⟨h.toInSession.of_grows hgrows, hgrows.coherent h.coherent⟩

theorem forgetting (h : Fresh kind key server) (id : String) :
    Fresh kind key (server.forgetting id) :=
  ⟨⟨h.running, h.current⟩, h.coherent.forget id⟩

theorem of_forgetting (h : InSession server) {id : String} (hid : Resource.canonical id = key) :
    Fresh kind key (server.forgetting id) := by
  subst hid
  exact ⟨⟨h.running, h.current⟩, .of_forget kind _ _ id⟩

theorem withBuffers (h : Fresh kind key server) {buffers : Buffers}
    (hsame : buffers.text? key = server.workspace.buffers.text? key) :
    Fresh kind key (server.withBuffers buffers) := by
  refine ⟨⟨h.running, h.current.congr rfl rfl rfl⟩, h.coherent.of_text fun text ht => ?_⟩
  exact (text_of_buffers hsame).trans ht

/-- An edit of the document that a key stands for is seen, since the key is the one that is forgotten. -/
theorem of_edited (h : Fresh kind key server) {id : String} (hedit : Edited id server later)
    (hkey : key = id → Resource.canonical key = key) : Fresh kind key later := by
  obtain ⟨buffers, hother, ⟨hsame, rfl⟩ | hrenewed⟩ := hedit
  · by_cases heq : key = id
    · subst heq
      exact h.withBuffers hsame
    · exact h.withBuffers (hother key heq)
  · by_cases heq : key = id
    · have hsession : InSession (server.withBuffers buffers) :=
        ⟨h.running, h.current.congr rfl rfl rfl⟩
      have hcanonical := hkey heq
      rw [heq] at hcanonical
      exact (of_forgetting hsession (hcanonical.trans heq.symm)).of_grows hrenewed.grows
    · exact ((h.withBuffers (hother key heq)).forgetting id).of_grows hrenewed.grows

theorem of_changeFile (hsession : InSession server) (url : Url) (change : FileChange)
    (h : kind.Coherent server.answers server.store key ∨
      Resource.canonical (Resource.ofUrl url) = key) :
    Fresh kind key (changeFile url change server).2 := by
  have hforget : Fresh kind key (server.forgetting (Resource.ofUrl url)) := by
    rcases h with h | h
    · exact forgetting ⟨hsession, h⟩ _
    · exact of_forgetting hsession h
  rcases changeFile_cases url change server with ⟨_, hlater⟩ | ⟨_, hlater⟩
  · rw [hlater]
    exact hforget
  · exact hforget.of_grows hlater.grows

/-- Once a key has been forgotten, the changes told after that keep it fresh. -/
theorem of_changed (changes : List (Url × FileChange)) (hsession : InSession server)
    (h : kind.Coherent server.answers server.store key ∨
      ∃ change ∈ changes, Resource.canonical (Resource.ofUrl change.1) = key) :
    Fresh kind key (changed changes server) := by
  induction changes generalizing server with
  | nil =>
    rcases h with h | ⟨change, hmem, _⟩
    · exact ⟨hsession, h⟩
    · cases hmem
  | cons change changes ih =>
    apply ih (hsession.of_changeFile change.1 change.2)
    rcases h with h | ⟨told, hmem, htold⟩
    · exact Or.inl (of_changeFile hsession change.1 change.2 (Or.inl h)).coherent
    · rcases List.mem_cons.1 hmem with rfl | hmem
      · exact Or.inl (of_changeFile hsession _ _ (Or.inr htold)).coherent
      · exact Or.inr ⟨told, hmem, htold⟩

end Fresh

/-- A list of changes names, by its URL, every file in which two disks differ. -/
structure Reported (disk later : Disk) (changes : List (String × FileChange)) : Prop where
  readable : (changes.mapM readChange).isSome = true
  told : ∀ names url, (∀ name ∈ names, DiskPath.IsName name) →
    Url.ofDiskPath? (.ofNames names) = some url →
    later.bytesAt? (.ofNames names) ≠ disk.bytesAt? (.ofNames names) →
    url.text ∈ changes.map Prod.fst

def withDisk (server : Server) (disk : Disk) : Server :=
  { server with workspace := { server.workspace with disk } }

def withEditor (server : Server) (editor : Editor) : Server :=
  { server with
    workspace := { server.workspace with
      connection := server.workspace.connection.map fun c => { c with editor } } }

/-- What can happen to a server from outside. -/
inductive Step where
  | note (notification : Notification)
  | request (request : Request)
  /-- The disk changes, and the server is told which files did. -/
  | disk (disk : Disk) (changes : List (String × FileChange))
  /-- The settings of the editor change, and the server is told that they did. -/
  | settings (editor : Editor)

namespace Step

def run : Step → Server → Server
  | note notification, server => (Server.note notification server).2
  | request asked, server => (respond asked server).2
  | disk later changes, server => (Server.note (.filesChanged changes) (server.withDisk later)).2
  | settings editor, server => (Server.note .configurationChanged (server.withEditor editor)).2

/-- The roots stay as they are, each change of the disk is reported, and an editor with other settings
answers everything else as before. -/
def Allowed : Step → Server → Prop
  | note (.foldersChanged _ _), _ => False
  | note _, _ => True
  | request _, _ => True
  | disk later changes, server => Reported server.workspace.disk later changes
  | settings editor, server => ∀ c, server.workspace.connection = some c →
      ∀ query, (∀ scope, query ≠ .settings scope) → editor.answer query = c.editor.answer query

/-- The ids of the documents that a step opens, changes or closes. -/
def edits : Step → List String
  | note (.opened url _) | note (.changed url _) | note (.closed url) =>
      (Url.parse? url).toList.map Resource.ofUrl
  | _ => []

end Step

def after (steps : List Step) (server : Server) : Server :=
  steps.foldl (fun server step => step.run server) server

def AllAllowed : List Step → Server → Prop
  | [], _ => True
  | step :: steps, server => step.Allowed server ∧ AllAllowed steps (step.run server)

theorem exists_of_mapM_readChange {changes : List (String × FileChange)}
    {read : List (Url × FileChange)} (h : changes.mapM readChange = some read)
    {text : String} {change : FileChange} (hmem : (text, change) ∈ changes) :
    ∃ url, Url.parse? text = some url ∧ (url, change) ∈ read := by
  induction changes generalizing read with
  | nil => cases hmem
  | cons first changes ih =>
    rw [List.mapM_cons] at h
    obtain ⟨head, hhead, h⟩ := Option.bind_eq_some_iff.1 h
    obtain ⟨tail, htail, h⟩ := Option.bind_eq_some_iff.1 h
    cases h
    rcases List.mem_cons.1 hmem with rfl | hmem
    · obtain ⟨url, hurl, rfl⟩ := Option.map_eq_some_iff.1 hhead
      exact ⟨url, hurl, List.mem_cons_self⟩
    · obtain ⟨url, hurl, htold⟩ := ih htail hmem
      exact ⟨url, hurl, List.mem_cons_of_mem _ htold⟩

/-- The id of a file that differs is told. -/
theorem Reported.exists_told {disk later : Disk} {changes : List (String × FileChange)}
    {read : List (Url × FileChange)} (h : Reported disk later changes)
    (hread : changes.mapM readChange = some read) {names : List String} (hkept : Url.Kept names)
    (hne : names ≠ []) (hdiffers : later.bytesAt? (.ofNames names) ≠ disk.bytesAt? (.ofNames names)) :
    ∃ change ∈ read, Resource.ofUrl change.1 = Resource.fileId names := by
  obtain ⟨url, parsed, hurl, hparse, hid⟩ := Resource.ofUrl_of_kept hkept hne
  obtain ⟨⟨text, change⟩, hmem, rfl⟩ := List.mem_map.1 (h.told names url hkept.isName hurl hdiffers)
  obtain ⟨told, htold, hmem⟩ := exists_of_mapM_readChange hread hmem
  have heq : told = parsed := Option.some.inj (htold.symm.trans hparse)
  exact ⟨(told, change), hmem, by rw [heq, hid]⟩

/-- A reported change of the disk leaves a file's text as it was, or tells the file's id. -/
theorem Reported.text_or_told {server : Server} {disk : Disk} {changes : List (String × FileChange)}
    {read : List (Url × FileChange)} (h : Reported server.workspace.disk disk changes)
    (hread : changes.mapM readChange = some read) {key : String} (hkey : Resource.IsFileId key) :
    (∀ text, server.answers.text key = .ok text →
      (server.withDisk disk).answers.text key = .ok text) ∨
      ∃ change ∈ read, Resource.ofUrl change.1 = key := by
  by_cases hbytes : ∀ names, Url.Kept names → names ≠ [] → key = Resource.fileId names →
      disk.bytesAt? (.ofNames names) = server.workspace.disk.bytesAt? (.ofNames names)
  · exact Or.inl (text_of_disk hkey hbytes)
  · simp only [not_forall] at hbytes
    obtain ⟨names, hkept, hne, rfl, hdiffers⟩ := hbytes
    exact Or.inr (h.exists_told hread hkept hne hdiffers)

/-- A report that names those files of either disk that differ leaves none out. -/
theorem reported_of_files {disk later : Disk} {changes : List (String × FileChange)}
    (hreadable : (changes.mapM readChange).isSome = true)
    (h : ∀ entry ∈ disk.nodes ++ later.nodes, entry.2 = .directory ∨
      later.bytesAt? (.ofNames entry.1) = disk.bytesAt? (.ofNames entry.1) ∨
      ∀ url ∈ Url.ofDiskPath? (.ofNames entry.1), url.text ∈ changes.map Prod.fst) :
    Reported disk later changes := by
  refine ⟨hreadable, fun names url hnames hurl hdiffers => ?_⟩
  have hfile : ∃ content, (names, Disk.Node.file content) ∈ disk.nodes ++ later.nodes := by
    cases hlater : later.bytesAt? (.ofNames names) with
    | some content =>
      have hmem := Disk.mem_nodes_of_file (Disk.of_bytesAt? hnames hlater).2.2
      exact ⟨content, List.mem_append_right _ hmem⟩
    | none =>
      cases hbefore : disk.bytesAt? (.ofNames names) with
      | some content =>
        have hmem := Disk.mem_nodes_of_file (Disk.of_bytesAt? hnames hbefore).2.2
        exact ⟨content, List.mem_append_left _ hmem⟩
      | none => exact absurd (hlater.trans hbefore.symm) hdiffers
  obtain ⟨content, hmem⟩ := hfile
  rcases h _ hmem with hdirectory | hsame | htold
  · cases hdirectory
  · exact absurd hsame hdiffers
  · exact htold url hurl

namespace Fresh

variable {kind : FactKind} {key : String} {server : Server}

theorem forgettingIncludes (hsession : InSession server)
    (h : kind ≠ .commands → kind.Coherent server.answers server.store key) :
    Fresh kind key server.forgettingIncludes :=
  ⟨⟨hsession.running, hsession.current⟩, .forgetIncludes h⟩

theorem of_filesChanged (h : Fresh kind key server) (changes : List (String × FileChange)) :
    Fresh kind key (noteRunning (.filesChanged changes) server).2 := by
  cases hread : changes.mapM readChange with
  | none =>
    rw [noteRunning, hread]
    exact h
  | some read =>
    rw [noteRunning_filesChanged hread]
    have hincludes := forgettingIncludes h.toInSession fun _ => h.coherent
    exact of_changed read hincludes.toInSession (Or.inl hincludes.coherent)

/-- Facts about include files are dropped with every report, so only the other kinds need the report to
name the file. -/
theorem of_disk (h : Fresh kind key server) {disk : Disk} {changes : List (String × FileChange)}
    (hreported : Reported server.workspace.disk disk changes)
    (hkey : kind ≠ .commands → Resource.IsFileId key ∧ Resource.canonical key = key) :
    Fresh kind key (noteRunning (.filesChanged changes) (server.withDisk disk)).2 := by
  obtain ⟨read, hread⟩ := Option.isSome_iff_exists.1 hreported.readable
  rw [noteRunning_filesChanged hread]
  have hsession : InSession (server.withDisk disk) := ⟨h.running, h.current.congr rfl rfl rfl⟩
  have hforgot : InSession (server.withDisk disk).forgettingIncludes :=
    ⟨hsession.running, hsession.current⟩
  apply of_changed read hforgot
  by_cases hkind : kind = .commands
  · exact Or.inl (forgettingIncludes hsession fun hne => absurd hkind hne).coherent
  · obtain ⟨hfile, hstable⟩ := hkey hkind
    rcases hreported.text_or_told hread hfile with htext | ⟨change, hmem, hid⟩
    · exact Or.inl (forgettingIncludes hsession fun _ => h.coherent.of_text htext).coherent
    · exact Or.inr ⟨change, hmem, by rw [hid, hstable]⟩

/-- All settings are asked for again, whatever was kept of them. -/
theorem of_configurationChanged (hrunning : server.phase = .running)
    (h : kind.Coherent server.answers server.store key) :
    Fresh kind key (noteRunning .configurationChanged server).2 := by
  refine ⟨⟨hrunning, fun _ => rfl⟩, .forgetIncludes fun _ => h.of_text fun text ht => ?_⟩
  exact (text_of_settings server.workspace ∅ key).trans ht

theorem of_settings (h : Fresh kind key server) {editor : Editor}
    (hsame : ∀ c, server.workspace.connection = some c →
      editor.answer (readQuery key) = c.editor.answer (readQuery key)) :
    Fresh kind key (noteRunning .configurationChanged (server.withEditor editor)).2 := by
  have hrunning : (server.withEditor editor).phase = .running := h.running
  apply of_configurationChanged hrunning
  apply h.coherent.of_text
  intro text ht
  exact (text_of_editor hsame).trans ht

end Fresh

/-- Before the session nothing is held, and during the session what is held about a key is fresh. -/
structure Sound (kind : FactKind) (key : String) (server : Server) : Prop where
  start : server.phase = .fresh → server.store = {} ∧ server.workspace.settings = ∅
  session : server.phase = .running → Fresh kind key server

namespace Sound

variable {kind : FactKind} {key : String} {server : Server}

theorem of_fresh (h : Fresh kind key server) : Sound kind key server := by
  refine ⟨fun hphase => ?_, fun _ => h⟩
  rw [h.running] at hphase
  cases hphase

theorem of_stopped (h : server.phase = .stopped) : Sound kind key server := by
  refine ⟨fun hphase => ?_, fun hphase => ?_⟩
  · rw [h] at hphase
    cases hphase
  · rw [h] at hphase
    cases hphase

/-- A server that holds nothing is sound in every phase. -/
theorem of_empty (hstore : server.store = {}) (hsettings : server.workspace.settings = ∅) :
    Sound kind key server := by
  refine ⟨fun _ => ⟨hstore, hsettings⟩, fun hphase => ⟨⟨hphase, fun id => ?_⟩, ?_⟩⟩
  · rw [hsettings]
    rfl
  · rw [hstore]
    exact .empty kind _ key

theorem of_respond (h : Sound kind key server) (request : Request) :
    Sound kind key (respond request server).2 := by
  cases hphase : server.phase with
  | fresh =>
    obtain ⟨hstore, hsettings⟩ := respond_of_fresh request hphase
    obtain ⟨hempty, hnone⟩ := h.start hphase
    exact of_empty (hstore.trans hempty) (hsettings.trans hnone)
  | running =>
    rw [respond_of_running request hphase]
    rcases respondRunning_cases request server with hgrows | hstopped
    · exact of_fresh ((h.session hphase).of_grows hgrows)
    · exact of_stopped hstopped
  | stopped =>
    rw [respond_of_stopped request hphase]
    exact h

end Sound

theorem mem_edits {text : String} {url : Url} (h : Url.parse? text = some url) :
    Resource.ofUrl url ∈ (Url.parse? text).toList.map Resource.ofUrl := by
  rw [h]
  exact List.mem_singleton.2 rfl

/-- What a notification can do while the roots stay as they are. -/
theorem noteRunning_cases {notification : Notification} {server : Server}
    (hallowed : (Step.note notification).Allowed server) :
    Grows server (noteRunning notification server).2 ∨
      (∃ id ∈ (Step.note notification).edits, Edited id server (noteRunning notification server).2) ∨
      notification = .configurationChanged ∨ ∃ changes, notification = .filesChanged changes := by
  cases notification with
  | ready => exact Or.inl ((register_grows server).trans (warmUp_grows _))
  | opened text content =>
    rw [noteRunning]
    cases hurl : Url.parse? text with
    | none => exact Or.inl (.refl server)
    | some url => exact Or.inr (Or.inl ⟨_, mem_edits hurl, takeText_edited url content server⟩)
  | changed text contents =>
    rw [noteRunning.eq_def]
    cases hurl : Url.parse? text with
    | none =>
      simp only [hurl]
      exact Or.inl (.refl server)
    | some url =>
      cases hlast : contents.getLast? with
      | none =>
        simp only [hurl, hlast]
        exact Or.inl (.refl server)
      | some content =>
        simp only [hurl, hlast]
        exact Or.inr (Or.inl ⟨_, mem_edits hurl, takeText_edited url content server⟩)
  | closed text =>
    rw [noteRunning]
    cases hurl : Url.parse? text with
    | none => exact Or.inl (.refl server)
    | some url => exact Or.inr (Or.inl ⟨_, mem_edits hurl, dropText_edited url server⟩)
  | configurationChanged => exact Or.inr (Or.inr (Or.inl rfl))
  | filesChanged changes => exact Or.inr (Or.inr (Or.inr ⟨changes, rfl⟩))
  | foldersChanged added removed => exact hallowed.elim

theorem Fresh.of_noteRunning {kind : FactKind} {key : String} {server : Server}
    (h : Fresh kind key server) {notification : Notification}
    (hallowed : (Step.note notification).Allowed server)
    (hkey : Resource.canonical key = key ∨ key ∉ (Step.note notification).edits) :
    Fresh kind key (noteRunning notification server).2 := by
  rcases noteRunning_cases hallowed with hgrows | ⟨id, hmem, hedited⟩ | rfl | ⟨changes, rfl⟩
  · exact h.of_grows hgrows
  · refine h.of_edited hedited fun heq => hkey.resolve_right fun hnot => hnot ?_
    rw [heq]
    exact hmem
  · exact .of_configurationChanged h.running h.coherent
  · exact h.of_filesChanged changes

theorem readQuery_ne_settings (id : String) (scope : Option Url) : readQuery id ≠ .settings scope := by
  rw [readQuery]
  split
  · intro h
    cases h
  · intro h
    cases h

/-- One step keeps what is held about a key fresh. A key that is not canonical must not be edited. -/
theorem Sound.of_step {kind : FactKind} {key : String} {server : Server} {step : Step}
    (h : Sound kind key server) (hallowed : step.Allowed server)
    (hkey : kind ≠ .commands → Resource.IsFileId key ∧ Resource.canonical key = key)
    (hedits : Resource.canonical key = key ∨ key ∉ step.edits) :
    Sound kind key (step.run server) := by
  cases step with
  | request request => exact h.of_respond request
  | note notification =>
    rw [Step.run]
    by_cases hphase : server.phase = .running
    · rw [note_of_running notification hphase]
      exact .of_fresh ((h.session hphase).of_noteRunning hallowed hedits)
    · rw [note_of_ne notification hphase]
      exact h
  | disk disk changes =>
    rw [Step.run]
    by_cases hphase : server.phase = .running
    · rw [note_of_running _ (show (server.withDisk disk).phase = .running from hphase)]
      exact .of_fresh ((h.session hphase).of_disk hallowed hkey)
    · rw [note_of_ne _ (show (server.withDisk disk).phase ≠ .running from hphase)]
      exact ⟨h.start, fun hrunning => absurd hrunning hphase⟩
  | settings editor =>
    rw [Step.run]
    by_cases hphase : server.phase = .running
    · rw [note_of_running _ (show (server.withEditor editor).phase = .running from hphase)]
      exact .of_fresh ((h.session hphase).of_settings fun c hc =>
        hallowed c hc _ (readQuery_ne_settings key))
    · rw [note_of_ne _ (show (server.withEditor editor).phase ≠ .running from hphase)]
      exact ⟨h.start, fun hrunning => absurd hrunning hphase⟩

theorem Sound.of_steps {kind : FactKind} {key : String} {server : Server} {steps : List Step}
    (h : Sound kind key server) (hallowed : AllAllowed steps server)
    (hkey : kind ≠ .commands → Resource.IsFileId key ∧ Resource.canonical key = key)
    (hedits : Resource.canonical key = key ∨ ∀ step ∈ steps, key ∉ step.edits) :
    Sound kind key (after steps server) := by
  induction steps generalizing server with
  | nil => exact h
  | cons step steps ih =>
    apply ih (h.of_step hallowed.1 hkey ?_) hallowed.2
    · exact hedits.imp_right fun hnot other hmem => hnot other (List.mem_cons_of_mem _ hmem)
    · exact hedits.imp_right fun hnot => hnot step List.mem_cons_self

def atStart (disk : Disk) (maxSize : Nat) (editor : Editor) : Server :=
  { workspace := { disk, buffers := { maxSize }, connection := some { editor } } }

theorem Sound.atStart (kind : FactKind) (key : String) (disk : Disk) (maxSize : Nat)
    (editor : Editor) : Sound kind key (atStart disk maxSize editor) :=
  .of_empty rfl rfl

/-- The workspace of the server, which has to ask for all settings again. -/
def unsettled (server : Server) : Workspace := { server.workspace with settings := ∅ }

/-- The facts that requests are answered from, after any steps: the document's text, constants and
symbols are those of the text it has now, and the commands those of a lookup from an empty store that
asks for all settings again. The commands need each include file to have a canonical id or never to be
edited under the id it is looked up by. -/
theorem facts_agree_with_current_text (disk : Disk) (maxSize : Nat) (editor : Editor)
    (steps : List Step) (hallowed : AllAllowed steps (atStart disk maxSize editor))
    (hrunning : (after steps (atStart disk maxSize editor)).phase = .running)
    {path : DiskPath} {url read : Url} (hurl : Url.ofDiskPath? path = some url)
    (hskip : ∀ c ∈ path.text.toList, Url.isSkipped c = false) (hread : Url.parse? url.text = some read)
    (hstable : Resource.canonical (Resource.ofUrl read) = Resource.ofUrl read) :
    let server := after steps (atStart disk maxSize editor)
    let id := Resource.ofUrl read
    let reply := lookup (Lookup.facts provider id) server
    (∀ e, (Workspace.read id server.workspace).1 = .error e → reply.1 = .error e) ∧
      ∀ text, (Workspace.read id server.workspace).1 = .ok text → ∃ facts, reply.1 = .ok facts ∧
        facts.content = text ∧
        facts.constants = .ofFacts Constant.name (Constant.extract text id) ∧
        reply.2.store.symbols.find? id = some (.ofFacts Symbol.name (Symbol.extract text id)) ∧
        ((∀ settings, (settingsOf id server.unsettled).1 = .ok settings →
            ∀ file ∈ settings.commandIncludes,
              Resource.canonical (Resource.canonical file) = Resource.canonical file ∨
                ∀ step ∈ steps, Resource.canonical file ∉ step.edits) →
          facts.commands = Lookup.orNone (Lookup.commands provider id ({}, server.unsettled)).1) := by
  intro server id reply
  have hfile : Resource.IsFileId id := Resource.isFileId_of_path hurl hskip hread
  have htwice : Resource.canonical (Resource.canonical id) = id := by rw [hstable, hstable]
  have hfresh : ∀ kind : FactKind, kind ≠ .commands → Fresh kind id server := by
    intro kind _
    exact ((Sound.atStart kind id disk maxSize editor).of_steps hallowed
      (fun _ => ⟨hfile, hstable⟩) (Or.inl hstable)).session hrunning
  have hcoherent : ∀ kind : FactKind, kind ≠ .commands → kind.Coherent
      (provider.answers server.workspace) server.store (Resource.canonical (Resource.canonical id)) := by
    intro kind hkind
    rw [htwice]
    exact (hfresh kind hkind).coherent
  have hcurrent : Current server.workspace := (hfresh .content (by decide)).current
  refine ⟨fun e he => ?_, fun text ht => ?_⟩
  · rw [← htwice] at he
    exact @Lookup.facts_of_fault _ provider id (server.store, server.workspace) e
      (hcoherent .content (by decide)) he
  · rw [← htwice] at ht
    obtain ⟨facts, hfacts, hcontent, hconstants, hsymbols, hcommands⟩ :=
      @Lookup.facts_of_text _ provider provider_steady id text (server.store, server.workspace)
        hcoherent ht
    rw [htwice] at hconstants hsymbols
    refine ⟨facts, hfacts, hcontent, hconstants, hsymbols, fun hincludes => ?_⟩
    have hanswers : provider.answers server.unsettled = provider.answers server.workspace :=
      hcurrent.answers_eq
    have hheld : (provider.answers server.workspace).IncludesCoherent server.store
        (Resource.canonical id) := by
      intro settings hsettings file hmem
      rw [htwice, ← hanswers] at hsettings
      exact (((Sound.atStart .commands _ disk maxSize editor).of_steps hallowed
        (fun hne => absurd rfl hne) (hincludes settings hsettings file hmem)).session
          hrunning).coherent
    have hempty : (provider.answers server.unsettled).IncludesCoherent {} id :=
      fun _ _ _ _ => .empty .commands _ _
    rw [hcommands hheld, Lookup.commands_answer provider_steady hempty, hanswers, hstable]

/-- A script file and an include file, each with the given text. -/
def sampleDisk (script macros : String) : Disk :=
  { nodes := [(["ws"], .directory), (["ws", "a b.pory"], .file (Text.bytes script.toList)),
      (["ws", "m.inc"], .file (Text.bytes macros.toList))] }

/-- An editor that knows nothing but the include files for commands. -/
def sampleEditor (includes : List String) : Editor where
  answer
    | .settings _ => .ok (.array [.object [("commandIncludes", .array (includes.map .string))]])
    | _ => .error "no answer"

/-- Both files are looked up, the script is edited and closed again, and then both are written anew. -/
def sampleSteps : List Step :=
  [.request (.introduce { folders := ["file:///ws"], configuration := true }),
    .settings (sampleEditor ["m.inc"]),
    .request (.completion "file:///ws/a%20b.pory"),
    .note (.opened "file:///ws/a%20b.pory" "script Draft \x7b\n\x7d\n"),
    .request (.completion "file:///ws/a%20b.pory"),
    .note (.closed "file:///ws/a%20b.pory"),
    .disk (sampleDisk "const NEW = 1\nscript New \x7b\n\x7d\n" ".macro new\n")
      [("file:///ws/a%20b.pory", .written), ("file:///ws/m.inc", .written)]]

theorem sampleSteps_allowed : AllAllowed sampleSteps
    (atStart (sampleDisk "script Old \x7b\n\x7d\n" ".macro old\n") 100 (sampleEditor [])) := by
  refine ⟨trivial, ?_, trivial, trivial, trivial, trivial, ?_, trivial⟩
  · have hconnection : (after (sampleSteps.take 1)
        (atStart (sampleDisk "script Old \x7b\n\x7d\n" ".macro old\n") 100
          (sampleEditor []))).workspace.connection =
        some { editor := sampleEditor [], isOpen := true } := rfl
    intro c hc query hquery
    have hc : c = { editor := sampleEditor [], isOpen := true } :=
      Option.some.inj (hc.symm.trans hconnection)
    rw [hc]
    cases query with
    | settings scope => exact absurd rfl (hquery scope)
    | _ => rfl
  · apply reported_of_files
    · decide +kernel
    · decide +kernel

def sampleUrl : Url := .ofSegments ["ws", "a%20b.pory"]

theorem ok_of_toOption {α ε : Type} {x : Except ε α} {a : α} (h : x.toOption = some a) :
    x = .ok a := by
  cases x with
  | error e => cases h
  | ok b => exact congrArg Except.ok (Option.some.inj h)

/-- Facts that were looked up before the files were written anew are not served any more. -/
theorem facts_agree_after_rewrite :
    let server := after sampleSteps
      (atStart (sampleDisk "script Old \x7b\n\x7d\n" ".macro old\n") 100 (sampleEditor []))
    let id := Resource.ofUrl sampleUrl
    let text := "const NEW = 1\nscript New \x7b\n\x7d\n"
    ∃ facts, (lookup (Lookup.facts provider id) server).1 = .ok facts ∧ facts.content = text ∧
      facts.constants = .ofFacts Constant.name (Constant.extract text id) ∧
      (lookup (Lookup.facts provider id) server).2.store.symbols.find? id =
        some (.ofFacts Symbol.name (Symbol.extract text id)) ∧
      facts.commands = Lookup.orNone (Lookup.commands provider id ({}, server.unsettled)).1 := by
  have hpath : Url.ofDiskPath? ⟨"/ws/a b.pory"⟩ = some sampleUrl := by decide +kernel
  have hplain : ∀ c ∈ (⟨"/ws/a b.pory"⟩ : DiskPath).text.toList, Url.isSkipped c = false :=
    List.all_iff_forall_prop.1 (by decide +kernel)
  have hparse : Url.parse? sampleUrl.text = some sampleUrl := by decide +kernel
  have hstable : Resource.canonical (Resource.ofUrl sampleUrl) = Resource.ofUrl sampleUrl := by
    decide +kernel
  -- one evaluation of the session for all that is needed of its end
  have hend : (after sampleSteps (atStart (sampleDisk "script Old \x7b\n\x7d\n" ".macro old\n") 100
        (sampleEditor []))).phase = .running ∧
      (Workspace.read (Resource.ofUrl sampleUrl) (after sampleSteps
        (atStart (sampleDisk "script Old \x7b\n\x7d\n" ".macro old\n") 100
          (sampleEditor []))).workspace).1.toOption =
            some "const NEW = 1\nscript New \x7b\n\x7d\n" ∧
      (settingsOf (Resource.ofUrl sampleUrl) (after sampleSteps
        (atStart (sampleDisk "script Old \x7b\n\x7d\n" ".macro old\n") 100
          (sampleEditor []))).unsettled).1.toOption.map (·.commandIncludes) = some ["m.inc"] := by
    decide +kernel
  have hmain := facts_agree_with_current_text
    (sampleDisk "script Old \x7b\n\x7d\n" ".macro old\n") 100 (sampleEditor []) sampleSteps
    sampleSteps_allowed hend.1 hpath hplain hparse hstable
  -- without the abbreviations both statements are the same term, and no session is run to compare them
  dsimp only at hmain ⊢
  obtain ⟨facts, hfacts, hcontent, hconstants, hsymbols, hcommands⟩ :=
    hmain.2 _ (ok_of_toOption hend.2.1)
  refine ⟨facts, hfacts, hcontent, hconstants, hsymbols, hcommands ?_⟩
  intro settings hsettings file hmem
  have hincludes := hend.2.2
  rw [hsettings] at hincludes
  have hlist : settings.commandIncludes = ["m.inc"] := Option.some.inj hincludes
  rw [hlist] at hmem
  rw [List.mem_singleton.1 hmem]
  exact Or.inl (by decide +kernel)

def tabDisk (script : String) : Disk :=
  { nodes := [(["ws"], .directory), (["ws", "ab.pory"], .file (Text.bytes script.toList))] }

/-- A document with a tab in its name is looked up, and then the file without the tab is written. -/
def tabSteps : List Step :=
  [.request (.introduce { folders := ["file:///ws"] }),
    .request (.completion "file:///ws/a%09b.pory"),
    .disk (tabDisk "const NEW = 1\nscript New \x7b\n\x7d\n") [("file:///ws/ab.pory", .written)]]

def tabUrl : Url := .ofSegments ["ws", "a%09b.pory"]

/-- A tab is lost where an id is read as a URL again: the text comes from a file of another name, and a
report about that file does not reach what is held about the document. -/
theorem tab_in_name_leaves_facts_stale :
    let start := atStart (tabDisk "script Old \x7b\n\x7d\n") 100 (sampleEditor [])
    let server := after tabSteps start
    let id := "file:///ws/a\tb.pory"
    (AllAllowed tabSteps start ∧ server.phase = .running ∧
      Url.ofDiskPath? ⟨"/ws/a\tb.pory"⟩ = some tabUrl ∧
      (Url.parse? tabUrl.text).map Resource.ofUrl = some id ∧ Resource.canonical id = id) ∧
    (Workspace.read id server.workspace).1.toOption = some "const NEW = 1\nscript New \x7b\n\x7d\n" ∧
    (lookup (Lookup.facts provider id) server).1.toOption.map (·.content) =
      some "script Old \x7b\n\x7d\n" := by
  refine ⟨⟨?_, ?_, ?_, ?_, ?_⟩, ?_, ?_⟩
  · refine ⟨trivial, trivial, ?_, trivial⟩
    apply reported_of_files
    · decide +kernel
    · decide +kernel
  all_goals decide +kernel

/-- An include file whose URL has an escaped percent sign, opened after its commands were looked up. -/
def escapedSteps : List Step :=
  [.request (.introduce { folders := ["file:///ws"], configuration := true }),
    .request (.completion "file:///ws/m.pory"),
    .note (.opened "file:///ws/a%2520b.inc" ".macro new\n")]

def escapedDisk : Disk :=
  { nodes := [(["ws"], .directory), (["ws", "m.pory"], .file []),
      (["ws", "a%20b.inc"], .file (Text.bytes ".macro old\n".toList))] }

/-- The commands of an include file are held under its canonical id, and an edit drops what is held under
the canonical form of that id. -/
theorem escaped_include_leaves_commands_stale :
    let start := atStart escapedDisk 100 (sampleEditor ["file:///ws/a%2520b.inc"])
    let server := after escapedSteps start
    let id := "file:///ws/m.pory"
    AllAllowed escapedSteps start ∧
    (lookup (Lookup.facts provider id) server).1.toOption.map
      (fun facts => ((facts.commands.find? "old").isSome, (facts.commands.find? "new").isSome)) =
        some (true, false) ∧
    (Lookup.commands provider id ({}, server.unsettled)).1.toOption.map
      (fun commands => ((commands.find? "old").isSome, (commands.find? "new").isSome)) =
        some (false, true) := by
  refine ⟨⟨trivial, trivial, trivial, trivial⟩, ?_, ?_⟩
  · decide +kernel
  · decide +kernel

end ScriptIndex.Server
