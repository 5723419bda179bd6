import ScriptIndex.Proofs.Server.OpenDocuments

/-!
# Edits of include files

An include is served from the buffer of its own id. An edit of a document reaches those includes that
are written as the id of the document, and no others, also not one that is read from the same file.
-/
namespace ScriptIndex.Server

open Workspace

variable {kind : FactKind} {server later : Server}

theorem Grows.served_eq (h : Grows server later) (key : String) :
    kind.served later.answers later.store key = kind.served server.answers server.store key := by
  rw [h.answers_eq]
  exact FactKind.served_of_added (h.kept kind key) (h.added kind key)

/-- An edit changes what is served under the id of the document and under its canonical form only. -/
theorem Edited.served_eq {id key : String} (h : Edited id server later) (hid : key ≠ id)
    (hcanonical : key ≠ Resource.canonical id) :
    kind.served later.answers later.store key = kind.served server.answers server.store key := by
  obtain ⟨buffers, hother, ⟨-, rfl⟩ | hrenewed⟩ := h
  · exact FactKind.served_congr (text_of_buffers (hother key hid)) rfl
  · rw [hrenewed.grows.served_eq]
    apply FactKind.served_congr (text_of_buffers (hother key hid))
    change kind.held (server.store.forget id) key = _
    rw [FactKind.held_forget, if_neg hcanonical]

/-- The commands that are served about an include. -/
theorem commandsIn_served (file : String) (server : Server) :
    (Lookup.commandsIn provider file (server.store, server.workspace)).1 =
      FactKind.commands.served server.answers server.store (Resource.canonical file) :=
  Lookup.fact_served .commands file (server.store, server.workspace)

theorem text_of_include {w : Workspace} {id text : String} {path : DiskPath}
    (hinclude : Resource.isFile id = false) (hfind : w.find? id = some path)
    (hbuffer : w.buffers.text? id = none) (hdisk : w.disk.read path = .ok text) :
    (provider.answers w).text id = .ok text := by
  have hread : w.readDisk id = .ok text := by
    simp [readDisk, pathOf, hinclude, hfind, hdisk, Except.mapError]
  rw [text_eq, hbuffer]
  simp only [textBelow, hread]

/-- The commands that are served to a document, where a buffer is open under the id of an include. -/
theorem commands_of_buffer {id doc content : String} {settings : Settings}
    (hsees : SeesBuffer .commands id server)
    (hbuffer : server.workspace.buffers.text? id = some content)
    (hsettings : (settingsOf (Resource.canonical doc) server.workspace).1 = .ok settings) :
    (Lookup.commands provider doc (server.store, server.workspace)).1 =
      .ok (Command.keywords.foldl (fun acc c => acc.insert c.name c)
        (Lookup.mergeFound (settings.commandIncludes.map fun file =>
          if Resource.canonical file = id then .ok (.ofFacts Command.name (Command.extract content))
          else (Lookup.commandsIn provider file (server.store, server.workspace)).1) ∅)) := by
  have hanswer : server.answers.text id = .ok content := by rw [answers, text_eq, hbuffer]
  have hincludes : (fun file => FactKind.commands.served server.answers server.store
      (Resource.canonical file)) = fun file =>
        if Resource.canonical file = id then .ok (.ofFacts Command.name (Command.extract content))
        else (Lookup.commandsIn provider file (server.store, server.workspace)).1 := by
    funext file
    by_cases hfile : Resource.canonical file = id
    · rw [if_pos hfile, hfile]
      exact FactKind.served_of_text hanswer (hsees content hbuffer)
    · rw [if_neg hfile]
      exact (commandsIn_served file server).symm
  have hserved := Lookup.commands_served provider_steady doc (server.store, server.workspace)
  have hgiven : (provider.answers server.workspace).settings (Resource.canonical doc) = .ok settings :=
    hsettings
  rw [hserved, Answers.commandsFrom, hgiven, ← hincludes]
  rfl

/-- An include follows the buffer of its own id, and otherwise the file that it is found in: an edit of
a document makes no difference to an include with another id, whatever file that is read from. An
include that is written as the id of the document follows the edit in every document that uses it. -/
theorem includes_follow_own_id (hreachable : Reachable server) (hrunning : server.phase = .running)
    {text content : String} {contents : List String} {url : Url} (hurl : Url.parse? text = some url)
    (hlast : contents.getLast? = some content)
    (hsize : content.utf8ByteSize ≤ server.workspace.buffers.maxSize) :
    let id := Resource.ofUrl url
    let edited := (note (.changed text contents) server).2
    (∀ (w : Workspace) file path found, Resource.isFile (Resource.canonical file) = false →
      w.find? (Resource.canonical file) = some path →
      w.buffers.text? (Resource.canonical file) = none → w.disk.read path = .ok found →
      (Lookup.commandsIn provider file ({}, w)).1 =
        .ok (.ofFacts Command.name (Command.extract found))) ∧
    (∀ (w : Workspace) file held, w.buffers.text? (Resource.canonical file) = some held →
      (Lookup.commandsIn provider file ({}, w)).1 =
        .ok (.ofFacts Command.name (Command.extract held))) ∧
    (∀ file, Resource.canonical file ≠ id → Resource.canonical file ≠ Resource.canonical id →
      (Lookup.commandsIn provider file (edited.store, edited.workspace)).1 =
        (Lookup.commandsIn provider file (server.store, server.workspace)).1) ∧
    edited.phase = .running ∧ edited.workspace.buffers.text? id = some content ∧
    (Resource.canonical id = id → ∀ later, Relation.ReflTransGen Moves edited later →
      later.workspace.buffers.text? id = some content →
      ∀ doc settings, (settingsOf (Resource.canonical doc) later.workspace).1 = .ok settings →
        (Lookup.commands provider doc (later.store, later.workspace)).1 =
          .ok (Command.keywords.foldl (fun acc c => acc.insert c.name c)
            (Lookup.mergeFound (settings.commandIncludes.map fun file =>
              if Resource.canonical file = id then
                .ok (.ofFacts Command.name (Command.extract content))
              else (Lookup.commandsIn provider file (later.store, later.workspace)).1) ∅))) := by
  intro id edited
  have hedited : edited = (takeText url content server).2 := by
    simp only [edited, note_of_running _ hrunning, noteRunning, hurl, hlast]
  have hedit : Edited id server edited := hedited ▸ takeText_edited url content server
  refine ⟨?_, ?_, ?_, ?_, ?_, ?_⟩
  · intro w file path found hinclude hfind hbuffer hdisk
    have htext := text_of_include hinclude hfind hbuffer hdisk
    rw [Lookup.commandsIn_eq, Lookup.fact_of_text (FactKind.held_empty _ _) htext]
    rfl
  · intro w file held hbuffer
    have htext : (provider.answers w).text (Resource.canonical file) = .ok held := by
      rw [text_eq, hbuffer]
    rw [Lookup.commandsIn_eq, Lookup.fact_of_text (FactKind.held_empty _ _) htext]
    rfl
  · intro file hid hcanonical
    rw [commandsIn_served, commandsIn_served]
    exact hedit.served_eq hid hcanonical
  · rw [hedit.phase, hrunning]
  · rw [hedited, buffers_takeText, text?_put hsize, if_pos rfl]
  · intro hstable later hmoves hbuffer doc settings hsettings
    have hsees : SeesBuffer .commands id server := .of_reachable hstable hreachable
    have hsees := (hsees.of_edited hstable hedit).of_moves hstable hmoves
    exact commands_of_buffer hsees hbuffer hsettings

/-- An edit of an include file that is written as the id of the file is served after a lookup, and also
when the file is gone. -/
theorem include_written_as_id_follows_edit :
    let server := (note (.opened "file:///ws/m.inc" ".macro draft\n")
      (introduced (sampleDisk "" ".macro old\n") (sampleEditor ["file:///ws/m.inc"]))).2
    let looked := (respond (.completion "file:///ws/a%20b.pory") server).2
    let edited := (note (.changed "file:///ws/m.inc" [".macro first\n", ".macro new\n"]) looked).2
    let later := edited.withDisk { nodes := [] }
    (Lookup.commands provider "file:///ws/a b.pory" (later.store, later.workspace)).1 =
      .ok (Command.keywords.foldl (fun acc c => acc.insert c.name c)
        (Lookup.mergeFound [.ok (.ofFacts Command.name (Command.extract ".macro new\n"))] ∅)) := by
  have hparse : Url.parse? "file:///ws/m.inc" = some (.ofSegments ["ws", "m.inc"]) := by
    decide +kernel
  have hstable : Resource.canonical (Resource.ofUrl (.ofSegments ["ws", "m.inc"])) =
      Resource.ofUrl (.ofSegments ["ws", "m.inc"]) := by decide +kernel
  intro server looked edited later
  have hreachable : Reachable looked := by
    obtain ⟨disk, maxSize, editor, hmoves⟩ := introduced_reachable (sampleDisk "" ".macro old\n")
      (sampleEditor ["file:///ws/m.inc"])
    exact ⟨disk, maxSize, editor, (hmoves.tail (.note _ _)).tail (.request _ _)⟩
  have hlooked : looked.phase = .running ∧
      ".macro new\n".utf8ByteSize ≤ looked.workspace.buffers.maxSize := by decide +kernel
  have hlater : later.workspace.buffers.text? (Resource.ofUrl (.ofSegments ["ws", "m.inc"])) =
        some ".macro new\n" ∧
      (settingsOf (Resource.canonical "file:///ws/a b.pory") later.workspace).1.toOption.map
        (·.commandIncludes) = some ["file:///ws/m.inc"] := by
    decide +kernel
  have hlast : [".macro first\n", ".macro new\n"].getLast? = some ".macro new\n" := rfl
  obtain ⟨settings, hsettings, hincludes⟩ := Option.map_eq_some_iff.1 hlater.2
  obtain ⟨-, -, -, -, -, hserved⟩ :=
    includes_follow_own_id hreachable hlooked.1 hparse hlast hlooked.2
  have hmain := hserved hstable later (.single (.disk _ _)) hlater.1 "file:///ws/a b.pory" settings
    (ok_of_toOption hsettings)
  have hfile : Resource.canonical "file:///ws/m.inc" =
    Resource.ofUrl (.ofSegments ["ws", "m.inc"]) := by decide +kernel
  rw [hmain, hincludes, List.map_singleton, if_pos hfile]

/-- An include that is found in a file is served from the disk, although the file is open in the
editor. -/
theorem buffer_of_included_file_not_seen :
    let server := introduced (sampleDisk "" ".macro old\n") (sampleEditor ["m.inc"])
    let opened := (note (.opened "file:///ws/m.inc" ".macro new\n") server).2
    let shown (commands : Except LookupError (NameMap Command)) := commands.toOption.map fun commands =>
      ((commands.find? "old").isSome, (commands.find? "new").isSome)
    opened.workspace.find? "m.inc" = some ⟨"/ws/m.inc"⟩ ∧
      Resource.ofPath? ⟨"/ws/m.inc"⟩ = some "file:///ws/m.inc" ∧
      opened.workspace.buffers.text? "file:///ws/m.inc" = some ".macro new\n" ∧
      shown (Lookup.commandsIn provider "m.inc" ({}, opened.workspace)).1 = some (true, false) ∧
      shown (Lookup.commands provider "file:///ws/a b.pory" (opened.store, opened.workspace)).1 =
        some (true, false) := by
  decide +kernel

end ScriptIndex.Server
