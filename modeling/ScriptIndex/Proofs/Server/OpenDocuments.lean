import ScriptIndex.Proofs.Canonical
import ScriptIndex.Proofs.Lookup.Calls
import ScriptIndex.Proofs.Lookup.Served
import ScriptIndex.Proofs.Server.Freshness

/-!
# Open documents

A document is held open under the id of its URL, and its facts are looked up under that id made
canonical again. Where both are the same id, every request about the document is answered from the text
of the buffer, whatever else happens to the server.
-/
namespace ScriptIndex.Server

open Workspace

def withLimit (server : Server) (maxSize : Nat) : Server :=
  server.withBuffers { server.workspace.buffers with maxSize }

/-- What can happen to a server, whether it is told or not. -/
inductive Moves : Server → Server → Prop
  | note (notification : Notification) (server : Server) :
      Moves server (Server.note notification server).2
  | request (request : Request) (server : Server) : Moves server (respond request server).2
  | warmUp (server : Server) : Moves server (Server.warmUp server).2
  | disk (disk : Disk) (server : Server) : Moves server (server.withDisk disk)
  | editor (editor : Editor) (server : Server) : Moves server (server.withEditor editor)
  | limit (maxSize : Nat) (server : Server) : Moves server (server.withLimit maxSize)

def Reachable (server : Server) : Prop :=
  ∃ disk maxSize editor, Relation.ReflTransGen Moves (atStart disk maxSize editor) server

theorem Grows.buffers_eq {server later : Server} (h : Grows server later) :
    later.workspace.buffers = server.workspace.buffers := by
  have hcore := congrArg Workspace.buffers h.core
  exact hcore

/-- A request changes no text, or leaves the buffers and the store as they are. -/
theorem respond_cases (request : Request) (server : Server) :
    Grows server (respond request server).2 ∨
      (respond request server).2.workspace.buffers = server.workspace.buffers ∧
        (respond request server).2.store = server.store := by
  cases hphase : server.phase with
  | fresh =>
    refine Or.inr ⟨?_, (respond_of_fresh request hphase).1⟩
    simp only [respond, bind, StateT.bind, get, getThe, MonadStateOf.get, StateT.get, pure, hphase]
    cases request with
    | introduce introduction =>
      cases hroots : rootsOf introduction with
      | error e =>
        simp only [welcome, hroots]
        rfl
      | ok roots =>
        simp only [welcome, hroots]
        rfl
    | _ => rfl
  | running =>
    rw [respond_of_running request hphase]
    by_cases hshutdown : request = .shutdown
    · subst hshutdown
      exact Or.inr ⟨rfl, rfl⟩
    · exact Or.inl (respondRunning_grows hshutdown server)
  | stopped =>
    rw [respond_of_stopped request hphase]
    exact Or.inl (.refl server)

def withRoots (server : Server) (roots : List DiskPath) : Server :=
  { server with workspace := server.workspace.withRoots roots }

theorem noteRunning_foldersChanged (added removed : List String) (server : Server) :
    (noteRunning (.foldersChanged added removed) server).2 = server ∨
      ∃ roots, (noteRunning (.foldersChanged added removed) server).2 = server.withRoots roots := by
  rw [noteRunning.eq_def]
  cases hadded : added.mapM Url.parse? with
  | none =>
    simp only [hadded]
    exact Or.inl rfl
  | some new =>
    cases hremoved : removed.mapM Url.parse? with
    | none =>
      simp only [hadded, hremoved]
      exact Or.inl rfl
    | some gone =>
      simp only [hadded, hremoved]
      exact Or.inr ⟨_, rfl⟩

/-- What the server holds about a document is found in the buffer of the document, if there is one. -/
def SeesBuffer (kind : FactKind) (key : String) (server : Server) : Prop :=
  ∀ text, server.workspace.buffers.text? key = some text →
    ∀ fact, kind.held server.store key = some fact → fact = kind.parse key text

namespace SeesBuffer

variable {kind : FactKind} {key : String} {server later : Server}

theorem of_eq (h : SeesBuffer kind key server)
    (hbuffer : later.workspace.buffers.text? key = server.workspace.buffers.text? key)
    (hstore : later.store = server.store) : SeesBuffer kind key later := by
  intro text htext fact hfact
  rw [hbuffer] at htext
  rw [hstore] at hfact
  exact h text htext fact hfact

theorem of_grows (h : SeesBuffer kind key server) (hgrows : Grows server later) :
    SeesBuffer kind key later := by
  intro text htext fact hfact
  rw [hgrows.buffers_eq] at htext
  rcases hgrows.added kind key fact hfact with hheld | hfound
  · exact h text htext fact hheld
  · have hanswer : server.answers.text key = .ok text := by rw [answers, text_eq, htext]
    rw [FactKind.found, hanswer] at hfound
    exact (Except.ok.inj hfound).symm

theorem of_forgetting {id : String}
    (h : key ≠ Resource.canonical id → SeesBuffer kind key server) :
    SeesBuffer kind key (server.forgetting id) := by
  intro text htext fact hfact
  change kind.held (server.store.forget id) key = _ at hfact
  rw [FactKind.held_forget] at hfact
  by_cases hkey : key = Resource.canonical id
  · simp [hkey] at hfact
  · rw [if_neg hkey] at hfact
    exact h hkey text htext fact hfact

theorem forgettingIncludes (h : SeesBuffer kind key server) :
    SeesBuffer kind key server.forgettingIncludes := by
  intro text htext fact hfact
  change kind.held server.store.forgetIncludes key = _ at hfact
  rw [FactKind.held_forgetIncludes] at hfact
  by_cases hkind : kind = .commands
  · simp [hkind] at hfact
  · rw [if_neg hkind] at hfact
    exact h text htext fact hfact

/-- An edit under a canonical id drops what is held under that very id. -/
theorem of_edited (h : SeesBuffer kind key server) (hkey : Resource.canonical key = key)
    {id : String} (hedit : Edited id server later) : SeesBuffer kind key later := by
  obtain ⟨buffers, hother, ⟨hsame, rfl⟩ | hrenewed⟩ := hedit
  · by_cases heq : key = id
    · subst heq
      exact h.of_eq hsame rfl
    · exact h.of_eq (hother key heq) rfl
  · refine (of_forgetting fun hne => ?_).of_grows hrenewed.grows
    have hid : key ≠ id := by
      rintro rfl
      exact hne hkey.symm
    exact h.of_eq (hother key hid) rfl

theorem of_changeFile (h : SeesBuffer kind key server) (url : Url) (change : FileChange) :
    SeesBuffer kind key (changeFile url change server).2 := by
  have hforget : SeesBuffer kind key (server.forgetting (Resource.ofUrl url)) :=
    of_forgetting fun _ => h
  rcases changeFile_cases url change server with ⟨_, hlater⟩ | ⟨_, hlater⟩
  · rw [hlater]
    exact hforget
  · exact hforget.of_grows hlater.grows

theorem of_changed (h : SeesBuffer kind key server) (changes : List (Url × FileChange)) :
    SeesBuffer kind key (changed changes server) := by
  induction changes generalizing server with
  | nil => exact h
  | cons change changes ih => exact ih (h.of_changeFile change.1 change.2)

theorem of_noteRunning (h : SeesBuffer kind key server) (hkey : Resource.canonical key = key)
    (notification : Notification) : SeesBuffer kind key (noteRunning notification server).2 := by
  by_cases hfolders : ∃ added removed, notification = .foldersChanged added removed
  · obtain ⟨added, removed, rfl⟩ := hfolders
    rcases noteRunning_foldersChanged added removed server with hlater | ⟨roots, hlater⟩
    · rw [hlater]
      exact h
    · rw [hlater]
      exact h.of_eq rfl rfl
  · have hallowed : (Step.note notification).Allowed server := by
      cases notification with
      | foldersChanged added removed => exact absurd ⟨added, removed, rfl⟩ hfolders
      | _ => trivial
    rcases noteRunning_cases hallowed with hgrows | ⟨id, _, hedited⟩ | rfl | ⟨changes, rfl⟩
    · exact h.of_grows hgrows
    · exact h.of_edited hkey hedited
    · exact (forgettingIncludes h).of_eq rfl rfl
    · cases hread : changes.mapM readChange with
      | none =>
        rw [noteRunning, hread]
        exact h
      | some read =>
        rw [noteRunning_filesChanged hread]
        exact of_changed h.forgettingIncludes read

/-- Whatever happens, what is held under a canonical id agrees with the buffer of that id. -/
theorem of_move (h : SeesBuffer kind key server) (hkey : Resource.canonical key = key)
    (hmove : Moves server later) : SeesBuffer kind key later := by
  cases hmove with
  | note notification =>
    by_cases hphase : server.phase = .running
    · rw [note_of_running notification hphase]
      exact h.of_noteRunning hkey notification
    · rw [note_of_ne notification hphase]
      exact h
  | request request =>
    rcases respond_cases request server with hgrows | ⟨hbuffers, hstore⟩
    · exact h.of_grows hgrows
    · exact h.of_eq (congrArg (·.text? key) hbuffers) hstore
  | warmUp => exact h.of_grows (warmUp_grows server)
  | disk disk => exact h.of_eq rfl rfl
  | editor editor => exact h.of_eq rfl rfl
  | limit maxSize => exact h.of_eq rfl rfl

theorem of_moves (h : SeesBuffer kind key server) (hkey : Resource.canonical key = key)
    (hmoves : Relation.ReflTransGen Moves server later) : SeesBuffer kind key later := by
  induction hmoves with
  | refl => exact h
  | tail _ hmove ih => exact ih.of_move hkey hmove

theorem of_reachable (hkey : Resource.canonical key = key) (h : Reachable server) :
    SeesBuffer kind key server := by
  obtain ⟨disk, maxSize, editor, hmoves⟩ := h
  refine of_moves (fun text _ fact hfact => ?_) hkey hmoves
  rw [show (atStart disk maxSize editor).store = {} from rfl, FactKind.held_empty] at hfact
  cases hfact

end SeesBuffer

/-- The document of a request, and how the reply is made from the facts about it. -/
def Request.fromFacts? : Request → Option (String × (Facts → Reply))
  | .completion url => some (url, fun facts => .completion (completions facts))
  | .definition url line character =>
    some (url, fun facts => .definition (definitionAt? facts line character))
  | .signatureHelp url line character =>
    some (url, fun facts => .signatureHelp (signatureHelpAt? facts line character))
  | .highlight url => some (url, fun facts => .highlight (Highlight.tokenData facts))
  | .introduce _ | .shutdown | .hover _ => none

theorem respondRunning_of_fromFacts {request : Request} {url : String} {answer : Facts → Reply}
    (h : request.fromFacts? = some (url, answer)) : respondRunning request = withFacts url answer := by
  cases request with
  | completion text | definition text line character | signatureHelp text line character
  | highlight text =>
    cases h
    rfl
  | introduce introduction => cases h
  | shutdown => cases h
  | hover text => cases h

theorem withFacts_of_facts {text : String} {url : Url} (hurl : Url.parse? text = some url)
    (answer : Facts → Reply) {server : Server} {facts : Facts}
    (h : (Lookup.facts provider (Resource.ofUrl url) (server.store, server.workspace)).1 = .ok facts) :
    (withFacts text answer server).1 = .ok (answer facts) := by
  have hread : readUrl text = .ok url := by
    rw [readUrl]
    rw [Url.parse?] at hurl
    cases hparse : Url.parse text with
    | error fault =>
      rw [hparse] at hurl
      cases hurl
    | ok parsed =>
      rw [hparse] at hurl
      cases hurl
      rfl
  rw [withFacts, hread]
  simp only [bind, StateT.bind, lookup]
  generalize Lookup.facts provider (Resource.ofUrl url) (server.store, server.workspace) = reply at h ⊢
  obtain ⟨found, store, workspace⟩ := reply
  cases h
  rfl

/-- A request about a document is answered from facts with the text of its buffer. -/
theorem exists_reply_of_buffer {server : Server} (hrunning : server.phase = .running)
    {text content : String} {url : Url} (hurl : Url.parse? text = some url)
    (hstable : Resource.canonical (Resource.ofUrl url) = Resource.ofUrl url)
    (hsees : SeesBuffer .content (Resource.ofUrl url) server)
    (hbuffer : server.workspace.buffers.text? (Resource.ofUrl url) = some content)
    {request : Request} {answer : Facts → Reply} (hrequest : request.fromFacts? = some (text, answer)) :
    ∃ facts, (lookup (Lookup.facts provider (Resource.ofUrl url)) server).1 = .ok facts ∧
      facts.content = content ∧ (respond request server).1 = .ok (answer facts) := by
  have hanswer : (provider.answers server.workspace).text (Resource.ofUrl url) = .ok content := by
    rw [text_eq, hbuffer]
  have hserved := FactKind.served_of_text hanswer (hsees content hbuffer)
  have hkey : Resource.canonical (Resource.canonical (Resource.ofUrl url)) = Resource.ofUrl url := by
    rw [hstable, hstable]
  obtain ⟨facts, hfacts, hcontent, -⟩ :=
    @Lookup.facts_of_served _ provider provider_steady (Resource.ofUrl url) content
      (server.store, server.workspace) (by rw [hkey]; exact hserved)
  refine ⟨facts, hfacts, hcontent, ?_⟩
  rw [respond_of_running request hrunning, respondRunning_of_fromFacts hrequest]
  exact withFacts_of_facts hurl answer hfacts

theorem Edited.phase {id : String} {server later : Server} (h : Edited id server later) :
    later.phase = server.phase := by
  obtain ⟨buffers, -, ⟨-, rfl⟩ | hrenewed⟩ := h
  · rfl
  · exact hrenewed.grows.phase

theorem buffers_renew (id : String) (server : Server) :
    (renew id server).2.workspace.buffers = server.workspace.buffers :=
  (renew_renewed id server).grows.buffers_eq

theorem buffers_takeText (url : Url) (text : String) (server : Server) :
    (takeText url text server).2.workspace.buffers =
      (server.workspace.buffers.put (Resource.ofUrl url) text).2 := by
  rw [takeText]
  generalize Resource.ofUrl url = id
  simp only [bind, StateT.bind, get, getThe, MonadStateOf.get, StateT.get, pure]
  rcases server.workspace.buffers.put id text with ⟨outcome, buffers⟩
  cases outcome with
  | unchanged => rfl
  | inserted => exact buffers_renew id (server.withBuffers buffers)
  | changed => exact buffers_renew id (server.withBuffers buffers)
  | rejected =>
    exact (buffers_renew id _).trans (send_grows _ (server.withBuffers buffers)).buffers_eq

theorem buffers_dropText (url : Url) (server : Server) :
    (dropText url server).2.workspace.buffers =
      server.workspace.buffers.remove (Resource.ofUrl url) := by
  rw [dropText]
  generalize Resource.ofUrl url = id
  exact buffers_renew id (server.withBuffers (server.workspace.buffers.remove id))

theorem text?_put {buffers : Buffers} {text : String} (h : text.utf8ByteSize ≤ buffers.maxSize)
    (id key : String) :
    (buffers.put id text).2.text? key = if key = id then some text else buffers.text? key := by
  rw [Buffers.text?_put, if_pos h]

/-- A document is held open under the id of its URL, and looked up under that id made canonical twice
over, once for the facts and once by each lookup. Both are the same id exactly if it is canonical. Then
every request about the document, whatever has happened since it was opened, is answered from the text
of its buffer. -/
theorem requests_see_opened_text {server : Server} (hreachable : Reachable server)
    (hrunning : server.phase = .running) {text content : String} {url : Url}
    (hurl : Url.parse? text = some url)
    (hsize : content.utf8ByteSize ≤ server.workspace.buffers.maxSize) :
    let id := Resource.ofUrl url
    let key := Resource.canonical (Resource.canonical id)
    let opened := (note (.opened text content) server).2
    let closed := (note (.closed text) server).2
    opened.phase = .running ∧
    (∀ other, opened.workspace.buffers.text? other =
      if other = id then some content else server.workspace.buffers.text? other) ∧
    (∀ other, closed.workspace.buffers.text? other =
      if other = id then none else server.workspace.buffers.text? other) ∧
    (∀ (store : FactStore) (w : Workspace), (∀ kind : FactKind, kind.held store key = none) →
      Lookup.calls (Lookup.content provider.recorded (Resource.canonical id)) store w = [.read key] ∧
      Lookup.calls (Lookup.constants provider.recorded (Resource.canonical id)) store w = [.read key] ∧
      Lookup.calls (Lookup.symbols provider.recorded (Resource.canonical id)) store w = [.read key]) ∧
    (key = id ↔ Resource.canonical id = id) ∧
    (Resource.canonical id = id → ∀ later, Relation.ReflTransGen Moves opened later →
      later.phase = .running → later.workspace.buffers.text? id = some content →
      ∀ request answer, Request.fromFacts? request = some (text, answer) →
        ∃ facts, (lookup (Lookup.facts provider id) later).1 = .ok facts ∧
          facts.content = content ∧ (respond request later).1 = .ok (answer facts)) := by
  intro id key opened closed
  have hopened : opened = (takeText url content server).2 := by
    simp only [opened, note_of_running _ hrunning, noteRunning, hurl]
  have hclosed : closed = (dropText url server).2 := by
    simp only [closed, note_of_running _ hrunning, noteRunning, hurl]
  refine ⟨?_, ?_, ?_, ?_, Resource.canonical_canonical_eq_self_iff id, ?_⟩
  · rw [hopened, (takeText_edited url content server).phase, hrunning]
  · intro other
    rw [hopened, buffers_takeText, text?_put hsize]
  · intro other
    rw [hclosed, buffers_dropText, Buffers.remove, Buffers.text?, NameMap.find?_erase]
    rfl
  · intro store w hheld
    have hcalls : ∀ kind : FactKind, Lookup.calls (Lookup.fact provider.recorded kind
        (Resource.canonical id)) store w = [.read key] := by
      intro kind
      have hnone : kind.held store (Resource.canonical (Resource.canonical id)) = none := hheld kind
      rw [Lookup.calls_fact, hnone]
      rfl
    exact ⟨hcalls .content, hcalls .constants, hcalls .symbols⟩
  · intro hstable later hmoves hlater hbuffer request answer hrequest
    have hsees : SeesBuffer .content id server := .of_reachable hstable hreachable
    have hsees := (hsees.of_move hstable (.note (.opened text content) server)).of_moves hstable hmoves
    exact exists_reply_of_buffer hlater hurl hstable hsees hbuffer hrequest

def introduced (disk : Disk) (editor : Editor) : Server :=
  (respond (.introduce { folders := ["file:///ws"], configuration := true })
    (atStart disk 100 editor)).2

theorem introduced_reachable (disk : Disk) (editor : Editor) : Reachable (introduced disk editor) :=
  ⟨disk, 100, editor, .single (.request _ _)⟩

/-- The text of an open document is still served when its file and its folder are gone. -/
theorem opened_text_seen_without_file :
    let server := introduced (sampleDisk "script Old \x7b\n\x7d\n" "") (sampleEditor [])
    let opened := (note (.opened "file:///ws/a%20b.pory" "script Mine \x7b\n\x7d\n") server).2
    let later := (note (.foldersChanged [] ["file:///ws"]) (opened.withDisk { nodes := [] })).2
    later.phase = .running ∧
      ∃ facts, (lookup (Lookup.facts provider (Resource.ofUrl sampleUrl)) later).1 = .ok facts ∧
        facts.content = "script Mine \x7b\n\x7d\n" ∧
        (respond (.highlight "file:///ws/a%20b.pory") later).1 =
          .ok (.highlight (Highlight.tokenData facts)) := by
  have hparse : Url.parse? "file:///ws/a%20b.pory" = some sampleUrl := by decide +kernel
  have hstable : Resource.canonical (Resource.ofUrl sampleUrl) = Resource.ofUrl sampleUrl := by
    decide +kernel
  intro server opened later
  have hlater : later.phase = .running ∧ later.workspace.buffers.text? (Resource.ofUrl sampleUrl) =
      some "script Mine \x7b\n\x7d\n" := by decide +kernel
  have hserver : server.phase = .running ∧
      "script Mine \x7b\n\x7d\n".utf8ByteSize ≤ server.workspace.buffers.maxSize := by decide +kernel
  obtain ⟨-, -, -, -, -, hserved⟩ :=
    requests_see_opened_text (introduced_reachable _ _) hserver.1 hparse hserver.2
  exact ⟨hlater.1, hserved hstable later (.tail (.single (.disk _ _)) (.note _ _)) hlater.1 hlater.2
    (.highlight "file:///ws/a%20b.pory") _ rfl⟩

/-- A document with an escaped percent sign in its URL is held open under one id, and read from the file
of another. -/
theorem escaped_document_not_seen :
    let server := introduced (sampleDisk "script Other \x7b\n\x7d\n" "") (sampleEditor [])
    let opened := (note (.opened "file:///ws/a%2520b.pory" "script Mine \x7b\n\x7d\n") server).2
    let id := "file:///ws/a%20b.pory"
    (Url.parse? "file:///ws/a%2520b.pory").map Resource.ofUrl = some id ∧
      opened.workspace.buffers.text? id = some "script Mine \x7b\n\x7d\n" ∧
      Resource.canonical (Resource.canonical id) = "file:///ws/a b.pory" ∧
      (lookup (Lookup.facts provider id) opened).1.toOption.map (·.content) =
        some "script Other \x7b\n\x7d\n" := by
  decide +kernel

end ScriptIndex.Server
