import ScriptIndex.Proofs.Buffers
import ScriptIndex.Proofs.Workspace
import ScriptIndex.Server.Session

/-!
# What the handlers of the server do

Most of what the server does changes no text: it looks things up and sends messages. The rest is said
here handler by handler: which resource is forgotten, and which symbols are looked up after that.
-/
namespace ScriptIndex.Server

open Workspace

def answers (server : Server) : Answers := provider.answers server.workspace

/-- What the server may do as long as no text changes. -/
structure Grows (server later : Server) : Prop where
  phase : later.phase = server.phase
  core : later.workspace.core = server.workspace.core
  settings : ∀ id, settingsFrom server.workspace.core (later.workspace.settings.find? id) id =
    settingsFrom server.workspace.core (server.workspace.settings.find? id) id
  kept : ∀ (kind : FactKind) (key : String) (fact : kind.Fact),
    kind.held server.store key = some fact → kind.held later.store key = some fact
  added : ∀ (kind : FactKind) (key : String) (fact : kind.Fact),
    kind.held later.store key = some fact →
      kind.held server.store key = some fact ∨ kind.found server.answers key = .ok fact

namespace Grows

variable {server middle later : Server}

theorem refl (server : Server) : Grows server server :=
  ⟨rfl, rfl, fun _ => rfl, fun _ _ _ h => h, fun _ _ _ h => Or.inl h⟩

theorem answers_eq (h : Grows server later) : later.answers = server.answers :=
  Workspace.answers_eq h.core h.settings

theorem trans (h : Grows server middle) (h' : Grows middle later) : Grows server later := by
  refine ⟨h'.phase.trans h.phase, h'.core.trans h.core, ?_, ?_, ?_⟩
  · intro id
    have hnext := h'.settings id
    rw [h.core] at hnext
    rw [hnext, h.settings id]
  · intro kind key fact hk
    exact h'.kept kind key fact (h.kept kind key fact hk)
  · intro kind key fact hk
    rcases h'.added kind key fact hk with hk | hk
    · exact h.added kind key fact hk
    · rw [h.answers_eq] at hk
      exact Or.inr hk

theorem current (h : Grows server later) (hcurrent : Current server.workspace) :
    Current later.workspace := by
  intro id
  rw [h.core, h.settings id]
  exact hcurrent id

theorem coherent (h : Grows server later) {kind : FactKind} {key : String}
    (hc : kind.Coherent server.answers server.store key) :
    kind.Coherent later.answers later.store key := by
  intro fact hk
  rw [h.answers_eq]
  rcases h.added kind key fact hk with hk | hk
  · exact hc fact hk
  · exact hk

theorem disk_eq (h : Grows server later) : later.workspace.disk = server.workspace.disk := by
  have hcore := congrArg Workspace.disk h.core
  exact hcore

theorem roots_eq (h : Grows server later) : later.workspace.roots = server.workspace.roots := by
  have hcore := congrArg Workspace.roots h.core
  exact hcore

end Grows

theorem core_of_asks {w later : Workspace} (h : Relation.ReflTransGen provider.Asked w later) :
    later.core = w.core := by
  induction h with
  | refl => rfl
  | tail _ hasked ih => rw [core_of_asked hasked, ih]

theorem settingsFrom_of_asks {w later : Workspace}
    (h : Relation.ReflTransGen provider.Asked w later) (id : String) :
    settingsFrom w.core (later.settings.find? id) id =
      settingsFrom w.core (w.settings.find? id) id := by
  induction h with
  | refl => rfl
  | tail hasks hasked ih =>
    have hnext := settingsFrom_of_asked hasked id
    rw [core_of_asks hasks] at hnext
    rw [hnext, ih]

theorem lookup_grows {α : Type} {run : LookupM Workspace α} (h : Lookup.Calm provider run)
    (server : Server) : Grows server (lookup run server).2 := by
  have hext := h (server.store, server.workspace)
  exact ⟨rfl, core_of_asks hext.asked, settingsFrom_of_asks hext.asked, hext.kept, hext.added⟩

theorem send_grows (message : Editor.Message) (server : Server) :
    Grows server (send message server).2 := by
  refine ⟨rfl, ?_, fun _ => rfl, fun _ _ _ h => h, fun _ _ _ h => Or.inl h⟩
  change Workspace.core { server.workspace with
    connection := server.workspace.connection.map (·.send message) } = _
  rw [Workspace.core, Workspace.core]
  cases server.workspace.connection with
  | none => rfl
  | some c =>
    change ({ server.workspace with settings := ∅, connection := some (c.send message).hushed } :
      Workspace) = _
    rw [Editor.Connection.hushed_send]
    rfl

theorem warm_grows (ids : List String) (server : Server) : Grows server (warm ids server).2 := by
  induction ids generalizing server with
  | nil => exact .refl server
  | cons id ids ih =>
    exact (lookup_grows (Lookup.fact_calm .symbols id) server).trans (ih _)

theorem sources_grows (server : Server) :
    Grows server { server with workspace := server.workspace.sources.2 } := by
  rw [sources]
  cases server.workspace.roots with
  | cons root roots => exact .refl server
  | nil =>
    cases hc : server.workspace.connection with
    | none => exact .refl server
    | some c =>
      have hask := (ask_core hc (Settings.readList Settings.readText) .sources).2
      dsimp only
      rcases hanswer : server.workspace.ask c (Settings.readList Settings.readText) .sources with
        ⟨answer, later⟩
      have hkept : later.settings = server.workspace.settings := by
        have hsettings : (server.workspace.ask c (Settings.readList Settings.readText)
          .sources).2.settings = server.workspace.settings := rfl
        rw [hanswer] at hsettings
        exact hsettings
      rw [hanswer] at hask
      cases answer with
      | ok paths => exact ⟨rfl, hask, fun id => by rw [hkept], fun _ _ _ h => h, fun _ _ _ h => Or.inl h⟩
      | error fault => exact ⟨rfl, hask, fun id => by rw [hkept], fun _ _ _ h => h, fun _ _ _ h => Or.inl h⟩

theorem warmUp_eq (server : Server) :
    (warmUp server).2 = match server.workspace.sources.1 with
      | .ok ids => (warm ids { server with workspace := server.workspace.sources.2 }).2
      | .error _ => { server with workspace := server.workspace.sources.2 } := by
  change ((match server.workspace.sources.1 with
    | .ok ids => warm ids
    | .error _ => pure 0) { server with workspace := server.workspace.sources.2 }).2 = _
  cases server.workspace.sources.1 with
  | ok ids => rfl
  | error e => rfl

theorem warmUp_grows (server : Server) : Grows server (warmUp server).2 := by
  have hsources := sources_grows server
  rw [warmUp_eq]
  cases server.workspace.sources.1 with
  | ok ids => exact hsources.trans (warm_grows ids _)
  | error e => exact hsources

theorem register_grows (server : Server) : Grows server (register server).2 := by
  change Grows server ((if (!server.registrations.isEmpty) = true then
    send (.query (.register server.registrations)) else pure ()) server).2
  split
  · exact send_grows _ server
  · exact .refl server

def forgetting (server : Server) (id : String) : Server :=
  { server with store := server.store.forget id }

theorem renew_eq (id : String) (server : Server) :
    (renew id server).2 = if Resource.isSource id then
      (lookup (Lookup.symbols provider id) (server.forgetting id)).2 else server.forgetting id := by
  by_cases h : Resource.isSource id = true
  · rw [if_pos h]
    simp only [renew, h]
    rfl
  · rw [if_neg h]
    simp only [renew, h]
    rfl

theorem Grows.forgetting {server later : Server} (h : Grows server later) (id : String) :
    Grows (server.forgetting id) (later.forgetting id) := by
  refine ⟨h.phase, h.core, h.settings, ?_, ?_⟩
  · intro kind key fact hk
    change kind.held (server.store.forget id) key = _ at hk
    change kind.held (later.store.forget id) key = _
    rw [FactKind.held_forget] at hk ⊢
    split at hk
    · cases hk
    · rename_i hne
      rw [if_neg hne]
      exact h.kept kind key fact hk
  · intro kind key fact hk
    change kind.held (later.store.forget id) key = _ at hk
    change kind.held (server.store.forget id) key = _ ∨ _
    rw [FactKind.held_forget] at hk ⊢
    split at hk
    · cases hk
    · rename_i hne
      rw [if_neg hne]
      exact h.added kind key fact hk

/-- A resource has been forgotten, and the symbols of a script file have been looked up after that. -/
structure Renewed (id : String) (server later : Server) : Prop where
  grows : Grows (server.forgetting id) later
  held : Resource.isSource id = true → ∀ text, server.answers.text (Resource.canonical id) = .ok text →
    FactKind.symbols.held later.store (Resource.canonical id) =
      some (FactKind.symbols.parse (Resource.canonical id) text)

theorem renew_renewed (id : String) (server : Server) : Renewed id server (renew id server).2 := by
  rw [renew_eq]
  by_cases h : Resource.isSource id = true
  · rw [if_pos h]
    refine ⟨lookup_grows (Lookup.fact_calm .symbols id) _, fun _ text ht => ?_⟩
    have hcoherent : FactKind.symbols.Coherent server.answers (server.store.forget id)
        (Resource.canonical id) := .of_forget _ _ _ id
    change FactKind.symbols.held (Lookup.fact provider .symbols id
      (server.store.forget id, server.workspace)).2.1 _ = _
    exact Lookup.held_fact hcoherent ht
  · rw [if_neg h]
    exact ⟨.refl _, fun hsource => absurd hsource h⟩

def withBuffers (server : Server) (buffers : Buffers) : Server :=
  { server with workspace := { server.workspace with buffers } }

/-- The document of an id has been opened, changed or closed. Where its text is still the same, nothing
has been renewed. -/
def Edited (id : String) (server later : Server) : Prop :=
  ∃ buffers : Buffers, (∀ key, key ≠ id → buffers.text? key = server.workspace.buffers.text? key) ∧
    ((buffers.text? id = server.workspace.buffers.text? id ∧ later = server.withBuffers buffers) ∨
      Renewed id (server.withBuffers buffers) later)

theorem dropText_edited (url : Url) (server : Server) :
    Edited (Resource.ofUrl url) server (dropText url server).2 := by
  rw [dropText]
  generalize Resource.ofUrl url = id
  refine ⟨server.workspace.buffers.remove id, ?_, Or.inr ?_⟩
  · intro key hne
    rw [Buffers.text?_remove, if_neg hne]
  · exact renew_renewed id (server.withBuffers (server.workspace.buffers.remove id))

/-- To show an error before a resource is renewed makes no difference. -/
theorem Renewed.of_grows {id : String} {server shown later : Server} (h : Grows server shown)
    (hlater : Renewed id shown later) : Renewed id server later := by
  refine ⟨(h.forgetting id).trans hlater.grows, fun hsource text ht => ?_⟩
  rw [← h.answers_eq] at ht
  exact hlater.held hsource text ht

theorem takeText_edited (url : Url) (text : String) (server : Server) :
    Edited (Resource.ofUrl url) server (takeText url text server).2 := by
  rw [takeText]
  generalize Resource.ofUrl url = id
  have hother : ∀ key, key ≠ id → (server.workspace.buffers.put id text).2.text? key =
      server.workspace.buffers.text? key := by
    intro key hne
    rw [Buffers.text?_put, if_neg hne]
  have hsame : (server.workspace.buffers.put id text).1 = .unchanged →
      (server.workspace.buffers.put id text).2.text? id = server.workspace.buffers.text? id :=
    Buffers.text?_put_of_unchanged _ _ _ _
  refine ⟨(server.workspace.buffers.put id text).2, hother, ?_⟩
  simp only [bind, StateT.bind, get, getThe, MonadStateOf.get, StateT.get, pure]
  rcases hput : server.workspace.buffers.put id text with ⟨outcome, buffers⟩
  rw [hput] at hsame
  cases outcome with
  | unchanged => exact Or.inl ⟨hsame rfl, rfl⟩
  | inserted => exact Or.inr (renew_renewed id (server.withBuffers buffers))
  | changed => exact Or.inr (renew_renewed id (server.withBuffers buffers))
  | rejected =>
    exact Or.inr ((renew_renewed id _).of_grows (send_grows _ (server.withBuffers buffers)))

/-- What is told about a watched file makes its resource be forgotten or renewed. -/
theorem changeFile_cases (url : Url) (change : FileChange) (server : Server) :
    (change = .deleted ∧ (changeFile url change server).2 = server.forgetting (Resource.ofUrl url)) ∨
      (change = .written ∧ Renewed (Resource.ofUrl url) server (changeFile url change server).2) := by
  rw [changeFile.eq_def]
  generalize Resource.ofUrl url = id
  cases change with
  | deleted => exact Or.inl ⟨rfl, rfl⟩
  | written => exact Or.inr ⟨rfl, renew_renewed id server⟩

def changed (changes : List (Url × FileChange)) (server : Server) : Server :=
  changes.foldl (fun server change => (changeFile change.1 change.2 server).2) server

def forgettingIncludes (server : Server) : Server :=
  { server with store := server.store.forgetIncludes }

theorem forM_changeFile (changes : List (Url × FileChange)) (server : Server) :
    (changes.forM (fun (url, change) => changeFile url change) server).2 = changed changes server := by
  induction changes generalizing server with
  | nil => rfl
  | cons change changes ih => exact ih (changeFile change.1 change.2 server).2

theorem noteRunning_filesChanged {changes : List (String × FileChange)}
    {read : List (Url × FileChange)} (h : changes.mapM readChange = some read) (server : Server) :
    (noteRunning (.filesChanged changes) server).2 = changed read server.forgettingIncludes := by
  rw [noteRunning, h]
  exact forM_changeFile read server.forgettingIncludes

theorem withFacts_grows (url : String) (answer : Facts → Reply) (server : Server) :
    Grows server (withFacts url answer server).2 := by
  rw [withFacts]
  cases readUrl url with
  | error e => exact .refl server
  | ok url =>
    dsimp only
    generalize Resource.ofUrl url = id
    have hlookup := lookup_grows (Lookup.facts_calm provider_steady id) server
    simp only [bind, StateT.bind]
    revert hlookup
    rcases lookup (Lookup.facts provider id) server with ⟨facts, later⟩
    intro hlookup
    cases facts with
    | ok facts => exact hlookup
    | error e => exact hlookup

theorem respondRunning_grows {request : Request} (h : request ≠ .shutdown) (server : Server) :
    Grows server (respondRunning request server).2 := by
  cases request with
  | introduce introduction => exact .refl server
  | shutdown => exact absurd rfl h
  | completion url => exact withFacts_grows url _ server
  | definition url line character => exact withFacts_grows url _ server
  | signatureHelp url line character => exact withFacts_grows url _ server
  | highlight url => exact withFacts_grows url _ server
  | hover url =>
    rw [respondRunning]
    cases readUrl url with
    | error e => exact .refl server
    | ok url => exact .refl server

/-- A request of an open session is answered without a change of any text, or ends the session. -/
theorem respondRunning_cases (request : Request) (server : Server) :
    Grows server (respondRunning request server).2 ∨
      (respondRunning request server).2.phase = .stopped := by
  by_cases h : request = .shutdown
  · subst h
    exact Or.inr rfl
  · exact Or.inl (respondRunning_grows h server)

theorem respond_of_running (request : Request) {server : Server} (h : server.phase = .running) :
    respond request server = respondRunning request server := by
  simp only [respond, bind, StateT.bind, get, getThe, MonadStateOf.get, StateT.get, pure, h]

theorem respond_of_stopped (request : Request) {server : Server} (h : server.phase = .stopped) :
    (respond request server).2 = server := by
  simp only [respond, bind, StateT.bind, get, getThe, MonadStateOf.get, StateT.get, pure, h]
  rfl

theorem respond_of_fresh (request : Request) {server : Server} (h : server.phase = .fresh) :
    (respond request server).2.store = server.store ∧
      (respond request server).2.workspace.settings = server.workspace.settings := by
  simp only [respond, bind, StateT.bind, get, getThe, MonadStateOf.get, StateT.get, pure, h]
  cases request with
  | introduce introduction =>
    cases hroots : rootsOf introduction with
    | error e =>
      simp only [welcome, hroots]
      exact ⟨rfl, rfl⟩
    | ok roots =>
      simp only [welcome, hroots]
      exact ⟨rfl, rfl⟩
  | _ => exact ⟨rfl, rfl⟩

theorem note_of_running (notification : Notification) {server : Server}
    (h : server.phase = .running) : note notification server = noteRunning notification server := by
  simp only [note, bind, StateT.bind, get, getThe, MonadStateOf.get, StateT.get, pure, h, if_true]

theorem note_of_ne (notification : Notification) {server : Server} (h : server.phase ≠ .running) :
    (note notification server).2 = server := by
  simp only [note, bind, StateT.bind, get, getThe, MonadStateOf.get, StateT.get, pure, h, if_false]
  rfl

end ScriptIndex.Server
