import ScriptIndex.Proofs.Lookup.Coherence
import ScriptIndex.Proofs.Resource
import ScriptIndex.Workspace.Provider
import ScriptIndex.Workspace.Sources

/-!
# What a workspace answers

To ask the editor only adds to the messages sent, and settings that were given once are given again, so
a workspace is a steady provider. The text of a file changes only with the buffer of its id and with
the bytes at its names.
-/
namespace ScriptIndex

def Editor.Connection.hushed (c : Editor.Connection) : Editor.Connection := { c with sent := [] }

theorem Editor.Connection.hushed_send (c : Editor.Connection) (message : Editor.Message) :
    (c.send message).hushed = c.hushed := by
  rw [send]
  split <;> rfl

namespace Workspace

open Resource

/-- A workspace without the settings that it keeps and the messages that it has sent. -/
def core (w : Workspace) : Workspace :=
  { w with settings := ∅, connection := w.connection.map Editor.Connection.hushed }

/-- The answer to a query does not depend on what was sent before. -/
theorem ask_core {α : Type} {w : Workspace} {c : Editor.Connection} (h : w.connection = some c)
    (read : Settings.Value → Except Settings.Fault α) (query : Editor.Query) :
    (w.ask c read query).1 = (w.core.ask c.hushed read query).1 ∧
      (w.ask c read query).2.core = w.core := by
  refine ⟨rfl, ?_⟩
  rw [core, core, h]
  change ({ w with settings := ∅, connection := some (c.send _).hushed } : Workspace) = _
  rw [Editor.Connection.hushed_send]
  rfl

theorem core_connection_none {w : Workspace} (h : w.connection = none) :
    w.core.connection = none := by
  rw [core, h]
  rfl

theorem core_connection_some {w : Workspace} {c : Editor.Connection} (h : w.connection = some c) :
    w.core.connection = some c.hushed := by
  rw [core, h]
  rfl

theorem read_core (id : String) (w : Workspace) :
    (read id w).1 = (read id w.core).1 ∧ (read id w).2.core = w.core ∧
      (read id w).2.settings = w.settings := by
  have hbuffers : w.core.buffers = w.buffers := rfl
  have hdisk : w.core.readDisk id = w.readDisk id := rfl
  rw [read, read, hbuffers, hdisk]
  cases w.buffers.text? id with
  | some text => exact ⟨rfl, rfl, rfl⟩
  | none =>
    cases w.readDisk id with
    | ok text => exact ⟨rfl, rfl, rfl⟩
    | error e =>
      cases hc : w.connection with
      | none =>
        rw [core_connection_none hc]
        exact ⟨rfl, rfl, rfl⟩
      | some c =>
        rw [core_connection_some hc]
        have hask := ask_core hc Settings.readText (readQuery id)
        exact ⟨rfl, hask.2, rfl⟩

theorem resolve_core (id : String) (w : Workspace) :
    (resolve id w).1 = (resolve id w.core).1 ∧ (resolve id w).2.core = w.core ∧
      (resolve id w).2.settings = w.settings := by
  have hfind : w.core.find? id = w.find? id := rfl
  rw [resolve, resolve, hfind]
  by_cases hfile : isFile id = true
  · rw [if_pos hfile, if_pos hfile]
    exact ⟨rfl, rfl, rfl⟩
  · rw [if_neg hfile, if_neg hfile]
    cases (w.find? id).bind ofPath? with
    | some owner => exact ⟨rfl, rfl, rfl⟩
    | none =>
      cases hc : w.connection with
      | none =>
        rw [core_connection_none hc]
        exact ⟨rfl, rfl, rfl⟩
      | some c =>
        have hask := ask_core hc Settings.readText (.urlOf id)
        have hkept : (w.ask c Settings.readText (.urlOf id)).2.settings = w.settings := rfl
        rw [core_connection_some hc]
        dsimp only
        rcases hanswer : w.ask c Settings.readText (.urlOf id) with ⟨answer, later⟩
        rcases hanswer' : w.core.ask c.hushed Settings.readText (.urlOf id) with
          ⟨answer', later'⟩
        rw [hanswer] at hkept
        rw [hanswer, hanswer'] at hask
        obtain ⟨rfl, hcore⟩ := hask
        cases answer with
        | ok url => exact ⟨rfl, hcore, hkept⟩
        | error fault => exact ⟨rfl, hcore, hkept⟩

/-- The settings of a resource: those that are kept, if the editor can be asked at all, and else those
that it gives now. -/
def settingsFrom (core : Workspace) (held : Option Settings) (id : String) :
    Except LookupError Settings :=
  match held with
  | some settings =>
    if core.asksSettings && core.connection.isSome then .ok settings else (settingsOf id core).1
  | none => (settingsOf id core).1

theorem settingsFrom_of_silent {core : Workspace}
    (h : (core.asksSettings && core.connection.isSome) = false) (held : Option Settings)
    (id : String) : settingsFrom core held id = (settingsOf id core).1 := by
  cases held with
  | none => rfl
  | some settings => rw [settingsFrom, h, if_neg Bool.false_ne_true]

theorem fetchSettings_core {w : Workspace} {c : Editor.Connection} (h : w.connection = some c)
    (id : String) :
    (w.fetchSettings id c).1 = (w.core.fetchSettings id c.hushed).1 ∧
      (w.fetchSettings id c).2.core = w.core ∧ (w.fetchSettings id c).2.settings = w.settings := by
  have hask := ask_core h Settings.readValues (.settings (url? id))
  have hkept : (w.ask c Settings.readValues (.settings (url? id))).2.settings = w.settings := rfl
  rw [fetchSettings, fetchSettings]
  rcases hanswer : w.ask c Settings.readValues (.settings (url? id)) with ⟨answer, later⟩
  rcases hanswer' : w.core.ask c.hushed Settings.readValues (.settings (url? id)) with
    ⟨answer', later'⟩
  rw [hanswer] at hkept
  rw [hanswer, hanswer'] at hask
  obtain ⟨rfl, hcore⟩ := hask
  cases answer with
  | ok values => exact ⟨rfl, hcore, hkept⟩
  | error fault => exact ⟨rfl, hcore, hkept⟩

/-- A call for settings answers by what is kept, and keeps what the editor gave. -/
theorem settingsOf_spec (id : String) (w : Workspace) :
    (settingsOf id w).1 = settingsFrom w.core (w.settings.find? id) id ∧
      (settingsOf id w).2.core = w.core ∧
      ((settingsOf id w).2.settings = w.settings ∨
        ∃ settings, (settingsOf id w).1 = .ok settings ∧
          (settingsOf id w).2.settings = w.settings.insert id settings) := by
  have hasks : w.core.asksSettings = w.asksSettings := rfl
  have hempty : w.core.settings.find? id = none := rfl
  cases ha : w.asksSettings with
  | false =>
    have hcall : settingsOf id w = (.ok {}, w) := by simp only [settingsOf, ha]
    have hcall' : settingsOf id w.core = (.ok {}, w.core) := by simp only [settingsOf, hasks, ha]
    have hsilent : (w.core.asksSettings && w.core.connection.isSome) = false := by rw [hasks, ha]; rfl
    rw [hcall, settingsFrom_of_silent hsilent, hcall']
    exact ⟨rfl, rfl, Or.inl rfl⟩
  | true =>
    cases hc : w.connection with
    | none =>
      have hcall : settingsOf id w = (.ok {}, w) := by simp only [settingsOf, ha, hc]
      have hcall' : settingsOf id w.core = (.ok {}, w.core) := by
        simp only [settingsOf, hasks, ha, core_connection_none hc]
      have hsilent : (w.core.asksSettings && w.core.connection.isSome) = false := by
        rw [core_connection_none hc, Option.isSome_none, Bool.and_false]
      rw [hcall, settingsFrom_of_silent hsilent, hcall']
      exact ⟨rfl, rfl, Or.inl rfl⟩
    | some c =>
      cases hs : w.settings.find? id with
      | some settings =>
        have hcall : settingsOf id w = (.ok settings, w) := by simp only [settingsOf, ha, hc, hs]
        rw [hcall, settingsFrom, hasks, ha, core_connection_some hc]
        exact ⟨rfl, rfl, Or.inl rfl⟩
      | none =>
        obtain ⟨hfst, hcore, hkept⟩ := fetchSettings_core hc id
        simp only [settingsFrom, settingsOf, ha, hc, hs, hasks, core_connection_some hc, hempty]
        rcases hfetch : w.fetchSettings id c with ⟨answer, later⟩
        rcases hfetch' : w.core.fetchSettings id c.hushed with ⟨answer', later'⟩
        rw [hfetch] at hcore hkept
        rw [hfetch, hfetch'] at hfst
        cases hfst
        cases answer with
        | ok settings => exact ⟨rfl, hcore, Or.inr ⟨settings, rfl, congrArg (·.insert id settings) hkept⟩⟩
        | error e => exact ⟨rfl, hcore, Or.inl hkept⟩

theorem core_of_asked {w later : Workspace} (h : provider.Asked w later) : later.core = w.core := by
  cases h with
  | read id => exact (read_core id w).2.1
  | resolve id => exact (resolve_core id w).2.1
  | settings id => exact (settingsOf_spec id w).2.1

/-- A call keeps the settings as they are, or adds those that it answers with. -/
theorem settingsFrom_of_asked {w later : Workspace} (h : provider.Asked w later) (id : String) :
    settingsFrom w.core (later.settings.find? id) id =
      settingsFrom w.core (w.settings.find? id) id := by
  cases h with
  | read key =>
    have hkept : (provider.read key w).2.settings = w.settings := (read_core key w).2.2
    rw [hkept]
  | resolve key =>
    have hkept : (provider.resolve key w).2.settings = w.settings := (resolve_core key w).2.2
    rw [hkept]
  | settings key =>
    obtain ⟨hfst, -, hkept | ⟨settings, hok, hadded⟩⟩ := settingsOf_spec key w
    · change settingsFrom w.core ((settingsOf key w).2.settings.find? id) id = _
      rw [hkept]
    · change settingsFrom w.core ((settingsOf key w).2.settings.find? id) id = _
      rw [hadded, NameMap.find?_insert]
      split
      · rename_i heq
        subst heq
        cases hsilent : w.core.asksSettings && w.core.connection.isSome with
        | false => rw [settingsFrom_of_silent hsilent, settingsFrom_of_silent hsilent]
        | true =>
          rw [← hfst, hok, settingsFrom, hsilent]
          rfl
      · rfl

theorem answers_text (w : Workspace) (id : String) :
    (provider.answers w).text id = (read id w.core).1 := (read_core id w).1

theorem answers_owner (w : Workspace) (id : String) :
    (provider.answers w).owner id = (resolve id w.core).1 := (resolve_core id w).1

theorem answers_settings (w : Workspace) (id : String) :
    (provider.answers w).settings id = settingsFrom w.core (w.settings.find? id) id :=
  (settingsOf_spec id w).1

/-- Workspaces that differ only in what they sent answer alike when they keep the same settings. -/
theorem answers_eq {w later : Workspace} (hcore : later.core = w.core)
    (hsettings : ∀ id, settingsFrom w.core (later.settings.find? id) id =
      settingsFrom w.core (w.settings.find? id) id) :
    provider.answers later = provider.answers w := by
  ext id
  · rw [answers_text, answers_text, hcore]
  · rw [answers_owner, answers_owner, hcore]
  · rw [answers_settings, answers_settings, hcore]
    exact hsettings id

theorem provider_steady : provider.Steady :=
  fun _ _ h => answers_eq (core_of_asked h) (settingsFrom_of_asked h)

/-- The settings that a workspace keeps are those that the editor gives now. -/
def Current (w : Workspace) : Prop :=
  ∀ id, settingsFrom w.core (w.settings.find? id) id = (settingsOf id w.core).1

theorem Current.of_asked {w later : Workspace} (h : Current w) (hasked : provider.Asked w later) :
    Current later := by
  intro id
  rw [core_of_asked hasked, settingsFrom_of_asked hasked]
  exact h id

/-- The answers of a workspace that has to ask for all settings again. -/
theorem Current.answers_eq {w : Workspace} (h : Current w) :
    provider.answers { w with settings := ∅ } = provider.answers w :=
  Workspace.answers_eq rfl fun id => (h id).symm

/-- Settings depend on the editor only. -/
theorem settingsOf_congr {w other : Workspace} (hasks : other.asksSettings = w.asksSettings)
    (hconnection : other.connection = w.connection) (hsettings : other.settings = w.settings)
    (id : String) : (settingsOf id other).1 = (settingsOf id w).1 := by
  simp only [settingsOf, fetchSettings, ask, hasks, hconnection, hsettings]
  cases w.asksSettings with
  | false => rfl
  | true =>
    cases w.connection with
    | none => rfl
    | some c =>
      cases w.settings.find? id with
      | some settings => rfl
      | none =>
        dsimp only
        cases (c.ask Settings.readValues (.settings (url? id))).1 with
        | error fault => rfl
        | ok values =>
          dsimp only
          cases settingsIn id values with
          | ok settings => rfl
          | error e => rfl

theorem Current.congr {w other : Workspace} (h : Current w)
    (hasks : other.asksSettings = w.asksSettings) (hconnection : other.connection = w.connection)
    (hsettings : other.settings = w.settings) : Current other := by
  intro id
  have hfst := settingsOf_congr hasks hconnection hsettings id
  have hhushed : other.core.connection = w.core.connection :=
    congrArg (Option.map Editor.Connection.hushed) hconnection
  have hcoreAsks : other.core.asksSettings = w.core.asksSettings := hasks
  have hcore : (settingsOf id other.core).1 = (settingsOf id w.core).1 :=
    settingsOf_congr hcoreAsks hhushed rfl id
  rw [(settingsOf_spec id other).1, (settingsOf_spec id w).1] at hfst
  rw [hfst, hcore]
  exact h id

def textBelow (w : Workspace) (id : String) : Except LookupError String :=
  match w.readDisk id, w.connection with
  | .ok text, _ => .ok text
  | .error e, none => .error e
  | .error _, some connection =>
    (connection.ask Settings.readText (readQuery id)).1.mapError fun fault =>
      .contentUnavailable id fault.message

theorem text_eq (w : Workspace) (id : String) :
    (provider.answers w).text id = match w.buffers.text? id with
      | some text => .ok text
      | none => w.textBelow id := by
  change (read id w).1 = _
  rw [read]
  cases w.buffers.text? id with
  | some text => rfl
  | none =>
    rw [textBelow]
    cases w.readDisk id with
    | ok text => rfl
    | error e =>
      cases w.connection with
      | none => rfl
      | some c => rfl

theorem owner_eq (w : Workspace) (id : String) :
    (provider.answers w).owner id = if isFile id then id else
      match (w.find? id).bind ofPath?, w.connection with
      | some owner, _ => owner
      | none, none => id
      | none, some connection =>
        match (connection.ask Settings.readText (.urlOf id)).1 with
        | .ok url => canonical url
        | .error _ => id := by
  change (resolve id w).1 = _
  rw [resolve]
  by_cases hfile : isFile id = true
  · rw [if_pos hfile, if_pos hfile]
  · rw [if_neg hfile, if_neg hfile]
    cases (w.find? id).bind ofPath? with
    | some owner => rfl
    | none =>
      cases w.connection with
      | none => rfl
      | some c =>
        dsimp only [ask]
        cases (c.ask Settings.readText (.urlOf id)).1 with
        | ok url => rfl
        | error fault => rfl

/-- The text of a resource changes only with its own buffer. -/
theorem text_of_buffers {w : Workspace} {buffers : Buffers} {id : String}
    (h : buffers.text? id = w.buffers.text? id) :
    (provider.answers { w with buffers }).text id = (provider.answers w).text id := by
  rw [text_eq, text_eq, h]
  rfl

/-- The text of a resource does not depend on the settings. -/
theorem text_of_settings (w : Workspace) (settings : NameMap Settings) (id : String) :
    (provider.answers { w with settings }).text id = (provider.answers w).text id := by
  rw [text_eq, text_eq]
  rfl

/-- The text of a resource does not change with an editor that reads it alike. -/
theorem text_of_editor {w : Workspace} {editor : Editor} {id : String}
    (h : ∀ c, w.connection = some c → editor.answer (readQuery id) = c.editor.answer (readQuery id)) :
    (provider.answers { w with connection := w.connection.map fun c => { c with editor } }).text id =
      (provider.answers w).text id := by
  rw [text_eq, text_eq]
  cases w.buffers.text? id with
  | some text => rfl
  | none =>
    have hdisk : readDisk { w with connection := w.connection.map fun c => { c with editor } } id =
        w.readDisk id := rfl
    simp only [textBelow, hdisk]
    cases w.readDisk id with
    | ok text => rfl
    | error e =>
      cases hc : w.connection with
      | none => rfl
      | some c =>
        have hask : (({ c with editor } : Editor.Connection).ask Settings.readText (readQuery id)).1 =
            (c.ask Settings.readText (readQuery id)).1 := by
          simp only [Editor.Connection.ask, h c hc]
        exact congrArg (Except.mapError _) hask

theorem pathOf_eq {w : Workspace} {id : String} {path : DiskPath} (hfile : isFile id = true)
    (h : (url? id).bind Url.diskPath? = some path) : w.pathOf id = .ok path := by
  rw [pathOf, if_pos hfile, h]

/-- A file is read from the path of its names, or from a path at which there never is a file. -/
theorem exists_pathOf {id : String} (h : IsFileId id) : ∃ path,
    (∀ w : Workspace, w.pathOf id = .ok path) ∧
      ((∃ names, Url.Kept names ∧ names ≠ [] ∧ id = fileId names ∧ path = .ofNames names) ∨
        ∀ disk : Disk, disk.bytesAt? path = none) := by
  obtain ⟨names, hkept, ⟨hne, rfl⟩ | rfl⟩ := h
  · obtain ⟨path, hpath, hwhere⟩ := exists_diskPath hkept (Or.inr ⟨rfl, hne⟩)
    rw [List.append_nil] at hpath
    refine ⟨path, fun w => pathOf_eq (isFile_fileId names) hpath, ?_⟩
    rcases hwhere with ⟨-, rfl⟩ | hnone
    · exact Or.inl ⟨names, hkept, hne, rfl, rfl⟩
    · exact Or.inr hnone
  · obtain ⟨path, hpath, hwhere⟩ := exists_diskPath hkept (Or.inl rfl)
    refine ⟨path, fun w => pathOf_eq (isFile_fileId _) hpath, Or.inr ?_⟩
    rcases hwhere with ⟨habsurd, -⟩ | hnone
    · cases habsurd
    · exact hnone

theorem readDisk_eq_ok_iff {w : Workspace} {id text : String} {path : DiskPath}
    (h : w.pathOf id = .ok path) : w.readDisk id = .ok text ↔
      ∃ content, w.disk.bytesAt? path = some content ∧ Text.decode? content = some text := by
  rw [readDisk, h, ← Disk.read_eq_ok_iff]
  dsimp only
  cases w.disk.read path with
  | ok found => simp [Except.mapError]
  | error fault => simp [Except.mapError]

/-- The text of a file does not change with a disk that holds the same bytes at its names. -/
theorem text_of_disk {id : String} (h : IsFileId id) {w : Workspace} {disk : Disk}
    (hbytes : ∀ names, Url.Kept names → names ≠ [] → id = fileId names →
      disk.bytesAt? (.ofNames names) = w.disk.bytesAt? (.ofNames names)) (text : String)
    (htext : (provider.answers w).text id = .ok text) :
    (provider.answers { w with disk }).text id = .ok text := by
  obtain ⟨path, hpath, hwhere⟩ := exists_pathOf h
  have hsame : disk.bytesAt? path = w.disk.bytesAt? path := by
    rcases hwhere with ⟨names, hkept, hne, hid, rfl⟩ | hnone
    · exact hbytes names hkept hne hid
    · rw [hnone, hnone]
  have hread : ∀ found, readDisk { w with disk } id = .ok found ↔ w.readDisk id = .ok found := by
    intro found
    rw [readDisk_eq_ok_iff (hpath _), readDisk_eq_ok_iff (hpath _), hsame]
  rw [text_eq] at htext ⊢
  change (match w.buffers.text? id with | some text => _ | none => _) = _
  cases hb : w.buffers.text? id with
  | some held =>
    rw [hb] at htext
    exact htext
  | none =>
    rw [hb] at htext
    simp only [textBelow] at htext ⊢
    cases hd : w.readDisk id with
    | ok found =>
      rw [hd] at htext
      rw [(hread found).2 hd]
      exact htext
    | error e =>
      cases hd' : readDisk { w with disk } id with
      | ok found =>
        rw [(hread found).1 hd'] at hd
        cases hd
      | error e' =>
        cases hc : w.connection with
        | none =>
          rw [hd, hc] at htext
          cases htext
        | some c =>
          rw [hd, hc] at htext
          exact htext

end Workspace
end ScriptIndex
