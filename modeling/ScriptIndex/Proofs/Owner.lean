import ScriptIndex.Feature.Location
import ScriptIndex.Proofs.Sources

/-!
# The files that includes are read from

An include that is found below a root is read from the path there, and what it declares is reported
under the id of that path. The URL of this id leads back to the same file if none of the parts of the
path is a pair of dots or is changed on the way through a URL.
-/
namespace ScriptIndex

def LookupError.about (id : String) : LookupError → LookupError
  | contentUnavailable _ reason => contentUnavailable id reason
  | unreadable _ fault => unreadable id fault
  | settingsUnavailable _ reason => settingsUnavailable id reason
  | invalidSettings fault => invalidSettings fault

namespace DiskPath

/-- A path that its URL leads back to. -/
structure Plain (path : DiskPath) : Prop where
  kept : Url.Kept path.parts
  last : ∀ name, path.parts.getLast? = some name → Resource.endsInDrive name.toList = false

instance (path : DiskPath) : Decidable path.Plain :=
  decidable_of_iff (Url.Kept path.parts ∧
      ∀ name ∈ path.parts.getLast?, Resource.endsInDrive name.toList = false)
    ⟨fun h => ⟨h.1, h.2⟩, fun h => ⟨h.kept, h.last⟩⟩

theorem isAbsolute_join {path : DiskPath} (h : path.isAbsolute = true) (next : String) :
    (path.join next).isAbsolute = true := by
  rw [join]
  by_cases hnext : isAbsolute ⟨next⟩ = true
  · rw [if_pos hnext]
    exact hnext
  · rw [if_neg hnext]
    rw [isAbsolute, beq_iff_eq] at h
    cases htext : path.text.toList with
    | nil => simp [htext] at h
    | cons c cs =>
      rw [htext, List.head?_cons] at h
      split
      · simpa [isAbsolute, htext] using h
      · simpa [isAbsolute, htext] using h

/-- The id of a plain path stands for the plain path along its parts. -/
theorem Plain.diskPath?_fileId {path : DiskPath} (h : path.Plain) (hne : path.parts ≠ []) :
    (Resource.url? (Resource.fileId path.parts)).bind Url.diskPath? = some (ofNames path.parts) :=
  Resource.diskPath?_fileId h.kept (List.dropLast_concat_getLast hne).symm
    (h.last _ (List.getLast?_eq_some_getLast hne))

end DiskPath

namespace Disk

open DiskPath

variable {disk : Disk}

theorem parts_ne_nil {path : DiskPath} {place : List String} {content : List UInt8}
    (h : disk.locate path = .ok (place, .file content)) : path.parts ≠ [] := by
  obtain ⟨-, habsolute, hfollow, hnode⟩ := of_locate h
  intro hparts
  have htop := follow_filter hfollow
  rw [← parts_eq_filter habsolute, hparts, follow] at htop
  cases htop
  cases hnode

/-- The plain path along the parts of a path leads to the same place. -/
theorem locate_ofNames_parts {path : DiskPath} {place : List String} {content : List UInt8}
    (h : disk.locate path = .ok (place, .file content)) :
    disk.locate (ofNames path.parts) = disk.locate path := by
  obtain ⟨hzero, habsolute, hfollow, hnode⟩ := of_locate h
  have hclean : ¬(ofNames path.parts).text.toList.contains '\x00' = true := by
    rw [List.contains_iff_mem, ofNames, Url.toList_segmentsText, List.mem_flatMap]
    rintro ⟨part, hpart, hc⟩
    rcases List.mem_cons.1 hc with heq | hc
    · cases heq
    · exact hzero (of_mem_piece (of_mem_parts habsolute hpart).2.2 hc).2
  have hpieces := pieces_ofNames fun part hpart => no_slash_of_mem_parts habsolute hpart
  have hplace : disk.follow [] ("" :: path.parts) = .ok place := by
    rw [parts_eq_filter habsolute]
    exact follow_filter hfollow
  rw [h, locate, if_neg hclean, isAbsolute_ofNames (parts_ne_nil h), hpieces, hplace]
  simp [hnode]

theorem read_congr {path other : DiskPath} (h : disk.locate other = disk.locate path) :
    disk.read other = disk.read path := by
  rw [read, read, h]

end Disk

namespace Workspace

open Resource

variable {w : Workspace} {id : String} {path : DiskPath}

theorem of_find? (hroots : ∀ root ∈ w.roots, root.isAbsolute = true) (h : w.find? id = some path) :
    path.isAbsolute = true ∧ ∃ place content, w.disk.locate path = .ok (place, .file content) := by
  obtain ⟨root, hroot, rfl⟩ := List.mem_map.1 (List.mem_of_find?_eq_some h)
  exact ⟨DiskPath.isAbsolute_join (hroots root hroot) id,
    Disk.exists_locate_of_isFile (List.find?_some h)⟩

/-- Without buffers and an editor a resource is read from the disk. -/
theorem read_eq_readDisk (hbuffers : w.buffers.text? id = none) (hconnection : w.connection = none) :
    (read id w).1 = w.readDisk id := by
  have htext := text_eq w id
  rw [hbuffers] at htext
  refine Eq.trans htext ?_
  simp only [textBelow, hconnection]
  cases w.readDisk id with
  | ok text => rfl
  | error e => rfl

theorem readDisk_of_locate {owner : String} {there : DiskPath} (hpath : w.pathOf id = .ok path)
    (hthere : w.pathOf owner = .ok there) (hsame : w.disk.locate there = w.disk.locate path) :
    w.readDisk owner = (w.readDisk id).mapError (.about owner) := by
  rw [readDisk, readDisk, hpath, hthere]
  dsimp only
  rw [Disk.read_congr hsame]
  cases w.disk.read path <;> rfl

/-- Where a file id has a path, its URL stands for that path. -/
theorem diskPath?_of_pathOf (hfile : isFile id = true) (h : w.pathOf id = .ok path) :
    (url? id).bind Url.diskPath? = some path := by
  cases hpath : (url? id).bind Url.diskPath? with
  | some other =>
    rw [pathOf_eq hfile hpath] at h
    cases h
    rfl
  | none =>
    rw [pathOf, if_pos hfile, hpath] at h
    cases h

/-- Errors of reading a file name the id that was asked for. -/
theorem readDisk_about (hfile : isFile id = true) :
    w.readDisk id = (w.readDisk id).mapError (.about id) := by
  cases hpath : (url? id).bind Url.diskPath? with
  | some path =>
    have hpathOf : w.pathOf id = .ok path := pathOf_eq hfile hpath
    exact readDisk_of_locate hpathOf hpathOf rfl
  | none =>
    rw [readDisk, pathOf, if_pos hfile, hpath]
    rfl

theorem exists_location {owner : String} (h : (url? owner).bind Url.diskPath? = some path)
    (position : Position) (name : String) : ∃ location,
      Location.ofName? owner position name = some location ∧ location.url.diskPath? = some path := by
  obtain ⟨url, hurl, hpath⟩ := Option.bind_eq_some_iff.1 h
  rw [Location.ofName?, hurl]
  exact ⟨_, rfl, hpath⟩

/-- An include that is found below a root is reported under the id of a file. Where the path of the file
is plain, reading that id gives what reading the include gives, but for the id that an error names, and
locations with that id lead to the file of the include. -/
theorem include_reads_as_its_owner (hroots : ∀ root ∈ w.roots, root.isAbsolute = true)
    (hbuffers : ∀ id, w.buffers.text? id = none) (hconnection : w.connection = none)
    (hfind : w.find? id = some path) :
    let owner := (resolve id w).1
    isFile owner = true ∧ (isFile id = true ∨ path.Plain →
      (read owner w).1 = (read id w).1.mapError (.about owner) ∧
        ∀ source, w.pathOf id = .ok source → ∀ position name, ∃ location there,
          Location.ofName? owner position name = some location ∧
            location.url.diskPath? = some there ∧ w.disk.locate there = w.disk.locate source) := by
  intro owner
  rw [read_eq_readDisk (hbuffers _) hconnection, read_eq_readDisk (hbuffers _) hconnection]
  have howner : owner = (provider.answers w).owner id := rfl
  rw [owner_eq] at howner
  by_cases hfile : isFile id = true
  · rw [if_pos hfile] at howner
    rw [howner]
    refine ⟨hfile, fun _ => ⟨readDisk_about hfile, ?_⟩⟩
    intro source hsource position name
    obtain ⟨location, hlocation, hthere⟩ :=
      exists_location (diskPath?_of_pathOf hfile hsource) position name
    exact ⟨location, source, hlocation, hthere, rfl⟩
  · obtain ⟨habsolute, place, content, hlocate⟩ := of_find? hroots hfind
    have hne := Disk.parts_ne_nil hlocate
    rw [if_neg hfile, hfind, Option.bind_some, ofPath?_eq habsolute hne] at howner
    change owner = fileId path.parts at howner
    rw [howner]
    refine ⟨isFile_fileId _, fun hplain => ?_⟩
    have hpathOf : w.pathOf id = .ok path := by rw [pathOf, if_neg hfile, hfind]
    have hthere := (hplain.resolve_left hfile).diskPath?_fileId hne
    have hsame := Disk.locate_ofNames_parts hlocate
    refine ⟨readDisk_of_locate hpathOf (pathOf_eq (isFile_fileId _) hthere) hsame, ?_⟩
    intro source hsource position name
    rw [hpathOf] at hsource
    cases hsource
    obtain ⟨location, hlocation, hurl⟩ := exists_location hthere position name
    exact ⟨location, _, hlocation, hurl, hsame⟩

/-- An include that is written with a dot, doubled slashes and an escape leads to one file both ways. -/
theorem escaped_include_reads_as_owner :
    let w : Workspace :=
      { disk := { nodes := [(["ws"], .directory), (["ws", "sub"], .directory),
          (["ws", "sub", "m#1%41.inc"], .file (Text.bytes ".macro here\n".toList))] }
        roots := [⟨"/other"⟩, ⟨"/ws/"⟩] }
    let owner := (resolve "./sub//m#1%41.inc" w).1
    owner = "file:///ws/sub/m#1%41.inc" ∧
      (read owner w).1 = (read "./sub//m#1%41.inc" w).1.mapError (.about owner) ∧
      (read "./sub//m#1%41.inc" w).1.toOption = some ".macro here\n" ∧
      ∃ location there, Location.ofName? owner ⟨0, 7⟩ "here" = some location ∧
        location.url.diskPath? = some there ∧
        w.disk.locate there = w.disk.locate ⟨"/ws/./sub//m#1%41.inc"⟩ := by
  intro w owner
  have hroots : ∀ root ∈ w.roots, root.isAbsolute = true := by decide +kernel
  have hfind : w.find? "./sub//m#1%41.inc" = some ⟨"/ws/./sub//m#1%41.inc"⟩ := by decide +kernel
  have hplain : DiskPath.Plain ⟨"/ws/./sub//m#1%41.inc"⟩ := by decide +kernel
  obtain ⟨-, halike⟩ := include_reads_as_its_owner hroots (fun _ => rfl) rfl hfind
  obtain ⟨hread, hlocation⟩ := halike (Or.inr hplain)
  have hfile : ¬isFile "./sub//m#1%41.inc" = true := by decide +kernel
  have hpathOf : w.pathOf "./sub//m#1%41.inc" = .ok ⟨"/ws/./sub//m#1%41.inc"⟩ := by
    rw [pathOf, if_neg hfile, hfind]
  exact ⟨by decide +kernel, hread, by decide +kernel, hlocation _ hpathOf ⟨0, 7⟩ "here"⟩

/-- The id of an include with a pair of dots keeps them, and its URL leaves them out: it leads to
another path than the one the include is read from. -/
theorem dotted_include_leads_elsewhere :
    let w : Workspace :=
      { disk := { nodes := [(["ws"], .directory), (["ws", "sub"], .directory),
          (["ws", "m.inc"], .file (Text.bytes ".macro here\n".toList))] }
        roots := [⟨"/ws"⟩] }
    let owner := (resolve "sub/../m.inc" w).1
    w.find? "sub/../m.inc" = some ⟨"/ws/sub/../m.inc"⟩ ∧
      (read "sub/../m.inc" w).1.toOption = some ".macro here\n" ∧
      owner = "file:///ws/sub/../m.inc" ∧ (read owner w).1.toOption = none ∧
      (Location.ofName? owner ⟨0, 7⟩ "here").bind (·.url.diskPath?) = some ⟨"/ws/sub/m.inc"⟩ := by
  decide +kernel

end Workspace
end ScriptIndex
