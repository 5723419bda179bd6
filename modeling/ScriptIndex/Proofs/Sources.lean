import ScriptIndex.Proofs.NameMap
import ScriptIndex.Proofs.Workspace
import ScriptIndex.Workspace.Sources

/-!
# Every script file below a root is listed

A root may be written with doubled slashes and dots. It still leads to the place of its parts as long
as there is a file below that place, and the files below it are listed under the ids of their names.
-/
namespace ScriptIndex

namespace Text

variable {sep : Char → Bool}

theorem exists_mem_pieces {cs : List Char} {c : Char} (hc : c ∈ cs) (hsep : sep c = false) :
    ∃ p ∈ pieces sep cs, c ∈ p := by
  induction cs with
  | nil => cases hc
  | cons d cs ih =>
    rw [pieces]
    rcases List.mem_cons.1 hc with rfl | hc
    · rw [if_neg (by simp [hsep])]
      cases pieces sep cs with
      | nil => exact ⟨_, List.mem_cons_self, List.mem_cons_self⟩
      | cons p ps => exact ⟨_, List.mem_cons_self, List.mem_cons_self⟩
    · obtain ⟨p, hp, hmem⟩ := ih hc
      by_cases hd : sep d = true
      · rw [if_pos hd]
        exact ⟨p, List.mem_cons_of_mem _ hp, hmem⟩
      · rw [if_neg hd]
        cases hpieces : pieces sep cs with
        | nil =>
          rw [hpieces] at hp
          cases hp
        | cons first rest =>
          rw [hpieces] at hp
          rcases List.mem_cons.1 hp with rfl | hp
          · exact ⟨_, List.mem_cons_self, List.mem_cons_of_mem _ hmem⟩
          · exact ⟨p, List.mem_cons_of_mem _ hp, hmem⟩

/-- The last separator is not moved by what stands in front. -/
theorem splitLast?_append {mark : Char} {cs before behind : List Char} (front : List Char)
    (h : splitLast? mark cs = some (before, behind)) :
    splitLast? mark (front ++ cs) = some (front ++ before, behind) := by
  rw [splitLast?] at h ⊢
  cases hdrop : cs.reverse.dropWhile (· != mark) with
  | nil =>
    rw [hdrop] at h
    cases h
  | cons last rest =>
    have hlength : (cs.reverse.takeWhile (· != mark)).length ≠ cs.reverse.length := by
      intro hall
      have hsplit := congrArg List.length
        (List.takeWhile_append_dropWhile (p := (· != mark)) (l := cs.reverse))
      rw [List.length_append, hdrop, hall, List.length_cons] at hsplit
      omega
    rw [hdrop] at h
    rw [List.reverse_append, List.dropWhile_append, hdrop, List.takeWhile_append, if_neg hlength]
    cases h
    simp

theorem eq_of_splitLast? {mark : Char} {cs before behind : List Char}
    (h : splitLast? mark cs = some (before, behind)) : cs = before ++ mark :: behind := by
  rw [splitLast?] at h
  cases hdrop : cs.reverse.dropWhile (· != mark) with
  | nil =>
    rw [hdrop] at h
    cases h
  | cons last rest =>
    have hlast : last = mark := by
      have hhead := List.head?_dropWhile_not (· != mark) cs.reverse
      rw [hdrop, List.head?_cons] at hhead
      simpa using hhead
    have hsplit := List.takeWhile_append_dropWhile (p := (· != mark)) (l := cs.reverse)
    rw [hdrop] at h hsplit
    cases h
    have hback := congrArg List.reverse hsplit
    rw [List.reverse_append, List.reverse_reverse, List.reverse_cons, List.append_assoc, hlast] at hback
    exact hback.symm

theorem splitLast?_eq_some_iff {mark : Char} {cs before behind : List Char} :
    splitLast? mark cs = some (before, behind) ↔ cs = before ++ mark :: behind ∧ mark ∉ behind := by
  constructor
  · intro h
    refine ⟨eq_of_splitLast? h, ?_⟩
    rw [splitLast?] at h
    split at h
    · cases h
    · cases h
      intro hmem
      simpa using List.mem_takeWhile_imp (List.mem_reverse.1 hmem)
  · rintro ⟨rfl, hmark⟩
    have hbehind : ∀ c ∈ behind.reverse, (c != mark) = true := by
      intro c hc
      rw [bne_iff_ne]
      rintro rfl
      exact hmark (List.mem_reverse.1 hc)
    have hreverse : (before ++ mark :: behind).reverse = behind.reverse ++ mark :: before.reverse := by
      simp
    rw [splitLast?, hreverse, List.dropWhile_append_of_pos hbehind, List.takeWhile_append_of_pos hbehind]
    simp

end Text

namespace DiskPath

variable {path : DiskPath}

theorem exists_pieces (h : path.isAbsolute = true) : ∃ rest, path.pieces = "" :: rest ∧
    path.parts = rest.filter fun piece => piece != "" && piece != "." := by
  rw [isAbsolute, beq_iff_eq] at h
  cases htext : path.text.toList with
  | nil =>
    rw [htext] at h
    cases h
  | cons c cs =>
    rw [htext, List.head?_cons] at h
    cases h
    have hpieces : path.pieces = "" :: (Text.pieces (· == '/') cs).map String.ofList := by
      rw [DiskPath.pieces, htext]
      rfl
    refine ⟨_, hpieces, ?_⟩
    rw [parts, hpieces]
    rfl

theorem parts_eq_filter (h : path.isAbsolute = true) :
    path.parts = path.pieces.filter fun piece => piece != "" && piece != "." := by
  obtain ⟨rest, hpieces, hparts⟩ := exists_pieces h
  rw [hparts, hpieces]
  rfl

theorem dots_mem_parts (h : path.isAbsolute = true) (hdots : ".." ∈ path.pieces) : ".." ∈ path.parts := by
  rw [parts_eq_filter h]
  exact List.mem_filter.2 ⟨hdots, by decide⟩

/-- Each character of an absolute path but slashes and dots is in one of its parts. -/
theorem exists_mem_parts (h : path.isAbsolute = true) {c : Char} (hc : c ∈ path.text.toList)
    (hslash : (c == '/') = false) (hdot : c ≠ '.') : ∃ part ∈ path.parts, c ∈ part.toList := by
  obtain ⟨piece, hpiece, hmem⟩ : ∃ piece ∈ Text.pieces (· == '/') path.text.toList, c ∈ piece :=
    Text.exists_mem_pieces hc hslash
  rw [← String.toList_ofList (l := piece)] at hmem
  refine ⟨String.ofList piece, ?_, hmem⟩
  rw [parts_eq_filter h]
  refine List.mem_filter.2 ⟨List.mem_map.2 ⟨piece, hpiece, rfl⟩, ?_⟩
  rw [Bool.and_eq_true, bne_iff_ne, bne_iff_ne]
  refine ⟨fun heq => ?_, fun heq => ?_⟩
  · rw [heq] at hmem
    cases hmem
  · rw [heq] at hmem
    exact hdot (List.mem_singleton.1 hmem)

/-- An absolute path continued by a name has the name as its last part. -/
theorem parts_join (h : path.isAbsolute = true) {name : String} (hname : IsName name) :
    (path.join name).isAbsolute = true ∧ (path.join name).parts = path.parts ++ [name] := by
  have hrelative : ¬isAbsolute ⟨name⟩ = true := by
    rw [isAbsolute, beq_iff_eq]
    intro hhead
    exact hname.no_slash (List.mem_of_mem_head? hhead)
  have hsingle : Text.pieces (· == '/') name.toList = [name.toList] :=
    Text.pieces_eq_singleton fun c hc => beq_eq_false_iff_ne.2 fun heq => hname.no_slash (heq ▸ hc)
  -- a slash at the end of the path is the one that the name follows
  obtain ⟨front, hjoin, hempty⟩ : ∃ front : List Char,
      (path.join name).text.toList = front ++ '/' :: name.toList ∧
        (path.text.toList = front ∨ path.text.toList = front ++ ['/']) := by
    rw [join, if_neg hrelative]
    split
    · rename_i hend
      rcases Bool.or_eq_true_iff.1 hend with hnone | hslash
      · rw [isAbsolute, String.isEmpty_iff.1 hnone] at h
        cases h
      · obtain ⟨front, hfront⟩ := List.getLast?_eq_some_iff.1 (beq_iff_eq.1 hslash)
        refine ⟨front, ?_, Or.inr hfront⟩
        simp [hfront]
    · exact ⟨path.text.toList, by simp, Or.inl rfl⟩
  have habsolute : (path.join name).isAbsolute = true := by
    rw [isAbsolute, hjoin]
    rw [isAbsolute] at h
    cases front with
    | nil => rfl
    | cons c front =>
      rcases hempty with htext | htext
      · rw [htext] at h
        exact h
      · rw [htext] at h
        exact h
  refine ⟨habsolute, ?_⟩
  have hname' : [name].filter (fun piece => piece != "" && piece != ".") = [name] := by
    simp [hname.ne_empty, hname.ne_dot]
  have hsplit : ∀ cs, Text.pieces (· == '/') (front ++ '/' :: cs) =
      Text.pieces (· == '/') front ++ Text.pieces (· == '/') cs :=
    fun cs => Text.pieces_append_cons rfl front cs
  rw [parts_eq_filter habsolute, parts_eq_filter h, DiskPath.pieces, DiskPath.pieces, hjoin, hsplit,
    hsingle, List.map_append, List.filter_append, List.map_singleton, String.ofList_toList, hname']
  rcases hempty with htext | htext
  · rw [htext]
  · rw [htext, hsplit]
    simp [Text.pieces]

theorem parts_foldl_join {names : List String} (h : path.isAbsolute = true)
    (hnames : ∀ name ∈ names, IsName name) :
    (names.foldl join path).isAbsolute = true ∧
      (names.foldl join path).parts = path.parts ++ names := by
  induction names generalizing path with
  | nil => exact ⟨h, (List.append_nil _).symm⟩
  | cons name names ih =>
    obtain ⟨hnext, hparts⟩ := parts_join h (hnames name List.mem_cons_self)
    obtain ⟨hlast, hall⟩ := ih hnext fun n hn => hnames n (List.mem_cons_of_mem _ hn)
    refine ⟨hlast, ?_⟩
    rw [List.foldl_cons, hall, hparts, List.append_assoc]
    rfl

/-- The extension of the plain path along names is that of the last name. -/
theorem extension?_ofNames_eq_some_iff {names : List String} (h : ∀ name ∈ names, IsName name)
    {extension : String} : (ofNames names).extension? = some extension ↔ ∃ front last c before,
      names = front ++ [last] ∧
        Text.splitLast? '.' last.toList = some (c :: before, extension.toList) := by
  rw [extension?, parts_ofNames h]
  constructor
  · intro hext
    cases hlast : names.getLast? with
    | none => simp [hlast] at hext
    | some last =>
      obtain ⟨front, hfront⟩ := List.getLast?_eq_some_iff.1 hlast
      rw [hlast, Option.bind_some] at hext
      split at hext
      · rename_i c before behind hsplit
        refine ⟨front, last, c, before, hfront, ?_⟩
        rw [hsplit, ← Option.some.inj hext, String.toList_ofList]
      · cases hext
  · rintro ⟨front, last, c, before, rfl, hsplit⟩
    simp [hsplit]

theorem extension?_congr {other : DiskPath} (h : path.parts = other.parts) :
    path.extension? = other.extension? := by
  rw [extension?, extension?, h]

end DiskPath

namespace Disk

open DiskPath

variable {disk : Disk}

theorem directory_of_follow {place final pieces : List String}
    (h : disk.follow place pieces = .ok final) (hfinal : disk.node? final = some .directory) :
    disk.node? place = some .directory := by
  cases pieces with
  | nil =>
    rw [follow] at h
    cases h
    exact hfinal
  | cons piece rest => exact node?_of_follow_cons h

/-- Empty pieces and dots lead nowhere on the way to a directory. -/
theorem follow_of_filter {place final pieces : List String} (hdots : ".." ∉ pieces)
    (h : disk.follow place (pieces.filter fun piece => piece != "" && piece != ".") = .ok final)
    (hfinal : disk.node? final = some .directory) : disk.follow place pieces = .ok final := by
  induction pieces generalizing place with
  | nil => exact h
  | cons piece pieces ih =>
    have hrest : ".." ∉ pieces := fun hmem => hdots (List.mem_cons_of_mem _ hmem)
    have hplace := directory_of_follow h hfinal
    rw [follow, hplace]
    by_cases hskip : piece = "" ∨ piece = "."
    · have hfilter : (piece :: pieces).filter (fun piece => piece != "" && piece != ".") =
          pieces.filter fun piece => piece != "" && piece != "." := by
        rcases hskip with rfl | rfl
        · rfl
        · rfl
      rw [hfilter] at h
      simp only [if_pos hskip]
      exact ih hrest h
    · have hdot : piece ≠ ".." := fun heq => hdots (heq ▸ List.mem_cons_self)
      have hkeep : (piece != "" && piece != ".") = true := by
        simpa [not_or] using hskip
      rw [List.filter_cons, if_pos hkeep, follow, hplace] at h
      simp only [if_neg hskip, if_neg hdot] at h ⊢
      split at h
      · cases h
      · rename_i hsize
        rw [if_neg hsize]
        exact ih hrest h

/-- A path is read if the pieces between its slashes lead somewhere and its parts hold no zero byte. -/
theorem locate_of_follow {path : DiskPath} (habsolute : path.isAbsolute = true)
    (hzero : ∀ part ∈ path.parts, '\x00' ∉ part.toList) {place : List String} {node : Node}
    (hfollow : disk.follow [] path.pieces = .ok place) (hnode : disk.node? place = some node) :
    disk.locate path = .ok (place, node) := by
  have hclean : ¬path.text.toList.contains '\x00' = true := by
    intro hmem
    obtain ⟨part, hpart, hc⟩ := exists_mem_parts habsolute (List.contains_iff_mem.1 hmem) (by decide)
      (by decide)
    exact hzero part hpart hc
  rw [locate, if_neg hclean, habsolute, hfollow]
  simp [hnode]

/-- The names of a file hold no zero byte. -/
theorem no_zero_of_bytesAt? {names : List String} (hnames : ∀ name ∈ names, IsName name)
    {content : List UInt8} (h : disk.bytesAt? (ofNames names) = some content) :
    ∀ name ∈ names, '\x00' ∉ name.toList := by
  intro name hname hc
  apply (of_bytesAt? hnames h).1
  rw [ofNames, Url.toList_segmentsText]
  exact List.mem_flatMap.2 ⟨name, hname, List.mem_cons_of_mem _ hc⟩

/-- A root with a file below it leads to the place of its parts. -/
theorem locate_of_bytesAt? {root : DiskPath} (habsolute : root.isAbsolute = true)
    {below : List String} (hbelow : below ≠ []) (hnames : ∀ name ∈ root.parts ++ below, IsName name)
    {content : List UInt8} (h : disk.bytesAt? (ofNames (root.parts ++ below)) = some content) :
    disk.locate root = .ok (root.parts, .directory) := by
  obtain ⟨middle, hfront, hback⟩ := follow_append.1 (of_bytesAt? hnames h).2.1
  obtain rfl : middle = root.parts :=
    eq_of_follow (fun name hmem => hnames name (List.mem_append_left _ hmem)) hfront
  have hdirectory : disk.node? root.parts = some .directory := by
    cases below with
    | nil => exact absurd rfl hbelow
    | cons name rest => exact node?_of_follow_cons hback
  have hdots : ".." ∉ root.parts := fun hmem => (hnames _ (List.mem_append_left _ hmem)).ne_dots rfl
  have hroot : disk.follow [] root.pieces = .ok root.parts := by
    apply follow_of_filter (fun hmem => hdots (dots_mem_parts habsolute hmem)) _ hdirectory
    rw [← parts_eq_filter habsolute]
    exact hfront
  exact locate_of_follow habsolute
    (fun part hpart => no_zero_of_bytesAt? hnames h part (List.mem_append_left _ hpart)) hroot hdirectory

end Disk

/-- The names on the way to a script file. -/
structure IsScript (names : List String) : Prop where
  kept : Url.Kept names
  extension : (DiskPath.ofNames names).extension? = some "pory"

namespace IsScript

variable {names : List String}

theorem exists_last (h : IsScript names) : ∃ front last before, names = front ++ [last] ∧
    Text.splitLast? '.' last.toList = some (before, "pory".toList) := by
  obtain ⟨front, last, c, before, hnames, hsplit⟩ :=
    (DiskPath.extension?_ofNames_eq_some_iff h.kept.isName).1 h.extension
  exact ⟨front, last, c :: before, hnames, hsplit⟩

theorem ne_nil (h : IsScript names) : names ≠ [] := by
  obtain ⟨front, last, before, rfl, -⟩ := h.exists_last
  simp

theorem isSource (h : IsScript names) : Resource.isSource (Resource.fileId names) = true := by
  obtain ⟨front, last, before, rfl, hsplit⟩ := h.exists_last
  have htext : (Resource.fileId (front ++ [last])).toList =
      Resource.fileMark.toList ++ (Url.segmentsText front).toList ++ ['/'] ++ last.toList := by
    rw [Resource.fileId, String.toList_append, Url.toList_segmentsText, Url.toList_segmentsText]
    simp
  rw [Resource.isSource, htext, Text.splitLast?_append _ hsplit]
  rfl

/-- The path of a script file does not end like a drive, so it is taken as it is. -/
theorem pathOf (h : IsScript names) (w : Workspace) :
    w.pathOf (Resource.fileId names) = .ok (.ofNames names) := by
  apply Workspace.pathOf_eq (Resource.isFile_fileId names)
  obtain ⟨front, last, before, hnames, hsplit⟩ := h.exists_last
  apply Resource.diskPath?_fileId h.kept hnames
  rw [Text.eq_of_splitLast? hsplit]
  simp [Resource.endsInDrive]

end IsScript

namespace Workspace

theorem find?_foldl_unit {texts : List String} {text : String} {m : NameMap Unit} :
    (texts.foldl (fun m text => m.insert text ()) m).find? text = some () ↔
      text ∈ texts ∨ m.find? text = some () := by
  induction texts generalizing m with
  | nil => simp
  | cons first texts ih =>
    rw [List.foldl_cons, ih, NameMap.find?_insert, List.mem_cons]
    by_cases heq : text = first
    · simp [heq]
    · simp [heq]

theorem mem_ordered_iff {texts : List String} {text : String} : text ∈ ordered texts ↔ text ∈ texts := by
  rw [ordered, NameMap.toList, List.mem_map]
  constructor
  · rintro ⟨⟨name, _⟩, hentry, rfl⟩
    exact (find?_foldl_unit.1 (NameMap.mem_entries_iff.1 hentry)).resolve_right (by simp)
  · intro h
    exact ⟨(text, ()), NameMap.mem_entries_iff.2 (find?_foldl_unit.2 (Or.inl h)), rfl⟩

theorem mem_scriptsInRoots_iff {w : Workspace} {id : String} : id ∈ w.scriptsInRoots ↔
    (∃ root ∈ w.roots, ∃ path ∈ scriptsBelow w.disk root, Resource.ofPath? path = some id) ∨
      ∃ root ∈ w.roots, id ∈ strayScriptsBelow w.disk root := by
  simp only [scriptsInRoots, mem_ordered_iff, List.mem_append, List.mem_filterMap, List.mem_flatMap]
  apply or_congr_left
  constructor
  · rintro ⟨path, ⟨root, hroot, hpath⟩, hid⟩
    exact ⟨root, hroot, path, hpath, hid⟩
  · rintro ⟨root, hroot, path, hpath, hid⟩
    exact ⟨path, ⟨root, hroot, hpath⟩, hid⟩

theorem mem_scriptsBelow_iff {disk : Disk} {root path : DiskPath} : path ∈ scriptsBelow disk root ↔
    ∃ place node below content, disk.locate root = .ok (place, node) ∧
      (place ++ below, .file content) ∈ disk.nodes ∧ path = below.foldl DiskPath.join root ∧
      path.extension? = some "pory" := by
  rw [scriptsBelow]
  cases disk.locate root with
  | error fault => simp
  | ok found =>
    obtain ⟨place, node⟩ := found
    simp only [List.mem_filter, List.mem_map, Disk.mem_filesBelow_iff, beq_iff_eq]
    constructor
    · rintro ⟨⟨below, ⟨content, hentry⟩, rfl⟩, hext⟩
      exact ⟨place, node, below, content, rfl, hentry, rfl, hext⟩
    · rintro ⟨_, _, below, content, hfound, hentry, rfl, hext⟩
      cases hfound
      exact ⟨⟨below, ⟨content, hentry⟩, rfl⟩, hext⟩

/-- A file below a place is met on the way through the root that leads there. -/
theorem exists_script_of_locate {disk : Disk} {root : DiskPath} (habsolute : root.isAbsolute = true)
    {node : Disk.Node} (hlocate : disk.locate root = .ok (root.parts, node)) {below : List String}
    (hnames : ∀ name ∈ root.parts ++ below, DiskPath.IsName name)
    (hext : (DiskPath.ofNames (root.parts ++ below)).extension? = some "pory") {content : List UInt8}
    (hbytes : disk.bytesAt? (.ofNames (root.parts ++ below)) = some content) :
    ∃ path ∈ scriptsBelow disk root,
      Resource.ofPath? path = some (Resource.fileId (root.parts ++ below)) := by
  obtain ⟨hjoined, hparts⟩ := DiskPath.parts_foldl_join habsolute
    fun name hmem => hnames name (List.mem_append_right _ hmem)
  have hnode := (Disk.of_bytesAt? hnames hbytes).2.2
  refine ⟨below.foldl DiskPath.join root, ?_, ?_⟩
  · have hsame : (below.foldl DiskPath.join root).parts =
        (DiskPath.ofNames (root.parts ++ below)).parts := by
      rw [hparts, DiskPath.parts_ofNames hnames]
    refine mem_scriptsBelow_iff.2 ⟨_, _, below, _, hlocate, Disk.mem_nodes_of_file hnode, rfl, ?_⟩
    rw [DiskPath.extension?_congr hsame, hext]
  · have hne : root.parts ++ below ≠ [] := by
      intro htop
      rw [htop] at hnode
      cases hnode
    rw [Resource.ofPath?_eq hjoined (hparts ▸ hne), hparts]

theorem mem_scriptsInRoots {w : Workspace} {root : DiskPath} (hroot : root ∈ w.roots)
    (habsolute : root.isAbsolute = true) {below : List String} (hbelow : below ≠ [])
    (h : IsScript (root.parts ++ below)) {content : List UInt8}
    (hbytes : w.disk.bytesAt? (.ofNames (root.parts ++ below)) = some content) :
    Resource.fileId (root.parts ++ below) ∈ w.scriptsInRoots :=
  mem_scriptsInRoots_iff.2 (Or.inl ⟨root, hroot, exists_script_of_locate habsolute
    (Disk.locate_of_bytesAt? habsolute hbelow h.kept.isName hbytes) h.kept.isName h.extension hbytes⟩)

end Workspace

end ScriptIndex
