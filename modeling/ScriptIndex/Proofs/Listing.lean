import ScriptIndex.Proofs.Listing.Strays
import ScriptIndex.Proofs.Text.Order

/-!
# All script files, each once

The script files at or below the roots of a workspace are listed by their ids, in ascending order. Different
files have different ids, so none is lost when an id that was met before is left out; only a file with a
name that is no text can have the id of another path. Of roots with the
same parts only the first is searched. This matters when the parts lead to a file: a root that is written
with a slash or a dot behind the name of a file leads nowhere.
-/
namespace ScriptIndex

namespace DiskPath

variable {path : DiskPath}

/-- The path along names has the extension of scripts if the last name ends in it and does not start
with its dot. -/
theorem extension?_ofNames_pory {names : List String} (h : ∀ name ∈ names, IsName name) :
    (ofNames names).extension? = some "pory" ↔
      ∃ front stem, stem ≠ "" ∧ names = front ++ [stem ++ ".pory"] := by
  have hpory : '.' ∉ "pory".toList := by decide
  have htext : ".pory".toList = '.' :: "pory".toList := rfl
  rw [extension?_ofNames_eq_some_iff h]
  constructor
  · rintro ⟨front, last, c, before, rfl, hsplit⟩
    refine ⟨front, String.ofList (c :: before), ?_, ?_⟩
    · intro hempty
      have := congrArg String.toList hempty
      rw [String.toList_ofList] at this
      cases this
    · congr 2
      apply String.toList_injective
      rw [String.toList_append, String.toList_ofList, htext]
      exact (Text.splitLast?_eq_some_iff.1 hsplit).1
  · rintro ⟨front, stem, hstem, rfl⟩
    cases hchars : stem.toList with
    | nil => exact absurd (String.toList_injective hchars) hstem
    | cons c before =>
      refine ⟨front, _, c, before, rfl, Text.splitLast?_eq_some_iff.2 ⟨?_, hpory⟩⟩
      rw [String.toList_append, hchars, htext]

/-- The path is written with a name at its end, not with a slash or a dot. -/
def EndsInName (path : DiskPath) : Prop :=
  path.pieces.getLast? ≠ some "" ∧ path.pieces.getLast? ≠ some "."

theorem same_iff {other : DiskPath} (h : path.isAbsolute = true) (hother : other.isAbsolute = true) :
    path.same other = true ↔ path.parts = other.parts := by
  rw [same, h, hother]
  simp

end DiskPath

namespace Disk

open DiskPath

variable {disk : Disk}

/-- A path with the parts of a file leads to it if it is written without a slash or a dot at its end. -/
theorem isFile_iff_endsInName {path : DiskPath} (habsolute : path.isAbsolute = true)
    (hdots : ".." ∉ path.parts) (h : disk.isFile (ofNames path.parts) = true) :
    disk.isFile path = true ↔ path.EndsInName := by
  obtain ⟨content, hbytes⟩ := isFile_iff.1 h
  have hnames := isName_of_mem_parts habsolute hdots
  constructor
  · intro hfile
    have hsome : ∀ last, path.pieces.getLast? = some last → ¬(last = "" ∨ last = ".") := by
      intro last hlast hend
      obtain ⟨front, hpieces⟩ := List.getLast?_eq_some_iff.1 hlast
      obtain ⟨found, hfound⟩ := isFile_iff.1 hfile
      rw [bytesAt?_of_end front hpieces hend] at hfound
      cases hfound
    exact ⟨fun hlast => hsome _ hlast (Or.inl rfl), fun hlast => hsome _ hlast (Or.inr rfl)⟩
  · rintro ⟨hslash, hdot⟩
    obtain ⟨-, hfollow, hnode⟩ := of_bytesAt? hnames hbytes
    have hnil : path.pieces ≠ [] := by
      obtain ⟨rest, hpieces, -⟩ := exists_pieces habsolute
      simp [hpieces]
    obtain ⟨front, name, hpieces⟩ := (List.eq_nil_or_concat path.pieces).resolve_left hnil
    rw [List.concat_eq_append] at hpieces
    rw [hpieces, List.getLast?_concat, ne_eq, Option.some.injEq] at hslash hdot
    have hparts : path.parts = front.filter (fun piece => piece != "" && piece != ".") ++ [name] := by
      rw [parts_eq_filter habsolute, hpieces, List.filter_append]
      simp [hslash, hdot]
    have hplace : disk.follow [] path.pieces = .ok path.parts := by
      nth_rewrite 1 [hparts] at hfollow
      obtain ⟨middle, hway, hlast⟩ := follow_append.1 hfollow
      rw [hpieces]
      refine follow_append.2 ⟨middle, follow_of_filter ?_ hway (node?_of_follow_cons hlast), hlast⟩
      intro hmem
      exact hdots (dots_mem_parts habsolute (hpieces ▸ List.mem_append_left _ hmem))
    rw [isFile, locate_of_follow habsolute (no_zero_of_bytesAt? hnames hbytes) hplace hnode]

theorem IsTree.isFile_ofNames (h : disk.IsTree) {names : List String} {content : List UInt8}
    (hmem : (names, .file content) ∈ disk.nodes) : disk.isFile (ofNames names) = true := by
  rw [isFile, h.locate_ofNames (h.below _ hmem).1 (h.node?_of_mem hmem)]

end Disk

namespace Workspace

open Resource DiskPath

/-- A script file along names that a search of the roots comes to: it is below one of them, or the first
one with these names is written as the path of a file. -/
structure IsListed (disk : Disk) (roots : List DiskPath) (names : List String) : Prop where
  file : disk.isFile (.ofNames names) = true
  script : ∃ front stem, stem ≠ "" ∧ names = front ++ [stem ++ ".pory"]
  root : (∃ root ∈ roots, ∃ below, below ≠ [] ∧ names = root.parts ++ below) ∨
    ∃ root, roots.find? (fun root => root.parts = names) = some root ∧ root.EndsInName

theorem pairwise_ordered (texts : List String) : (ordered texts).Pairwise (· < ·) :=
  List.pairwise_map.2 (NameMap.sorted _)

theorem distinct_concat (front : List DiskPath) (last : DiskPath) :
    distinct (front ++ [last]) =
      if (distinct front).any (·.same last) then distinct front else distinct front ++ [last] := by
  rw [distinct, distinct, List.foldl_append]
  rfl

/-- Of the roots with the same parts the first one is kept. -/
theorem mem_distinct_iff {roots : List DiskPath} (h : ∀ root ∈ roots, root.isAbsolute = true)
    {root : DiskPath} : root ∈ distinct roots ↔
      roots.find? (fun other => other.parts = root.parts) = some root := by
  induction roots using List.reverseRecOn generalizing root with
  | nil => simp [distinct]
  | append_singleton front last ih =>
    have hfront : ∀ root ∈ front, root.isAbsolute = true :=
      fun root hmem => h root (List.mem_append_left _ hmem)
    have hlast : last.isAbsolute = true := h last (List.mem_append_right _ List.mem_cons_self)
    have hmet : (distinct front).any (·.same last) = true ↔
        ∃ other ∈ front, other.parts = last.parts := by
      rw [List.any_eq_true]
      constructor
      · rintro ⟨kept, hkept, hsame⟩
        have hmem := List.mem_of_find?_eq_some ((ih hfront).1 hkept)
        exact ⟨kept, hmem, (same_iff (hfront kept hmem) hlast).1 hsame⟩
      · rintro ⟨other, hother, hparts⟩
        have hsome : (front.find? fun other => other.parts = last.parts).isSome :=
          List.find?_isSome.2 ⟨other, hother, by simpa using hparts⟩
        obtain ⟨kept, hkept⟩ := Option.isSome_iff_exists.1 hsome
        have hsame : kept.parts = last.parts := by simpa using List.find?_some hkept
        have hmem := List.mem_of_find?_eq_some hkept
        rw [← hsame] at hkept
        exact ⟨kept, (ih hfront).2 hkept, (same_iff (hfront kept hmem) hlast).2 hsame⟩
    rw [distinct_concat, List.find?_append]
    by_cases hmem : ∃ other ∈ front, other.parts = last.parts
    · rw [if_pos (hmet.2 hmem), ih hfront]
      cases hfind : front.find? (fun other => other.parts = root.parts) with
      | some first => rfl
      | none =>
        obtain ⟨other, hother, hparts⟩ := hmem
        have hnone := List.find?_eq_none.1 hfind other hother
        simp only [decide_eq_true_eq, hparts] at hnone
        simp [hnone]
    · rw [if_neg fun hany => hmem (hmet.1 hany), List.mem_append, ih hfront, List.mem_singleton]
      cases hfind : front.find? (fun other => other.parts = root.parts) with
      | some first =>
        have hparts : first.parts = root.parts := by simpa using List.find?_some hfind
        have hne : root ≠ last := by
          rintro rfl
          exact hmem ⟨first, List.mem_of_find?_eq_some hfind, hparts⟩
        simp [hne]
      | none =>
        by_cases heq : root = last
        · simp [heq]
        · simp [heq, Ne.symm heq]

theorem mem_of_mem_distinct {roots : List DiskPath} (h : ∀ root ∈ roots, root.isAbsolute = true)
    {root : DiskPath} (hroot : root ∈ distinct roots) : root ∈ roots :=
  List.mem_of_find?_eq_some ((mem_distinct_iff h).1 hroot)

/-- Each root has one with its parts among those that are kept. -/
theorem exists_mem_distinct {roots : List DiskPath} (h : ∀ root ∈ roots, root.isAbsolute = true)
    {root : DiskPath} (hroot : root ∈ roots) : ∃ kept ∈ distinct roots, kept.parts = root.parts := by
  have hsome : (roots.find? fun other => other.parts = root.parts).isSome :=
    List.find?_isSome.2 ⟨root, hroot, by simp⟩
  obtain ⟨kept, hkept⟩ := Option.isSome_iff_exists.1 hsome
  have hsame : kept.parts = root.parts := by simpa using List.find?_some hkept
  rw [← hsame] at hkept
  exact ⟨kept, (mem_distinct_iff h).2 hkept, hsame⟩

theorem distinct_ne_nil {roots : List DiskPath} (h : ∀ root ∈ roots, root.isAbsolute = true)
    (hne : roots ≠ []) : distinct roots ≠ [] := by
  obtain ⟨kept, hkept, -⟩ := exists_mem_distinct h (List.head_mem hne)
  exact List.ne_nil_of_mem hkept

/-- What a search below a root finds on a tree: the script files with its parts in front, and the root
itself if it is written as the path of such a file. -/
theorem exists_script_iff {disk : Disk} (htree : disk.IsTree) {root : DiskPath}
    (habsolute : root.isAbsolute = true) (hdots : ".." ∉ root.parts) {id : String} :
    (∃ path ∈ scriptsBelow disk root, ofPath? path = some id) ↔
      ∃ below, id = fileId (root.parts ++ below) ∧ (∀ name ∈ root.parts ++ below, IsName name) ∧
        disk.isFile (ofNames (root.parts ++ below)) = true ∧
        (ofNames (root.parts ++ below)).extension? = some "pory" ∧
        (below = [] → root.EndsInName) := by
  constructor
  · rintro ⟨path, hpath, hid⟩
    obtain ⟨place, node, below, content, hlocate, hentry, rfl, hext⟩ := mem_scriptsBelow_iff.1 hpath
    obtain rfl := Disk.eq_parts_of_locate hdots hlocate
    have hnames : ∀ name ∈ root.parts ++ below, IsName name :=
      fun name hmem => (htree.legal _ hentry name hmem).toIsName
    obtain ⟨hjoined, hparts⟩ := parts_foldl_join habsolute
      fun name hmem => hnames name (List.mem_append_right _ hmem)
    have hsame : (below.foldl join root).parts = (ofNames (root.parts ++ below)).parts := by
      rw [hparts, parts_ofNames hnames]
    rw [ofPath?_eq hjoined (hparts ▸ (htree.below _ hentry).1), hparts] at hid
    rw [extension?_congr hsame] at hext
    refine ⟨below, (Option.some.inj hid).symm, hnames, htree.isFile_ofNames hentry, hext, ?_⟩
    rintro rfl
    have hnode := (Disk.of_locate hlocate).2.2.2
    rw [List.append_nil] at hentry
    rw [htree.node?_of_mem hentry] at hnode
    cases hnode
    apply (Disk.isFile_iff_endsInName habsolute hdots (htree.isFile_ofNames hentry)).1
    rw [Disk.isFile, hlocate]
  · rintro ⟨below, rfl, hnames, hfile, hext, hroot⟩
    obtain ⟨content, hbytes⟩ := Disk.isFile_iff.1 hfile
    by_cases hbelow : below = []
    · rw [hbelow, List.append_nil] at hfile
      have hleads := (Disk.isFile_iff_endsInName habsolute hdots hfile).2 (hroot hbelow)
      obtain ⟨place, found, hlocate⟩ := Disk.exists_locate_of_isFile hleads
      obtain rfl := Disk.eq_parts_of_locate hdots hlocate
      exact exists_script_of_locate habsolute hlocate hnames hext hbytes
    · have hlocate := Disk.locate_of_bytesAt? habsolute hbelow hnames hbytes
      exact exists_script_of_locate habsolute hlocate hnames hext hbytes

section Roots

variable {w : Workspace} {roots : List DiskPath}

/-- The text names among what is listed. -/
theorem exists_listed_iff (htree : w.disk.IsTree) (habsolute : ∀ root ∈ roots, root.isAbsolute = true)
    (hdots : ∀ root ∈ roots, ".." ∉ root.parts) {id : String} :
    (∃ root ∈ (w.withRoots roots).roots, ∃ path ∈ scriptsBelow w.disk root, ofPath? path = some id) ↔
      ∃ names, (∀ name ∈ names, IsName name) ∧ IsListed w.disk roots names ∧ fileId names = id := by
  constructor
  · rintro ⟨root, hroot, hscript⟩
    have hmem := mem_of_mem_distinct habsolute hroot
    obtain ⟨below, rfl, hnames, hfile, hext, hat⟩ :=
      (exists_script_iff htree (habsolute root hmem) (hdots root hmem)).1 hscript
    refine ⟨_, hnames, ⟨hfile, (extension?_ofNames_pory hnames).1 hext, ?_⟩, rfl⟩
    by_cases hempty : below = []
    · rw [hempty, List.append_nil]
      exact Or.inr ⟨root, (mem_distinct_iff habsolute).1 hroot, hat hempty⟩
    · exact Or.inl ⟨root, hmem, below, hempty, rfl⟩
  · rintro ⟨names, hnames, ⟨hfile, hscript, hroot⟩, rfl⟩
    have hext := (extension?_ofNames_pory hnames).2 hscript
    obtain ⟨root, hkept, below, rfl, hat⟩ : ∃ root ∈ distinct roots, ∃ below,
        names = root.parts ++ below ∧ (below = [] → root.EndsInName) := by
      rcases hroot with ⟨root, hmem, below, hne, rfl⟩ | ⟨root, hfirst, hat⟩
      · obtain ⟨kept, hkept, hsame⟩ := exists_mem_distinct habsolute hmem
        exact ⟨kept, hkept, below, by rw [hsame], fun hempty => absurd hempty hne⟩
      · obtain rfl : root.parts = names := by simpa using List.find?_some hfirst
        exact ⟨root, (mem_distinct_iff habsolute).2 hfirst, [], (List.append_nil _).symm, fun _ => hat⟩
    have hmem := mem_of_mem_distinct habsolute hkept
    exact ⟨root, hkept, (exists_script_iff htree (habsolute root hmem) (hdots root hmem)).2
      ⟨below, rfl, hnames, hfile, hext, hat⟩⟩

/-- The strays among what is listed. Roots with the same parts have the same strays below them. -/
theorem exists_listedStray_iff (htree : w.disk.IsTree)
    (habsolute : ∀ root ∈ roots, root.isAbsolute = true) (hdots : ∀ root ∈ roots, ".." ∉ root.parts)
    {id : String} : (∃ root ∈ (w.withRoots roots).roots, id ∈ strayScriptsBelow w.disk root) ↔
      ∃ stray, IsListedStray w.disk roots stray ∧ strayId stray = id := by
  constructor
  · rintro ⟨root, hroot, hid⟩
    have hmem := mem_of_mem_distinct habsolute hroot
    obtain ⟨stray, ⟨hfile, hscript, other, hother, hparts⟩, rfl⟩ :=
      (mem_strayScriptsBelow_iff htree (habsolute root hmem) (hdots root hmem)).1 hid
    obtain rfl := List.mem_singleton.1 hother
    exact ⟨stray, ⟨hfile, hscript, other, hmem, hparts⟩, rfl⟩
  · rintro ⟨stray, ⟨hfile, hscript, root, hroot, hparts⟩, rfl⟩
    obtain ⟨kept, hkept, hsame⟩ := exists_mem_distinct habsolute hroot
    have hmem := mem_of_mem_distinct habsolute hkept
    exact ⟨kept, hkept, (mem_strayScriptsBelow_iff htree (habsolute kept hmem) (hdots kept hmem)).2
      ⟨stray, ⟨hfile, hscript, kept, List.mem_cons_self, hsame ▸ hparts⟩, rfl⟩⟩

theorem mem_scriptsInRoots_withRoots_iff (htree : w.disk.IsTree)
    (habsolute : ∀ root ∈ roots, root.isAbsolute = true) (hdots : ∀ root ∈ roots, ".." ∉ root.parts)
    {id : String} : id ∈ (w.withRoots roots).scriptsInRoots ↔
      (∃ names, (∀ name ∈ names, IsName name) ∧ IsListed w.disk roots names ∧ fileId names = id) ∨
        ∃ stray, IsListedStray w.disk roots stray ∧ strayId stray = id := by
  rw [mem_scriptsInRoots_iff, ← exists_listed_iff htree habsolute hdots,
    ← exists_listedStray_iff htree habsolute hdots]
  rfl

end Roots

/-- The scripts of a workspace over a tree, for roots without pairs of dots. The ids come in ascending order
of their bytes and are those of the script files that a search of the roots comes to. The id of a path is
among them exactly when the path leads to such a file, unless it has the id of another file, which takes
a name that is no text in the one path and a percent sign in the other. -/
theorem sources_lists_each_script_once (w : Workspace) (htree : w.disk.IsTree) (roots : List DiskPath)
    (hne : roots ≠ []) (habsolute : ∀ root ∈ roots, root.isAbsolute = true)
    (hdots : ∀ root ∈ roots, ".." ∉ root.parts) :
    ∃ ids, (w.withRoots roots).sources = (.ok ids, w.withRoots roots) ∧
      (ids.Pairwise fun a b => Text.bytes a.toList < Text.bytes b.toList) ∧
      (∀ id ∈ ids, (∃ names, (∀ name ∈ names, IsName name) ∧ IsListed w.disk roots names ∧
          ofPath? (ofNames names) = some id) ∨
        ∃ stray, IsListedStray w.disk roots stray ∧ strayId stray = id) ∧
      (∀ names, names ≠ [] → (∀ name ∈ names, IsName name) → ∃ id, ofPath? (ofNames names) = some id ∧
        (IsListed w.disk roots names → id ∈ ids) ∧
        (id ∈ ids → IsListed w.disk roots names ∨ ((∃ name ∈ names, '%' ∈ name.toList) ∧
          ∃ stray, IsListedStray w.disk roots stray ∧ strayId stray = id))) ∧
      ∀ stray : List String × List (List UInt8), (∀ name ∈ stray.1, IsName name) →
        Disk.StrayNames stray.2 →
        (IsListedStray w.disk roots stray → strayId stray ∈ ids) ∧
        (strayId stray ∈ ids → IsListedStray w.disk roots stray ∨ ∃ names,
          (∀ name ∈ names, IsName name) ∧ IsListed w.disk roots names ∧
            ofPath? (ofNames names) = some (strayId stray)) := by
  have hmem {id : String} := @mem_scriptsInRoots_withRoots_iff w roots htree habsolute hdots id
  have hid : ∀ {names}, (∀ name ∈ names, IsName name) → IsListed w.disk roots names →
      ofPath? (ofNames names) = some (fileId names) := by
    intro names hnames hlisted
    obtain ⟨front, stem, -, hlast⟩ := hlisted.script
    exact ofPath?_ofNames (by simp [hlast]) hnames
  refine ⟨(w.withRoots roots).scriptsInRoots, ?_, ?_, ?_, ?_, ?_⟩
  · have hkept : (w.withRoots roots).roots ≠ [] := distinct_ne_nil habsolute hne
    rw [sources]
    cases hroots : (w.withRoots roots).roots with
    | nil => exact absurd hroots hkept
    | cons root rest => rfl
  · exact (pairwise_ordered _).imp Text.bytes_lt_iff.2
  · intro id hin
    rcases hmem.1 hin with ⟨names, hnames, hlisted, rfl⟩ | hstray
    · exact Or.inl ⟨names, hnames, hlisted, hid hnames hlisted⟩
    · exact Or.inr hstray
  · intro names hnil hnames
    refine ⟨_, ofPath?_ofNames hnil hnames, fun hlisted => hmem.2 (Or.inl ⟨names, hnames, hlisted, rfl⟩),
      fun hin => ?_⟩
    rcases hmem.1 hin with ⟨others, hothers, hlisted, heq⟩ | ⟨stray, hlisted, heq⟩
    · obtain rfl := fileId_inj (fun name hn => (hothers name hn).no_slash)
        (fun name hn => (hnames name hn).no_slash) heq
      exact Or.inl hlisted
    · exact Or.inr ⟨exists_percent_of_fileId (htree.strays _ hlisted.file).2 heq, stray, hlisted, heq⟩
  · intro stray hnames hstray
    refine ⟨fun hlisted => hmem.2 (Or.inr ⟨stray, hlisted, rfl⟩), fun hin => ?_⟩
    rcases hmem.1 hin with ⟨names, hnames', hlisted, heq⟩ | ⟨other, hlisted, heq⟩
    · exact Or.inr ⟨names, hnames', hlisted, heq ▸ hid hnames' hlisted⟩
    · have hother := htree.strays _ hlisted.file
      obtain rfl := strayId_inj hother.2 hstray
        (fun name hn => (htree.legalName hother.1 name hn).toIsName) hnames heq
      exact Or.inl hlisted

/-- A script file whose name starts with a byte that is no text. -/
def strayName : List UInt8 := 0xFF :: Text.bytes ".pory".toList

theorem strayNames_strayName : Disk.StrayNames [strayName] where
  first := ⟨strayName, [], rfl, by decide +kernel⟩
  no_slash := by decide +kernel

/-- A disk with two names that differ by an escape, a name that is no text, a name that is all extension, a
directory that is named like a script, and a script at the top. -/
def shelfDisk : Disk :=
  Disk.addStray ((((({} : Disk).write ⟨"/ws/a b.pory"⟩ (.file [])).write ⟨"/ws/a%20b.pory"⟩
    (.file [])).write ⟨"/ws/.pory"⟩ (.file [])).write ⟨"/ws/dir.pory/x.y.pory"⟩ (.file [])
      |>.write ⟨"/lone.pory"⟩ (.file [])) ["ws"] [strayName]

theorem made_shelfDisk : shelfDisk.Made := by
  refine .stray (.write _ (.write _ (.write _ (.write _ (.write _ .empty ?_) ?_) ?_) ?_) ?_) ?_
    strayNames_strayName <;> decide +kernel

/-- Roots that are nested, repeated, missing and a file. -/
theorem sources_of_shelf :
    let w : Workspace := { disk := shelfDisk }
    let roots : List DiskPath :=
      [⟨"/ws/"⟩, ⟨"/ws/dir.pory/."⟩, ⟨"/ws"⟩, ⟨"/none"⟩, ⟨"/lone.pory"⟩, ⟨"/lone.pory/"⟩]
    let ids := ["file:///lone.pory", "file:///ws/%FF.pory", "file:///ws/a b.pory",
      "file:///ws/a%20b.pory", "file:///ws/dir.pory/x.y.pory"]
    w.disk.IsTree ∧ (∀ root ∈ roots, root.isAbsolute = true) ∧ (∀ root ∈ roots, ".." ∉ root.parts) ∧
      (w.withRoots roots).sources = (.ok ids, w.withRoots roots) ∧
      IsListed w.disk roots ["lone.pory"] ∧ ¬IsListed w.disk roots ["ws", ".pory"] ∧
      IsListedStray w.disk roots (["ws"], [strayName]) ∧ strayId (["ws"], [strayName]) ∈ ids := by
  intro w roots ids
  have htree : w.disk.IsTree := made_shelfDisk.isTree
  have habsolute : ∀ root ∈ roots, root.isAbsolute = true := by decide +kernel
  have hdots : ∀ root ∈ roots, ".." ∉ root.parts := by decide +kernel
  obtain ⟨listed, hlisted, -, -, hpaths, hstrays⟩ :=
    sources_lists_each_script_once w htree roots (List.cons_ne_nil _ _) habsolute hdots
  have hsources : (w.withRoots roots).sources.1.toOption = some ids := by decide +kernel
  rw [hlisted] at hsources
  obtain rfl : listed = ids := Option.some.inj hsources
  have hnames : ∀ names ∈ [["lone.pory"], ["ws", ".pory"]], ∀ name ∈ names, Disk.LegalName name := by
    decide +kernel
  obtain ⟨lone, hlone, -, hin⟩ := hpaths ["lone.pory"] (List.cons_ne_nil _ _)
    fun name hmem => (hnames _ List.mem_cons_self name hmem).toIsName
  obtain ⟨dotted, hdotted, hout, -⟩ := hpaths ["ws", ".pory"] (List.cons_ne_nil _ _)
    fun name hmem => (hnames _ (List.mem_cons_of_mem _ List.mem_cons_self) name hmem).toIsName
  have hlone' : ofPath? (ofNames ["lone.pory"]) = some "file:///lone.pory" := by decide +kernel
  have hdotted' : ofPath? (ofNames ["ws", ".pory"]) = some "file:///ws/.pory" := by decide +kernel
  obtain rfl := Option.some.inj (hlone.symm.trans hlone')
  obtain rfl := Option.some.inj (hdotted.symm.trans hdotted')
  have hfile : IsListed w.disk roots ["lone.pory"] :=
    (hin (by decide)).resolve_right fun h => absurd h.1 (by decide)
  have hstray : IsListedStray w.disk roots (["ws"], [strayName]) :=
    ⟨List.mem_cons_self, ⟨[], [0xFF], by decide, rfl⟩, ⟨"/ws/"⟩, List.mem_cons_self, by decide +kernel⟩
  have hdirectory : ∀ name ∈ ["ws"], Disk.LegalName name := by decide +kernel
  exact ⟨htree, habsolute, hdots, hlisted, hfile, fun h => absurd (hout h) (by decide), hstray,
    (hstrays _ (fun name hmem => (hdirectory name hmem).toIsName) strayNames_strayName).1 hstray⟩

/-- A file that is a root is not listed when an earlier root has its parts and a slash at the end: the later
one is left out, and the earlier one leads nowhere. And a file whose name is no text is listed by an id
that is the id of a path at which there is nothing. -/
theorem respelled_root_hides_and_stray_adds :
    (let disk := ({} : Disk).write ⟨"/ws/a.pory"⟩ (.file [])
    let w : Workspace := { disk }
    let roots : List DiskPath := [⟨"/ws/a.pory/"⟩, ⟨"/ws/a.pory"⟩]
    disk.IsTree ∧ (∀ root ∈ roots, root.isAbsolute = true) ∧ (∀ root ∈ roots, ".." ∉ root.parts) ∧
      ⟨"/ws/a.pory"⟩ ∈ roots ∧ disk.isFile ⟨"/ws/a.pory"⟩ = true ∧
      extension? ⟨"/ws/a.pory"⟩ = some "pory" ∧
      ofPath? ⟨"/ws/a.pory"⟩ = some "file:///ws/a.pory" ∧
      (w.withRoots roots).sources.1.toOption = some []) ∧
    (let disk := (({} : Disk).write ⟨"/ws"⟩ .directory).addStray ["ws"] [strayName]
    let w : Workspace := { disk }
    let roots : List DiskPath := [⟨"/ws"⟩]
    disk.IsTree ∧ (∀ root ∈ roots, root.isAbsolute = true) ∧ (∀ root ∈ roots, ".." ∉ root.parts) ∧
      disk.isFile ⟨"/ws/%FF.pory"⟩ = false ∧
      ofPath? ⟨"/ws/%FF.pory"⟩ = some "file:///ws/%FF.pory" ∧
      (w.withRoots roots).sources.1.toOption = some ["file:///ws/%FF.pory"]) := by
  constructor
  · intro disk w roots
    have hmade : disk.Made := .write _ .empty (by decide +kernel)
    refine ⟨hmade.isTree, ?_⟩
    decide +kernel
  · intro disk w roots
    have hmade : disk.Made :=
      .stray (.write _ .empty (by decide +kernel)) (by decide +kernel) strayNames_strayName
    refine ⟨hmade.isTree, ?_⟩
    decide +kernel

end Workspace
end ScriptIndex
