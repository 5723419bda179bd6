import ScriptIndex.Proofs.Disk.Tree
import ScriptIndex.Proofs.Sources

/-!
# Files with names that are no texts

The id of a file is the text that its URL stands for, and the URL as it is written when it stands for no
text. So a file along names that are not all texts, a stray, has an id with escapes in it. Different strays
have different ids, but the id of a stray can be that of a path with these escapes in its names.
-/
namespace ScriptIndex

namespace Disk

open DiskPath

variable {disk : Disk} {place : List String}

/-- A path without pairs of dots leads to the place of its parts. -/
theorem eq_parts_of_locate {path : DiskPath} (hdots : ".." ∉ path.parts) {place : List String}
    {node : Node} (h : disk.locate path = .ok (place, node)) : place = path.parts := by
  obtain ⟨-, habsolute, hfollow, -⟩ := of_locate h
  have hparts := follow_filter hfollow
  rw [← parts_eq_filter habsolute] at hparts
  exact eq_of_follow (isName_of_mem_parts habsolute hdots) hparts

theorem IsTree.directory_of_prefix (h : disk.IsTree) (hnode : disk.node? place = some .directory)
    {front : List String} (hfront : front <+: place) : disk.node? front = some .directory := by
  obtain ⟨back, rfl⟩ := hfront
  obtain ⟨middle, hway, hrest⟩ := follow_append.1 (h.follow_eq hnode)
  obtain rfl : middle = front := eq_of_follow
    (fun name hmem => (h.legalName hnode name (List.mem_append_left _ hmem)).toIsName) hway
  exact directory_of_follow hrest hnode

/-- However a path to a directory is written, it leads there. -/
theorem IsTree.locate_of_directory (h : disk.IsTree) {path : DiskPath} (habsolute : path.isAbsolute = true)
    (hnode : disk.node? path.parts = some .directory) :
    disk.locate path = .ok (path.parts, .directory) := by
  have hlegal := h.legalName hnode
  have hdots : ".." ∉ path.pieces := fun hmem =>
    (hlegal _ (dots_mem_parts habsolute hmem)).ne_dots rfl
  refine locate_of_follow habsolute (fun part hpart => (hlegal part hpart).no_zero) ?_ hnode
  apply follow_of_filter hdots _ hnode
  rw [← parts_eq_filter habsolute]
  exact h.follow_eq hnode

end Disk

namespace Resource

open Text Url DiskPath Disk

/-- The URL along the bytes of names, as it is written. -/
theorem text_ofNameBytes {names : List (List UInt8)} (hne : names ≠ []) :
    (Url.ofNameBytes names).text = fileMark ++
      segmentsText (names.map fun name => String.ofList (escapeBytes segmentSet name)) := by
  rw [← text_ofSegments, Url.ofNameBytes, if_neg (by simpa using hne)]
  rfl

theorem unescape_text_ofNameBytes {names : List (List UInt8)} (hne : names ≠ []) :
    unescape (bytes (Url.ofNameBytes names).text.toList) =
      bytes fileMark.toList ++ names.flatMap (0x2F :: ·) := by
  have hmark : ∀ b ∈ bytes fileMark.toList, b ≠ 0x25 := List.all_iff_forall_prop.1 (by decide)
  have hslash : String.utf8EncodeChar '/' = [0x2F] := by decide
  rw [text_ofNameBytes hne, String.toList_append, bytes_append, unescape_append hmark]
  congr 1
  induction names with
  | nil => rfl
  | cons name names ih =>
    rw [List.map_cons, toList_segmentsText_cons, bytes_cons, hslash, bytes_append, String.toList_ofList]
    simp only [List.cons_append, List.nil_append, List.flatMap_cons]
    rw [unescape_cons_of_ne (by decide),
      unescape_escapeBytes (by decide) (fun _ => toNat_lt_of_segmentSet)]
    cases names with
    | nil => rfl
    | cons next names => rw [ih (List.cons_ne_nil _ _)]

/-- What stands between two slashes of a text is a text. -/
theorem decode?_eq_none_of_mem {names : List (List UInt8)} {name : List UInt8} (hmem : name ∈ names)
    (h : decode? name = none) (front : List UInt8) :
    decode? (front ++ names.flatMap (0x2F :: ·)) = none := by
  obtain ⟨before, after, rfl⟩ := List.append_of_mem hmem
  cases hdecode : decode? (front ++ (before ++ name :: after).flatMap (0x2F :: ·)) with
  | none => rfl
  | some text =>
    have hbytes := bytes_of_decode? hdecode
    rw [List.flatMap_append, List.flatMap_cons, List.cons_append, ← List.append_assoc] at hbytes
    obtain ⟨-, tail, -, -, htail⟩ := exists_split_at_byte hbytes (by decide)
    have htext : ∃ cs, bytes cs = name := by
      cases after with
      | nil =>
        rw [List.flatMap_nil, List.append_nil] at htail
        exact ⟨tail, htail⟩
      | cons next after =>
        rw [List.flatMap_cons, List.cons_append] at htail
        obtain ⟨cs, -, -, hcs, -⟩ := exists_split_at_byte htail (by decide)
        exact ⟨cs, hcs⟩
    obtain ⟨cs, rfl⟩ := htext
    rw [decode?_bytes] at h
    cases h

/-- The id of a file along names that are not all texts is its URL. -/
theorem ofNameBytes_eq_text {names : List (List UInt8)} {name : List UInt8} (hmem : name ∈ names)
    (h : decode? name = none) : ofNameBytes names = (Url.ofNameBytes names).text := by
  rw [ofNameBytes, ofUrl, canonical, unescape_text_ofNameBytes (List.ne_nil_of_mem hmem),
    decode?_eq_none_of_mem hmem h, Option.getD_none]

/-- Names with separators in front can be told apart again. -/
theorem eq_of_flatMap_cons {α : Type} {sep : α} {names others : List (List α)}
    (hnames : ∀ name ∈ names, sep ∉ name) (hothers : ∀ name ∈ others, sep ∉ name)
    (h : names.flatMap (sep :: ·) = others.flatMap (sep :: ·)) : names = others := by
  have hfirst : ∀ {ns : List (List α)} {x : α} {xs : List α},
      ns.flatMap (sep :: ·) = x :: xs → x = sep := by
    intro ns x xs hns
    cases ns with
    | nil => cases hns
    | cons name ns => exact (List.cons.inj hns).1.symm
  induction names generalizing others with
  | nil =>
    cases others with
    | nil => rfl
    | cons other others => cases h
  | cons name names ih =>
    cases others with
    | nil => cases h
    | cons other others =>
      rw [List.forall_mem_cons] at hnames hothers
      have hrest : name ++ names.flatMap (sep :: ·) = other ++ others.flatMap (sep :: ·) :=
        (List.cons.inj h).2
      rcases List.append_eq_append_iff.1 hrest with ⟨gap, rfl, hgap⟩ | ⟨gap, rfl, hgap⟩
      · cases gap with
        | nil =>
          rw [List.append_nil, ih hnames.2 hothers.2 hgap]
        | cons x gap =>
          rw [hfirst hgap] at hothers
          exact absurd (List.mem_append_right _ List.mem_cons_self) hothers.1
      · cases gap with
        | nil =>
          rw [List.append_nil, ih hnames.2 hothers.2 hgap.symm]
        | cons x gap =>
          rw [hfirst hgap] at hnames
          exact absurd (List.mem_append_right _ List.mem_cons_self) hnames.1

def strayId (stray : List String × List (List UInt8)) : String :=
  ofNameBytes (nameBytes stray.1 ++ stray.2)

theorem no_slash_nameBytes {names : List String} (h : ∀ name ∈ names, '/' ∉ name.toList) :
    ∀ name ∈ nameBytes names, 0x2F ∉ name := by
  intro name hname hmem
  obtain ⟨text, htext, rfl⟩ := List.mem_map.1 hname
  obtain ⟨front, rest, hsplit⟩ := List.append_of_mem hmem
  obtain ⟨before, after, hchars, -, -⟩ := exists_split_at_byte hsplit (by decide)
  exact h text htext (hchars ▸ List.mem_append_right _ List.mem_cons_self)

/-- The texts before the first name that is none, and the names from there on, can be told apart. -/
theorem eq_of_nameBytes_append {texts others : List String} {names rest : List (List UInt8)}
    (hnames : StrayNames names) (hrest : StrayNames rest)
    (h : nameBytes texts ++ names = nameBytes others ++ rest) : texts = others ∧ names = rest := by
  induction texts generalizing others with
  | nil =>
    cases others with
    | nil => exact ⟨rfl, h⟩
    | cons other others =>
      obtain ⟨name, later, rfl, hbroken⟩ := hnames.first
      have hname : name = bytes other.toList := (List.cons.inj h).1
      rw [hname, decode?_bytes] at hbroken
      cases hbroken
  | cons text texts ih =>
    cases others with
    | nil =>
      obtain ⟨name, later, rfl, hbroken⟩ := hrest.first
      have hname : bytes text.toList = name := (List.cons.inj h).1
      rw [← hname, decode?_bytes] at hbroken
      cases hbroken
    | cons other others =>
      obtain ⟨htext, hlater⟩ := List.cons.inj h
      obtain ⟨rfl, rfl⟩ := ih hlater
      exact ⟨by rw [String.toList_injective (bytes_inj htext)], rfl⟩

theorem strayId_eq_text {stray : List String × List (List UInt8)} (h : StrayNames stray.2) :
    strayId stray = (Url.ofNameBytes (nameBytes stray.1 ++ stray.2)).text := by
  obtain ⟨name, rest, hnames, hbroken⟩ := h.first
  rw [strayId]
  exact ofNameBytes_eq_text (List.mem_append_right _ (hnames ▸ List.mem_cons_self)) hbroken

/-- Different strays have different ids. -/
theorem strayId_inj {stray other : List String × List (List UInt8)} (hstray : StrayNames stray.2)
    (hother : StrayNames other.2) (hnames : ∀ name ∈ stray.1, IsName name)
    (hothers : ∀ name ∈ other.1, IsName name) (h : strayId stray = strayId other) : stray = other := by
  have hne : ∀ {texts : List String} {names : List (List UInt8)}, StrayNames names →
      nameBytes texts ++ names ≠ [] := by
    rintro texts names ⟨⟨name, rest, rfl, -⟩, -⟩
    exact List.append_ne_nil_of_right_ne_nil _ (List.cons_ne_nil _ _)
  have hslash : ∀ {texts : List String} {names : List (List UInt8)}, (∀ name ∈ texts, IsName name) →
      StrayNames names → ∀ name ∈ nameBytes texts ++ names, 0x2F ∉ name := by
    intro texts names htexts hnames name hmem
    rcases List.mem_append.1 hmem with hmem | hmem
    · exact no_slash_nameBytes (fun text htext => (htexts text htext).no_slash) name hmem
    · exact hnames.no_slash name hmem
  rw [strayId_eq_text hstray, strayId_eq_text hother] at h
  have hbytes := congrArg (fun text : String => unescape (bytes text.toList)) h
  rw [unescape_text_ofNameBytes (hne hstray), unescape_text_ofNameBytes (hne hother)] at hbytes
  have hall := eq_of_flatMap_cons (hslash hnames hstray) (hslash hothers hother)
    (List.append_cancel_left hbytes)
  exact Prod.ext_iff.2 (eq_of_nameBytes_append hstray hother hall)

/-- Bytes that are no text are not all below 128. -/
theorem exists_large_of_decode? {bs : List UInt8} (h : decode? bs = none) : ∃ b ∈ bs, 128 ≤ b.toNat := by
  by_contra hall
  have hascii : ∀ b ∈ bs, b.toNat < 128 := fun b hb => Nat.lt_of_not_le fun hle => hall ⟨b, hb, hle⟩
  have hdecode := decode?_bytes (ofAscii bs).toList
  rw [bytes_ofAscii hascii, h] at hdecode
  cases hdecode

/-- The id of a stray has an escape in it. -/
theorem percent_mem_strayId {stray : List String × List (List UInt8)} (h : StrayNames stray.2) :
    '%' ∈ (strayId stray).toList := by
  obtain ⟨name, rest, hnames, hbroken⟩ := h.first
  obtain ⟨b, hb, hlarge⟩ := exists_large_of_decode? hbroken
  have hset : segmentSet b = true := by
    by_contra hplain
    have := toNat_lt_of_segmentSet (Bool.not_eq_true _ ▸ hplain)
    omega
  have hmem : name ∈ nameBytes stray.1 ++ stray.2 :=
    List.mem_append_right _ (hnames ▸ List.mem_cons_self)
  have hpercent : '%' ∈ escapeBytes segmentSet name := by
    refine List.mem_flatMap.2 ⟨b, hb, ?_⟩
    rw [if_pos hset]
    exact List.mem_cons_self
  rw [strayId_eq_text h, text_ofNameBytes (List.ne_nil_of_mem hmem), String.toList_append,
    toList_segmentsText]
  refine List.mem_append_right _ (List.mem_flatMap.2 ⟨_, List.mem_map_of_mem hmem, ?_⟩)
  rw [String.toList_ofList]
  exact List.mem_cons_of_mem _ hpercent

/-- Only a path with a percent sign in it has the id of a stray. -/
theorem exists_percent_of_fileId {names : List String} {stray : List String × List (List UInt8)}
    (h : StrayNames stray.2) (hid : strayId stray = fileId names) :
    ∃ name ∈ names, '%' ∈ name.toList := by
  have hmem := percent_mem_strayId h
  have hmark : '%' ∉ fileMark.toList := by decide
  rw [hid, fileId, String.toList_append, toList_segmentsText, List.mem_append, List.mem_flatMap] at hmem
  obtain ⟨name, hname, hc⟩ := hmem.resolve_left hmark
  exact ⟨name, hname, (List.mem_cons.1 hc).resolve_left (by decide)⟩

end Resource

namespace Workspace

open Resource DiskPath

/-- A script file along names that are not all texts, which a search of the roots comes to. -/
structure IsListedStray (disk : Disk) (roots : List DiskPath) (stray : List String × List (List UInt8)) :
    Prop where
  file : stray ∈ disk.strays
  script : ∃ front stem, stem ≠ [] ∧ stray.2 = front ++ [stem ++ Text.bytes ".pory".toList]
  root : ∃ root ∈ roots, root.parts <+: stray.1

theorem isScriptName_iff {name : List UInt8} :
    isScriptName name = true ↔ ∃ stem, stem ≠ [] ∧ name = stem ++ Text.bytes ".pory".toList := by
  rw [isScriptName, Bool.and_eq_true, List.isSuffixOf_iff_suffix, decide_eq_true_eq]
  constructor
  · rintro ⟨⟨stem, rfl⟩, hlength⟩
    refine ⟨stem, ?_, rfl⟩
    rintro rfl
    exact Nat.lt_irrefl _ hlength
  · rintro ⟨stem, hstem, rfl⟩
    refine ⟨List.suffix_append _ _, ?_⟩
    rw [List.length_append]
    exact Nat.lt_add_of_pos_left (List.length_pos_iff.2 hstem)

theorem mem_straysBelow_iff {disk : Disk} {place : List String} {names : List (List UInt8)} :
    names ∈ disk.straysBelow place ↔ ∃ below rest,
      (place ++ below, rest) ∈ disk.strays ∧ names = nameBytes below ++ rest := by
  rw [Disk.straysBelow, List.mem_filterMap]
  constructor
  · rintro ⟨⟨directory, rest⟩, hstray, hnames⟩
    simp only [List.isPrefixOf_iff_prefix] at hnames
    split at hnames
    · next hplace =>
      obtain ⟨below, rfl⟩ := hplace
      rw [List.drop_left, Option.some.injEq] at hnames
      exact ⟨below, rest, hstray, hnames.symm⟩
    · cases hnames
  · rintro ⟨below, rest, hstray, rfl⟩
    exact ⟨_, hstray, by simp⟩

/-- A search below a root comes to the stray script files in the directories below it. -/
theorem mem_strayScriptsBelow_iff {disk : Disk} (htree : disk.IsTree) {root : DiskPath}
    (habsolute : root.isAbsolute = true) (hdots : ".." ∉ root.parts) {id : String} :
    id ∈ strayScriptsBelow disk root ↔
      ∃ stray, IsListedStray disk [root] stray ∧ strayId stray = id := by
  have hid : ∀ below rest, ofNameBytes (nameBytes root.parts ++ (nameBytes below ++ rest)) =
      strayId (root.parts ++ below, rest) := by
    intro below rest
    rw [strayId, nameBytes, nameBytes, nameBytes, List.map_append, List.append_assoc]
  have hscript : ∀ {stray}, stray ∈ disk.strays → ∀ below : List String,
      ((nameBytes below ++ stray.2).getLast?.any isScriptName = true ↔
        ∃ front stem, stem ≠ [] ∧ stray.2 = front ++ [stem ++ Text.bytes ".pory".toList]) := by
    intro stray hstray below
    obtain ⟨name, rest, hnames, -⟩ := (htree.strays stray hstray).2.first
    obtain ⟨front, last, hlast⟩ := (List.eq_nil_or_concat stray.2).resolve_left (by simp [hnames])
    rw [List.concat_eq_append] at hlast
    rw [hlast, ← List.append_assoc, List.getLast?_concat, Option.any_some, isScriptName_iff]
    constructor
    · rintro ⟨stem, hstem, rfl⟩
      exact ⟨front, stem, hstem, rfl⟩
    · rintro ⟨front', stem, hstem, heq⟩
      exact ⟨stem, hstem, (List.append_inj' heq rfl).2 |> List.cons.inj |>.1⟩
  rw [strayScriptsBelow]
  constructor
  · intro h
    cases hlocate : disk.locate root with
    | error fault =>
      rw [hlocate] at h
      cases h
    | ok found =>
      obtain ⟨place, node⟩ := found
      obtain rfl := Disk.eq_parts_of_locate hdots hlocate
      simp only [hlocate, List.mem_map, List.mem_filter, mem_straysBelow_iff] at h
      obtain ⟨names, ⟨⟨below, rest, hstray, rfl⟩, hlast⟩, rfl⟩ := h
      exact ⟨_, ⟨hstray, (hscript hstray below).1 hlast, root, List.mem_cons_self,
        List.prefix_append _ _⟩, (hid below rest).symm⟩
  · rintro ⟨⟨directory, rest⟩, ⟨hstray, hending, other, hother, hparts⟩, rfl⟩
    obtain rfl := List.mem_singleton.1 hother
    obtain ⟨below, rfl⟩ := hparts
    have hdirectory := htree.directory_of_prefix (htree.strays _ hstray).1 (List.prefix_append _ _)
    simp only [htree.locate_of_directory habsolute hdirectory, List.mem_map, List.mem_filter,
      mem_straysBelow_iff]
    exact ⟨_, ⟨⟨below, rest, hstray, rfl⟩, (hscript hstray below).2 hending⟩, hid below rest⟩

end Workspace

end ScriptIndex
