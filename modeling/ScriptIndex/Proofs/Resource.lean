import ScriptIndex.Proofs.Url.FileUrl

/-!
# The ids of files

The URL of a path, once read, gives an id that is made of the names on the way to the file. Reading
the file of that id leads along the same names, unless a name holds a character that URLs leave out or
starts the path with a drive letter that is marked by a bar.
-/
namespace ScriptIndex

namespace Url

open Text DiskPath

/-- The names on the way to a file, when its URL keeps all of them. -/
structure Kept (names : List String) : Prop where
  isName : ∀ name ∈ names, IsName name
  noSkipped : ∀ name ∈ names, ∀ c ∈ name.toList, isSkipped c = false
  first : ∀ name, names.head? = some name → normalDrive name.toList = name.toList

theorem kept_iff (names : List String) : Kept names ↔
    (∀ name ∈ names, name ≠ "" ∧ name ≠ "." ∧ name ≠ ".." ∧ '/' ∉ name.toList ∧
      name.toList.all (fun c => isSkipped c = false) = true) ∧
    ∀ name ∈ names.head?, normalDrive name.toList = name.toList := by
  constructor
  · intro h
    refine ⟨fun name hmem => ?_, h.first⟩
    obtain ⟨hempty, hdot, hdots, hslash⟩ := h.isName name hmem
    exact ⟨hempty, hdot, hdots, hslash, List.all_iff_forall_prop.2 (h.noSkipped name hmem)⟩
  · rintro ⟨hnames, hfirst⟩
    refine ⟨fun name hmem => ?_, fun name hmem => ?_, hfirst⟩
    · obtain ⟨hempty, hdot, hdots, hslash, -⟩ := hnames name hmem
      exact ⟨hempty, hdot, hdots, hslash⟩
    · exact List.all_iff_forall_prop.1 (hnames name hmem).2.2.2.2

instance (names : List String) : Decidable (Kept names) := decidable_of_iff _ (kept_iff names).symm

theorem Kept.nil : Kept [] where
  isName _ h := absurd h List.not_mem_nil
  noSkipped _ h := absurd h List.not_mem_nil
  first _ h := by cases h

theorem normalDrive_normalDrive (cs : List Char) : normalDrive (normalDrive cs) = normalDrive cs := by
  by_cases h : isDriveLetter cs = true
  · obtain ⟨a, b, rfl, ha, -⟩ := exists_of_isDriveLetter h
    have hdrive : isDriveLetter [a, ':'] = true := by simp [isDriveLetter, ha]
    have hnormal : normalDrive [a, b] = [a, ':'] := by rw [normalDrive, if_pos h]; rfl
    rw [hnormal, normalDrive, if_pos hdrive]
    rfl
  · have hnormal : normalDrive cs = cs := by rw [normalDrive, if_neg h]
    rw [hnormal, hnormal]

/-- What a drive letter becomes is a name as well. -/
theorem mem_normalDrive {cs : List Char} {c : Char} (h : c ∈ normalDrive cs) : c ∈ cs ∨ c = ':' := by
  rw [normalDrive] at h
  split at h
  · rcases List.mem_append.1 h with h | h
    · exact Or.inl (List.mem_of_mem_take h)
    · exact Or.inr (List.mem_singleton.1 h)
  · exact Or.inl h

theorem isName_normalDrive {name : String} (h : IsName name) :
    IsName (String.ofList (normalDrive name.toList)) := by
  by_cases hdrive : isDriveLetter name.toList = true
  · obtain ⟨a, b, hname, -, -⟩ := exists_of_isDriveLetter hdrive
    have hnormal : normalDrive name.toList = [a, ':'] := by
      rw [normalDrive, if_pos hdrive, hname]
      rfl
    have hcolon : ∀ text : String, ':' ∉ text.toList →
        String.ofList (normalDrive name.toList) ≠ text := by
      intro text htext heq
      apply htext
      rw [← heq, String.toList_ofList, hnormal]
      exact List.mem_cons_of_mem _ List.mem_cons_self
    refine ⟨hcolon "" (by decide), hcolon "." (by decide), hcolon ".." (by decide), ?_⟩
    intro hslash
    rw [String.toList_ofList] at hslash
    rcases mem_normalDrive hslash with hmem | heq
    · exact h.no_slash hmem
    · cases heq
  · rw [normalDrive, if_neg hdrive, String.ofList_toList]
    exact h

theorem Kept.shorten {names : List String} (h : Kept names) : Kept (Url.shorten names) := by
  have hdrop : Kept names.dropLast := by
    refine ⟨fun name hn => h.isName name (List.dropLast_subset names hn),
      fun name hn => h.noSkipped name (List.dropLast_subset names hn), ?_⟩
    intro name hn
    apply h.first
    match names with
    | [] => cases hn
    | [_] => cases hn
    | _ :: _ :: _ => exact hn
  rw [Url.shorten]
  split
  · split
    · exact h
    · exact hdrop
  · exact h

/-- A part of a path that is a name, or the pair of dots, leads from kept names to kept names. -/
theorem Kept.step {names : List String} (h : Kept names) {part : String}
    (hpart : part ≠ ".." → IsName part) (hskip : ∀ c ∈ part.toList, isSkipped c = false) :
    Kept (Url.step names part) := by
  rw [Url.step]
  split
  · exact h.shorten
  · rename_i hdots
    have hname := hpart hdots
    cases names with
    | nil =>
      refine ⟨?_, ?_, ?_⟩
      · intro name hn
        rw [List.nil_append, List.mem_singleton] at hn
        rw [hn]
        exact isName_normalDrive hname
      · intro name hn c hc
        rw [List.nil_append, List.mem_singleton] at hn
        rw [hn] at hc
        simp only [List.isEmpty_nil, if_true, String.toList_ofList] at hc
        rcases mem_normalDrive hc with hc | rfl
        · exact hskip c hc
        · rfl
      · intro name hn
        cases hn
        simp only [List.isEmpty_nil, if_true, String.toList_ofList]
        exact normalDrive_normalDrive _
    | cons first rest =>
      refine ⟨?_, ?_, h.first⟩
      · intro name hn
        rcases List.mem_append.1 hn with hn | hn
        · exact h.isName name hn
        · rw [List.mem_singleton.1 hn]
          exact hname
      · intro name hn
        rcases List.mem_append.1 hn with hn | hn
        · exact h.noSkipped name hn
        · rw [List.mem_singleton.1 hn]
          exact hskip

theorem Kept.foldl_step {names parts : List String} (h : Kept names)
    (hparts : ∀ part ∈ parts, part ≠ ".." → IsName part)
    (hskip : ∀ part ∈ parts, ∀ c ∈ part.toList, isSkipped c = false) :
    Kept (parts.foldl Url.step names) := by
  induction parts generalizing names with
  | nil => exact h
  | cons part parts ih =>
    exact ih (h.step (hparts part List.mem_cons_self) (hskip part List.mem_cons_self))
      (fun p hp => hparts p (List.mem_cons_of_mem _ hp))
      (fun p hp => hskip p (List.mem_cons_of_mem _ hp))

/-- Kept names are led along as they are. -/
theorem Kept.foldl_step_eq {names parts : List String} (h : Kept (names ++ parts)) :
    parts.foldl Url.step names = names ++ parts := by
  induction parts generalizing names with
  | nil => exact (List.append_nil names).symm
  | cons part parts ih =>
    have hdots : part ≠ ".." :=
      (h.isName part (List.mem_append_right _ List.mem_cons_self)).ne_dots
    have hstep : Url.step names part = names ++ [part] := by
      rw [Url.step, if_neg hdots]
      cases names with
      | nil =>
        simp only [List.isEmpty_nil, if_true]
        rw [h.first part rfl, String.ofList_toList]
      | cons first rest => rfl
    have hassoc : names ++ part :: parts = names ++ [part] ++ parts := by simp
    rw [List.foldl_cons, hstep, hassoc]
    rw [hassoc] at h
    exact ih h

theorem trimEmpty_cons {segment : String} (h : segment ≠ "") (segments : List String) :
    trimEmpty (segment :: segments) = segment :: segments := by
  rw [trimEmpty, List.dropWhile_cons, if_neg]
  rw [beq_iff_eq]
  exact h

/-- Kept names are not trimmed away, and neither is an empty segment after them. -/
theorem Kept.trimEmpty {names : List String} (h : Kept names) {rest : List String}
    (hrest : names = [] → rest = [""]) :
    Url.trimEmpty ((names ++ rest).map segmentOf) = (names ++ rest).map segmentOf := by
  cases names with
  | nil =>
    rw [hrest rfl]
    decide
  | cons name names =>
    exact trimEmpty_cons (segmentOf_ne_empty (h.isName name List.mem_cons_self).ne_empty) _

/-- A path that leads nowhere is written with one empty segment. -/
theorem ofDiskPath?_eq {path : DiskPath} (h : path.isAbsolute = true) :
    ofDiskPath? path =
      some (ofSegments ((if path.parts = [] then [""] else path.parts).map segmentOf)) := by
  rw [ofDiskPath?, if_pos h, ofNameBytes, nameBytes, List.map_map]
  cases hparts : path.parts with
  | nil => rfl
  | cons part parts => rfl

theorem foldl_step_ne_nil {parts names : List String} {hne : parts ≠ []}
    (h : parts.getLast hne ≠ "..") : parts.foldl step names ≠ [] := by
  rw [← List.dropLast_concat_getLast hne, List.foldl_append]
  change step _ _ ≠ []
  rw [step, if_neg h]
  exact List.append_ne_nil_of_right_ne_nil _ (List.cons_ne_nil _ _)

theorem ofList_segmentsText_cons (s : String) (segments : List String) :
    segmentsText (s :: segments) =
      String.ofList ('/' :: (s.toList ++ (segmentsText segments).toList)) := by
  rw [← toList_segmentsText_cons, String.ofList_toList]

/-- The text of a URL along parts of a path is read as the URL along the names they lead to. -/
theorem parse?_segmentsText {part : String} {parts : List String} (hdot : "." ∉ part :: parts) :
    parse? (Resource.fileMark ++ segmentsText ((part :: parts).map segmentOf)) =
      some (ofSegments (Url.trimEmpty (((part :: parts).foldl step [] ++
        ending ((part :: parts).getLast (List.cons_ne_nil _ _))).map segmentOf))) := by
  rw [List.map_cons, ofList_segmentsText_cons, parse?_slash]
  · rw [← writtenSegments_segmentOf part parts [] hdot]
    rfl
  · intro c hc
    rcases List.mem_append.1 hc with hc | hc
    · exact Or.inr (isPlain_segmentOf hc)
    · exact mem_segmentsText hc

end Url

namespace Resource

open Text Url DiskPath

def fileId (names : List String) : String := fileMark ++ segmentsText names

theorem unescape_append {bs : List UInt8} (h : ∀ b ∈ bs, b ≠ 0x25) (rest : List UInt8) :
    unescape (bs ++ rest) = bs ++ unescape rest := by
  induction bs with
  | nil => rfl
  | cons b bs ih =>
    rw [List.cons_append, unescape_cons_of_ne (h b List.mem_cons_self),
      ih fun d hd => h d (List.mem_cons_of_mem _ hd)]
    rfl

theorem unescape_segmentsText (names : List String) :
    unescape (bytes (segmentsText (names.map segmentOf)).toList) =
      bytes (segmentsText names).toList := by
  induction names with
  | nil => rfl
  | cons name names ih =>
    have hslash : String.utf8EncodeChar '/' = [0x2F] := by decide
    rw [List.map_cons, toList_segmentsText_cons, toList_segmentsText_cons, bytes_cons, bytes_cons,
      hslash, bytes_append, toList_segmentOf, bytes_append]
    simp only [List.cons_append, List.nil_append]
    rw [unescape_cons_of_ne (by decide), unescape_escape, ih]

theorem ofUrl_ofSegments (names : List String) :
    ofUrl (ofSegments (names.map segmentOf)) = fileId names := by
  have hmark : ∀ b ∈ bytes fileMark.toList, b ≠ 0x25 := List.all_iff_forall_prop.1 (by decide)
  rw [ofUrl, canonical, text_ofSegments, String.toList_append, bytes_append,
    unescape_append hmark, unescape_segmentsText, ← bytes_append, decode?_bytes, fileId,
    ← String.toList_append, String.ofList_toList]
  rfl

theorem ofPath?_eq {path : DiskPath} (h : path.isAbsolute = true) (hparts : path.parts ≠ []) :
    ofPath? path = some (fileId path.parts) := by
  rw [ofPath?, ofDiskPath?_eq h, if_neg hparts, Option.map_some, ofUrl_ofSegments]

theorem ofPath?_ofNames {names : List String} (hne : names ≠ [])
    (hnames : ∀ name ∈ names, IsName name) :
    ofPath? (ofNames names) = some (fileId names) := by
  have hparts := parts_ofNames hnames
  rw [ofPath?_eq (isAbsolute_ofNames hne) (by rw [hparts]; exact hne), hparts]

/-- Different names make different ids. -/
theorem fileId_inj {names others : List String} (hnames : ∀ name ∈ names, '/' ∉ name.toList)
    (hothers : ∀ name ∈ others, '/' ∉ name.toList) (h : fileId names = fileId others) :
    names = others := by
  have htext : ofNames names = ofNames others := by
    rw [ofNames, ofNames, (String.append_right_inj fileMark).1 h]
  have hpieces := congrArg DiskPath.pieces htext
  rw [pieces_ofNames hnames, pieces_ofNames hothers] at hpieces
  exact List.tail_eq_of_cons_eq hpieces

/-- The ids that the URLs of paths are read as: kept names, or kept names and a slash. -/
def IsFileId (id : String) : Prop :=
  ∃ names, Kept names ∧ ((names ≠ [] ∧ id = fileId names) ∨ id = fileId (names ++ [""]))

/-- The URL of an absolute path without characters that URLs leave out. -/
theorem isFileId_of_path {path : DiskPath} {url read : Url} (hurl : ofDiskPath? path = some url)
    (hskip : ∀ c ∈ path.text.toList, isSkipped c = false) (hread : parse? url.text = some read) :
    IsFileId (ofUrl read) := by
  have habs : path.isAbsolute = true := by
    by_contra h
    rw [ofDiskPath?, if_neg h] at hurl
    cases hurl
  have hpart : ∀ part ∈ path.parts, (part ≠ ".." → IsName part) ∧
      ∀ c ∈ part.toList, isSkipped c = false := by
    intro part hp
    obtain ⟨hempty, hdot, hpiece⟩ := of_mem_parts habs hp
    exact ⟨fun hdots => ⟨hempty, hdot, hdots, fun hc => (of_mem_piece hpiece hc).1 rfl⟩,
      fun c hc => hskip c (of_mem_piece hpiece hc).2⟩
  rw [ofDiskPath?_eq habs] at hurl
  cases hparts : path.parts with
  | nil =>
    rw [hparts] at hurl
    cases hurl
    have htop : parse? (ofSegments ([""].map segmentOf)).text =
        some (ofSegments ([""].map segmentOf)) := by decide
    rw [if_pos rfl, htop] at hread
    cases hread
    rw [ofUrl_ofSegments]
    exact ⟨[], Kept.nil, Or.inr rfl⟩
  | cons part parts =>
    rw [hparts] at hurl hpart
    rw [if_neg (List.cons_ne_nil _ _)] at hurl
    cases hurl
    have hdot : "." ∉ part :: parts := by
      rw [← hparts]
      intro hmem
      exact (of_mem_parts habs hmem).2.1 rfl
    have hkept : Kept ((part :: parts).foldl step []) :=
      Kept.nil.foldl_step (fun p hp => (hpart p hp).1) (fun p hp => (hpart p hp).2)
    rw [text_ofSegments, parse?_segmentsText hdot] at hread
    cases hread
    rw [ending]
    split
    · rw [hkept.trimEmpty fun _ => rfl, ofUrl_ofSegments]
      exact ⟨_, hkept, Or.inr rfl⟩
    · rename_i hlast
      have hne : (part :: parts).foldl step [] ≠ [] := foldl_step_ne_nil hlast
      rw [hkept.trimEmpty fun h => absurd h hne, ofUrl_ofSegments, List.append_nil]
      exact ⟨_, hkept, Or.inl ⟨hne, rfl⟩⟩

/-- The text of a URL along kept names is read as this URL. -/
theorem parse?_text_of_kept {names : List String} (h : Kept names) (hne : names ≠ []) :
    parse? (ofSegments (names.map segmentOf)).text = some (ofSegments (names.map segmentOf)) := by
  rw [text_ofSegments]
  cases names with
  | nil => exact absurd rfl hne
  | cons name names =>
    have hdot : "." ∉ name :: names := fun hmem => (h.isName _ hmem).ne_dot rfl
    have hlast : ending ((name :: names).getLast (List.cons_ne_nil _ _)) = [] :=
      if_neg (h.isName _ (List.getLast_mem _)).ne_dots
    have hsteps : (name :: names).foldl step [] = name :: names := Kept.foldl_step_eq h
    have htrim : Url.trimEmpty ((name :: names ++ []).map segmentOf) = _ :=
      h.trimEmpty fun hnil => absurd hnil (List.cons_ne_nil _ _)
    rw [List.append_nil] at htrim
    rw [parse?_segmentsText hdot, hlast, hsteps, List.append_nil, htrim]

/-- The URL of a file whose names are kept is read as the id along these names. -/
theorem ofUrl_of_kept {names : List String} (h : Kept names) (hne : names ≠ []) :
    ∃ url read, ofDiskPath? (ofNames names) = some url ∧ parse? url.text = some read ∧
      ofUrl read = fileId names := by
  refine ⟨_, _, ofDiskPath?_eq (isAbsolute_ofNames hne), ?_, ofUrl_ofSegments names⟩
  rw [parts_ofNames h.isName, if_neg hne, parse?_text_of_kept h hne]

/-- A name that is added to segments is written as it is, unless it is made of dots. -/
theorem pushName_segmentOf {segments : List String} {name : String} (hdot : name ≠ ".")
    (hdots : name ≠ "..") (hskip : ∀ c ∈ name.toList, isSkipped c = false)
    (hfront : segments ≠ [""] → ∃ first rest, segments = first :: rest ∧ first ≠ "")
    (hdrive : segments = [""] → normalDrive name.toList = name.toList) :
    pushName segments name.toList = if segments = [""] then [segmentOf name]
      else segments ++ [segmentOf name] := by
  have hfilter : (name.toList.filter fun c => !isSkipped c) = name.toList := by
    rw [List.filter_eq_self]
    intro c hc
    rw [hskip c hc]
    rfl
  have hdot' : (name.toList == ['.']) = false :=
    beq_eq_false_iff_ne.2 fun h => hdot (String.toList_injective h)
  have hdots' : (name.toList == ['.', '.']) = false :=
    beq_eq_false_iff_ne.2 fun h => hdots (String.toList_injective h)
  rw [pushName]
  simp only [hfilter, hdot', hdots', Bool.false_eq_true, if_false]
  by_cases hsegments : segments = [""]
  · rw [if_pos hsegments, if_pos (beq_iff_eq.2 hsegments)]
    simp only [List.isEmpty_nil, if_true, List.nil_append, hdrive hsegments]
    change Url.trimEmpty [segmentOf name] = _
    by_cases hname : name = ""
    · rw [hname]
      decide
    · exact trimEmpty_cons (segmentOf_ne_empty hname) []
  · obtain ⟨first, rest, rfl, hfirst⟩ := hfront hsegments
    rw [if_neg hsegments, if_neg fun h => hsegments (beq_iff_eq.1 h)]
    exact trimEmpty_cons hfirst _

theorem foldl_pushName {first : String} (hfirst : first ≠ "") {names rest : List String}
    (hdots : ∀ name ∈ rest, name ≠ "." ∧ name ≠ "..")
    (hskip : ∀ name ∈ rest, ∀ c ∈ name.toList, isSkipped c = false) :
    (rest.map String.toList).foldl pushName ((first :: names).map segmentOf) =
      (first :: (names ++ rest)).map segmentOf := by
  have hne : segmentOf first ≠ "" := segmentOf_ne_empty hfirst
  induction rest generalizing names with
  | nil =>
    rw [List.append_nil]
    rfl
  | cons name rest ih =>
    have hname := hdots name List.mem_cons_self
    have hsegments : (first :: names).map segmentOf ≠ [""] := by
      intro h
      exact hne (List.cons.inj h).1
    have hpush : pushName ((first :: names).map segmentOf) name.toList =
        (first :: (names ++ [name])).map segmentOf := by
      have hfront : ∃ front rest, (first :: names).map segmentOf = front :: rest ∧ front ≠ "" :=
        ⟨_, _, List.map_cons, hne⟩
      rw [pushName_segmentOf hname.1 hname.2 (hskip name List.mem_cons_self) (fun _ => hfront)
        fun h => absurd h hsegments, if_neg hsegments]
      simp
    have hassoc : names ++ name :: rest = names ++ [name] ++ rest := by simp
    change (rest.map String.toList).foldl pushName
      (pushName ((first :: names).map segmentOf) name.toList) = _
    rw [hpush, hassoc]
    exact ih (fun n hn => hdots n (List.mem_cons_of_mem _ hn))
      (fun n hn => hskip n (List.mem_cons_of_mem _ hn))

/-- Kept names lead along themselves, also with a slash at the end. -/
theorem namedSegments_of_kept {names rest : List String} (h : Kept names)
    (hrest : rest = [""] ∨ (rest = [] ∧ names ≠ [])) :
    namedSegments ((names ++ rest).map String.toList) = (names ++ rest).map segmentOf := by
  have hall : ∀ name ∈ names ++ rest, (name ≠ "." ∧ name ≠ "..") ∧
      ∀ c ∈ name.toList, isSkipped c = false := by
    intro name hn
    rcases List.mem_append.1 hn with hn | hn
    · exact ⟨⟨(h.isName name hn).ne_dot, (h.isName name hn).ne_dots⟩, h.noSkipped name hn⟩
    · rcases hrest with rfl | ⟨rfl, -⟩
      · rw [List.mem_singleton.1 hn]
        exact ⟨by decide, fun c hc => absurd hc List.not_mem_nil⟩
      · cases hn
  have hfilter : (((names ++ rest).map String.toList).filter fun name =>
      name != ['.'] && name != ['.', '.']) = (names ++ rest).map String.toList := by
    rw [List.filter_eq_self]
    intro cs hcs
    obtain ⟨name, hn, rfl⟩ := List.mem_map.1 hcs
    rw [Bool.and_eq_true, bne_iff_ne, bne_iff_ne]
    exact ⟨fun heq => (hall name hn).1.1 (String.toList_injective heq),
      fun heq => (hall name hn).1.2 (String.toList_injective heq)⟩
  rw [namedSegments, hfilter]
  cases names with
  | nil =>
    rcases hrest with rfl | ⟨-, hne⟩
    · decide
    · exact absurd rfl hne
  | cons first names =>
    have hfirst := h.isName first List.mem_cons_self
    have hpush : pushName [""] first.toList = [first].map segmentOf :=
      pushName_segmentOf hfirst.ne_dot hfirst.ne_dots (h.noSkipped first List.mem_cons_self)
        (fun hne => absurd rfl hne) fun _ => h.first first rfl
    have hrest' := fun name (hn : name ∈ names ++ rest) => hall name (List.mem_cons_of_mem _ hn)
    rw [List.cons_append, List.map_cons, List.foldl_cons, hpush,
      foldl_pushName hfirst.ne_empty (fun name hn => (hrest' name hn).1)
        (fun name hn => (hrest' name hn).2)]
    rfl

theorem isFile_fileId (names : List String) : isFile (fileId names) = true := by
  rw [isFile, fileId, String.toList_append, List.isPrefixOf_iff_prefix]
  exact List.prefix_append _ _

theorem url?_fileId {segments : List String} (hne : segments ≠ [])
    (hslash : ∀ segment ∈ segments, '/' ∉ segment.toList) :
    url? (fileId segments) = some (ofSegments (namedSegments (segments.map String.toList))) := by
  cases segments with
  | nil => exact absurd rfl hne
  | cons segment segments =>
    have htext : (fileId (segment :: segments)).toList = fileMark.toList ++
        '/' :: (segment.toList ++ (segmentsText segments).toList) := by
      rw [fileId, String.toList_append, toList_segmentsText_cons]
    have hpieces := pieces_segmentsText hslash
    rw [toList_segmentsText_cons] at hpieces
    have hpath : Text.pieces (· == '/') (segment.toList ++ (segmentsText segments).toList) =
        (segment :: segments).map String.toList := List.tail_eq_of_cons_eq hpieces
    have htop : parse? (fileMark ++ String.ofList [] ++ "/") = some (ofSegments [""]) := by decide
    rw [url?, if_pos (isFile_fileId _), htext, List.drop_left']
    · change (parse? (fileMark ++ String.ofList [] ++ "/")).map _ = _
      rw [htop]
      change some (ofSegments (namedSegments (Text.pieces (· == '/') _))) = _
      rw [← hpath]
      rfl
    · decide

/-- The URL of an id along kept names. -/
theorem url?_fileId_of_kept {names : List String} (h : Kept names) (hne : names ≠ []) :
    url? (fileId names) = some (ofSegments (names.map segmentOf)) := by
  have hsegments := namedSegments_of_kept h (Or.inr ⟨rfl, hne⟩)
  rw [List.append_nil] at hsegments
  rw [url?_fileId hne fun name hmem => (h.isName name hmem).no_slash, hsegments]

/-- The id along names is written with slashes between them. -/
theorem fileId_eq_intercalate {names : List String} (hne : names ≠ []) :
    fileId names = "file:///" ++ "/".intercalate names := by
  have htext : segmentsText names = "/" ++ "/".intercalate names := by
    induction names with
    | nil => exact absurd rfl hne
    | cons name names ih =>
      apply String.toList_injective
      cases names with
      | nil => simp [toList_segmentsText]
      | cons next names =>
        rw [toList_segmentsText_cons, ih (List.cons_ne_nil _ _), String.intercalate_cons_cons]
        simp
  rw [fileId, htext, ← String.append_assoc]
  rfl

/-- The URL of the id along names is a path without query and fragment, its text is read as this URL, and
leads back to the id. The names may hold any characters but slashes, tabs and line ends; the first one
does not start like a drive. -/
theorem url_leads_back_to_id (names : List String) (hne : names ≠ [])
    (hnames : ∀ name ∈ names, IsName name)
    (hskip : ∀ name ∈ names, ∀ c ∈ name.toList, isSkipped c = false)
    (hdrive : ∀ name letter mark rest, names.head? = some name →
      name.toList = letter :: mark :: rest → letter.isAlpha = true → mark ≠ ':' ∧ mark ≠ '|') :
    let id := "file:///" ++ "/".intercalate names
    ∃ url, url? id = some url ∧ url.query = none ∧ url.fragment = none ∧
      parse? url.text = some url ∧ canonical url.text = id := by
  intro id
  have hkept : Kept names := by
    refine ⟨hnames, hskip, fun name hhead => ?_⟩
    rw [normalDrive, if_neg]
    intro hletter
    obtain ⟨letter, mark, htext, halpha, hmark⟩ := exists_of_isDriveLetter hletter
    obtain ⟨hcolon, hbar⟩ := hdrive name letter mark [] hhead htext halpha
    rcases hmark with rfl | rfl
    · exact hcolon rfl
    · exact hbar rfl
  have hid : id = fileId names := (fileId_eq_intercalate hne).symm
  rw [hid]
  exact ⟨_, url?_fileId_of_kept hkept hne, rfl, rfl, parse?_text_of_kept hkept hne,
    ofUrl_ofSegments names⟩

/-- Names with the marks of queries, fragments and escapes, a backslash, a drive behind the first name and
characters of two to four bytes. -/
theorem url_leads_back_to_marked_id :
    let id := "file:///100%25 #1?/c|/Route\\é漢😀%FF"
    ∃ url, url? id = some url ∧ url.query = none ∧ url.fragment = none ∧
      parse? url.text = some url ∧ canonical url.text = id := by
  have hkept : Kept ["100%25 #1?", "c|", "Route\\é漢😀%FF"] := by decide +kernel
  refine url_leads_back_to_id _ (List.cons_ne_nil _ _) hkept.isName hkept.noSkipped ?_
  intro name letter mark rest hhead htext halpha
  cases hhead
  cases htext
  exact absurd halpha (by decide)

theorem closeDrive_eq_or (bs : List UInt8) :
    closeDrive bs = bs ∨ closeDrive bs = bs ++ [0x2F] := by
  rw [closeDrive]
  split
  · split
    · exact Or.inr rfl
    · exact Or.inl rfl
  · exact Or.inl rfl

/-- Whether a text ends like a drive, in a letter and a mark. -/
def endsInDrive (cs : List Char) : Bool :=
  match cs.reverse with
  | mark :: letter :: _ => (mark == ':' || mark == '|') && letter.isAlpha
  | _ => false

/-- The end of a path is the end of its last name. -/
theorem endsInDrive_append_slash (front cs : List Char) :
    endsInDrive (front ++ '/' :: cs) = endsInDrive cs := by
  rcases List.eq_nil_or_concat cs with rfl | ⟨init, b, rfl⟩
  · rcases List.eq_nil_or_concat front with rfl | ⟨init, a, rfl⟩
    · rfl
    · simp [endsInDrive]
  · rcases List.eq_nil_or_concat init with rfl | ⟨init, a, rfl⟩
    · simp [endsInDrive]
    · simp [endsInDrive]

theorem exists_of_closeDrive_ne {bs : List UInt8} (h : closeDrive bs ≠ bs) :
    ∃ front letter mark, bs = front ++ [letter] ++ [mark] ∧ (mark = 0x3A ∨ mark = 0x7C) ∧
      (Char.ofNat letter.toNat).isAlpha = true := by
  rw [closeDrive] at h
  split at h
  · rename_i mark letter x rest heq
    split at h
    · rename_i hdrive
      simp only [Bool.and_eq_true, Bool.or_eq_true, beq_iff_eq] at hdrive
      refine ⟨(x :: rest).reverse, letter, mark, ?_, hdrive.1, hdrive.2⟩
      rw [← List.reverse_reverse bs, heq]
      simp
    · exact absurd rfl h
  · exact absurd rfl h

/-- A path that does not end like a drive is taken as it is. -/
theorem closeDrive_bytes {cs : List Char} (h : endsInDrive cs = false) :
    closeDrive (bytes cs) = bytes cs := by
  by_contra hne
  obtain ⟨front, letter, mark, hbytes, hmark, halpha⟩ := exists_of_closeDrive_ne hne
  have hsmall : mark.toNat < 128 := by rcases hmark with rfl | rfl <;> decide
  have hletter : letter.toNat < 128 := by
    have hlt := toNat_lt_of_isAlpha halpha
    have hbyte : letter.toNat < 256 := letter.toNat_lt
    rw [Char.ofNat, dif_pos (Or.inl (by omega))] at hlt
    exact hlt
  obtain ⟨init, rfl, hinit⟩ := exists_last_char hbytes hsmall
  obtain ⟨init, rfl, -⟩ := exists_last_char hinit hletter
  have hdrive : endsInDrive (init ++ [Char.ofNat letter.toNat] ++ [Char.ofNat mark.toNat]) = true := by
    rcases hmark with rfl | rfl <;> simp [endsInDrive, halpha]
  rw [hdrive] at h
  cases h

theorem shown_bytes (cs : List Char) : shown (bytes cs) = String.ofList cs := by
  rw [shown, decode?_bytes]
  rfl

theorem diskPath?_ofSegments {segments : List String} (hne : segments ≠ []) :
    diskPath? (ofSegments (segments.map segmentOf)) =
      some ⟨shown (closeDrive (bytes (segmentsText segments).toList))⟩ := by
  have hbytes : (segments.map segmentOf).flatMap (fun segment =>
      0x2F :: unescape (bytes segment.toList)) = bytes (segmentsText segments).toList := by
    clear hne
    induction segments with
    | nil => rfl
    | cons segment segments ih =>
      have hslash : String.utf8EncodeChar '/' = [0x2F] := by decide
      rw [List.map_cons, List.flatMap_cons, ih, unescape_segmentOf, toList_segmentsText_cons,
        bytes_cons, hslash, bytes_append]
      rfl
  cases segments with
  | nil => exact absurd rfl hne
  | cons segment segments =>
    rw [← hbytes]
    rfl

/-- The file of an id along kept names is read along these names, unless they end like a drive. -/
theorem diskPath?_fileId {names : List String} (h : Kept names) {front : List String} {last : String}
    (hlast : names = front ++ [last]) (hdrive : endsInDrive last.toList = false) :
    (url? (fileId names)).bind diskPath? = some (ofNames names) := by
  have hne : names ≠ [] := by simp [hlast]
  have hends : endsInDrive (segmentsText names).toList = false := by
    rw [hlast, toList_segmentsText, List.flatMap_append, List.flatMap_singleton,
      endsInDrive_append_slash, hdrive]
  rw [url?_fileId_of_kept h hne, Option.bind_some, diskPath?_ofSegments hne, closeDrive_bytes hends,
    shown_bytes, String.ofList_toList]
  rfl

/-- The file of an id along kept names is read along these names, or from a path that ends in a slash. -/
theorem exists_diskPath {names rest : List String} (h : Kept names)
    (hrest : rest = [""] ∨ (rest = [] ∧ names ≠ [])) :
    ∃ path, (url? (fileId (names ++ rest))).bind diskPath? = some path ∧
      ((rest = [] ∧ path = ofNames names) ∨ ∀ disk : Disk, disk.bytesAt? path = none) := by
  have hslash : ∀ segment ∈ names ++ rest, '/' ∉ segment.toList := by
    intro segment hs
    rcases List.mem_append.1 hs with hs | hs
    · exact (h.isName segment hs).no_slash
    · rcases hrest with rfl | ⟨rfl, -⟩
      · rw [List.mem_singleton.1 hs]
        decide
      · cases hs
  have hne : names ++ rest ≠ [] := by
    rcases hrest with rfl | ⟨rfl, hne⟩
    · exact List.append_ne_nil_of_right_ne_nil _ (List.cons_ne_nil _ _)
    · rw [List.append_nil]
      exact hne
  have hpieces := pieces_ofNames hslash
  rw [url?_fileId hne hslash, namedSegments_of_kept h hrest, Option.bind_some,
    diskPath?_ofSegments hne]
  refine ⟨_, rfl, ?_⟩
  rcases closeDrive_eq_or (bytes (segmentsText (names ++ rest)).toList) with hclose | hclose
  · rw [hclose, shown_bytes, String.ofList_toList]
    rcases hrest with rfl | ⟨rfl, -⟩
    · exact Or.inr fun disk => Disk.bytesAt?_of_end ("" :: names) hpieces (Or.inl rfl)
    · rw [List.append_nil]
      exact Or.inl ⟨rfl, rfl⟩
  · have hend : bytes (segmentsText (names ++ rest)).toList ++ [0x2F] =
        bytes ((segmentsText (names ++ rest)).toList ++ ['/']) := by
      rw [bytes_append]
      rfl
    rw [hclose, hend, shown_bytes]
    refine Or.inr fun disk => Disk.bytesAt?_of_end ("" :: (names ++ rest)) ?_ (Or.inl rfl)
    rw [DiskPath.pieces, String.toList_ofList, pieces_append_cons rfl, List.map_append]
    exact congrArg (· ++ [""]) hpieces

end Resource
end ScriptIndex
