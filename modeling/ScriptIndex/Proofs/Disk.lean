import ScriptIndex.Disk.Basic
import ScriptIndex.Url.Basic

/-!
# Paths to files

The names on the way from the top to a file make up the plain path to it. A path with other pieces
between the slashes leads to the same place, as long as there are directories all along it, and a path
that ends in a slash or a dot never leads to a file.
-/
namespace ScriptIndex

namespace Text

variable {sep : Char → Bool}

theorem pieces_ne_nil (cs : List Char) : pieces sep cs ≠ [] := by
  cases cs with
  | nil => exact List.cons_ne_nil _ _
  | cons c cs =>
    rw [pieces]
    split
    · exact List.cons_ne_nil _ _
    · split <;> exact List.cons_ne_nil _ _

theorem pieces_append_cons {d : Char} (hd : sep d = true) (cs ds : List Char) :
    pieces sep (cs ++ d :: ds) = pieces sep cs ++ pieces sep ds := by
  induction cs with
  | nil => simp [pieces, hd]
  | cons c cs ih =>
    rw [List.cons_append, pieces, pieces, ih]
    by_cases hc : sep c = true
    · simp [hc]
    · rw [if_neg hc, if_neg hc]
      cases hp : pieces sep cs with
      | nil => exact absurd hp (pieces_ne_nil cs)
      | cons p ps => rfl

theorem pieces_eq_singleton {cs : List Char} (h : ∀ c ∈ cs, sep c = false) :
    pieces sep cs = [cs] := by
  induction cs with
  | nil => rfl
  | cons c cs ih =>
    rw [pieces, h c List.mem_cons_self, ih fun d hd => h d (List.mem_cons_of_mem _ hd)]
    rfl

theorem of_mem_pieces {cs p : List Char} (hp : p ∈ pieces sep cs) {c : Char} (hc : c ∈ p) :
    sep c = false ∧ c ∈ cs := by
  induction cs generalizing p with
  | nil =>
    rw [pieces, List.mem_singleton] at hp
    rw [hp] at hc
    cases hc
  | cons d cs ih =>
    rw [pieces] at hp
    split at hp
    · rcases List.mem_cons.1 hp with rfl | hp
      · cases hc
      · exact ⟨(ih hp hc).1, List.mem_cons_of_mem _ (ih hp hc).2⟩
    · rename_i hd
      rw [Bool.not_eq_true] at hd
      split at hp
      · rename_i q qs heq
        rw [heq] at ih
        rcases List.mem_cons.1 hp with rfl | hp
        · rcases List.mem_cons.1 hc with rfl | hc
          · exact ⟨hd, List.mem_cons_self⟩
          · have hq := ih List.mem_cons_self hc
            exact ⟨hq.1, List.mem_cons_of_mem _ hq.2⟩
        · have hq := ih (List.mem_cons_of_mem _ hp) hc
          exact ⟨hq.1, List.mem_cons_of_mem _ hq.2⟩
      · rw [List.mem_singleton] at hp
        rw [hp, List.mem_singleton] at hc
        exact ⟨hc ▸ hd, hc ▸ List.mem_cons_self⟩

end Text

theorem Url.toList_segmentsText (segments : List String) :
    (segmentsText segments).toList = segments.flatMap fun s => '/' :: s.toList := by
  rw [segmentsText, String.toList_join, List.flatMap_map]
  congr 1
  funext s
  rw [String.toList_append]
  rfl

theorem Url.toList_segmentsText_cons (s : String) (segments : List String) :
    (segmentsText (s :: segments)).toList = '/' :: (s.toList ++ (segmentsText segments).toList) := by
  rw [toList_segmentsText, toList_segmentsText]
  rfl

namespace DiskPath

open Text

/-- A name that can stand between two slashes and leads from one place to another. -/
structure IsName (name : String) : Prop where
  ne_empty : name ≠ ""
  ne_dot : name ≠ "."
  ne_dots : name ≠ ".."
  no_slash : '/' ∉ name.toList

def ofNames (names : List String) : DiskPath := ⟨Url.segmentsText names⟩

theorem pieces_segmentsText {names : List String} (h : ∀ name ∈ names, '/' ∉ name.toList) :
    Text.pieces (· == '/') (Url.segmentsText names).toList = [] :: names.map String.toList := by
  induction names with
  | nil => rfl
  | cons name names ih =>
    have hname : Text.pieces (· == '/') name.toList = [name.toList] := by
      apply pieces_eq_singleton
      intro c hc
      apply beq_eq_false_iff_ne.2
      rintro rfl
      exact h name List.mem_cons_self hc
    have hnames := ih fun n hn => h n (List.mem_cons_of_mem _ hn)
    have hfront : ∀ cs : List Char,
        Text.pieces (· == '/') ('/' :: cs) = [] :: Text.pieces (· == '/') cs := fun _ => rfl
    rw [Url.toList_segmentsText_cons]
    cases names with
    | nil =>
      rw [Url.toList_segmentsText, List.flatMap_nil, List.append_nil, hfront, hname]
      rfl
    | cons next names =>
      rw [Url.toList_segmentsText_cons] at hnames ⊢
      rw [hfront] at hnames ⊢
      rw [pieces_append_cons rfl, hname, List.tail_eq_of_cons_eq hnames]
      rfl

theorem pieces_ofNames {names : List String} (h : ∀ name ∈ names, '/' ∉ name.toList) :
    (ofNames names).pieces = "" :: names := by
  rw [DiskPath.pieces, ofNames, pieces_segmentsText h]
  simp

theorem parts_ofNames {names : List String} (h : ∀ name ∈ names, IsName name) :
    (ofNames names).parts = names := by
  rw [parts, pieces_ofNames fun name hn => (h name hn).no_slash]
  change names.filter _ = names
  rw [List.filter_eq_self]
  intro name hn
  simp [(h name hn).ne_empty, (h name hn).ne_dot]

theorem isAbsolute_ofNames {names : List String} (h : names ≠ []) :
    (ofNames names).isAbsolute = true := by
  cases names with
  | nil => exact absurd rfl h
  | cons name names =>
    rw [isAbsolute, ofNames, Url.toList_segmentsText_cons]
    rfl

theorem of_mem_parts {path : DiskPath} (h : path.isAbsolute = true) {part : String}
    (hp : part ∈ path.parts) : part ≠ "" ∧ part ≠ "." ∧ part ∈ path.pieces := by
  rw [isAbsolute, beq_iff_eq] at h
  rw [parts] at hp
  cases htext : path.text.toList with
  | nil =>
    rw [htext] at h
    cases h
  | cons c cs =>
    rw [htext] at h
    cases h
    -- the first piece stands before the first slash, and is empty
    have hpieces : path.pieces = "" :: (Text.pieces (· == '/') cs).map String.ofList := by
      rw [DiskPath.pieces, htext]
      rfl
    rw [hpieces] at hp ⊢
    change part ∈ List.filter _ _ at hp
    rw [List.mem_filter] at hp
    simp only [bne_iff_ne, ne_eq, Bool.and_eq_true] at hp
    exact ⟨hp.2.1, hp.2.2, List.mem_cons_of_mem _ hp.1⟩

theorem of_mem_piece {path : DiskPath} {piece : String} (hp : piece ∈ path.pieces) {c : Char}
    (hc : c ∈ piece.toList) : c ≠ '/' ∧ c ∈ path.text.toList := by
  rw [DiskPath.pieces, List.mem_map] at hp
  obtain ⟨p, hp, rfl⟩ := hp
  rw [String.toList_ofList] at hc
  have h := of_mem_pieces hp hc
  exact ⟨beq_eq_false_iff_ne.1 h.1, h.2⟩

theorem no_slash_of_mem_parts {path : DiskPath} (h : path.isAbsolute = true) {part : String}
    (hpart : part ∈ path.parts) : '/' ∉ part.toList :=
  fun hc => (of_mem_piece (of_mem_parts h hpart).2.2 hc).1 rfl

theorem isName_of_mem_parts {path : DiskPath} (h : path.isAbsolute = true)
    (hdots : ".." ∉ path.parts) : ∀ part ∈ path.parts, IsName part := by
  intro part hpart
  obtain ⟨hempty, hdot, -⟩ := of_mem_parts h hpart
  exact ⟨hempty, hdot, fun heq => hdots (heq ▸ hpart), no_slash_of_mem_parts h hpart⟩

end DiskPath

namespace Disk

open DiskPath

variable {disk : Disk}

def bytesAt? (disk : Disk) (path : DiskPath) : Option (List UInt8) :=
  match disk.locate path with
  | .ok (_, .file content) => some content
  | _ => none

theorem read_eq_ok_iff {path : DiskPath} {text : String} :
    disk.read path = .ok text ↔
      ∃ content, disk.bytesAt? path = some content ∧ Text.decode? content = some text := by
  rw [read, bytesAt?]
  cases disk.locate path with
  | error fault => simp
  | ok found =>
    obtain ⟨place, node⟩ := found
    cases node with
    | directory => simp
    | file content =>
      cases htext : Text.decode? content with
      | none => simp [htext]
      | some text' => simp [htext]

theorem isFile_iff {path : DiskPath} :
    disk.isFile path = true ↔ ∃ content, disk.bytesAt? path = some content := by
  rw [isFile, bytesAt?]
  cases disk.locate path with
  | error fault => simp
  | ok found =>
    obtain ⟨place, node⟩ := found
    cases node <;> simp

theorem follow_append {place final : List String} {front back : List String} :
    disk.follow place (front ++ back) = .ok final ↔
      ∃ middle, disk.follow place front = .ok middle ∧ disk.follow middle back = .ok final := by
  induction front generalizing place with
  | nil => simp [follow]
  | cons piece front ih =>
    rw [List.cons_append, follow, follow]
    cases disk.node? place with
    | none => simp
    | some node =>
      cases node with
      | file content => simp
      | directory =>
        dsimp only
        split
        · exact ih
        · split
          · exact ih
          · split
            · simp
            · exact ih

theorem node?_of_follow_cons {place final : List String} {piece : String} {rest : List String}
    (h : disk.follow place (piece :: rest) = .ok final) : disk.node? place = some .directory := by
  rw [follow] at h
  cases hnode : disk.node? place with
  | none => simp [hnode] at h
  | some node =>
    cases node with
    | file content => simp [hnode] at h
    | directory => rfl

theorem follow_cons_of_isName {place final : List String} {name : String} {rest : List String}
    (hname : IsName name) (h : disk.follow place (name :: rest) = .ok final) :
    disk.follow (place ++ [name]) rest = .ok final := by
  have hnode := node?_of_follow_cons h
  rw [follow, hnode] at h
  simp only [hname.ne_empty, hname.ne_dot, hname.ne_dots, or_self, if_false] at h
  split at h
  · cases h
  · exact h

/-- Names lead to the place that they name. -/
theorem eq_of_follow {place final names : List String} (hnames : ∀ name ∈ names, IsName name)
    (h : disk.follow place names = .ok final) : final = place ++ names := by
  induction names generalizing place with
  | nil =>
    rw [follow] at h
    cases h
    exact (List.append_nil _).symm
  | cons name names ih =>
    have hnext := ih (fun n hn => hnames n (List.mem_cons_of_mem _ hn))
      (follow_cons_of_isName (hnames name List.mem_cons_self) h)
    rw [hnext, List.append_assoc]
    rfl

/-- The plain path along names leads to the file at that place, and has no zero byte. -/
theorem of_bytesAt? {names : List String} (hnames : ∀ name ∈ names, IsName name)
    {content : List UInt8} (h : disk.bytesAt? (ofNames names) = some content) :
    '\x00' ∉ (ofNames names).text.toList ∧ disk.follow [] names = .ok names ∧
      disk.node? names = some (.file content) := by
  have htop : disk.follow [] ("" :: names) = disk.follow [] names := rfl
  rw [bytesAt?, locate, pieces_ofNames fun name hmem => (hnames name hmem).no_slash, htop] at h
  split at h
  · rename_i place found heq
    cases h
    split at heq
    · cases heq
    · rename_i hzero
      split at heq
      · cases heq
      · cases hfollow : disk.follow [] names with
        | error fault =>
          rw [hfollow] at heq
          cases heq
        | ok final =>
          have hfinal : final = names := eq_of_follow hnames hfollow
          rw [hfollow, hfinal] at heq
          refine ⟨fun hmem => hzero (List.contains_iff_mem.2 hmem), by rw [hfinal], ?_⟩
          cases hnode : disk.node? names with
          | none => simp [hnode] at heq
          | some node =>
            simp only [hnode] at heq
            cases heq
            rfl
  · cases h

theorem node?_of_ne_nil {place : List String} (hne : place ≠ []) :
    disk.node? place = (disk.nodes.find? fun entry => entry.1 == place).map (·.2) := by
  rw [node?, if_neg (by simpa using hne)]

theorem mem_nodes_of_node? {place : List String} {node : Node} (hne : place ≠ [])
    (h : disk.node? place = some node) : (place, node) ∈ disk.nodes := by
  rw [node?_of_ne_nil hne] at h
  obtain ⟨entry, hentry, hnode⟩ := Option.map_eq_some_iff.1 h
  have hplace := List.find?_some hentry
  simp only [beq_iff_eq] at hplace
  rw [← hplace, ← hnode]
  exact List.mem_of_find?_eq_some hentry

theorem mem_nodes_of_file {place : List String} {content : List UInt8}
    (h : disk.node? place = some (.file content)) : (place, .file content) ∈ disk.nodes := by
  refine mem_nodes_of_node? ?_ h
  rintro rfl
  cases h

theorem mem_filesBelow_iff {place below : List String} :
    below ∈ disk.filesBelow place ↔ ∃ content, (place ++ below, .file content) ∈ disk.nodes := by
  rw [filesBelow, List.mem_filterMap]
  constructor
  · rintro ⟨⟨there, node⟩, hentry, hfile⟩
    cases node with
    | directory => cases hfile
    | file content =>
      simp only [List.isPrefixOf_iff_prefix] at hfile
      split at hfile
      · rename_i hprefix
        obtain ⟨rest, rfl⟩ := hprefix
        rw [List.drop_left, Option.some.injEq] at hfile
        exact ⟨content, hfile ▸ hentry⟩
      · cases hfile
  · rintro ⟨content, hentry⟩
    exact ⟨_, hentry, by simp⟩

/-- Empty pieces and dots can be left out of the way to a place. -/
theorem follow_filter {place final pieces : List String} (h : disk.follow place pieces = .ok final) :
    disk.follow place (pieces.filter fun piece => piece != "" && piece != ".") = .ok final := by
  induction pieces generalizing place with
  | nil => exact h
  | cons piece pieces ih =>
    have hplace := node?_of_follow_cons h
    rw [follow, hplace] at h
    by_cases hskip : piece = "" ∨ piece = "."
    · rw [List.filter_cons, if_neg (by rcases hskip with rfl | rfl <;> decide)]
      simp only [if_pos hskip] at h
      exact ih h
    · have hkeep : (piece != "" && piece != ".") = true := by simpa [not_or] using hskip
      rw [List.filter_cons, if_pos hkeep, follow, hplace]
      simp only [if_neg hskip] at h ⊢
      by_cases hdots : piece = ".."
      · rw [if_pos hdots] at h ⊢
        exact ih h
      · rw [if_neg hdots] at h ⊢
        by_cases hsize : piece.utf8ByteSize > maxName
        · rw [if_pos hsize] at h
          cases h
        · rw [if_neg hsize] at h ⊢
          exact ih h

theorem of_locate {path : DiskPath} {place : List String} {node : Node}
    (h : disk.locate path = .ok (place, node)) :
    '\x00' ∉ path.text.toList ∧ path.isAbsolute = true ∧ disk.follow [] path.pieces = .ok place ∧
      disk.node? place = some node := by
  rw [locate] at h
  split at h
  · cases h
  · rename_i hzero
    split at h
    · cases h
    · rename_i habsolute
      cases hfollow : disk.follow [] path.pieces with
      | error fault => simp [hfollow] at h
      | ok final =>
        cases hnode : disk.node? final with
        | none => simp [hfollow, hnode] at h
        | some found =>
          simp only [hfollow, hnode] at h
          cases h
          simp only [List.contains_iff_mem] at hzero
          exact ⟨hzero, by simpa using habsolute, rfl, hnode⟩

theorem exists_locate_of_isFile {path : DiskPath} (h : disk.isFile path = true) :
    ∃ place content, disk.locate path = .ok (place, .file content) := by
  rw [isFile] at h
  split at h
  · rename_i place content heq
    exact ⟨place, content, heq⟩
  · cases h

/-- A path that ends in a slash or a dot leads to no file. -/
theorem bytesAt?_of_end {path : DiskPath} (pieces : List String) {last : String}
    (h : path.pieces = pieces ++ [last]) (hlast : last = "" ∨ last = ".") :
    disk.bytesAt? path = none := by
  rw [bytesAt?]
  split
  · rename_i place content hlocate
    obtain ⟨-, -, hfollow, hnode⟩ := of_locate hlocate
    rw [h] at hfollow
    obtain ⟨middle, -, hend⟩ := follow_append.1 hfollow
    have hdirectory := node?_of_follow_cons hend
    rw [follow, hdirectory] at hend
    simp only [if_pos hlast, follow] at hend
    cases hend
    rw [hdirectory] at hnode
    cases hnode
  · rfl

end Disk
end ScriptIndex
