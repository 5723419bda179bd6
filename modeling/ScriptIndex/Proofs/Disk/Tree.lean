import Mathlib.Data.List.Induction
import ScriptIndex.Proofs.Disk

/-!
# Disks as trees

A file system keeps what is at a place once, below directories only, and under names that can stand in a
path or under bytes that are no text. The disks that are made by writing and removing files are such
trees, since no file is written below another one. On a tree the plain path along the names of a place
leads to it.
-/
namespace ScriptIndex.Disk

open DiskPath

/-- A name that a file system takes. -/
structure LegalName (name : String) : Prop extends IsName name where
  no_zero : '\x00' ∉ name.toList
  short : name.utf8ByteSize ≤ maxName

instance (name : String) : Decidable (LegalName name) :=
  decidable_of_iff (name ≠ "" ∧ name ≠ "." ∧ name ≠ ".." ∧ '/' ∉ name.toList ∧
      '\x00' ∉ name.toList ∧ name.utf8ByteSize ≤ maxName)
    ⟨fun ⟨hempty, hdot, hdots, hslash, hzero, hshort⟩ => ⟨⟨hempty, hdot, hdots, hslash⟩, hzero, hshort⟩,
      fun h => ⟨h.ne_empty, h.ne_dot, h.ne_dots, h.no_slash, h.no_zero, h.short⟩⟩

/-- The names of a stray, from the first one that is no text. -/
structure StrayNames (names : List (List UInt8)) : Prop where
  first : ∃ name rest, names = name :: rest ∧ Text.decode? name = none
  no_slash : ∀ name ∈ names, 0x2F ∉ name

/-- A disk as file systems keep it. -/
structure IsTree (disk : Disk) : Prop where
  once : disk.nodes.Pairwise fun a b => a.1 ≠ b.1
  legal : ∀ entry ∈ disk.nodes, ∀ name ∈ entry.1, LegalName name
  below : ∀ entry ∈ disk.nodes, entry.1 ≠ [] ∧ disk.node? entry.1.dropLast = some .directory
  strays : ∀ stray ∈ disk.strays, disk.node? stray.1 = some .directory ∧ StrayNames stray.2

variable {disk : Disk} {place : List String} {node : Node}

theorem node?_erase (disk : Disk) (place other : List String) :
    (disk.erase place).node? other =
      if other ≠ [] ∧ other = place then none else disk.node? other := by
  by_cases htop : other = []
  · rw [htop]
    rfl
  · rw [node?_of_ne_nil htop, node?_of_ne_nil htop, erase, List.find?_filter]
    by_cases hsame : other = place
    · rw [if_pos ⟨htop, hsame⟩, hsame]
      simp
    · rw [if_neg fun h => hsame h.2]
      congr 2
      funext entry
      by_cases hentry : entry.1 = other
      · simp [hentry, hsame]
      · simp [hentry]

theorem node?_insert (disk : Disk) (place : List String) (node : Node) (other : List String) :
    (disk.insert place node).node? other =
      if other ≠ [] ∧ other = place then some node else disk.node? other := by
  by_cases htop : other = []
  · rw [htop]
    rfl
  · have herase := node?_erase disk place other
    rw [node?_of_ne_nil htop] at herase
    rw [node?_of_ne_nil htop, insert, List.find?_cons]
    by_cases hsame : other = place
    · rw [if_pos ⟨htop, hsame⟩, hsame]
      simp
    · have hne : (place == other) = false := beq_eq_false_iff_ne.2 (Ne.symm hsame)
      rw [if_neg fun h => hsame h.2] at herase ⊢
      rw [hne]
      exact herase

theorem node?_makeDirectory (disk : Disk) (place other : List String) :
    (disk.makeDirectory place).node? other =
      if other = place ∧ disk.node? place = none then some .directory else disk.node? other := by
  rw [makeDirectory]
  cases hnode : disk.node? place with
  | some node => simp
  | none =>
    have hne : place ≠ [] := by
      rintro rfl
      cases hnode
    simp only [Option.isSome_none, Bool.false_eq_true, if_false, and_true, node?_insert]
    by_cases hsame : other = place
    · rw [if_pos ⟨hsame ▸ hne, hsame⟩, if_pos hsame]
    · rw [if_neg fun h => hsame h.2, if_neg hsame]

/-- Directories stay when something stands where there was none. -/
theorem directory_insert {other : List String} (hfree : disk.node? place ≠ some .directory)
    (h : disk.node? other = some .directory) (node : Node) :
    (disk.insert place node).node? other = some .directory := by
  rw [node?_insert, if_neg, h]
  rintro ⟨-, heq⟩
  exact hfree (heq ▸ h)

namespace IsTree

theorem node?_of_mem (h : disk.IsTree) (hmem : (place, node) ∈ disk.nodes) :
    disk.node? place = some node := by
  rw [node?_of_ne_nil (h.below _ hmem).1]
  obtain ⟨front, back, hnodes⟩ := List.append_of_mem hmem
  have honce := h.once
  rw [hnodes, List.pairwise_append] at honce
  have hfront : front.find? (fun entry => entry.1 == place) = none := by
    rw [List.find?_eq_none]
    intro entry hentry
    simpa using honce.2.2 entry hentry _ List.mem_cons_self
  rw [hnodes, List.find?_append, hfront]
  simp

theorem legalName (h : disk.IsTree) (hnode : disk.node? place = some node) :
    ∀ name ∈ place, LegalName name := by
  by_cases hne : place = []
  · simp [hne]
  · exact h.legal _ (mem_nodes_of_node? hne hnode)

/-- The names of a place lead to it. -/
theorem follow_eq (h : disk.IsTree) (hnode : disk.node? place = some node) :
    disk.follow [] place = .ok place := by
  induction place using List.reverseRecOn generalizing node with
  | nil => rfl
  | append_singleton front name ih =>
    have hlegal := h.legalName hnode name (List.mem_append_right _ List.mem_cons_self)
    have hparent := (h.below _ (mem_nodes_of_node? (by simp) hnode)).2
    rw [List.dropLast_concat] at hparent
    refine follow_append.2 ⟨front, ih hparent, ?_⟩
    rw [follow, hparent]
    simp only [hlegal.ne_empty, hlegal.ne_dot, hlegal.ne_dots, or_self, if_false]
    rw [if_neg (Nat.not_lt.2 hlegal.short), follow]

theorem locate_ofNames (h : disk.IsTree) (hne : place ≠ []) (hnode : disk.node? place = some node) :
    disk.locate (ofNames place) = .ok (place, node) := by
  have hlegal := h.legalName hnode
  have hclean : ¬(ofNames place).text.toList.contains '\x00' = true := by
    rw [List.contains_iff_mem, ofNames, Url.toList_segmentsText, List.mem_flatMap]
    rintro ⟨name, hname, hc⟩
    rcases List.mem_cons.1 hc with heq | hc
    · cases heq
    · exact (hlegal name hname).no_zero hc
  have hfollow : disk.follow [] ("" :: place) = .ok place := h.follow_eq hnode
  rw [locate, if_neg hclean, isAbsolute_ofNames hne,
    pieces_ofNames fun name hname => (hlegal name hname).no_slash, hfollow]
  simp [hnode]

/-- Something new can stand where there is no directory yet, if there is one to hold it. -/
theorem insert (h : disk.IsTree) (hlegal : ∀ name ∈ place, LegalName name) (hne : place ≠ [])
    (hparent : disk.node? place.dropLast = some .directory)
    (hfree : disk.node? place ≠ some .directory) (node : Node) : (disk.insert place node).IsTree := by
  have hkept : ∀ {entry}, entry ∈ disk.nodes.filter (fun entry => entry.1 != place) →
      entry ∈ disk.nodes ∧ entry.1 ≠ place := by
    intro entry hentry
    simpa using List.mem_filter.1 hentry
  refine ⟨?_, ?_, ?_, ?_⟩
  · exact List.pairwise_cons.2 ⟨fun entry hentry => (hkept hentry).2.symm, h.once.filter _⟩
  · intro entry hentry
    rcases List.mem_cons.1 hentry with rfl | hentry
    · exact hlegal
    · exact h.legal entry (hkept hentry).1
  · intro entry hentry
    rcases List.mem_cons.1 hentry with rfl | hentry
    · exact ⟨hne, directory_insert hfree hparent node⟩
    · obtain ⟨hne', hdirectory⟩ := h.below entry (hkept hentry).1
      exact ⟨hne', directory_insert hfree hdirectory node⟩
  · intro stray hstray
    obtain ⟨hdirectory, hnames⟩ := h.strays stray hstray
    exact ⟨directory_insert hfree hdirectory node, hnames⟩

theorem makeDirectory (h : disk.IsTree) (hlegal : ∀ name ∈ place, LegalName name)
    (hparent : place ≠ [] → disk.node? place.dropLast = some .directory) :
    (disk.makeDirectory place).IsTree := by
  rw [Disk.makeDirectory]
  cases hnode : disk.node? place with
  | some node => exact h
  | none =>
    have hne : place ≠ [] := by
      rintro rfl
      cases hnode
    exact h.insert hlegal hne (hparent hne) (by simp [hnode]) .directory

/-- A file can be taken away: nothing stands below it. -/
theorem erase (h : disk.IsTree) {content : List UInt8} (hfile : disk.node? place = some (.file content)) :
    (disk.erase place).IsTree := by
  have hkept : ∀ {other}, disk.node? other = some .directory →
      (disk.erase place).node? other = some .directory := by
    intro other hdirectory
    rw [node?_erase, if_neg, hdirectory]
    rintro ⟨-, heq⟩
    rw [heq, hfile] at hdirectory
    cases hdirectory
  refine ⟨h.once.filter _, fun entry hentry => h.legal entry (List.mem_filter.1 hentry).1, ?_, ?_⟩
  · intro entry hentry
    obtain ⟨hne, hdirectory⟩ := h.below entry (List.mem_filter.1 hentry).1
    exact ⟨hne, hkept hdirectory⟩
  · intro stray hstray
    obtain ⟨hdirectory, hnames⟩ := h.strays stray hstray
    exact ⟨hkept hdirectory, hnames⟩

theorem remove (h : disk.IsTree) (path : DiskPath) : (disk.remove path).2.IsTree := by
  rw [Disk.remove]
  split
  · rename_i hlocate
    exact h.erase (of_locate hlocate).2.2.2
  · exact h

end IsTree

/-- A path at which a file system writes: its names are legal, and no file is in the way. -/
structure Writable (disk : Disk) (path : DiskPath) : Prop where
  legal : ∀ name ∈ placeOf path, LegalName name
  way : ∀ n < (placeOf path).length, disk.node? ((placeOf path).take n) = none ∨
    disk.node? ((placeOf path).take n) = some .directory

instance (disk : Disk) (path : DiskPath) : Decidable (disk.Writable path) :=
  decidable_of_iff ((∀ name ∈ placeOf path, LegalName name) ∧
      ∀ n < (placeOf path).length, disk.node? ((placeOf path).take n) = none ∨
        disk.node? ((placeOf path).take n) = some .directory)
    ⟨fun h => ⟨h.1, h.2⟩, fun h => ⟨h.legal, h.way⟩⟩

/-- The disk with directories at the first places on the way to a place. -/
def withWay (disk : Disk) (place : List String) (n : Nat) : Disk :=
  ((List.range n).map place.take).foldl makeDirectory disk

theorem withWay_succ (disk : Disk) (place : List String) (n : Nat) :
    disk.withWay place (n + 1) = (disk.withWay place n).makeDirectory (place.take n) := by
  rw [withWay, withWay, List.range_succ, List.map_append, List.foldl_append]
  rfl

/-- What making one directory after the other leads to: a tree with directories so far, and the rest of
the way as it was. -/
structure WayMade (disk : Disk) (place : List String) (n : Nat) : Prop where
  isTree : (disk.withWay place n).IsTree
  made : ∀ m < n, (disk.withWay place n).node? (place.take m) = some .directory
  ahead : ∀ m, n ≤ m → m ≤ place.length →
    (disk.withWay place n).node? (place.take m) = disk.node? (place.take m)

theorem wayMade (h : disk.IsTree) (hlegal : ∀ name ∈ place, LegalName name)
    (hway : ∀ n < place.length, disk.node? (place.take n) = none ∨
      disk.node? (place.take n) = some .directory) {n : Nat} (hn : n ≤ place.length) :
    WayMade disk place n := by
  induction n with
  | zero => exact ⟨h, fun m hm => absurd hm (Nat.not_lt_zero m), fun _ _ _ => rfl⟩
  | succ n ih =>
    have hbefore := ih (Nat.le_of_succ_le hn)
    have hhere := hbefore.ahead n (Nat.le_refl n) (Nat.le_of_succ_le hn)
    have hlength : (place.take n).length = n := by rw [List.length_take]; omega
    refine ⟨?_, ?_, ?_⟩
    · rw [withWay_succ]
      refine hbefore.isTree.makeDirectory (fun name hmem => hlegal name (List.mem_of_mem_take hmem)) ?_
      intro hne
      have hpos := List.length_pos_iff.2 hne
      rw [List.dropLast_take (by omega)]
      exact hbefore.made _ (by omega)
    · intro m hm
      rw [withWay_succ, node?_makeDirectory]
      split
      · rfl
      · rename_i hkept
        rcases Nat.lt_succ_iff_lt_or_eq.1 hm with hlt | rfl
        · exact hbefore.made m hlt
        · rw [hhere]
          refine (hway m hn).resolve_left fun hnone => hkept ⟨rfl, ?_⟩
          rw [hhere, hnone]
    · intro m hm hle
      rw [withWay_succ, node?_makeDirectory, if_neg]
      · exact hbefore.ahead m (Nat.le_of_succ_le hm) hle
      · rintro ⟨heq, -⟩
        have := congrArg List.length heq
        rw [hlength, List.length_take] at this
        omega

theorem IsTree.write (h : disk.IsTree) {path : DiskPath} (hpath : disk.Writable path) (node : Node) :
    (disk.write path node).IsTree := by
  have hmade := wayMade h hpath.legal hpath.way (Nat.le_refl _)
  change (if (disk.withWay (placeOf path) (placeOf path).length).node? (placeOf path) =
    some .directory then _ else _ : Disk).IsTree
  split
  · exact hmade.isTree
  · rename_i hfree
    have hne : placeOf path ≠ [] := by
      intro htop
      rw [htop] at hfree
      exact hfree rfl
    refine hmade.isTree.insert hpath.legal hne ?_ hfree node
    rw [List.dropLast_eq_take]
    exact hmade.made _ (Nat.sub_lt (List.length_pos_iff.2 hne) Nat.one_pos)

/-- The disk with one more file along names that are not all texts. -/
def addStray (disk : Disk) (directory : List String) (names : List (List UInt8)) : Disk :=
  { disk with strays := (directory, names) :: disk.strays }

theorem IsTree.addStray (h : disk.IsTree) {names : List (List UInt8)}
    (hdirectory : disk.node? place = some .directory) (hnames : StrayNames names) :
    (disk.addStray place names).IsTree := by
  refine ⟨h.once, h.legal, h.below, fun stray hstray => ?_⟩
  rcases List.mem_cons.1 hstray with rfl | hstray
  · exact ⟨hdirectory, hnames⟩
  · exact h.strays stray hstray

/-- The disks that are made from an empty one by writing and removing. -/
inductive Made : Disk → Prop where
  | empty : Made {}
  | stray {disk : Disk} {directory : List String} {names : List (List UInt8)} :
    Made disk → disk.node? directory = some .directory → StrayNames names →
      Made (disk.addStray directory names)
  | write {disk : Disk} {path : DiskPath} (node : Node) :
    Made disk → disk.Writable path → Made (disk.write path node)
  | remove {disk : Disk} (path : DiskPath) : Made disk → Made (disk.remove path).2

theorem Made.isTree (h : Made disk) : disk.IsTree := by
  induction h with
  | empty =>
    exact ⟨List.Pairwise.nil, fun _ h => absurd h List.not_mem_nil, fun _ h => absurd h List.not_mem_nil,
      fun _ h => absurd h List.not_mem_nil⟩
  | stray _ hdirectory hnames ih => exact ih.addStray hdirectory hnames
  | write node _ hpath ih => exact ih.write hpath node
  | remove path _ ih => exact ih.remove path

end ScriptIndex.Disk
