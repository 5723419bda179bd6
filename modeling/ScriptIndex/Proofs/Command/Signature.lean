import Mathlib.Algebra.Group.Nat.Defs
import ScriptIndex.Command.Basic
import ScriptIndex.Proofs.Text.Bytes

/-!
# The ranges of a signature

A signature shows a call of a command with a text for each parameter. Before a parameter stand the name,
the parenthesis, and the texts of the parameters before it with the separator behind each. The range of a
parameter starts behind all of these, so it cuts the text of the parameter out of the label.
-/
namespace ScriptIndex

open Text

section Joined

variable {α : Type} (sep : List α) {parts : List (List α)} {i : Nat}

/-- Joined parts, with the separator behind each of those before number `i`. -/
theorem intercalate_eq_append (h : i < parts.length) :
    sep.intercalate parts = (parts.take i).flatMap (· ++ sep) ++ sep.intercalate (parts.drop i) := by
  induction parts generalizing i with
  | nil => simp at h
  | cons first later ih =>
    cases i with
    | zero => simp
    | succ i =>
      rw [List.length_cons, Nat.succ_lt_succ_iff] at h
      have hne : later ≠ [] := List.ne_nil_of_length_pos (Nat.zero_lt_of_lt h)
      rw [List.intercalate_cons_of_ne_nil hne, ih h]
      simp

theorem exists_intercalate_eq {part : List α} (h : parts[i]? = some part) :
    ∃ rest, sep.intercalate parts = (parts.take i).flatMap (· ++ sep) ++ (part ++ rest) := by
  obtain ⟨hlt, rfl⟩ := List.getElem?_eq_some_iff.1 h
  rw [intercalate_eq_append sep hlt, List.drop_eq_getElem_cons hlt]
  cases parts.drop (i + 1) with
  | nil => exact ⟨[], by simp⟩
  | cons next later =>
    exact ⟨sep ++ sep.intercalate (next :: later), by simp [List.intercalate_cons_cons]⟩

theorem intercalate_of_last {part : List α} (h : parts[i]? = some part)
    (hlast : parts.length = i + 1) :
    sep.intercalate parts = (parts.take i).flatMap (· ++ sep) ++ part := by
  obtain ⟨hlt, rfl⟩ := List.getElem?_eq_some_iff.1 h
  rw [intercalate_eq_append sep hlt, List.drop_eq_getElem_cons hlt,
    List.drop_eq_nil_of_le (Nat.le_of_eq hlast), List.intercalate_singleton]

end Joined

namespace Command

/-- Texts that others come after. -/
def separated (texts : List (List Char)) : List Char := texts.flatMap (· ++ [',', ' '])

theorem byteLength_separated_cons (text : String) (texts : List (List Char)) :
    byteLength (separated (text.toList :: texts)) =
      text.utf8ByteSize + 2 + byteLength (separated texts) := by
  rw [separated, List.flatMap_cons, byteLength_append, byteLength_append, byteLength_toList]
  rfl

theorem getElem?_rangesFrom (start : Nat) (texts : List String) (i : Nat) :
    (rangesFrom start texts)[i]? = ((texts.map String.toList)[i]?).map fun text =>
      let first := start + byteLength (separated ((texts.map String.toList).take i))
      (clip first, clip (first + byteLength text)) := by
  induction texts generalizing start i with
  | nil => rfl
  | cons text texts ih =>
    cases i with
    | zero => simp [rangesFrom, separated, byteLength_toList]
    | succ i =>
      -- the later ranges start behind the first text and its separator
      rw [List.map_cons, List.take_succ_cons, byteLength_separated_cons]
      have hlater := ih (start + text.utf8ByteSize + 2) i
      simpa only [rangesFrom, List.getElem?_cons_succ, Nat.add_assoc] using hlater

theorem length_rangesFrom (start : Nat) (texts : List String) :
    (rangesFrom start texts).length = texts.length := by
  induction texts generalizing start with
  | nil => rfl
  | cons text texts ih => rw [rangesFrom, List.length_cons, ih, List.length_cons]

def texts (c : Command) : List (List Char) := c.parameters.map fun p => p.label.toList

def front (c : Command) (i : Nat) : List Char := (c.name ++ "(").toList ++ separated (c.texts.take i)

variable {c : Command} {i : Nat} {text : List Char}

theorem toList_label (c : Command) : c.signature.label.toList =
    (c.name ++ "(").toList ++ ([',', ' '].intercalate c.texts ++ [')']) := by
  simp [signature, texts, Function.comp_def]

theorem front_succ (h : c.texts[i]? = some text) :
    c.front (i + 1) = c.front i ++ text ++ [',', ' '] := by
  simp [front, separated, List.take_add_one, h]

theorem exists_label_eq (h : c.texts[i]? = some text) :
    ∃ rest, c.signature.label.toList = c.front i ++ text ++ rest := by
  obtain ⟨rest, hrest⟩ := exists_intercalate_eq [',', ' '] h
  exact ⟨rest ++ [')'], by simp [toList_label, hrest, front, separated]⟩

theorem label_of_last (h : c.texts[i]? = some text) (hlast : c.texts.length = i + 1) :
    c.signature.label.toList = c.front i ++ text ++ [')'] := by
  simp [toList_label, intercalate_of_last _ h hlast, front, separated]

section Ranges

variable (hsize : c.signature.label.utf8ByteSize < 2 ^ 32)

include hsize

/-- In a label that is not too long to count, a range starts where its parameter starts and stops where it
stops. -/
theorem getElem?_ranges (i : Nat) : c.signature.ranges[i]? = (c.texts[i]?).map fun text =>
    (byteLength (c.front i), byteLength (c.front i ++ text)) := by
  have htexts : (c.parameters.map Param.label).map String.toList = c.texts := List.map_map
  rw [signature, getElem?_rangesFrom, htexts]
  cases htext : c.texts[i]? with
  | none => rfl
  | some text =>
    obtain ⟨rest, hrest⟩ := exists_label_eq htext
    have hstop : byteLength (c.front i) + byteLength text ≤ maxCount := by
      rw [← byteLength_toList, hrest, byteLength_append, byteLength_append] at hsize
      rw [maxCount]
      omega
    have hstart : c.name.utf8ByteSize + 1 + byteLength (separated (c.texts.take i)) =
        byteLength (c.front i) := by
      rw [front, byteLength_append, byteLength_toList, String.utf8ByteSize_append]
      rfl
    simp only [Option.map_some, byteLength_append]
    rw [hstart, clip_of_le hstop, clip_of_le (Nat.le_trans (Nat.le_add_right _ _) hstop)]

variable {start stop : Nat}

theorem exists_text_of_range (h : c.signature.ranges[i]? = some (start, stop)) :
    ∃ text, c.texts[i]? = some text ∧ start = byteLength (c.front i) ∧
      stop = byteLength (c.front i ++ text) := by
  rw [getElem?_ranges hsize] at h
  obtain ⟨text, htext, hrange⟩ := Option.map_eq_some_iff.1 h
  obtain ⟨rfl, rfl⟩ := Prod.mk.inj hrange
  exact ⟨text, htext, rfl, rfl⟩

theorem take_of_first (h : c.signature.ranges[0]? = some (start, stop)) :
    (bytes c.signature.label.toList).take start = bytes (c.name ++ "(").toList := by
  obtain ⟨text, htext, rfl, -⟩ := exists_text_of_range hsize h
  obtain ⟨rest, hlabel⟩ := exists_label_eq htext
  have hfront : c.front 0 = (c.name ++ "(").toList := by simp [front, separated]
  rw [hlabel, List.append_assoc, bytes_append, ← length_bytes, List.take_left, hfront]

theorem extract_of_next {next last : Nat} (h : c.signature.ranges[i]? = some (start, stop))
    (hnext : c.signature.ranges[i + 1]? = some (next, last)) :
    next = stop + 2 ∧ (bytes c.signature.label.toList).extract stop next = bytes [',', ' '] := by
  obtain ⟨text, htext, -, rfl⟩ := exists_text_of_range hsize h
  obtain ⟨later, hlater, rfl, -⟩ := exists_text_of_range hsize hnext
  obtain ⟨rest, hlabel⟩ := exists_label_eq hlater
  rw [front_succ htext, List.append_assoc, List.append_assoc] at hlabel
  rw [hlabel, front_succ htext, byteLength_append _ [',', ' '], extract_bytes]
  exact ⟨rfl, rfl⟩

theorem drop_of_last (h : c.signature.ranges[i]? = some (start, stop))
    (hlast : c.texts.length = i + 1) :
    (bytes c.signature.label.toList).drop stop = bytes [')'] := by
  obtain ⟨text, htext, -, rfl⟩ := exists_text_of_range hsize h
  rw [label_of_last htext hlast, bytes_append, ← length_bytes, List.drop_left]

end Ranges

/-- A signature shows the name and the parameters of a command, and has a range for each parameter in order.
The ranges cut the parameters out of the label. The first starts behind the opening parenthesis, each other
one behind the separator after the one before it, and the last stops at the closing parenthesis. -/
theorem ranges_cut_out_parameters (c : Command)
    (hsize : c.signature.label.utf8ByteSize < 2 ^ 32) :
    let label := bytes c.signature.label.toList
    let ranges := c.signature.ranges
    c.signature.label = c.name ++ "(" ++ ", ".intercalate (c.parameters.map Param.label) ++ ")" ∧
    ranges.length = c.parameters.length ∧
    (∀ (i : Nat) (p : Param), c.parameters[i]? = some p →
      ∃ start stop, ranges[i]? = some (start, stop) ∧ start ≤ stop ∧
        label.extract start stop = bytes p.label.toList) ∧
    (∀ start stop, ranges.head? = some (start, stop) →
      label.take start = bytes (c.name ++ "(").toList) ∧
    (∀ (i : Nat) start stop next last, ranges[i]? = some (start, stop) →
      ranges[i + 1]? = some (next, last) →
        next = stop + 2 ∧ label.extract stop next = bytes ", ".toList) ∧
    ∀ start stop, ranges.getLast? = some (start, stop) → label.drop stop = bytes ")".toList := by
  intro label ranges
  have hlength : ranges.length = c.parameters.length := by
    rw [← List.length_map Param.label]
    exact length_rangesFrom _ _
  refine ⟨rfl, hlength, ?_, ?_, ?_, ?_⟩
  · intro i p hp
    have htext : c.texts[i]? = some p.label.toList := by simp [texts, hp]
    obtain ⟨rest, hlabel⟩ := exists_label_eq htext
    refine ⟨byteLength (c.front i), byteLength (c.front i ++ p.label.toList), ?_, ?_, ?_⟩
    · rw [getElem?_ranges hsize, htext, Option.map_some]
    · rw [byteLength_append]
      exact Nat.le_add_right _ _
    · have hbytes : label = bytes (c.front i ++ (p.label.toList ++ rest)) := by
        rw [← List.append_assoc, ← hlabel]
      rw [hbytes, byteLength_append, extract_bytes]
  · intro start stop hrange
    rw [List.head?_eq_getElem?] at hrange
    exact take_of_first hsize hrange
  · intro i start stop next last hrange hnext
    exact extract_of_next hsize hrange hnext
  · intro start stop hrange
    rw [List.getLast?_eq_getElem?] at hrange
    have hlt : ranges.length - 1 < ranges.length := (List.getElem?_eq_some_iff.1 hrange).1
    apply drop_of_last hsize hrange
    rw [texts, List.length_map]
    omega

/-- A name of two bytes, a parameter without a name, an empty value and a last parameter of two bytes. -/
theorem ranges_cut_out_parameters_unnamed :
    let c : Command :=
      { name := "é", kind := .macroCall,
        parameters := [⟨"", .required⟩, ⟨"x", .withDefault ""⟩, ⟨"ü", .vararg⟩] }
    c.signature.label.utf8ByteSize < 2 ^ 32 ∧ c.signature.ranges = [(3, 3), (5, 7), (9, 14)] ∧
      (bytes "é(, x=, ü...)".toList).extract 7 9 = bytes ", ".toList ∧
      (bytes "é(, x=, ü...)".toList).drop 14 = bytes ")".toList := by
  intro c
  have hsize : c.signature.label.utf8ByteSize < 2 ^ 32 := by decide +kernel
  have hranges : c.signature.ranges = [(3, 3), (5, 7), (9, 14)] := by decide +kernel
  have hlabel : c.signature.label = "é(, x=, ü...)" := by decide +kernel
  obtain ⟨-, -, -, -, hbetween, hlast⟩ := ranges_cut_out_parameters c hsize
  rw [hlabel, hranges] at hlast
  rw [hlabel, hranges] at hbetween
  exact ⟨hsize, hranges, (hbetween 1 5 7 9 14 rfl rfl).2, hlast 9 14 rfl⟩

end Command
end ScriptIndex
