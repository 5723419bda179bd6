import Mathlib.Data.List.Forall2
import ScriptIndex.Constant
import ScriptIndex.Cursor.CallSite
import ScriptIndex.Proofs.Comment.Escapes
import ScriptIndex.Proofs.Text.Lines
import ScriptIndex.Symbol

/-!
# What a comment says

A comment is cut off at its marker before a line is searched for declarations, for the word under the
cursor or for a call, so what it says makes no difference to any of them. The cut is made by counting
bytes. Where a marker starts a comment is decided by the bytes up to the marker, and so it stays there
when the text after it becomes another one, a carriage return at the end of the line included.
-/
namespace ScriptIndex

namespace Comment

open Text

theorem start_le (bs : List UInt8) : start bs ≤ bs.length := by
  fun_induction start bs with
  | case1 => simp
  | case2 => simp
  | case3 b hb => simp
  | case4 c bs ih => simpa using ih
  | case5 c bs => simp
  | case6 b c bs hb hhash hslash => simp
  | case7 b c bs hb hhash hslash ih => simpa using ih

/-- What is cut off begins with a byte of a marker. -/
theorem getElem?_start {bs : List UInt8} (h : start bs < bs.length) :
    bs[start bs]? = some 0x23 ∨ bs[start bs]? = some 0x2F := by
  fun_induction start bs with
  | case1 => simp at h
  | case2 => simp
  | case3 b hb => simp at h
  | case4 c bs ih => simpa using ih (by simpa using h)
  | case5 c bs => simp
  | case6 b c bs hb hhash hslash => simp [hslash]
  | case7 b c bs hb hhash hslash ih => simpa using ih (by simpa using h)

/-- The place of a comment does not depend on what it says. -/
theorem start_append_marker (marker : Marker) (rest other : List UInt8) :
    ∀ front : List UInt8, start (front ++ (bytes marker.chars ++ rest)) = front.length →
      start (front ++ (bytes marker.chars ++ other)) = front.length
  | [], _ => start_marker marker other
  | [b], h => by
    have hmarker : ∃ m ms, bytes marker.chars = m :: ms := by
      cases marker with
      | hash => exact ⟨0x23, [], rfl⟩
      | slashes => exact ⟨0x2F, [0x2F], rfl⟩
    have hnext := start_marker marker other
    obtain ⟨m, ms, hms⟩ := hmarker
    simp only [hms, List.cons_append, List.nil_append, start, List.length_singleton] at h hnext ⊢
    split_ifs at h ⊢ <;> omega
  | b :: c :: front, h => by
    have hnext := start_append_marker marker rest other (c :: front)
    have hskip := start_append_marker marker rest other front
    simp only [List.cons_append, start, List.length_cons] at h hnext ⊢
    split_ifs at h ⊢
    · rw [hskip (by omega)]
    · rw [hnext (by omega)]

/-- The code of a line stays the same when its comment says something else. -/
theorem before_append_marker (marker : Marker) {code body : List Char} (other : List Char)
    (h : before (code ++ (marker.chars ++ body)) = code) :
    before (code ++ (marker.chars ++ other)) = code := by
  have hmarker : ∃ c cs, marker.chars = c :: cs ∧ c.utf8Size = 1 := by
    cases marker with
    | hash => exact ⟨'#', [], rfl, rfl⟩
    | slashes => exact ⟨'/', ['/'], rfl, rfl⟩
  have hstart : start (bytes code ++ (bytes marker.chars ++ bytes body)) = (bytes code).length := by
    obtain ⟨c, cs, hchars, hsize⟩ := hmarker
    rw [before, hchars, List.cons_append] at h
    rw [length_bytes, ← eq_byteLength_of_takeBytes h hsize, hchars]
    simp
  have hother := start_append_marker marker (bytes body) (bytes other) (bytes code) hstart
  rw [before, bytes_append, bytes_append, hother, length_bytes, takeBytes_byteLength]

/-- Lines that differ at most in what their comment says. -/
inductive SameCode : List Char → List Char → Prop
  | same (line : List Char) : SameCode line line
  | recommented {code body : List Char} (marker : Marker) (other : List Char)
      (h : before (code ++ (marker.chars ++ body)) = code) :
      SameCode (code ++ (marker.chars ++ body)) (code ++ (marker.chars ++ other))

theorem SameCode.before_eq {line other : List Char} (h : SameCode line other) :
    before line = before other := by
  cases h with
  | same => rfl
  | recommented marker other h => rw [h, before_append_marker marker other h]

theorem SameCode.withoutReturn {row other : List Char} (h : SameCode row other) :
    SameCode (withoutReturn row) (withoutReturn other) := by
  cases h with
  | same => exact .same _
  | @recommented code body marker other h =>
    have hsplit (text : List Char) : Text.withoutReturn (code ++ (marker.chars ++ text)) =
        code ++ (marker.chars ++ Text.withoutReturn text) := by
      rw [withoutReturn_append code (by cases marker <;> simp [Marker.chars])]
      congr 1
      by_cases htext : text = []
      · subst htext
        cases marker <;> rfl
      · exact withoutReturn_append marker.chars htext
    rw [hsplit, hsplit]
    exact .recommented marker _ (before_append_marker marker _ h)

theorem SameCode.isEmpty_eq {row other : List Char} (h : SameCode row other) :
    row.isEmpty = other.isEmpty := by
  cases h with
  | same => rfl
  | recommented marker other h =>
    rw [Bool.eq_iff_iff]
    cases marker <;> simp [Marker.chars]

/-- Another comment on some rows of a text is another comment on some of its lines. -/
theorem forall₂_lines {cs ds : List Char}
    (h : List.Forall₂ SameCode (pieces (· == '\n') cs) (pieces (· == '\n') ds)) :
    List.Forall₂ SameCode (lines cs) (lines ds) := by
  rw [lines_eq, lines_eq]
  generalize pieces (· == '\n') cs = rows, pieces (· == '\n') ds = rows' at h
  induction h with
  | nil => exact .nil
  | @cons row row' rows rows' hrow hrows ih =>
    cases hrows with
    | nil =>
      simp only [linesOfRows, hrow.isEmpty_eq]
      split
      · exact .nil
      · exact .cons hrow .nil
    | cons hnext hlater => exact .cons hrow.withoutReturn ih

def codeLines (content : String) : List (List Char) := (lines content.toList).map before

theorem codeLines_eq {content other : String}
    (h : List.Forall₂ SameCode (lines content.toList) (lines other.toList)) :
    codeLines content = codeLines other := by
  have hcode : List.Forall₂ (· = ·) (codeLines content) (codeLines other) := by
    simp only [codeLines, List.forall₂_map_left_iff, List.forall₂_map_right_iff]
    exact h.imp fun _ _ hline => hline.before_eq
  rwa [List.forall₂_eq_eq_eq] at hcode

/-- A search that looks at the code of each line only finds the same in lines of the same code. -/
theorem flatMap_of_code {α : Type} {find : List Char × Nat → List α}
    (hfind : ∀ {line line' : List Char} (number : Nat), before line = before line' →
      find (line, number) = find (line', number))
    {ls ls' : List (List Char)} (h : ls.map before = ls'.map before) (number : Nat) :
    (ls.zipIdx number).flatMap find = (ls'.zipIdx number).flatMap find := by
  induction ls generalizing ls' number with
  | nil =>
    cases ls' with
    | nil => rfl
    | cons line' ls' => simp at h
  | cons line ls ih =>
    cases ls' with
    | nil => simp at h
    | cons line' ls' =>
      simp only [List.map_cons, List.cons.injEq] at h
      simp [hfind number h.1, ih h.2]

end Comment

open Comment Text

variable {content other : String}

theorem Constant.extract_of_codeLines (h : codeLines content = codeLines other) (resource : String) :
    extract content resource = extract other resource := by
  apply flatMap_of_code _ h
  intro line line' number hcode
  simp only [inLine, hcode]

theorem Symbol.extract_of_codeLines (h : codeLines content = codeLines other) (resource : String) :
    extract content resource = extract other resource := by
  apply flatMap_of_code _ h
  intro line line' number hcode
  simp only [inLine, hcode]

theorem Cursor.codeBytes?_of_codeLines (h : codeLines content = codeLines other) (line : Nat) :
    codeBytes? content line = codeBytes? other line := by
  have hcode (text : String) : codeBytes? text line = ((codeLines text)[line]?).map bytes := by
    simp [codeBytes?, codeLines, Function.comp_def]
  rw [hcode, hcode, h]

/-- What comments say makes no difference to the declarations that are found, nor to the word and the
call at any place. -/
theorem comments_unseen
    (h : List.Forall₂ SameCode (lines content.toList) (lines other.toList)) :
    (∀ resource, Constant.extract content resource = Constant.extract other resource) ∧
    (∀ resource, Symbol.extract content resource = Symbol.extract other resource) ∧
    (∀ line column, Cursor.wordAt content line column = Cursor.wordAt other line column) ∧
    ∀ line column, Cursor.callSiteAt content line column = Cursor.callSiteAt other line column := by
  have hcode := codeLines_eq h
  refine ⟨Constant.extract_of_codeLines hcode, Symbol.extract_of_codeLines hcode, ?_, ?_⟩
  · intro line column
    simp only [Cursor.wordAt, Cursor.codeBytes?_of_codeLines hcode]
  · intro line column
    simp only [Cursor.callSiteAt, Cursor.codeBytes?_of_codeLines hcode]

/-- Comments with declarations and parentheses in them, one of them longer by a carriage return. -/
theorem comments_unseen_call :
    let content := "const A = 1 # const B = 2\r\nscript S \x7b // (\n msgbox(a, b) # )"
    let other := "const A = 1 #\nscript S \x7b // text T \x7b\r\n msgbox(a, b) #, c(\r"
    List.Forall₂ SameCode (lines content.toList) (lines other.toList) ∧
      Constant.extract other "r" = [⟨"A", ⟨0, 6⟩, "r"⟩] ∧
      Symbol.extract other "r" = [⟨"S", ⟨1, 7⟩, "r", .script⟩] ∧
      Cursor.wordAt other 2 13 = Cursor.wordAt content 2 13 ∧
      Cursor.callSiteAt other 2 13 = .ok ⟨"msgbox", ⟨2, 7⟩, ⟨2, 12⟩, [⟨2, 9⟩]⟩ := by
  intro content other
  have hrows : List.Forall₂ SameCode (pieces (· == '\n') content.toList)
      (pieces (· == '\n') other.toList) := by
    have hcontent : pieces (· == '\n') content.toList = ["const A = 1 # const B = 2\r".toList,
        "script S \x7b // (".toList, " msgbox(a, b) # )".toList] := by decide +kernel
    have hother : pieces (· == '\n') other.toList = ["const A = 1 #".toList,
        "script S \x7b // text T \x7b\r".toList, " msgbox(a, b) #, c(\r".toList] := by decide +kernel
    rw [hcontent, hother]
    exact .cons (@SameCode.recommented "const A = 1 ".toList _ .hash _ (by decide +kernel))
      (.cons (@SameCode.recommented "script S \x7b ".toList _ .slashes _ (by decide +kernel))
        (.cons (@SameCode.recommented " msgbox(a, b) ".toList _ .hash _ (by decide +kernel)) .nil))
  have hlines := forall₂_lines hrows
  obtain ⟨hconstants, hsymbols, hword, hcall⟩ := comments_unseen hlines
  refine ⟨hlines, ?_, ?_, (hword 2 13).symm, ?_⟩
  · rw [← hconstants]
    decide +kernel
  · rw [← hsymbols]
    decide +kernel
  · rw [← hcall]
    decide +kernel

end ScriptIndex
