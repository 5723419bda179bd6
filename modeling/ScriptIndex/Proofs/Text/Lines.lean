import ScriptIndex.Proofs.Disk
import ScriptIndex.Text.Lines
import ScriptIndex.Text.Pieces

/-!
# Lines and rows

The rows of a text stand between its line feeds. Its lines are the rows without the carriage return
before a line feed, less a last row that is empty. The numbered lines are the same rows, each of them
without the carriage return at its end. So the two differ only where a text ends in a carriage return.
-/
namespace ScriptIndex.Text

theorem dropReturn_of_ne {c : Char} (h : c ≠ '\r') (cs : List Char) :
    dropReturn (c :: cs) = c :: cs :=
  dropReturn.eq_2 _ (by simpa using h)

/-- A row without the carriage return at its end. -/
def withoutReturn (row : List Char) : List Char := (dropReturn row.reverse).reverse

theorem withoutReturn_append (cs : List Char) {ds : List Char} (h : ds ≠ []) :
    withoutReturn (cs ++ ds) = cs ++ withoutReturn ds := by
  have hsplit : ∃ d rest, ds.reverse = d :: rest := List.exists_cons_of_ne_nil (by simpa using h)
  obtain ⟨d, rest, hds⟩ := hsplit
  simp only [withoutReturn, List.reverse_append, hds, List.cons_append]
  by_cases hd : d = '\r'
  · simp [hd, dropReturn]
  · simp [dropReturn_of_ne hd]

/-- A row is kept as it is or loses its carriage return. -/
theorem withoutReturn_eq_or (row : List Char) :
    withoutReturn row = row ∨ row = withoutReturn row ++ ['\r'] := by
  rcases List.eq_nil_or_concat row with rfl | ⟨front, c, rfl⟩
  · exact .inl rfl
  · rw [List.concat_eq_append, withoutReturn_append front (List.cons_ne_nil c [])]
    by_cases hc : c = '\r'
    · exact .inr (by simp [hc, withoutReturn, dropReturn])
    · exact .inl (by simp [withoutReturn, dropReturn_of_ne hc])

theorem withoutReturn_of_getLast? {row : List Char} (h : row.getLast? ≠ some '\r') :
    withoutReturn row = row := by
  rcases withoutReturn_eq_or row with heq | heq
  · exact heq
  · rw [heq] at h
    simp at h

theorem withoutReturn_of_not_mem {row : List Char} (h : '\r' ∉ row) : withoutReturn row = row :=
  withoutReturn_of_getLast? fun hlast => h (List.mem_of_getLast? hlast)

def linesOfRows : List (List Char) → List (List Char)
  | [] => []
  | [row] => if row.isEmpty then [] else [row]
  | row :: next :: rows => withoutReturn row :: linesOfRows (next :: rows)

theorem lines_go_eq {cs row : List Char} {rows : List (List Char)}
    (h : pieces (· == '\n') cs = row :: rows) (acc : List Char) :
    lines.go acc cs = linesOfRows ((acc.reverse ++ row) :: rows) := by
  induction cs generalizing row rows acc with
  | nil =>
    simp only [pieces, List.cons.injEq] at h
    obtain ⟨rfl, rfl⟩ := h
    simp [lines.go, linesOfRows]
  | cons c cs ih =>
    have hsplit : ∃ next later, pieces (· == '\n') cs = next :: later :=
      List.exists_cons_of_ne_nil (pieces_ne_nil cs)
    obtain ⟨next, later, hpieces⟩ := hsplit
    by_cases hc : c = '\n'
    · simp only [pieces, hc, beq_self_eq_true, if_true, hpieces, List.cons.injEq] at h
      obtain ⟨rfl, rfl⟩ := h
      simp [lines.go, hc, linesOfRows, withoutReturn, ih hpieces]
    · simp only [pieces, beq_iff_eq, hc, if_false, hpieces, List.cons.injEq] at h
      obtain ⟨rfl, rfl⟩ := h
      simp [lines.go, hc, ih hpieces]

theorem lines_eq (cs : List Char) : lines cs = linesOfRows (pieces (· == '\n') cs) := by
  have hsplit : ∃ row rows, pieces (· == '\n') cs = row :: rows :=
    List.exists_cons_of_ne_nil (pieces_ne_nil cs)
  obtain ⟨row, rows, hpieces⟩ := hsplit
  rw [lines, lines_go_eq hpieces, hpieces]
  rfl

/-- A text without line feeds is one line, unless it is empty. -/
theorem lines_of_not_mem {cs : List Char} (h : '\n' ∉ cs) (hne : cs ≠ []) : lines cs = [cs] := by
  have hpieces : pieces (· == '\n') cs = [cs] := pieces_eq_singleton fun c hc => by
    simpa using fun hfeed : c = '\n' => h (hfeed ▸ hc)
  rw [lines_eq, hpieces, linesOfRows, if_neg (by simpa using hne)]

/-- The first piece of a text, and either no other or the pieces behind the first separator. -/
theorem pieces_eq_cons {sep : Char → Bool} {cs row : List Char} {rows : List (List Char)}
    (h : pieces sep cs = row :: rows) :
    (rows = [] ∧ cs = row) ∨ ∃ d rest, sep d = true ∧ cs = row ++ d :: rest ∧ pieces sep rest = rows := by
  induction cs generalizing row rows with
  | nil =>
    simp only [pieces, List.cons.injEq] at h
    exact .inl ⟨h.2.symm, h.1⟩
  | cons c cs ih =>
    rw [pieces] at h
    split at h
    · next hc =>
      obtain ⟨rfl, rfl⟩ := List.cons.inj h
      exact .inr ⟨c, cs, hc, rfl, rfl⟩
    · split at h
      · next first later hcs =>
        obtain ⟨rfl, rfl⟩ := List.cons.inj h
        rcases ih hcs with ⟨hnil, rfl⟩ | ⟨d, rest, hd, rfl, hrest⟩
        · exact .inl ⟨hnil, rfl⟩
        · exact .inr ⟨d, rest, hd, rfl, hrest⟩
      · next hcs => exact absurd hcs (pieces_ne_nil cs)

/-- The rows that count as lines: all but a last one that is empty. -/
def lineRows : List (List Char) → List (List Char)
  | [] => []
  | [row] => if row.isEmpty then [] else [row]
  | row :: next :: rows => row :: lineRows (next :: rows)

theorem getElem?_lineRows {rows : List (List Char)} {row : List Char} {n : Nat}
    (h : rows[n]? = some row) (hne : row ≠ []) : (lineRows rows)[n]? = some row := by
  fun_induction lineRows rows generalizing n with
  | case1 => simp at h
  | case2 last hempty =>
    rw [List.isEmpty_iff] at hempty
    cases n <;> simp_all
  | case3 last hempty => exact h
  | case4 first next rows ih =>
    cases n with
    | zero => exact h
    | succ n => exact ih h

theorem laterStarts_row {row : List Char} (h : '\n' ∉ row) (i : Nat) : laterStarts i row = [] := by
  fun_induction laterStarts i row with
  | case1 => rfl
  | case2 => rfl
  | case3 i d cs ih => simp at h
  | case4 i c d cs hc ih => exact ih fun hmem => h (List.mem_cons_of_mem _ hmem)

/-- The start of the next line comes behind the line feed, unless the text ends there. -/
theorem laterStarts_append {row : List Char} (h : '\n' ∉ row) (i : Nat) (rest : List Char) :
    laterStarts i (row ++ '\n' :: rest) =
      if rest = [] then [] else (i + row.length + 1) :: laterStarts (i + row.length + 1) rest := by
  induction row generalizing i with
  | nil => cases rest <;> simp [laterStarts]
  | cons c row ih =>
    rw [List.mem_cons, not_or] at h
    have hnext := ih h.2 (i + 1)
    have hlength : i + 1 + row.length = i + (row.length + 1) := by omega
    rw [hlength] at hnext
    rw [List.length_cons, ← hnext]
    cases row <;> simp [laterStarts, Ne.symm h.1]

theorem feed_not_mem_of_mem_pieces {cs row : List Char} (h : row ∈ pieces (· == '\n') cs) :
    '\n' ∉ row := by
  intro hmem
  have hsep := (of_mem_pieces h hmem).1
  simp at hsep

theorem feed_not_mem_of_pieces {cs row : List Char} {rows : List (List Char)}
    (h : pieces (· == '\n') cs = row :: rows) : '\n' ∉ row :=
  feed_not_mem_of_mem_pieces (h ▸ List.mem_cons_self)

theorem mem_of_mem_withoutReturn {row : List Char} {c : Char} (h : c ∈ withoutReturn row) :
    c ∈ row := by
  rcases withoutReturn_eq_or row with heq | heq
  · rwa [heq] at h
  · rw [heq]
    exact List.mem_append_left _ h

/-- A line stands in one of the rows. -/
theorem exists_row_of_mem_linesOfRows {rows : List (List Char)} {line : List Char}
    (h : line ∈ linesOfRows rows) : ∃ row ∈ rows, ∀ c ∈ line, c ∈ row := by
  fun_induction linesOfRows rows with
  | case1 => simp at h
  | case2 row => simp at h
  | case3 row =>
    rw [List.mem_singleton] at h
    exact ⟨row, by simp, fun c hc => h ▸ hc⟩
  | case4 row next rows ih =>
    rcases List.mem_cons.mp h with rfl | h
    · exact ⟨row, by simp, fun c => mem_of_mem_withoutReturn⟩
    · obtain ⟨found, hfound, hsub⟩ := ih h
      exact ⟨found, List.mem_cons_of_mem row hfound, hsub⟩

theorem feed_not_mem_of_mem_lines {cs line : List Char} (h : line ∈ lines cs) : '\n' ∉ line := by
  intro hmem
  rw [lines_eq] at h
  obtain ⟨row, hrow, hsub⟩ := exists_row_of_mem_linesOfRows h
  exact feed_not_mem_of_mem_pieces hrow (hsub _ hmem)

theorem mem_of_mem_lineRows {rows : List (List Char)} {row : List Char} (h : row ∈ lineRows rows) :
    row ∈ rows := by
  fun_induction lineRows rows with
  | case1 => exact h
  | case2 row => simp at h
  | case3 row => exact h
  | case4 row next rows ih => exact List.mem_cons.mpr ((List.mem_cons.mp h).imp_right ih)

/-- A text ends in a carriage return exactly if its last row does. -/
theorem getLast?_eq_return_iff {cs row : List Char} {rows : List (List Char)}
    (h : pieces (· == '\n') cs = rows ++ [row]) :
    row.getLast? = some '\r' ↔ cs.getLast? = some '\r' := by
  induction rows generalizing cs with
  | nil =>
    rcases pieces_eq_cons h with ⟨-, rfl⟩ | ⟨d, rest, -, -, hrest⟩
    · rfl
    · exact absurd hrest (pieces_ne_nil rest)
  | cons first rows ih =>
    rcases pieces_eq_cons h with ⟨hnil, -⟩ | ⟨d, rest, hd, rfl, hrest⟩
    · simp at hnil
    · cases beq_iff_eq.1 hd
      rw [ih hrest]
      cases rest <;> simp [List.getLast?_append]

/-- A last row that is empty is no line. -/
def lastLine (row : List Char) : List (List Char) := if row.isEmpty then [] else [row]

theorem linesOfRows_append (rows : List (List Char)) (row : List Char) :
    linesOfRows (rows ++ [row]) = rows.map withoutReturn ++ lastLine row := by
  induction rows with
  | nil => rfl
  | cons first rows ih =>
    rw [List.map_cons, List.cons_append, List.cons_append, ← ih]
    cases rows <;> rfl

theorem lineRows_append (rows : List (List Char)) (row : List Char) :
    lineRows (rows ++ [row]) = rows ++ lastLine row := by
  induction rows with
  | nil => rfl
  | cons first rows ih =>
    rw [List.cons_append, List.cons_append, ← ih]
    cases rows <;> rfl

namespace NumberedLines

/-- Without the first start, each line has the number before its own. -/
theorem line?_succ (text : Array Char) (start : Nat) (starts : List Nat) (i : Nat) :
    line? ⟨text, (start :: starts).toArray⟩ (i + 1) = line? ⟨text, starts.toArray⟩ i := by
  simp [line?, stop]

/-- The first line is the row between the first start and its stop. -/
theorem line?_zero {before row rest : List Char} {starts : List Nat}
    (hstop : stop ⟨(before ++ (row ++ rest)).toArray, (before.length :: starts).toArray⟩ 0 =
      before.length + row.length) :
    line? ⟨(before ++ (row ++ rest)).toArray, (before.length :: starts).toArray⟩ 0 =
      some (withoutReturn row) := by
  simp [line?, hstop, withoutReturn, List.extract_eq_take_drop]

/-- The lines from the place `before.length` of a text on are the rows from there on. -/
theorem line?_from {cs row : List Char} {rows : List (List Char)}
    (h : pieces (· == '\n') cs = row :: rows) (hne : cs ≠ []) (before : List Char) (i : Nat) :
    line? ⟨(before ++ cs).toArray, (before.length :: laterStarts before.length cs).toArray⟩ i =
      ((lineRows (row :: rows)).map withoutReturn)[i]? := by
  -- over the rows; what stands before the first of them grows
  induction rows generalizing cs row before i with
  | nil =>
    have hfeed := feed_not_mem_of_pieces h
    rcases pieces_eq_cons h with ⟨-, rfl⟩ | ⟨d, rest, -, -, hrest⟩
    · rw [laterStarts_row hfeed]
      cases i with
      | zero =>
        have hlast : cs.getLast? ≠ some '\n' := fun hlast => hfeed (List.mem_of_getLast? hlast)
        have hline := @line?_zero before cs [] [] (by simp [stop, hlast, hne])
        simpa [lineRows, hne] using hline
      | succ i => simp [line?, lineRows, hne]
    · exact absurd hrest (pieces_ne_nil rest)
  | cons next rows ih =>
    have hfeed := feed_not_mem_of_pieces h
    rcases pieces_eq_cons h with ⟨hnil, -⟩ | ⟨d, rest, hd, rfl, hrest⟩
    · cases hnil
    · cases beq_iff_eq.1 hd
      rw [laterStarts_append hfeed]
      split
      · next hempty =>
        -- the text ends with the line feed behind this row
        subst hempty
        obtain ⟨rfl, rfl⟩ := List.cons.inj hrest
        cases i with
        | zero =>
          have hline := @line?_zero before row ['\n'] [] (by simp [stop])
          simpa [lineRows] using hline
        | succ i => simp [line?, lineRows]
      · next hmore =>
        cases i with
        | zero =>
          have hline := @line?_zero before row ('\n' :: rest)
            ((before.length + row.length + 1) :: laterStarts (before.length + row.length + 1) rest)
            (by simp [stop])
          simpa [lineRows] using hline
        | succ i =>
          have hlater := ih hrest hmore (before ++ (row ++ ['\n'])) i
          rw [line?_succ]
          simpa [lineRows, Nat.add_assoc] using hlater

theorem line?_ofText (cs : List Char) (i : Nat) :
    (ofText cs).line? i = ((lineRows (pieces (· == '\n') cs)).map withoutReturn)[i]? := by
  have hsplit : ∃ row rows, pieces (· == '\n') cs = row :: rows :=
    List.exists_cons_of_ne_nil (pieces_ne_nil cs)
  obtain ⟨row, rows, hpieces⟩ := hsplit
  by_cases hne : cs = []
  · subst hne
    simp [ofText, line?, pieces, lineRows]
  · have hfrom := line?_from hpieces hne [] i
    rw [hpieces, ← hfrom]
    simp [ofText, hne]

theorem feed_not_mem_of_line? {cs line : List Char} {i : Nat}
    (h : (ofText cs).line? i = some line) : '\n' ∉ line := by
  intro hmem
  rw [line?_ofText] at h
  obtain ⟨row, hrow, rfl⟩ := List.mem_map.mp (List.mem_of_getElem? h)
  exact feed_not_mem_of_mem_pieces (mem_of_mem_lineRows hrow) (mem_of_mem_withoutReturn hmem)

theorem mem_toList_iff {index : NumberedLines} {n : Nat} {line : List Char} :
    (n, line) ∈ index.toList ↔ index.line? n = some line := by
  simp only [toList, List.mem_filterMap, List.mem_range, Option.map_eq_some_iff, Prod.mk.injEq]
  constructor
  · rintro ⟨i, -, a, hline, rfl, rfl⟩
    exact hline
  · intro hline
    obtain ⟨start, hstart, -⟩ := Option.map_eq_some_iff.1 hline
    exact ⟨n, (Array.getElem?_eq_some_iff.1 hstart).1, line, hline, rfl, rfl⟩

theorem pairwise_toList (index : NumberedLines) : index.toList.Pairwise fun x y => x.1 < y.1 := by
  rw [toList, List.pairwise_filterMap]
  apply List.pairwise_lt_range.imp
  intro i j hlt x hx y hy
  obtain ⟨row, -, rfl⟩ := Option.map_eq_some_iff.1 hx
  obtain ⟨later, -, rfl⟩ := Option.map_eq_some_iff.1 hy
  exact hlt

theorem isSome_line?_iff (index : NumberedLines) (i : Nat) :
    (index.line? i).isSome ↔ i < index.size := by
  simp [line?, size]

/-- Both views of the lines by the rows: each row but the last loses its carriage return in both of them. -/
theorem exists_rows (cs : List Char) : ∃ (rows : List (List Char)) (row : List Char),
    (row.getLast? = some '\r' ↔ cs.getLast? = some '\r') ∧
    lines cs = rows.map withoutReturn ++ lastLine row ∧
    ∀ i, (ofText cs).line? i = (rows.map withoutReturn ++ (lastLine row).map withoutReturn)[i]? := by
  rcases List.eq_nil_or_concat (pieces (· == '\n') cs) with hnil | ⟨rows, row, hrows⟩
  · exact absurd hnil (pieces_ne_nil cs)
  · rw [List.concat_eq_append] at hrows
    refine ⟨rows, row, getLast?_eq_return_iff hrows, ?_, fun i => ?_⟩
    · rw [lines_eq, hrows, linesOfRows_append]
    · rw [line?_ofText, hrows, lineRows_append, List.map_append]

theorem size_ofText (cs : List Char) : (ofText cs).size = (lines cs).length := by
  obtain ⟨rows, row, -, hlines, hindex⟩ := exists_rows cs
  have hlt (i : Nat) : i < (ofText cs).size ↔ i < (lines cs).length := by
    rw [← isSome_line?_iff, hindex, hlines]
    simp
  have h₁ := hlt (ofText cs).size
  have h₂ := hlt (lines cs).length
  omega

/-- The numbered lines of a text are its lines. Only the carriage return at the very end of a text is kept
in its last line and missing in the last numbered line. -/
theorem numbered_lines_are_lines (cs : List Char) :
    (ofText cs).size = (lines cs).length ∧
    (∀ i, ((ofText cs).line? i).isSome ↔ i < (lines cs).length) ∧
    (cs.getLast? ≠ some '\r' → ∀ i, (ofText cs).line? i = (lines cs)[i]?) ∧
    (cs.getLast? = some '\r' → ∃ front last, lines cs = front ++ [last ++ ['\r']] ∧
      ∀ i, (ofText cs).line? i = (front ++ [last])[i]?) := by
  obtain ⟨rows, row, hreturn, hlines, hindex⟩ := exists_rows cs
  refine ⟨size_ofText cs, fun i => ?_, fun hend i => ?_, fun hend => ?_⟩
  · rw [isSome_line?_iff, size_ofText]
  · have hrow : withoutReturn row = row :=
      withoutReturn_of_getLast? fun hlast => hend (hreturn.1 hlast)
    rw [hindex, hlines, lastLine]
    split
    · rfl
    · rw [List.map_singleton, hrow]
  · obtain ⟨last, rfl⟩ := List.getLast?_eq_some_iff.1 (hreturn.2 hend)
    refine ⟨rows.map withoutReturn, last, ?_, fun i => ?_⟩
    · rw [hlines, lastLine, if_neg (by simp)]
    · rw [hindex, lastLine, if_neg (by simp), List.map_singleton,
        withoutReturn_append last (List.cons_ne_nil _ _)]
      simp [withoutReturn, dropReturn]

-- of the two carriage returns at the end only one is missing
example :
    let text := "a\r\n\nb\r\r".toList
    lines text = ["a".toList, [], "b\r\r".toList] ∧ (ofText text).line? 2 = some "b\r".toList := by
  decide +kernel

end NumberedLines
end ScriptIndex.Text
