import Mathlib.Algebra.Group.Nat.Defs
import Mathlib.Data.List.Forall2
import ScriptIndex.Proofs.Declaration.Search
import ScriptIndex.Proofs.Text.Columns
import ScriptIndex.Symbol

/-!
# Every symbol of a text

A label is described by its parts, as a declaration is. The symbols of a line are all declarations of
each block keyword, keyword by keyword, and then its label, if it has one. The symbols of a text are
those of its lines, outside of comments, with the places of their names.
-/
namespace ScriptIndex.Symbol

open Text Declaration

/-- What may stand between the name of a label and its colon apart from blanks: nothing, or a scope in
parentheses. -/
inductive IsScope : List Char → Prop
  | absent : IsScope []
  | present {left word right : List Char} (hleft : ∀ c ∈ left, isBlank c = true)
      (hword : word = "local".toList ∨ word = "global".toList)
      (hright : ∀ c ∈ right, isBlank c = true) :
      IsScope ('(' :: (left ++ (word ++ (right ++ [')']))))

/-- The label of a line, with what stands behind it. -/
structure LabelParts (line : List Char) where
  blanks : List Char
  name : List Char
  /-- The blanks before the scope. -/
  gap : List Char
  scope : List Char
  /-- The blanks before the colon. -/
  colonGap : List Char
  rest : List Char
  line_eq : line = blanks ++ (name ++ (gap ++ (scope ++ (colonGap ++ ':' :: rest))))
  isBlank_blanks : ∀ c ∈ blanks, isBlank c = true
  run : NameRun blanks name (gap ++ (scope ++ (colonGap ++ ':' :: rest)))
  isBlank_gap : ∀ c ∈ gap, isBlank c = true
  isScope : IsScope scope
  isBlank_colonGap : ∀ c ∈ colonGap, isBlank c = true

theorem LabelParts.namedAt {line : List Char} (p : LabelParts line) :
    NamedAt line (byteLength p.blanks) p.name :=
  ⟨p.blanks, _, p.line_eq, rfl, p.run⟩

/-- A scope in parentheses is passed over. -/
theorem afterScope?_of_isScope {scope : List Char} (h : IsScope scope) (hne : scope ≠ [])
    (rest : List Char) : afterScope? (scope ++ rest) = some rest := by
  cases h with
  | absent => exact absurd rfl hne
  | @present left word right hleft hword hright =>
    have hstart : ∀ c ∈ (word ++ (right ++ ')' :: rest)).head?, isBlank c = false := by
      rcases hword with rfl | rfl <;> simp <;> decide
    have hstop : ∀ c ∈ (')' :: rest).head?, isBlank c = false := by
      simp
      decide
    have hafter : (dropLiteral? "local".toList (word ++ (right ++ ')' :: rest))).or
        (dropLiteral? "global".toList (word ++ (right ++ ')' :: rest))) =
          some (right ++ ')' :: rest) := by
      rcases hword with rfl | rfl <;> simp [dropLiteral?]
    have hscope : '(' :: (left ++ (word ++ (right ++ [')']))) ++ rest =
        '(' :: (left ++ (word ++ (right ++ ')' :: rest))) := by simp
    rw [hscope]
    simp only [afterScope?, dropWhile_append_rest hleft hstart, hafter, Option.map_some,
      dropWhile_append_rest hright hstop]

theorem exists_isScope_of_afterScope? {cs rest : List Char} (h : afterScope? cs = some rest) :
    ∃ scope, IsScope scope ∧ cs = scope ++ rest := by
  unfold afterScope? at h
  split at h
  · next cs =>
    dsimp only at h
    split at h
    · next after hafter =>
      obtain ⟨afterWord, hor, hclose⟩ := Option.map_eq_some_iff.1 hafter
      have hword : ∃ word, (word = "local".toList ∨ word = "global".toList) ∧
          cs.dropWhile isBlank = word ++ afterWord := by
        rw [Option.or_eq_some_iff, dropLiteral?_eq_some_iff, dropLiteral?_eq_some_iff] at hor
        rcases hor with hlocal | ⟨-, hglobal⟩
        · exact ⟨_, .inl rfl, hlocal⟩
        · exact ⟨_, .inr rfl, hglobal⟩
      obtain ⟨word, hword, hinner⟩ := hword
      cases h
      let left := cs.takeWhile isBlank
      let right := afterWord.takeWhile isBlank
      have hcs : cs = left ++ (word ++ (right ++ ')' :: rest)) := by
        rw [← hclose, List.takeWhile_append_dropWhile, ← hinner, List.takeWhile_append_dropWhile]
      refine ⟨'(' :: (left ++ (word ++ (right ++ [')']))), .present ?_ hword ?_, ?_⟩
      · exact fun c hc => List.mem_takeWhile_imp hc
      · exact fun c hc => List.mem_takeWhile_imp hc
      · rw [hcs]
        simp
    · cases h
  · cases h

/-- Behind the name of a label, and behind the scope if there is one, blanks and the colon follow. -/
theorem dropWhile_afterName {gap scope colonGap : List Char} (hgap : ∀ c ∈ gap, isBlank c = true)
    (hscope : IsScope scope) (hcolonGap : ∀ c ∈ colonGap, isBlank c = true) (rest : List Char) :
    let afterName := (gap ++ (scope ++ (colonGap ++ ':' :: rest))).dropWhile isBlank
    ((afterScope? afterName).getD afterName).dropWhile isBlank = ':' :: rest := by
  intro afterName
  have hcolon : ∀ c ∈ (':' :: rest).head?, isBlank c = false := by
    simp
    decide
  by_cases hne : scope = []
  · have hafter : afterName = ':' :: rest := by
      have hblanks : ∀ c ∈ gap ++ colonGap, isBlank c = true := by
        intro c hc
        exact (List.mem_append.1 hc).elim (hgap c) (hcolonGap c)
      have hdrop := dropWhile_append_rest hblanks hcolon
      simpa [afterName, hne] using hdrop
    have hnone : afterScope? (':' :: rest) = none := rfl
    rw [hafter, hnone, Option.getD_none]
    rfl
  · have hparen : ∀ c ∈ (scope ++ (colonGap ++ ':' :: rest)).head?, isBlank c = false := by
      cases hscope with
      | absent => exact absurd rfl hne
      | present => simp; decide
    have hafter : afterName = scope ++ (colonGap ++ ':' :: rest) := dropWhile_append_rest hgap hparen
    rw [hafter, afterScope?_of_isScope hscope hne, Option.getD_some,
      dropWhile_append_rest hcolonGap hcolon]

theorem labelOf?_of_parts {line : List Char} (p : LabelParts line) :
    labelOf? line = some (byteLength p.blanks, p.name) := by
  have hname : ∀ c ∈ (p.name ++ (p.gap ++ (p.scope ++ (p.colonGap ++ ':' :: p.rest)))).head?,
      isBlank c = false :=
    of_mem_head?_append p.run.ne_nil (fun c hc => isBlank_of_isWordChar (p.run.word c hc)) _
  have hblanks := takeWhile_append_rest p.isBlank_blanks hname
  have hafterBlanks := dropWhile_append_rest p.isBlank_blanks hname
  have hcolon := dropWhile_afterName p.isBlank_gap p.isScope p.isBlank_colonGap p.rest
  rw [← p.line_eq] at hblanks hafterBlanks
  rw [labelOf?, hblanks, hafterBlanks]
  simp only [takeWhile_append_rest p.run.word p.run.after,
    dropWhile_append_rest p.run.word p.run.after, hcolon]
  simp [p.run.ne_nil]

theorem exists_parts_of_labelOf? {line : List Char} {found : Nat × List Char}
    (h : labelOf? line = some found) :
    ∃ p : LabelParts line, found = (byteLength p.blanks, p.name) := by
  rw [labelOf?] at h
  split at h
  · next hlabel =>
    simp only [Bool.and_eq_true, Bool.not_eq_true', List.isEmpty_eq_false_iff,
      decide_eq_true_eq] at hlabel
    obtain ⟨hname, hcolon⟩ := hlabel
    let afterWord := (line.dropWhile isBlank).dropWhile isWordChar
    let afterName := afterWord.dropWhile isBlank
    let afterScope := (afterScope? afterName).getD afterName
    have hscope : ∃ scope, IsScope scope ∧ afterName = scope ++ afterScope := by
      cases hafter : afterScope? afterName with
      | none => exact ⟨[], .absent, by simp [afterScope, hafter]⟩
      | some rest =>
        obtain ⟨scope, hscope, heq⟩ := exists_isScope_of_afterScope? hafter
        exact ⟨scope, hscope, by simpa [afterScope, hafter] using heq⟩
    obtain ⟨scope, hscope, hafter⟩ := hscope
    obtain ⟨rest, hrest⟩ := List.head?_eq_some_iff.1 hcolon
    have htail : afterWord.takeWhile isBlank ++
        (scope ++ (afterScope.takeWhile isBlank ++ ':' :: rest)) = afterWord := by
      rw [← hrest, List.takeWhile_append_dropWhile, ← hafter, List.takeWhile_append_dropWhile]
    have hrun : NameRun (line.takeWhile isBlank) ((line.dropWhile isBlank).takeWhile isWordChar)
        (afterWord.takeWhile isBlank ++
          (scope ++ (afterScope.takeWhile isBlank ++ ':' :: rest))) := by
      refine ⟨hname, fun c hc => List.mem_takeWhile_imp hc, fun c hc => ?_, ?_⟩
      · exact isWordChar_of_isBlank (List.mem_takeWhile_imp (List.mem_of_getLast? hc))
      · rw [htail]
        exact of_mem_head?_dropWhile
    refine ⟨⟨line.takeWhile isBlank, (line.dropWhile isBlank).takeWhile isWordChar,
      afterWord.takeWhile isBlank, scope, afterScope.takeWhile isBlank, rest, ?_,
      fun c hc => List.mem_takeWhile_imp hc, hrun, fun c hc => List.mem_takeWhile_imp hc, hscope,
      fun c hc => List.mem_takeWhile_imp hc⟩, (Option.some.inj h).symm⟩
    rw [htail, List.takeWhile_append_dropWhile, List.takeWhile_append_dropWhile]
  · cases h

def blockKeywords : List String := ["script", "movement", "mart", "mapscripts", "text"]

/-- The symbols of a line of code, by kind, offset and name: the blocks of each keyword, then the label. -/
def LineSymbols (code : List Char) (symbols : List (SymbolKind × Nat × List Char)) : Prop :=
  ∃ (blocks : String → List (Nat × List Char)) (label : Option (Nat × List Char)),
    (∀ keyword ∈ blockKeywords, ListsAll keyword.toList '\x7b' code (blocks keyword)) ∧
    (∀ found, label = some found ↔ ∃ p : LabelParts code, found = (byteLength p.blanks, p.name)) ∧
    symbols = (blocks "script").map (Prod.mk .script) ++ (blocks "movement").map (Prod.mk .movement) ++
      (blocks "mart").map (Prod.mk .mart) ++ (blocks "mapscripts").map (Prod.mk .mapScripts) ++
      (blocks "text").map (Prod.mk .text) ++ label.toList.map (Prod.mk .label)

theorem isRule_block {keyword : String} (h : keyword ∈ blockKeywords) :
    IsRule keyword.toList '\x7b' := by
  simp only [blockKeywords, List.mem_cons, List.not_mem_nil, or_false] at h
  rcases h with rfl | rfl | rfl | rfl | rfl <;> exact ⟨by decide, by decide, by decide, by decide⟩

theorem lineSymbols_inLine (line : List Char) : LineSymbols (Comment.before line) (inLine line) := by
  refine ⟨fun keyword => findAll keyword.toList '\x7b' (Comment.before line),
    labelOf? (Comment.before line), ?_, ?_, ?_⟩
  · intro keyword hkeyword
    exact listsAll_findAll (isRule_block hkeyword) _
  · intro found
    constructor
    · exact exists_parts_of_labelOf?
    · rintro ⟨p, rfl⟩
      exact labelOf?_of_parts p
  · simp [inLine, blockRules]

theorem LineSymbols.namedAt {code : List Char} {symbols : List (SymbolKind × Nat × List Char)}
    (h : LineSymbols code symbols) {kind : SymbolKind} {place : Nat × List Char}
    (hplace : (kind, place) ∈ symbols) : NamedAt code place.1 place.2 := by
  obtain ⟨blocks, label, hblocks, hlabel, rfl⟩ := h
  have hfound : (∃ keyword ∈ blockKeywords, place ∈ blocks keyword) ∨ label = some place := by
    simp only [List.mem_append, List.mem_map, Option.mem_toList] at hplace
    simp only [blockKeywords, List.mem_cons, List.not_mem_nil, or_false, exists_eq_or_imp, exists_eq_left]
    grind
  rcases hfound with ⟨keyword, hkeyword, hmem⟩ | hmem
  · exact (hblocks keyword hkeyword).namedAt hmem
  · obtain ⟨p, rfl⟩ := (hlabel place).1 hmem
    exact p.namedAt

def placed (resource : String) (number : Nat) (found : SymbolKind × Nat × List Char) : Symbol where
  name := String.ofList found.2.2
  position := ⟨number, found.2.1⟩
  resource := resource
  kind := found.1

/-- The symbols of a text that is not too long to count are those of its lines: every block of every
keyword and every label, each at its place, and nothing else. -/
theorem extract_is_exact (content resource : String) (hsize : content.utf8ByteSize < 2 ^ 32) :
    ∃ found : List (List (SymbolKind × Nat × List Char)),
      List.Forall₂ (fun line symbols => LineSymbols (Comment.before line) symbols)
        (lines content.toList) found ∧
      extract content resource =
        found.zipIdx.flatMap fun line => line.1.map (placed resource line.2) := by
  refine ⟨(lines content.toList).map inLine, ?_, ?_⟩
  · rw [List.forall₂_map_right_iff, List.forall₂_same]
    exact fun line _ => lineSymbols_inLine line
  · rw [extract, List.zipIdx_map, List.flatMap_map]
    apply List.flatMap_congr
    rintro ⟨line, number⟩ hline
    apply List.map_congr_left
    rintro ⟨kind, offset, name⟩ hname
    have hrow := List.mk_mem_zipIdx_iff_getElem?.1 hline
    have hend : offset + byteLength name ≤ byteLength (Comment.before line) :=
      ((lineSymbols_inLine line).namedAt hname).le_byteLength
    have hplace : Position.clipped number offset = ⟨number, offset⟩ :=
      clipped_of_code hsize hrow (by omega)
    simp only [hplace]
    rfl

/-- A block named by a keyword, a keyword inside a longer word, a block behind another one, and labels with
and without a scope. -/
theorem extract_is_exact_keywords :
    let content := "script script\x7b\x7d text T \x7b ätext U \x7b\n\tL ( local ) : text V\x7b # M:\nN(all):"
    content.utf8ByteSize < 2 ^ 32 ∧
      extract content "r" = [⟨"script", ⟨0, 7⟩, "r", .script⟩, ⟨"T", ⟨0, 21⟩, "r", .text⟩,
        ⟨"V", ⟨1, 20⟩, "r", .text⟩, ⟨"L", ⟨1, 1⟩, "r", .label⟩] ∧
      ∃ found : List (List (SymbolKind × Nat × List Char)),
        List.Forall₂ (fun line symbols => LineSymbols (Comment.before line) symbols)
          (lines content.toList) found ∧
        extract content "r" = found.zipIdx.flatMap fun line => line.1.map (placed "r" line.2) := by
  intro content
  have hsize : content.utf8ByteSize < 2 ^ 32 := by decide +kernel
  exact ⟨hsize, by decide +kernel, extract_is_exact content "r" hsize⟩

end ScriptIndex.Symbol
