import ScriptIndex.Declaration
import ScriptIndex.Proofs.Text.Word

/-!
# Every declaration of a line

The search for declarations goes on behind each one that it finds. It misses none in this way. The only
words inside a declaration are its keyword and its name, so another declaration inside it would have to
begin with the name, and then the mark would have to be a name as well. So the search finds as many
declarations as a look at every character of the line, and in the same order.
-/
namespace ScriptIndex.Declaration

open Text

/-- A declaration of a line, with what stands before it and behind it. -/
@[ext] structure Parts (keyword : List Char) (mark : Char) (line : List Char) where
  front : List Char
  /-- The blanks between the keyword and the name. -/
  blanks : List Char
  name : List Char
  /-- The blanks between the name and the mark. -/
  gap : List Char
  rest : List Char
  line_eq : line = front ++ (keyword ++ (blanks ++ (name ++ (gap ++ mark :: rest))))
  starts : ∀ c ∈ front.getLast?, isWordChar c = false
  blanks_ne_nil : blanks ≠ []
  isBlank_blanks : ∀ c ∈ blanks, isBlank c = true
  run : NameRun (front ++ (keyword ++ blanks)) name (gap ++ mark :: rest)
  isBlank_gap : ∀ c ∈ gap, isBlank c = true

/-- A keyword is a word, and a mark is neither part of a word nor a blank. -/
structure IsRule (keyword : List Char) (mark : Char) : Prop where
  ne_nil : keyword ≠ []
  all_word : keyword.all isWordChar = true
  mark_word : isWordChar mark = false
  mark_blank : isBlank mark = false

variable {keyword : List Char} {mark : Char} {line : List Char}

theorem IsRule.word (rule : IsRule keyword mark) : ∀ c ∈ keyword, isWordChar c = true :=
  List.all_eq_true.1 rule.all_word

namespace Parts

def start (p : Parts keyword mark line) : Nat := byteLength p.front

def offset (p : Parts keyword mark line) : Nat := byteLength (p.front ++ (keyword ++ p.blanks))

/-- What the search reads of a declaration. -/
def toMatch (p : Parts keyword mark line) : Match := ⟨keyword ++ p.blanks, p.name, p.gap ++ [mark]⟩

theorem offset_eq (p : Parts keyword mark line) :
    p.offset = byteLength p.front + byteLength p.toMatch.lead := by
  rw [offset, byteLength_append, toMatch]

theorem namedAt (p : Parts keyword mark line) : NamedAt line p.offset p.name := by
  refine ⟨p.front ++ (keyword ++ p.blanks), p.gap ++ mark :: p.rest, ?_, rfl, p.run⟩
  rw [List.append_assoc, List.append_assoc]
  exact p.line_eq

end Parts

theorem dropLiteral?_eq_some_iff (literal cs rest : List Char) :
    dropLiteral? literal cs = some rest ↔ cs = literal ++ rest := by
  fun_induction dropLiteral? literal cs with
  | case1 cs => simp
  | case2 => simp
  | case3 k ks cs ih => simp [ih]
  | case4 k ks c cs hne => simp [Ne.symm hne]

theorem startsWord_iff (before : Option Char) :
    startsWord before = true ↔ ∀ c ∈ before, isWordChar c = false := by
  cases before <;> simp [startsWord]

/-- The search reads a declaration where it stands. -/
theorem match?_of_parts (rule : IsRule keyword mark) (p : Parts keyword mark line) :
    match? keyword mark (keyword ++ (p.blanks ++ (p.name ++ (p.gap ++ mark :: p.rest)))) =
      some p.toMatch := by
  have hname : ∀ c ∈ (p.name ++ (p.gap ++ mark :: p.rest)).head?, isBlank c = false :=
    of_mem_head?_append p.run.ne_nil (fun c hc => isBlank_of_isWordChar (p.run.word c hc)) _
  have hmark : ∀ c ∈ (mark :: p.rest).head?, isBlank c = false := by simpa using rule.mark_blank
  rw [match?, (dropLiteral?_eq_some_iff _ _ _).2 rfl]
  simp only [takeWhile_append_rest p.isBlank_blanks hname,
    dropWhile_append_rest p.isBlank_blanks hname, takeWhile_append_rest p.run.word p.run.after,
    dropWhile_append_rest p.run.word p.run.after, takeWhile_append_rest p.isBlank_gap hmark,
    dropWhile_append_rest p.isBlank_gap hmark]
  simp [p.blanks_ne_nil, p.run.ne_nil, Parts.toMatch]

/-- What the search reads is a declaration. -/
theorem exists_parts_of_match? {front cs : List Char} {m : Match} (hline : line = front ++ cs)
    (hfront : ∀ c ∈ front.getLast?, isWordChar c = false) (h : match? keyword mark cs = some m) :
    ∃ p : Parts keyword mark line, p.front = front ∧ p.toMatch = m := by
  rw [match?] at h
  cases hdrop : dropLiteral? keyword cs with
  | none => simp [hdrop] at h
  | some afterKeyword =>
    have hcs := (dropLiteral?_eq_some_iff _ _ _).1 hdrop
    simp only [hdrop, Bool.or_eq_true, List.isEmpty_iff] at h
    split at h
    · cases h
    · next hne =>
      rw [not_or] at hne
      split at h
      · next hmark =>
        obtain ⟨rest, hrest⟩ := List.head?_eq_some_iff.1 hmark
        let blanks := afterKeyword.takeWhile isBlank
        let name := (afterKeyword.dropWhile isBlank).takeWhile isWordChar
        let afterName := (afterKeyword.dropWhile isBlank).dropWhile isWordChar
        have hgap : afterName.takeWhile isBlank ++ mark :: rest = afterName := by
          rw [← hrest, List.takeWhile_append_dropWhile]
        have hblanks : ∀ c ∈ blanks, isBlank c = true := fun c hc => List.mem_takeWhile_imp hc
        have hrun : NameRun (front ++ (keyword ++ blanks)) name
            (afterName.takeWhile isBlank ++ mark :: rest) := by
          refine ⟨hne.2, fun c hc => List.mem_takeWhile_imp hc, ?_, ?_⟩
          · rw [← List.append_assoc]
            exact of_mem_getLast?_append _ hne.1 fun c hc => isWordChar_of_isBlank (hblanks c hc)
          · rw [hgap]
            exact of_mem_head?_dropWhile
        refine ⟨⟨front, blanks, name, afterName.takeWhile isBlank, rest, ?_, hfront, hne.1, hblanks,
          hrun, fun c hc => List.mem_takeWhile_imp hc⟩, rfl, Option.some.inj h⟩
        rw [hline, hcs, hgap, List.takeWhile_append_dropWhile, List.takeWhile_append_dropWhile]
      · cases h

/-- There is at most one declaration at each place. -/
theorem Parts.eq_of_front (rule : IsRule keyword mark) {p q : Parts keyword mark line}
    (h : p.front = q.front) : p = q := by
  have hline := p.line_eq.symm.trans q.line_eq
  rw [h] at hline
  have hsuffix := List.append_cancel_left hline
  have hmatch := match?_of_parts rule p
  rw [hsuffix, match?_of_parts rule q] at hmatch
  simp only [toMatch, Option.some.injEq, Match.mk.injEq, List.append_cancel_left_eq,
    List.append_cancel_right_eq] at hmatch
  obtain ⟨hblanks, hname, hgap⟩ := hmatch
  simp only [hblanks, hname, hgap, List.append_cancel_left_eq, List.cons.injEq, true_and] at hsuffix
  exact Parts.ext h hblanks.symm hname.symm hgap.symm hsuffix

theorem Parts.front_eq (p : Parts keyword mark line) {done cs : List Char}
    (hline : line = done ++ cs) (h : p.front.length = done.length) : p.front = done :=
  (List.append_inj (p.line_eq.symm.trans hline) h).1

/-- Of two declarations, the one with more characters before it has the other one's front before it. -/
theorem Parts.exists_front_append {p q : Parts keyword mark line}
    (h : p.front.length ≤ q.front.length) : ∃ between, q.front = p.front ++ between ∧
      keyword ++ (p.blanks ++ (p.name ++ (p.gap ++ mark :: p.rest))) =
        between ++ (keyword ++ (q.blanks ++ (q.name ++ (q.gap ++ mark :: q.rest)))) := by
  have hline := p.line_eq.symm.trans q.line_eq
  rcases List.append_eq_append_iff.1 hline with ⟨between, hq, hrest⟩ | ⟨between, hp, hrest⟩
  · exact ⟨between, hq, hrest⟩
  · have hnil : between = [] := by
      have hlength := congrArg List.length hp
      rw [List.length_append] at hlength
      exact List.length_eq_zero_iff.1 (by omega)
    subst hnil
    exact ⟨[], by simpa using hp.symm, by simpa using hrest.symm⟩

theorem Parts.start_lt {p q : Parts keyword mark line} (h : p.front.length < q.front.length) :
    p.start < q.start := by
  obtain ⟨between, hfront, -⟩ := exists_front_append (Nat.le_of_lt h)
  rw [start, start, hfront, byteLength_append]
  cases between with
  | nil => simp [hfront] at h
  | cons c cs =>
    have hpos := c.utf8Size_pos
    rw [byteLength_cons]
    omega

/-- No declaration starts with the name of another one. -/
theorem Parts.not_at_name (rule : IsRule keyword mark) (p q : Parts keyword mark line)
    (h : p.name ++ (p.gap ++ mark :: p.rest) =
      keyword ++ (q.blanks ++ (q.name ++ (q.gap ++ mark :: q.rest)))) : False := by
  have hblanks : ∀ c ∈ (q.blanks ++ (q.name ++ (q.gap ++ mark :: q.rest))).head?,
      isWordChar c = false :=
    of_mem_head?_append q.blanks_ne_nil (fun c hc => isWordChar_of_isBlank (q.isBlank_blanks c hc)) _
  have hname : ∀ c ∈ (q.name ++ (q.gap ++ mark :: q.rest)).head?, isBlank c = false :=
    of_mem_head?_append q.run.ne_nil (fun c hc => isBlank_of_isWordChar (q.run.word c hc)) _
  have hmark : ∀ c ∈ (mark :: p.rest).head?, isBlank c = false := by simpa using rule.mark_blank
  -- behind the name there are blanks and the mark, behind the keyword blanks and a name
  have hafter := congrArg (List.dropWhile isWordChar) h
  rw [dropWhile_append_rest p.run.word p.run.after, dropWhile_append_rest rule.word hblanks] at hafter
  have hlast := congrArg (List.dropWhile isBlank) hafter
  rw [dropWhile_append_rest p.isBlank_gap hmark, dropWhile_append_rest q.isBlank_blanks hname] at hlast
  have hword := of_mem_head?_append q.run.ne_nil q.run.word (q.gap ++ mark :: q.rest)
  rw [← hlast] at hword
  have := hword mark rfl
  rw [rule.mark_word] at this
  cases this

section WordStart

variable {run cs before after : List Char}

/-- A place that no word character stands before is not inside a run of word characters. -/
theorem exists_behind_word (h : run ++ cs = before ++ after)
    (hrun : ∀ c ∈ run, isWordChar c = true) (hne : before ≠ [])
    (hbefore : ∀ c ∈ before.getLast?, isWordChar c = false) :
    ∃ between, before = run ++ between ∧ cs = between ++ after := by
  rcases List.append_eq_append_iff.1 h with hbehind | ⟨inner, hinside, -⟩
  · exact hbehind
  · have hlast : before.getLast hne ∈ run := hinside ▸ List.mem_append_left _ (List.getLast_mem hne)
    have hword := hbefore _ (List.getLast?_eq_some_getLast hne)
    rw [hrun _ hlast] at hword
    cases hword

/-- A place where a word character stands is not inside a run of other characters. -/
theorem exists_behind_nonword (h : run ++ cs = before ++ after)
    (hrun : ∀ c ∈ run, isWordChar c = false) (hafter : ∀ c ∈ after.head?, isWordChar c = true) :
    ∃ between, before = run ++ between ∧ cs = between ++ after := by
  rcases List.append_eq_append_iff.1 h with hbehind | ⟨inner, hinside, hout⟩
  · exact hbehind
  · cases inner with
    | nil => exact ⟨[], by simpa using hinside.symm, by simpa using hout.symm⟩
    | cons c inner =>
      have hword := hafter c (by simp [hout])
      rw [hrun c (by simp [hinside])] at hword
      cases hword

end WordStart

/-- A declaration that starts behind the start of another one starts behind the whole of it. -/
theorem Parts.end_le_front (rule : IsRule keyword mark) {p q : Parts keyword mark line}
    (h : p.front.length < q.front.length) :
    p.front.length + p.toMatch.text.length ≤ q.front.length := by
  obtain ⟨between, hfront, hsuffix⟩ := exists_front_append (Nat.le_of_lt h)
  have hkeyword := of_mem_head?_append rule.ne_nil rule.word
    (q.blanks ++ (q.name ++ (q.gap ++ mark :: q.rest)))
  have hlast (front : List Char) {cs : List Char} (hcs : q.front = front ++ cs) (hne : cs ≠ []) :
      ∀ c ∈ cs.getLast?, isWordChar c = false := by
    have hstarts := q.starts
    rwa [hcs, List.getLast?_append, List.getLast?_eq_some_getLast hne, Option.some_or,
      ← List.getLast?_eq_some_getLast hne] at hstarts
  have hne : between ≠ [] := by
    rintro rfl
    simp [hfront] at h
  -- behind the keyword, then behind the blanks after it
  obtain ⟨afterKeyword, rfl, hblanks⟩ := exists_behind_word hsuffix rule.word hne (hlast _ hfront hne)
  obtain ⟨afterBlanks, rfl, hname⟩ := exists_behind_nonword hblanks
    (fun c hc => isWordChar_of_isBlank (p.isBlank_blanks c hc)) hkeyword
  have hinner : afterBlanks ≠ [] := by
    rintro rfl
    exact not_at_name rule p q hname
  -- behind the name, then behind the mark
  obtain ⟨afterName, rfl, hgap⟩ := exists_behind_word hname p.run.word hinner
    (hlast (p.front ++ (keyword ++ p.blanks)) (by simp [hfront]) hinner)
  have htail : (p.gap ++ [mark]) ++ p.rest =
      afterName ++ (keyword ++ (q.blanks ++ (q.name ++ (q.gap ++ mark :: q.rest)))) := by
    simpa using hgap
  obtain ⟨afterMark, rfl, -⟩ := exists_behind_nonword htail
    (by
      intro c hc
      rcases List.mem_append.1 hc with hblank | hmark
      · exact isWordChar_of_isBlank (p.isBlank_gap c hblank)
      · rw [List.mem_singleton.1 hmark, rule.mark_word]) hkeyword
  simp only [hfront, toMatch, Match.text, List.length_append]
  omega

/-- Names with their offsets that are those of the declarations with at least `n` characters before
them, in the order of the line. -/
def ListsFrom (keyword : List Char) (mark : Char) (line : List Char) (n : Nat)
    (found : List (Nat × List Char)) : Prop :=
  ∃ parts : List (Parts keyword mark line), parts.Pairwise (fun p q => p.start < q.start) ∧
    (∀ p, p ∈ parts ↔ n ≤ p.front.length) ∧ found = parts.map fun p => (p.offset, p.name)

namespace ListsFrom

variable {n : Nat} {found : List (Nat × List Char)}

theorem atEnd : ListsFrom keyword mark line line.length [] := by
  refine ⟨[], .nil, fun p => ?_, rfl⟩
  have hlength := congrArg List.length p.line_eq
  simp at hlength ⊢
  omega

theorem past (h : ListsFrom keyword mark line (n + 1) found)
    (hnone : ∀ p : Parts keyword mark line, p.front.length ≠ n) :
    ListsFrom keyword mark line n found := by
  obtain ⟨parts, hsorted, hmem, hfound⟩ := h
  refine ⟨parts, hsorted, fun p => ?_, hfound⟩
  have hne := hnone p
  rw [hmem]
  omega

theorem cons (rule : IsRule keyword mark) (p : Parts keyword mark line)
    (h : ListsFrom keyword mark line (p.front.length + 1) found) :
    ListsFrom keyword mark line p.front.length ((p.offset, p.name) :: found) := by
  obtain ⟨parts, hsorted, hmem, rfl⟩ := h
  have hfirst : ∀ q ∈ parts, p.start < q.start := fun q hq => Parts.start_lt ((hmem q).1 hq)
  refine ⟨p :: parts, List.pairwise_cons.2 ⟨hfirst, hsorted⟩, fun q => ?_, rfl⟩
  rw [List.mem_cons, hmem]
  constructor
  · rintro (rfl | hlater)
    · exact Nat.le_refl _
    · omega
  · intro hle
    by_cases hlater : p.front.length + 1 ≤ q.front.length
    · exact .inr hlater
    · exact .inl (Parts.eq_of_front rule (q.front_eq p.line_eq (by omega)))

end ListsFrom

/-- The search from any character on finds all declarations that start there or later, provided that
none of them starts among the characters that it skips. -/
theorem listsFrom_go (rule : IsRule keyword mark) {done cs : List Char} (hline : line = done ++ cs)
    {skip : Nat} (hskip : ∀ p : Parts keyword mark line, done.length ≤ p.front.length →
      done.length + skip ≤ p.front.length) :
    ListsFrom keyword mark line done.length
      (findAll.go keyword mark done.getLast? (byteLength done) skip cs) := by
  -- over the characters that are left; the line stays the same and its part behind us grows
  induction cs generalizing done skip with
  | nil =>
    rw [List.append_nil] at hline
    subst hline
    rw [findAll.go]
    exact .atEnd
  | cons c cs ih =>
    have later {skip : Nat} (hskip : ∀ p : Parts keyword mark line,
        done.length + 1 ≤ p.front.length → done.length + 1 + skip ≤ p.front.length) :
        ListsFrom keyword mark line (done.length + 1)
          (findAll.go keyword mark (some c) (byteLength done + c.utf8Size) skip cs) := by
      simpa using @ih (done ++ [c]) (by simpa using hline) skip (by simpa using hskip)
    cases skip with
    | succ skip =>
      have hlater := @later skip fun p hp => by
        have := hskip p (by omega)
        omega
      exact hlater.past fun p hp => by
        have := hskip p (by omega)
        omega
    | zero =>
      by_cases hhere : ∃ p : Parts keyword mark line, p.front = done
      · obtain ⟨p, rfl⟩ := hhere
        have hmatch : match? keyword mark (c :: cs) = some p.toMatch := by
          rw [List.append_cancel_left (hline.symm.trans p.line_eq)]
          exact match?_of_parts rule p
        -- what is skipped now holds no start of a declaration
        have hlater := @later (p.toMatch.text.length - 1) fun q hq => by
          have := Parts.end_le_front rule hq
          omega
        have hfound := hlater.cons rule p
        rw [p.offset_eq] at hfound
        rw [findAll.go, if_pos ((startsWord_iff _).2 p.starts), hmatch]
        exact hfound
      · have hnone : (if startsWord done.getLast? then match? keyword mark (c :: cs) else none) =
            none := by
          rw [Option.eq_none_iff_forall_ne_some]
          intro m hm
          split at hm
          · next hstarts =>
            obtain ⟨p, hp, -⟩ := exists_parts_of_match? hline ((startsWord_iff _).1 hstarts) hm
            exact hhere ⟨p, hp⟩
          · cases hm
        have hlater := @later 0 fun p hp => hp
        rw [findAll.go, hnone]
        exact hlater.past fun p hp => hhere ⟨p, p.front_eq hline hp⟩

/-- Names with their offsets that are those of all declarations of a line, by increasing offset of the
keyword. -/
def ListsAll (keyword : List Char) (mark : Char) (line : List Char)
    (found : List (Nat × List Char)) : Prop :=
  ∃ all : List (Parts keyword mark line), all.Pairwise (fun p q => p.start < q.start) ∧
    (∀ p, p ∈ all) ∧ found = all.map fun p => (p.offset, p.name)

theorem ListsAll.namedAt {found : List (Nat × List Char)} (h : ListsAll keyword mark line found)
    {place : Nat × List Char} (hplace : place ∈ found) : NamedAt line place.1 place.2 := by
  obtain ⟨all, -, -, rfl⟩ := h
  obtain ⟨p, -, rfl⟩ := List.mem_map.1 hplace
  exact p.namedAt

/-- The search finds every declaration of a line. -/
theorem listsAll_findAll (rule : IsRule keyword mark) (line : List Char) :
    ListsAll keyword mark line (findAll keyword mark line) := by
  obtain ⟨all, hsorted, hmem, hfound⟩ :=
    @listsFrom_go keyword mark line rule [] line rfl 0 (by simp)
  exact ⟨all, hsorted, fun p => (hmem p).2 (Nat.zero_le _), hfound⟩

end ScriptIndex.Declaration
