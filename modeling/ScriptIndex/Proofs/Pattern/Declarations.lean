import ScriptIndex.Proofs.Declaration
import ScriptIndex.Proofs.Pattern.Runs

/-!
# Declarations and their patterns

The search for declarations never goes back, and neither does the scanner of labels. Both find what
the machine finds with the pattern that says how a declaration is written.
-/
namespace ScriptIndex.Pattern

open Text

section Declarations

open Declaration

variable {keyword : List Char} {mark : Char}

def declaration (keyword : List Char) (mark : Char) : Node :=
  .seqOf (.look (.word .boundary true) :: (keyword.map Node.literal ++
    [.plus .blank, .group 1 (.plus .word), .star .blank, .literal mark]))

theorem advances_declaration (keyword : List Char) (mark : Char) :
    (declaration keyword mark).Advances := by
  refine Node.advances_seqOf fun node hnode => ?_
  simp only [List.mem_cons, List.mem_append, List.mem_map, List.not_mem_nil, or_false] at hnode
  rcases hnode with rfl | ⟨c, -, rfl⟩ | rfl | rfl | rfl | rfl <;>
    simp [Node.Advances, Node.literal, Node.advances_plus, Node.advances_star]

/-- The places that the pattern of a declaration keeps. -/
def declarationSlots (offset : Nat) (m : Match) : Slots :=
  #[some offset, some (offset + byteLength m.text), some (offset + byteLength m.lead),
    some (offset + byteLength m.lead + byteLength m.name)]

theorem holds_boundary (rule : IsRule keyword mark) (before : Option Char) (rest : List Char) :
    (Look.word .boundary true).holds before (keyword ++ rest).head? = startsWord before := by
  obtain ⟨c, cs, rfl⟩ := List.exists_cons_of_ne_nil rule.ne_nil
  have hc := rule.word c (by simp)
  simp [Look.holds, WordEdge.holds, startsWord, hc]

/-- The way after a declaration, whose name is kept. -/
def afterMatch (w : Way) (m : Match) : Way :=
  ((((w.past m.lead).save 2).past m.name).save 3).past m.tail

theorem run_declaration (rule : IsRule keyword mark) (k : Continuation) (w : Way) :
    (declaration keyword mark).run k w =
      if startsWord w.before then (match? keyword mark w.rest).bind fun m => k (afterMatch w m)
      else none := by
  have hname : Refuses ((Node.star .blank).run ((Node.literal mark).run k)) .word :=
    .star (fun c => isBlank_disjoint) (.literal (by simpa using rule.mark_word))
  have hgap : Refuses ((Node.literal mark).run k) .blank :=
    .literal (by simpa using rule.mark_blank)
  rw [declaration, Node.run_seqOf_cons, Node.run, Node.run_seqOf_append, Node.run_literals, match?]
  cases hdrop : dropLiteral? keyword w.rest with
  | none => simp
  | some rest =>
    have hrest := (dropLiteral?_eq_some_iff _ _ _).mp hdrop
    rw [hrest, holds_boundary rule]
    congr 1
    simp only [Option.bind_some, Node.run_seqOf_cons, Node.run_seqOf_nil]
    rw [Node.run_plus (Refuses.longest (.group (.plus fun c => isWordChar_disjoint))),
      Node.run_group_plus (hname.save _).longest, Node.run_star hgap.longest, Node.run_literal]
    simp only [CharSet.holds_blank, CharSet.holds_word, Way.rest_save, Way.rest_past, hrest,
      List.drop_left, drop_length_takeWhile, List.isEmpty_iff, Bool.or_eq_true]
    by_cases hempty : rest.takeWhile isBlank = [] ∨
        (rest.dropWhile isBlank).takeWhile isWordChar = []
    · rcases hempty with h | h <;> simp [h]
    · obtain ⟨hblanks, hname⟩ := not_or.mp hempty
      rw [if_neg hblanks, if_neg hname, if_neg hempty]
      split <;> simp [afterMatch]

theorem matchAt_declaration (rule : IsRule keyword mark) (p : Point) :
    (declaration keyword mark).matchAt 1 p =
      (if startsWord p.before then match? keyword mark p.rest else none).map
        (declarationSlots p.offset) := by
  have hslots (m : Match) :
      ((afterMatch (Way.save ⟨p, Array.replicate (2 * 1 + 2) none⟩ 0) m).save 1).slots =
        declarationSlots p.offset m := by
    simp [afterMatch, declarationSlots, Match.text, Nat.add_assoc]
    rfl
  rw [Node.matchAt, run_declaration rule, Way.before_save, Way.rest_save]
  split
  · simp only [hslots, Option.map_eq_bind]
    rfl
  · rfl

/-- The search skips the rest of the declaration that it has found. -/
theorem go_skip (passed rest : List Char) (before : Option Char) (offset : Nat) :
    findAll.go keyword mark before offset passed.length (passed ++ rest) =
      findAll.go keyword mark (passed.getLast?.or before) (offset + byteLength passed) 0 rest := by
  induction passed generalizing before offset with
  | nil => rfl
  | cons c passed ih =>
    rw [List.length_cons, List.cons_append, findAll.go, ih, byteLength_cons, Nat.add_assoc]
    simp [List.getLast?_cons]

theorem exists_text_append {cs : List Char} {m : Match} (h : match? keyword mark cs = some m) :
    m.text ≠ [] ∧ ∃ rest, cs = m.text ++ rest := by
  obtain ⟨parts, hfront, rfl⟩ := @exists_parts_of_match? keyword mark cs [] cs m rfl (by simp) h
  refine ⟨by simp [Parts.toMatch, Match.text], parts.rest, ?_⟩
  have hline := parts.line_eq
  rw [hfront] at hline
  simpa [Parts.toMatch, Match.text] using hline

theorem go_of_leftmost_none (rule : IsRule keyword mark) (p : Point)
    (h : leftmost ((declaration keyword mark).matchAt 1) p = none) :
    findAll.go keyword mark p.before p.offset 0 p.rest = [] := by
  induction hrest : p.rest generalizing p with
  | nil => rw [findAll.go]
  | cons c cs ih =>
    rw [leftmost_cons hrest, Option.or_eq_none_iff, matchAt_declaration rule, hrest,
      Option.map_eq_none_iff] at h
    rw [findAll.go, h.1]
    exact ih (p.next c cs) h.2 rfl

/-- Up to the first match the search does what the machine does. -/
theorem go_of_leftmost_some (rule : IsRule keyword mark) (p : Point) {slots : Slots}
    (h : leftmost ((declaration keyword mark).matchAt 1) p = some slots) :
    ∃ front m rest, p.rest = front ++ (Match.text m ++ rest) ∧ m.text ≠ [] ∧
      slots = declarationSlots (p.offset + byteLength front) m ∧
      findAll.go keyword mark p.before p.offset 0 p.rest =
        (p.offset + byteLength front + byteLength m.lead, m.name) ::
          findAll.go keyword mark ((front ++ m.text).getLast?.or p.before)
            (p.offset + byteLength (front ++ m.text)) 0 rest := by
  induction hrest : p.rest generalizing p with
  | nil =>
    rw [leftmost_nil hrest, matchAt_declaration rule, hrest, Option.map_eq_some_iff] at h
    obtain ⟨m, hm, -⟩ := h
    obtain ⟨-, hm⟩ := Option.ite_none_right_eq_some.mp hm
    obtain ⟨hne, rest, hnil⟩ := exists_text_append hm
    exact absurd (List.append_eq_nil_iff.mp hnil.symm).1 hne
  | cons c cs ih =>
    rw [leftmost_cons hrest, matchAt_declaration rule, hrest] at h
    rw [findAll.go]
    cases hhere : (if startsWord p.before then match? keyword mark (c :: cs) else none) with
    | some m =>
      obtain ⟨-, hm⟩ := Option.ite_none_right_eq_some.mp hhere
      obtain ⟨hne, rest, htext⟩ := exists_text_append hm
      rw [hhere] at h
      refine ⟨[], m, rest, htext, hne, (Option.some.inj h).symm, ?_⟩
      obtain ⟨d, text, hcons⟩ := List.exists_cons_of_ne_nil hne
      rw [hcons, List.cons_append, List.cons.injEq] at htext
      obtain ⟨rfl, rfl⟩ := htext
      simp [hcons, go_skip, List.getLast?_cons, Nat.add_assoc]
    | none =>
      rw [hhere] at h
      obtain ⟨front, m, rest, hcs, hne, hslots, hgo⟩ := ih (p.next c cs) h rfl
      refine ⟨c :: front, m, rest, by simp [hcs], hne, ?_, ?_⟩
      · rw [hslots, Point.next, byteLength_cons, Nat.add_assoc]
      · simpa [Point.next, Nat.add_assoc, List.getLast?_cons] using hgo

/-- The search finds what the machine finds with the pattern of a declaration. Each round leaves
less of the line. -/
theorem go_eq_matchesFrom (rule : IsRule keyword mark) {line : List Char} (done : List Char)
    (p : Point) (hline : line = done ++ p.rest) (hoffset : p.offset = byteLength done)
    {rounds : Nat} (hrounds : p.rest.length < rounds) (lastStop : Option Nat) :
    findAll.go keyword mark p.before p.offset 0 p.rest =
      (((declaration keyword mark).program 1).matchesFrom rounds p.before p.offset p.rest
        lastStop).filterMap fun slots => captured? line slots 1 := by
  induction rounds generalizing p done lastStop with
  | zero => omega
  | succ rounds ih =>
    have hsearch := Program.search_eq _ 1 (advances_declaration keyword mark) p
    cases hfound : leftmost ((declaration keyword mark).matchAt 1) p with
    | none =>
      rw [hfound] at hsearch
      rw [go_of_leftmost_none rule p hfound, Program.matchesFrom_of_none hsearch,
        List.filterMap_nil]
    | some slots =>
      obtain ⟨front, m, rest, hrest, hne, rfl, hgo⟩ := go_of_leftmost_some rule p hfound
      rw [hfound] at hsearch
      have hsplit : p.rest = (front ++ m.text) ++ rest := by rw [hrest, List.append_assoc]
      have hpos := byteLength_pos hne
      have hlength := congrArg List.length hsplit
      have hshort := List.length_pos_iff.mpr hne
      rw [List.length_append, List.length_append] at hlength
      have hlater := ih (done ++ (front ++ m.text))
        ⟨(front ++ m.text).getLast?.or p.before, p.offset + byteLength (front ++ m.text), rest⟩
        (by simp [hline, hsplit]) (by simp [hoffset]) (by dsimp only; omega)
        (some (p.offset + byteLength (front ++ m.text)))
      have hname : captured? line (declarationSlots (p.offset + byteLength front) m) 1 =
          some (p.offset + byteLength front + byteLength m.lead, m.name) := by
        have hparts : line = (done ++ (front ++ m.lead)) ++ (m.name ++ (m.tail ++ rest)) := by
          simp [hline, hrest, Match.text]
        have hlead : p.offset + byteLength front + byteLength m.lead =
            byteLength (done ++ (front ++ m.lead)) := by
          simp [hoffset, Nat.add_assoc]
        rw [hparts, hlead]
        exact captured?_eq (congrArg (some ∘ some) hlead) (by simp [declarationSlots, ← hlead])
      rw [hgo, hlater, Program.matchesFrom_of_some hsearch hsplit rfl
        (by simp [declarationSlots, Nat.add_assoc]) (by rw [byteLength_append]; omega),
        List.filterMap_cons, hname]

theorem findAll_eq_matches (rule : IsRule keyword mark) (line : List Char) :
    findAll keyword mark line =
      (((declaration keyword mark).program 1).findAll line).filterMap fun slots =>
        captured? line slots 1 :=
  go_eq_matchesFrom rule [] ⟨none, 0, line⟩ rfl rfl (by dsimp only; omega) none

end Declarations

theorem reads_constant : Reads "\\bconst\\s+(\\w+)\\s*=" (declaration "const".toList '=') 1 := by
  decide +kernel

theorem constants_eq_allMatches (line : List Char) :
    Constant.inLine line =
      (allMatches "\\bconst\\s+(\\w+)\\s*=" (Comment.before line)).filterMap fun slots =>
        captured? (Comment.before line) slots 1 := by
  rw [reads_constant.allMatches_eq]
  exact findAll_eq_matches Constant.isRule _

section Labels

open Declaration ScriptIndex.Symbol

def scopeWord : Node :=
  .group 3 (.alt (.seqOf ("local".toList.map Node.literal))
    (.seqOf ("global".toList.map Node.literal)))

def scope : Node :=
  .group 2 (.seqOf [.literal '(', .star .blank, scopeWord, .star .blank, .literal ')'])

/-- What follows the name of a label. -/
def labelEnd : List Node :=
  [.star .blank, .times 0 (some 1) true scope, .star .blank, .literal ':']

def label : List Node := .star .blank :: .group 1 (.plus .word) :: labelEnd

theorem reads_label :
    Reads "^\\s*(\\w+)\\s*(\\(\\s*(local|global)\\s*\\))?\\s*:" (anchored label) 3 := by
  decide +kernel

/-- The second way lies behind the first one, and the first places that it keeps are the same. -/
def Reaches (w v : Way) : Prop :=
  (∃ passed, w.rest = passed ++ v.rest ∧ v.offset = w.offset + byteLength passed) ∧
    ∀ slot < 4, v.slots[slot]? = w.slots[slot]?

namespace Reaches

variable {u v w : Way}

theorem trans (huv : Reaches u v) (hvw : Reaches v w) : Reaches u w := by
  obtain ⟨⟨a, ha, hstart⟩, hkept⟩ := huv
  obtain ⟨⟨b, hb, hstop⟩, hkept'⟩ := hvw
  refine ⟨⟨a ++ b, ?_, ?_⟩, fun slot hslot => (hkept' slot hslot).trans (hkept slot hslot)⟩
  · rw [ha, hb, List.append_assoc]
  · rw [hstop, hstart, byteLength_append, Nat.add_assoc]

theorem past {passed rest : List Char} (h : w.rest = passed ++ rest) : Reaches w (w.past passed) :=
  ⟨⟨passed, by rw [Way.rest_past, h, List.drop_left], rfl⟩, fun _ _ => rfl⟩

theorem takeWhile (w : Way) (p : Char → Bool) : Reaches w (w.past (w.rest.takeWhile p)) :=
  past (List.takeWhile_append_dropWhile).symm

theorem save {slot : Nat} (hslot : 4 ≤ slot) (w : Way) : Reaches w (w.save slot) := by
  refine ⟨⟨[], rfl, rfl⟩, fun kept hkept => ?_⟩
  exact Array.getElem?_setIfInBounds_ne (by omega)

end Reaches

theorem run_scopeWord (k : Continuation) (w : Way) :
    let afterWord := (dropLiteral? "local".toList w.rest).or (dropLiteral? "global".toList w.rest)
    (afterWord = none ∧ scopeWord.run k w = none) ∨
      ∃ v, Reaches w v ∧ afterWord = some v.rest ∧ scopeWord.run k w = k v := by
  have hreaches {word rest : List Char} (hrest : w.rest = word ++ rest) :
      Reaches w (((w.save 6).past word).save 7) :=
    ((Reaches.save (by decide) w).trans (.past hrest)).trans (.save (by decide) _)
  rw [scopeWord, Node.run, Node.run, Node.run_literals, Node.run_literals, Way.rest_save]
  cases hlocal : dropLiteral? "local".toList w.rest with
  | some rest =>
    have hrest := (dropLiteral?_eq_some_iff _ _ _).mp hlocal
    have hglobal : dropLiteral? "global".toList w.rest = none := by simp [hrest, dropLiteral?]
    refine .inr ⟨_, hreaches hrest, ?_, ?_⟩
    · simp [hrest]
    · rw [hglobal, Option.bind_none, Option.or_none, Option.bind_some]
  | none =>
    cases hglobal : dropLiteral? "global".toList w.rest with
    | some rest =>
      have hrest := (dropLiteral?_eq_some_iff _ _ _).mp hglobal
      exact .inr ⟨_, hreaches hrest, by simp [hrest], rfl⟩
    | none => exact .inl ⟨rfl, rfl⟩

/-- A mark behind blanks. -/
theorem run_blankLiteral (mark : Char) (hmark : isBlank mark = false) (k : Continuation) (w : Way) :
    ((w.rest.dropWhile isBlank).head? ≠ some mark ∧
        (Node.star .blank).run ((Node.literal mark).run k) w = none) ∨
      ∃ v, Reaches w v ∧ w.rest.dropWhile isBlank = mark :: v.rest ∧
        (Node.star .blank).run ((Node.literal mark).run k) w = k v := by
  rw [Node.run_star (Refuses.longest (.literal (by simpa using hmark))), Node.run_literal,
    Way.rest_past, CharSet.holds_blank, drop_length_takeWhile]
  by_cases hhead : (w.rest.dropWhile isBlank).head? = some mark
  · obtain ⟨rest, hrest⟩ := List.head?_eq_some_iff.mp hhead
    have hmark : (w.past (w.rest.takeWhile isBlank)).rest = [mark] ++ rest := by simpa using hrest
    refine .inr ⟨_, (Reaches.takeWhile w isBlank).trans (.past hmark), ?_, if_pos hhead⟩
    rw [Way.rest_past, hmark, hrest]
    rfl
  · exact .inl ⟨hhead, if_neg hhead⟩

theorem run_scope (k : Continuation) (w : Way) :
    (afterScope? w.rest = none ∧ scope.run k w = none) ∨
      ∃ v, Reaches w v ∧ w.rest.head? = some '(' ∧ afterScope? w.rest = some v.rest ∧
        scope.run k w = k v := by
  have hword (k : Continuation) : Refuses (scopeWord.run k) .blank :=
    .group (.alt (.literals (by decide) (by decide +kernel))
      (.literals (by decide) (by decide +kernel)))
  simp only [scope, Node.run, Node.run_seqOf_cons, Node.run_seqOf_nil]
  rw [Node.run_literal, Node.run_star (hword _).longest, Way.rest_save]
  rcases hrest : w.rest with _ | ⟨c, cs⟩
  · exact .inl ⟨rfl, rfl⟩
  by_cases hc : c = '('
  · subst hc
    have hparen : (w.save 4).rest = ['('] ++ cs := hrest
    have hopen : Reaches w ((w.save 4).past ['(']) :=
      (Reaches.save (by decide) w).trans (.past hparen)
    have hinner := hopen.trans (.takeWhile _ CharSet.blank.holds)
    generalize hway : Way.past ((w.save _).past _) _ = t at hinner ⊢
    have ht : t.rest = cs.dropWhile isBlank := by simp [← hway, hrest]
    rw [List.head?_cons, if_pos rfl, afterScope?, ← ht]
    rcases run_scopeWord _ t with ⟨hnone, hrun⟩ | ⟨u, hu, hafter, hrun⟩
    · exact .inl ⟨by rw [hnone]; rfl, hrun⟩
    rcases run_blankLiteral ')' (by decide +kernel) _ u with ⟨hclose, hend⟩ | ⟨v, hv, hclose, hend⟩
    · refine .inl ⟨?_, hrun.trans hend⟩
      rw [hafter, Option.map_some]
      split
      case h_1 h => exact absurd (congrArg List.head? (Option.some.inj h)) hclose
      case h_2 => rfl
    · refine .inr ⟨v.save 5, ((hinner.trans hu).trans hv).trans (.save (by decide) v), rfl, ?_,
        hrun.trans hend⟩
      rw [hafter, Option.map_some, hclose]
      rfl
  · refine .inl ⟨?_, ?_⟩
    · rw [afterScope?]
      simpa using hc
    · simp [hc]

theorem run_labelEnd {f : Way → Slots} (w : Way) :
    let afterName := w.rest.dropWhile isBlank
    let rest := (afterScope? afterName).getD afterName
    ((rest.dropWhile isBlank).head? ≠ some ':' ∧
        (Node.seqOf labelEnd).run (fun v => some (f v)) w = none) ∨
      (rest.dropWhile isBlank).head? = some ':' ∧
        ∃ v, Reaches w v ∧ (Node.seqOf labelEnd).run (fun v => some (f v)) w = some (f v) := by
  have hparen (k : Continuation) : Refuses (scope.run k) .blank :=
    .group (.literal (by decide +kernel))
  have hcolon (k : Continuation) : Refuses ((Node.literal ':').run k) .blank :=
    .literal (by decide +kernel)
  have hgap := Reaches.takeWhile w isBlank
  have hdrop : (w.past (w.rest.takeWhile isBlank)).rest = w.rest.dropWhile isBlank := by simp
  simp only [labelEnd, Node.run_seqOf_cons, Node.run_seqOf_nil, ← hdrop]
  rw [Node.run_star (.inr (.optional (hparen _) (.star (hcolon _)))), Node.run_optional,
    CharSet.holds_blank]
  generalize w.past (w.rest.takeWhile isBlank) = u at *
  rcases run_scope _ u with ⟨hnone, hrun⟩ | ⟨v, hv, hopen, hsome, hrun⟩
  · rw [hnone, hrun, Option.none_or, Option.getD_none]
    rcases run_blankLiteral ':' (by decide +kernel) _ u with hend | ⟨v, hv, hmark, hend⟩
    · exact .inl hend
    · exact .inr ⟨congrArg List.head? hmark, v, hgap.trans hv, hend⟩
  · rw [hsome, hrun, Option.getD_some]
    rcases run_blankLiteral ':' (by decide +kernel) _ v with ⟨hmark, hend⟩ | ⟨x, hx, hmark, hend⟩
    · refine .inl ⟨hmark, ?_⟩
      obtain ⟨cs, hcs⟩ := List.head?_eq_some_iff.mp hopen
      have hblank : isBlank '(' = false := by decide +kernel
      rw [hend, Option.none_or, Node.run_star_literal (by decide +kernel), hcs]
      simp [hblank]
    · exact .inr ⟨congrArg List.head? hmark, x, (hgap.trans hv).trans hx, by rw [hend]; rfl⟩

theorem run_label (f : Way → Slots) (w : Way) :
    (labelOf? w.rest = none ∧ (Node.seqOf label).run (fun v => some (f v)) w = none) ∨
      ∃ blanks name rest v, w.rest = blanks ++ (name ++ rest) ∧ name ≠ [] ∧
        labelOf? w.rest = some (byteLength blanks, name) ∧
        Reaches ((((w.past blanks).save 2).past name).save 3) v ∧
        (Node.seqOf label).run (fun v => some (f v)) w = some (f v) := by
  have hname (k : Continuation) : Refuses ((Node.seqOf labelEnd).run k) .word := by
    have hcolon : Refuses ((Node.literal ':').run k) .word := .literal (by decide +kernel)
    simp only [labelEnd, Node.run_seqOf_cons, Node.run_seqOf_nil]
    exact .star (fun c => isBlank_disjoint) (.optional (.group (.literal (by decide +kernel)))
      (.star (fun c => isBlank_disjoint) hcolon))
  rw [label, Node.run_seqOf_cons, Node.run_seqOf_cons,
    Node.run_star (Refuses.longest (.group (.plus fun c => isWordChar_disjoint))),
    Node.run_group_plus ((hname _).save _).longest]
  simp only [CharSet.holds_blank, CharSet.holds_word, Way.rest_past, drop_length_takeWhile,
    labelOf?]
  have hblanks := w.rest.takeWhile_append_dropWhile (p := isBlank)
  have hword := (w.rest.dropWhile isBlank).takeWhile_append_dropWhile (p := isWordChar)
  generalize w.rest.takeWhile isBlank = blanks at *
  generalize (w.rest.dropWhile isBlank).takeWhile isWordChar = name at *
  generalize (w.rest.dropWhile isBlank).dropWhile isWordChar = afterName at *
  rw [← hword] at hblanks
  by_cases hne : name = []
  · exact .inl ⟨by simp [hne], if_pos hne⟩
  rw [if_neg hne]
  have hrest : ((((w.past blanks).save 2).past name).save 3).rest = afterName := by simp [← hblanks]
  rcases run_labelEnd ((((w.past blanks).save 2).past name).save 3) with
    ⟨hmark, hrun⟩ | ⟨hmark, v, hv, hrun⟩ <;> rw [hrest] at hmark
  · exact .inl ⟨by simp [hmark], hrun⟩
  · exact .inr ⟨blanks, name, afterName, v, hblanks.symm, hne, by simp [hmark, hne], hv, hrun⟩

/-- A line has at most one label, and the pattern finds it. -/
theorem labelOf?_eq_allMatches (line : List Char) :
    (labelOf? line).toList =
      (allMatches "^\\s*(\\w+)\\s*(\\(\\s*(local|global)\\s*\\))?\\s*:" line).filterMap fun slots =>
        captured? line slots 1 := by
  have hfirst := reads_label.firstMatch?_eq line
  rcases run_label (fun v => (v.save 1).slots) (startWay 3 line) with
    ⟨hnone, hrun⟩ | ⟨blanks, name, rest, v, hsplit, hne, hsome, hv, hrun⟩
  · rw [reads_label.allMatches_of_firstMatch?_eq_none (hfirst.trans hrun)]
    exact congrArg Option.toList hnone
  obtain ⟨⟨passed, hpassed, hoffset⟩, hkept⟩ := hv
  rw [rest_startWay] at hsplit hsome
  generalize hway : Way.save (Way.past _ name) 3 = w at hpassed hoffset hkept
  have hrest : w.rest = rest := by simp [← hway, hsplit]
  rw [hrest] at hpassed
  have hline : (blanks ++ (name ++ passed)) ++ v.rest = line := by simp [hsplit, hpassed]
  have hslots (slot : Nat) (hslot : slot < 4) (hne : slot ≠ 1) :
      (v.save 1).slots[slot]? = w.slots[slot]? :=
    (Array.getElem?_setIfInBounds_ne hne.symm).trans (hkept slot hslot)
  have hopen : v.slots[1]? = some none :=
    (hkept 1 (by decide)).trans (by simp [← hway])
  have hstart : (v.save 1).slots[0]? = some (some 0) :=
    (hslots 0 (by decide) (by decide)).trans (by simp [← hway])
  have hstop : (v.save 1).slots[1]? = some (some (byteLength (blanks ++ (name ++ passed)))) := by
    rw [Way.save, Array.getElem?_setIfInBounds_self_of_lt (Array.getElem?_eq_some_iff.mp hopen).1,
      hoffset, ← hway]
    simp [Nat.add_assoc]
  have hcaptured : captured? line (v.save 1).slots 1 = some (byteLength blanks, name) := by
    rw [hsplit]
    exact captured?_eq
      ((hslots 2 (by decide) (by decide)).trans (by simp [← hway]))
      ((hslots 3 (by decide) (by decide)).trans (by simp [← hway]))
  rw [hrun, ← hline] at hfirst
  have hall := reads_label.allMatches_of_firstMatch? hfirst (by simp [hne]) hstart hstop
  rw [hline] at hall
  rw [hall, hsome, List.filterMap_cons, hcaptured]
  rfl

end Labels

section Symbols

open ScriptIndex.Symbol

/-- The patterns of the symbols, in the order in which a line is searched for them. -/
def symbolRules : List (String × SymbolKind) :=
  [("\\bscript\\s+(\\w+)\\s*\\\x7b", .script), ("\\bmovement\\s+(\\w+)\\s*\\\x7b", .movement),
    ("\\bmart\\s+(\\w+)\\s*\\\x7b", .mart), ("\\bmapscripts\\s+(\\w+)\\s*\\\x7b", .mapScripts),
    ("\\btext\\s+(\\w+)\\s*\\\x7b", .text),
    ("^\\s*(\\w+)\\s*(\\(\\s*(local|global)\\s*\\))?\\s*:", .label)]

def blockPattern (keyword : String) : String := "\\b" ++ keyword ++ "\\s+(\\w+)\\s*\\\x7b"

theorem symbolRules_eq : symbolRules =
    (blockRules.map fun rule => (blockPattern rule.1, rule.2)) ++
      [("^\\s*(\\w+)\\s*(\\(\\s*(local|global)\\s*\\))?\\s*:", .label)] := by
  decide +kernel

theorem reads_block : ∀ rule ∈ blockRules,
    Reads (blockPattern rule.1) (declaration rule.1.toList '\x7b') 1 := by
  decide +kernel

theorem symbols_eq_allMatches (line : List Char) :
    Symbol.inLine line =
      symbolRules.flatMap fun rule =>
        ((allMatches rule.1 (Comment.before line)).filterMap fun slots =>
          captured? (Comment.before line) slots 1).map (Prod.mk rule.2) := by
  rw [symbolRules_eq, List.flatMap_append, List.flatMap_singleton, ← labelOf?_eq_allMatches,
    List.flatMap_map]
  refine congrArg (· ++ _) (List.flatMap_congr fun rule hrule => ?_)
  have hkeyword : ∀ rule ∈ blockRules, rule.1 ∈ blockKeywords := by decide
  rw [(reads_block rule hrule).allMatches_eq]
  exact congrArg _ (findAll_eq_matches (isRule_block (hkeyword rule hrule)) _)

end Symbols

end ScriptIndex.Pattern
