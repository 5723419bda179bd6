import Mathlib.Data.List.Basic
import ScriptIndex.Command.Assignments
import ScriptIndex.Command.Macros
import ScriptIndex.Proofs.Declaration.Search
import ScriptIndex.Proofs.Pattern.Runs
import ScriptIndex.Proofs.Text.Blank
import ScriptIndex.Proofs.Text.Lines

/-!
# Lines of include files and their patterns

Each scanner of an include file reads what the machine finds with the pattern that says how such a
line is written.
-/
namespace ScriptIndex.Pattern

open Text

section Assignments

/-- Any text that starts with no blank, as short as possible. -/
def value : Node := .seq (.set (.compl .blank)) (.times 0 none false (.set (.compl (.single '\n'))))

def leftSide : List Node := [.star .blank, .group 1 (.plus .word), .star .blank, .literal '=']

def rightSide : List Node := [.star .blank, .group 2 value, .star .blank, .look .stopText]

def assignment : List Node := leftSide ++ rightSide

theorem reads_assignment : Reads "^\\s*(\\w+)\\s*=\\s*(\\S.*?)\\s*$" (anchored assignment) 2 := by
  decide +kernel

/-- A lazy repetition of a set stops at the first place where the rest of the pattern matches. Here
that is where only blanks are left. -/
theorem many_lazy {s : CharSet} {k : Continuation}
    (hblank : ∀ w : Way, w.rest.all isBlank = true → (k w).isSome)
    (hother : ∀ w : Way, w.rest.all isBlank = false → k w = none) (w : Way)
    (hall : ∀ c ∈ w.rest, s.holds c = true) :
    many (Node.set s).run false k w = k (w.past (trimEnd w.rest)) := by
  induction hrest : w.rest generalizing w with
  | nil =>
    obtain ⟨slots, hk⟩ := Option.isSome_iff_exists.mp (hblank w (by simp [hrest]))
    simp [Node.many_set, prefer, hk, trimEnd]
  | cons c cs ih =>
    rw [hrest, List.forall_mem_cons] at hall
    rw [Node.many_set, prefer, Node.run_set_cons hrest, if_pos hall.1]
    cases hblanks : (c :: cs).all isBlank with
    | true =>
      obtain ⟨slots, hk⟩ := Option.isSome_iff_exists.mp (hblank w (hrest ▸ hblanks))
      simp [hk, trimEnd_eq_nil hblanks]
    | false =>
      have hnext : (w.past [c]).rest = cs := by simp [hrest]
      simp [hother w (hrest ▸ hblanks), trimEnd_cons hblanks,
        ih (w.past [c]) (hnext ▸ hall.2) hnext]

theorem run_blankEnd (k : Continuation) (w : Way) :
    (Node.star .blank).run ((Node.look .stopText).run k) w =
      if w.rest.all isBlank then k (w.past w.rest) else none := by
  rw [Node.run_star (Refuses.longest .stopText), Node.run, CharSet.holds_blank, Way.rest_past,
    drop_length_takeWhile]
  by_cases hall : w.rest.all isBlank
  · have hblank := List.all_eq_true.mp hall
    simp [Look.holds, hall, List.takeWhile_eq_self_iff.mpr hblank,
      List.dropWhile_eq_nil_iff.mpr hblank]
  · obtain ⟨c, hc, hblank⟩ := by simpa using hall
    have hne : w.rest.dropWhile isBlank ≠ [] := fun h => by
      simpa [hblank] using List.dropWhile_eq_nil_iff.mp h c hc
    simp [Look.holds, hall, hne]

/-- A value reaches up to the last character that is not blank. -/
theorem run_value {w : Way} (hline : '\n' ∉ w.rest) (hhead : ∀ c ∈ w.rest.head?, isBlank c = false)
    (k : Way → Slots) :
    (Node.group 2 value).run
        ((Node.star .blank).run ((Node.look .stopText).run fun v => some (k v))) w =
      if w.rest = [] then none
      else some (k ((((w.save 4).past (trimEnd w.rest)).save 5).past
        (w.rest.drop (trimEnd w.rest).length))) := by
  rw [Node.run, value, Node.run]
  cases hrest : w.rest with
  | nil => simp [Node.run_set_nil, hrest]
  | cons c cs =>
    rw [hrest] at hhead hline
    have hc := hhead c rfl
    have hblanks : (c :: cs).all isBlank = false := by simp [hc]
    have hnext : ((w.save 4).past [c]).rest = cs := by simp [hrest]
    have hdots : ∀ d ∈ ((w.save 4).past [c]).rest,
        (CharSet.compl (.single '\n')).holds d = true := by
      rw [hnext]
      intro d hd
      simpa using ne_of_mem_of_not_mem (List.mem_cons_of_mem c hd) hline
    rw [Node.run_set_cons (w := w.save 4) hrest, CharSet.holds_compl, CharSet.holds_blank, hc]
    refine (many_lazy (fun v hv => ?_) (fun v hv => ?_) _ hdots).trans ?_
    · simp [run_blankEnd, hv]
    · simp [run_blankEnd, hv]
    · obtain ⟨right, hsplit, hright, -⟩ := exists_trimEnd_append cs
      have hleft : cs.drop (trimEnd cs).length = right := by
        have := congrArg (List.drop (trimEnd cs).length) hsplit
        rwa [List.drop_left] at this
      rw [run_blankEnd, hnext, trimEnd_cons hblanks]
      simp [hrest, hleft, List.all_eq_true.mpr hright]

theorem run_leftSide (k : Continuation) (w : Way) :
    (Command.assignment? w.rest = none ∧ (Node.seqOf leftSide).run k w = none) ∨
      ∃ blanks name gap rest, w.rest = blanks ++ (name ++ (gap ++ '=' :: rest)) ∧
        Command.assignment? w.rest = (if trim rest = [] then none else some (name, trim rest)) ∧
        (Node.seqOf leftSide).run k w =
          k (((((w.past blanks).save 2).past name).save 3).past (gap ++ ['='])) := by
  have hequals : Refuses ((Node.literal '=').run k) .blank := .literal (by decide +kernel)
  have hname : Refuses ((Node.star .blank).run ((Node.literal '=').run k)) .word :=
    .star (fun c => isBlank_disjoint) (.literal (by decide +kernel))
  simp only [leftSide, Node.run_seqOf_cons, Node.run_seqOf_nil]
  rw [Node.run_star (Refuses.longest (.group (.plus fun c => isWordChar_disjoint))),
    Node.run_group_plus (hname.save _).longest, Node.run_star hequals.longest, Node.run_literal]
  simp only [CharSet.holds_blank, CharSet.holds_word, Way.rest_save, Way.rest_past,
    drop_length_takeWhile, Command.assignment?, Bool.or_eq_true, List.isEmpty_iff]
  have hblanks := w.rest.takeWhile_append_dropWhile (p := isBlank)
  have hword := (w.rest.dropWhile isBlank).takeWhile_append_dropWhile (p := isWordChar)
  generalize (w.rest.dropWhile isBlank).takeWhile isWordChar = name at *
  generalize (w.rest.dropWhile isBlank).dropWhile isWordChar = afterName at *
  have hgap := afterName.takeWhile_append_dropWhile (p := isBlank)
  generalize afterName.dropWhile isBlank = afterGap at *
  rw [← hword, ← hgap] at hblanks
  by_cases hnone : name = []
  · refine .inl ⟨?_, if_pos hnone⟩
    simp only [hnone, true_or, if_true]
    split <;> rfl
  rcases afterGap with _ | ⟨c, rest⟩
  · exact .inl ⟨rfl, by simp⟩
  by_cases hc : c = '='
  · subst hc
    refine .inr ⟨_, name, _, rest, hblanks.symm, by simp only [hnone, false_or], ?_⟩
    rw [if_neg hnone, List.head?_cons, if_pos rfl, Way.past_past]
  · exact .inl ⟨by simp [hc], by simp [hc]⟩

theorem run_rightSide {w : Way} (hline : '\n' ∉ w.rest) (k : Way → Slots) :
    ∃ lead right, w.rest = lead ++ (trim w.rest ++ right) ∧
      (Node.seqOf rightSide).run (fun v => some (k v)) w =
        if trim w.rest = [] then none
        else some (k (((((w.past lead).save 4).past (trim w.rest)).save 5).past right)) := by
  have hvalue (k : Continuation) : Refuses ((Node.group 2 value).run k) .blank :=
    .group (.set fun c hc => by rw [CharSet.holds_compl, hc]; rfl)
  have hlead := w.rest.takeWhile_append_dropWhile (p := isBlank)
  have hdrop : (w.past (w.rest.takeWhile isBlank)).rest = w.rest.dropWhile isBlank := by simp
  obtain ⟨right, hright, -, -⟩ := exists_trimEnd_append (w.rest.dropWhile isBlank)
  have htext : '\n' ∉ (w.past (w.rest.takeWhile isBlank)).rest := fun h =>
    hline ((List.drop_suffix _ _).mem h)
  have hhead : ∀ c ∈ (w.rest.dropWhile isBlank).head?, isBlank c = false := of_mem_head?_dropWhile
  refine ⟨w.rest.takeWhile isBlank, right, by rw [trim, ← hright, hlead], ?_⟩
  simp only [rightSide, Node.run_seqOf_cons, Node.run_seqOf_nil]
  rw [Node.run_star (hvalue _).longest, CharSet.holds_blank, run_value htext (hdrop ▸ hhead), hdrop,
    trim]
  generalize w.rest.dropWhile isBlank = text at hright hhead ⊢
  rcases text with _ | ⟨c, cs⟩
  · rfl
  have hne : trimEnd (c :: cs) ≠ [] := by simp [trimEnd_cons, hhead c rfl]
  have hdropped := congrArg (List.drop (trimEnd (c :: cs)).length) hright
  rw [List.drop_left] at hdropped
  rw [if_neg hne, if_neg (List.cons_ne_nil c cs), hdropped]

theorem assignment?_eq_firstMatch? {line : List Char} (hline : '\n' ∉ line) :
    Command.assignment? line =
      (firstMatch? "^\\s*(\\w+)\\s*=\\s*(\\S.*?)\\s*$" line).bind fun slots =>
        (captured? line slots 1).bind fun name =>
          (captured? line slots 2).map fun value => (name.2, value.2) := by
  rw [reads_assignment.firstMatch?_eq, assignment, Node.run_seqOf_append]
  rcases run_leftSide _ (startWay 2 line) with
    ⟨hnone, hrun⟩ | ⟨blanks, name, gap, rest, hsplit, hsome, hrun⟩
  · exact hnone.trans (by rw [hrun]; rfl)
  rw [rest_startWay] at hsplit hsome
  generalize hway : Way.past _ (gap ++ ['=']) = w at hrun
  have hrest : w.rest = rest := by simp [← hway, hsplit]
  obtain ⟨lead, right, htext, hvalue⟩ :=
    run_rightSide (w := w) (fun h => hline (by simp [hsplit, ← hrest, h])) fun v => (v.save 1).slots
  rw [hrest] at htext hvalue
  rw [hsome, hrun, hvalue]
  split
  · rfl
  generalize hslots : Way.slots _ = slots
  have hname : captured? (blanks ++ (name ++ (gap ++ '=' :: rest))) slots 1 =
      some (byteLength blanks, name) :=
    captured?_eq (by simp [← hslots, ← hway])
      (by simp [← hslots, ← hway])
  have hvalue :
      captured? ((blanks ++ (name ++ (gap ++ '=' :: lead))) ++ (trim rest ++ right)) slots 2 =
        some (byteLength (blanks ++ (name ++ (gap ++ '=' :: lead))), trim rest) :=
    captured?_eq (by simp [← hslots, ← hway, Nat.add_assoc])
      (by simp [← hslots, ← hway, Nat.add_assoc])
  have hline : (blanks ++ (name ++ (gap ++ '=' :: lead))) ++ (trim rest ++ right) = line := by
    rw [hsplit, List.append_assoc, List.append_assoc, List.append_assoc, List.cons_append, ← htext]
  rw [← hsplit] at hname
  rw [hline] at hvalue
  simp [hname, hvalue]

end Assignments

section KeywordLines

open Declaration

/-- The name behind a keyword at the start of a line, and what follows it. -/
def keywordName? (keyword line : List Char) : Option (List Char × List Char) :=
  (dropLiteral? keyword (line.dropWhile isBlank)).bind fun after =>
    let afterBlanks := after.dropWhile isBlank
    let name := afterBlanks.takeWhile isWordChar
    if (after.takeWhile isBlank).isEmpty || name.isEmpty then none
    else some (name, afterBlanks.dropWhile isWordChar)

theorem macroHead?_eq (line : List Char) :
    Command.macroHead? line = keywordName? ".macro".toList line := by
  rw [Command.macroHead?, keywordName?]
  cases dropLiteral? ".macro".toList (line.dropWhile isBlank) <;> rfl

theorem movementAction?_eq (line : List Char) :
    Command.movementAction? line =
      (keywordName? "create_movement_action".toList line).map fun found =>
        (found.1, (Command.secondName? found.2).getD []) := by
  rw [Command.movementAction?, keywordName?]
  cases dropLiteral? "create_movement_action".toList (line.dropWhile isBlank) with
  | none => rfl
  | some after =>
    rw [Option.bind_some]
    dsimp only
    split <;> rfl

def keywordLine (keyword : List Char) : List Node :=
  .star .blank :: (keyword.map Node.literal ++ [.plus .blank, .group 1 (.plus .word)])

/-- The continuation succeeds behind any name, so that the name is read to its end. -/
theorem run_keywordLine (keyword : List Char) (hne : keyword ≠ [])
    (hkeyword : keyword.head?.any isBlank = false) (k : Continuation) (w : Way)
    (hk : ∀ v : Way, v.rest <:+ w.rest → (k v).isSome) :
    (keywordName? keyword w.rest = none ∧ (Node.seqOf (keywordLine keyword)).run k w = none) ∨
      ∃ front name rest, w.rest = front ++ (name ++ rest) ∧
        keywordName? keyword w.rest = some (name, rest) ∧
        (Node.seqOf (keywordLine keyword)).run k w =
          k ((((w.past front).save 2).past name).save 3) := by
  rw [keywordLine, Node.run_seqOf_cons, Node.run_seqOf_append,
    Node.run_star (Refuses.longest (.literals hne (by simpa using hkeyword))), Node.run_literals]
  simp only [Node.run_seqOf_cons, Node.run_seqOf_nil, CharSet.holds_blank, Way.rest_past,
    drop_length_takeWhile, keywordName?]
  cases hdrop : dropLiteral? keyword (w.rest.dropWhile isBlank) with
  | none => exact .inl ⟨rfl, rfl⟩
  | some after =>
    have hafter := (dropLiteral?_eq_some_iff _ _ _).mp hdrop
    have hname (v : Way) (hv : v.rest <:+ w.rest) :
        Longest (fun u => k (u.save 3)) .word (v.save 2) :=
      .inl (hk _ ((List.drop_suffix _ _).trans hv))
    rw [Option.bind_some, Option.bind_some,
      Node.run_plus (Refuses.longest (.group (.plus fun c => isWordChar_disjoint))),
      Node.run_group_plus (hname _ (by
        simp only [Way.rest_past]
        exact (List.drop_suffix _ _).trans ((List.drop_suffix _ _).trans (List.drop_suffix _ _))))]
    simp only [CharSet.holds_blank, CharSet.holds_word, Way.rest_past, drop_length_takeWhile,
      hafter, List.drop_left, Bool.or_eq_true, List.isEmpty_iff]
    by_cases hempty : after.takeWhile isBlank = [] ∨
        (after.dropWhile isBlank).takeWhile isWordChar = []
    · refine .inl ⟨if_pos hempty, ?_⟩
      rcases hempty with h | h <;> simp [h]
    · obtain ⟨hblanks, hword⟩ := not_or.mp hempty
      refine .inr ⟨w.rest.takeWhile isBlank ++ (keyword ++ after.takeWhile isBlank), _,
        (after.dropWhile isBlank).dropWhile isWordChar, ?_, if_neg hempty, ?_⟩
      · rw [List.takeWhile_append_dropWhile, List.append_assoc, List.append_assoc,
          List.takeWhile_append_dropWhile, ← hafter, List.takeWhile_append_dropWhile]
      · rw [if_neg hblanks, if_neg hword, Way.past_past, Way.past_past]

def parameters : List Node := [.group 2 (.star (.compl (.single '\n'))), .look .stopText]

def macroLine : List Node := keywordLine ".macro".toList ++ parameters

theorem reads_macroLine : Reads "^\\s*\\.macro\\s+(\\w+)(.*)$" (anchored macroLine) 2 := by
  decide +kernel

/-- What follows the name of a macro is all that is left of the line. -/
theorem run_parameters {w : Way} (hline : '\n' ∉ w.rest) (k : Continuation) :
    (Node.seqOf parameters).run k w = k (((w.save 4).past w.rest).save 5) := by
  have hall : ∀ c ∈ w.rest, (CharSet.compl (.single '\n')).holds c = true := fun c hc => by
    simpa using ne_of_mem_of_not_mem hc hline
  rw [parameters, Node.run_seqOf_cons, Node.run_seqOf_cons, Node.run_seqOf_nil, Node.run,
    Node.run_star (Refuses.longest (.save .stopText _)), Way.rest_save,
    List.takeWhile_eq_self_iff.mpr hall, Node.run]
  simp [Look.holds]

theorem macroHead?_eq_firstMatch? {line : List Char} (hline : '\n' ∉ line) :
    Command.macroHead? line =
      (firstMatch? "^\\s*\\.macro\\s+(\\w+)(.*)$" line).bind fun slots =>
        (captured? line slots 1).bind fun name =>
          (captured? line slots 2).map fun params => (name.2, params.2) := by
  have hend (v : Way) (hv : v.rest <:+ line) :
      ((Node.seqOf parameters).run (fun w => some (w.save 1).slots) v).isSome := by
    rw [run_parameters fun h => hline (hv.mem h)]
    rfl
  rw [reads_macroLine.firstMatch?_eq, macroLine, Node.run_seqOf_append, macroHead?_eq]
  rcases run_keywordLine ".macro".toList (by decide) (by decide) _ (startWay 2 line) hend with
    ⟨hnone, hrun⟩ | ⟨front, name, params, hsplit, hsome, hrun⟩
  · exact hnone.trans (by rw [hrun]; rfl)
  rw [rest_startWay] at hsplit hsome
  subst hsplit
  rw [hsome, hrun, run_parameters (by simpa using fun h => hline (by simp [h])), Option.bind_some]
  generalize hslots : Way.slots _ = slots
  have hname : captured? (front ++ (name ++ params)) slots 1 = some (byteLength front, name) :=
    captured?_eq (by simp [← hslots])
      (by simp [← hslots])
  have hparams : captured? ((front ++ name) ++ (params ++ [])) slots 2 =
      some (byteLength (front ++ name), params) :=
    captured?_eq (by simp [← hslots])
      (by simp [← hslots])
  rw [List.append_assoc, List.append_nil] at hparams
  rw [hname, hparams]
  rfl

/-- A value behind a comma. -/
def secondName : Node := .seqOf [.star .blank, .literal ',', .star .blank, .group 2 (.plus .word)]

theorem run_secondName (k : Way → Slots) (w : Way) :
    (Command.secondName? w.rest = none ∧ secondName.run (fun v => some (k v)) w = none) ∨
      ∃ lead name rest, w.rest = lead ++ (name ++ rest) ∧
        Command.secondName? w.rest = some name ∧
        secondName.run (fun v => some (k v)) w =
          some (k ((((w.past lead).save 4).past name).save 5)) := by
  have hcomma (k : Continuation) : Refuses ((Node.literal ',').run k) .blank :=
    .literal (by decide +kernel)
  have hname (k : Continuation) : Refuses ((Node.group 2 (.plus .word)).run k) .blank :=
    .group (.plus fun c => isWordChar_disjoint)
  simp only [secondName, Node.run_seqOf_cons, Node.run_seqOf_nil]
  rw [Node.run_star (hcomma _).longest, Node.run_literal, Node.run_star (hname _).longest,
    Node.run_group_plus (.inl rfl)]
  simp only [CharSet.holds_blank, CharSet.holds_word, Way.rest_past, drop_length_takeWhile,
    Command.secondName?]
  have hblanks := w.rest.takeWhile_append_dropWhile (p := isBlank)
  generalize w.rest.dropWhile isBlank = afterBlanks at *
  rcases afterBlanks with _ | ⟨c, rest⟩
  · simp
  by_cases hc : c = ','
  · subst hc
    simp only [List.length_singleton, List.drop_succ_cons, List.drop_zero, List.head?_cons, if_true,
      List.isEmpty_iff]
    by_cases hnone : (rest.dropWhile isBlank).takeWhile isWordChar = []
    · simp [hnone]
    · refine .inr ⟨w.rest.takeWhile isBlank ++ ([','] ++ rest.takeWhile isBlank), _,
        (rest.dropWhile isBlank).dropWhile isWordChar, ?_, if_neg hnone, ?_⟩
      · rw [List.takeWhile_append_dropWhile, List.append_assoc, List.append_assoc,
          List.takeWhile_append_dropWhile]
        exact hblanks.symm
      · rw [if_neg hnone, Way.past_past, Way.past_past]
  · simp [hc]

def movementLine : List Node :=
  keywordLine "create_movement_action".toList ++ [.times 0 (some 1) true secondName]

theorem reads_movementLine :
    Reads "^\\s*create_movement_action\\s+(\\w+)(?:\\s*,\\s*(\\w+))?"
      (anchored movementLine) 2 := by
  decide +kernel

theorem movementAction?_eq_firstMatch? (line : List Char) :
    Command.movementAction? line =
      (firstMatch? "^\\s*create_movement_action\\s+(\\w+)(?:\\s*,\\s*(\\w+))?" line).bind
        fun slots => (captured? line slots 1).map fun name =>
          (name.2, ((captured? line slots 2).map Prod.snd).getD []) := by
  have hend (v : Way) (_ : v.rest <:+ line) :
      ((Node.times 0 (some 1) true secondName).run (fun w => some (w.save 1).slots) v).isSome := by
    simp [Node.run_optional]
  rw [reads_movementLine.firstMatch?_eq, movementLine, Node.run_seqOf_append, Node.run_seqOf_cons,
    Node.run_seqOf_nil, movementAction?_eq]
  rcases run_keywordLine "create_movement_action".toList (by decide) (by decide) _
      (startWay 2 line) hend with
    ⟨hnone, hrun⟩ | ⟨front, name, tail, hsplit, hsome, hrun⟩
  · exact (congrArg _ hnone).trans (by rw [hrun]; rfl)
  rw [rest_startWay] at hsplit hsome
  subst hsplit
  rw [hsome, hrun, Option.map_some]
  generalize hway : Way.save (Way.past _ name) 3 = w
  have hrest : w.rest = tail := by simp [← hway]
  have hname (slots : Slots) (hstart : slots[2]? = w.slots[2]?) (hstop : slots[3]? = w.slots[3]?) :
      captured? (front ++ (name ++ tail)) slots 1 = some (byteLength front, name) :=
    captured?_eq (hstart.trans (by simp [← hway]))
      (hstop.trans (by simp [← hway]))
  rw [Node.run_optional]
  rcases run_secondName (fun v => (v.save 1).slots) w with
    ⟨hnone, hrun⟩ | ⟨lead, value, rest, htail, hsome, hrun⟩
  · have hvalue : captured? (front ++ (name ++ tail)) (w.save 1).slots 2 = none := by
      simp [captured?, ← hway]
    rw [hrun, Option.none_or, Option.bind_some, ← hrest, hnone, hrest, hvalue,
      hname _ (by simp) (by simp)]
    rfl
  · have hvalue : captured? ((front ++ (name ++ lead)) ++ (value ++ rest))
        (((((w.past lead).save 4).past value).save 5).save 1).slots 2 =
          some (byteLength (front ++ (name ++ lead)), value) :=
      captured?_eq (by simp [← hway, Nat.add_assoc])
        (by simp [← hway, Nat.add_assoc])
    rw [List.append_assoc, List.append_assoc, ← htail, hrest] at hvalue
    rw [hrun, Option.some_or, Option.bind_some, ← hrest, hsome, hrest, hvalue,
      hname _ (by simp) (by simp)]
    rfl

end KeywordLines

section Separators

/-- The pieces of a text between matches, which are listed from left to right. -/
def textsBetween (offset : Nat) (rest : List Char) : List Slots → List (List Char)
  | [] => [rest]
  | slots :: more =>
    takeBytes (((slots[0]?).join).getD 0 - offset) rest ::
      textsBetween (stopOf slots) (resume none offset (stopOf slots) rest).2.2 more

theorem textsBetween_cons {offset : Nat} {front run rest : List Char} {slots : Slots}
    (hstart : slots[0]? = some (some (offset + byteLength front)))
    (hstop : slots[1]? = some (some (offset + byteLength (front ++ run)))) (more : List Slots) :
    textsBetween offset ((front ++ run) ++ rest) (slots :: more) =
      front :: textsBetween (offset + byteLength (front ++ run)) rest more := by
  have hstopOf : stopOf slots = offset + byteLength (front ++ run) := by simp [stopOf, hstop]
  have hfront : takeBytes (byteLength front) ((front ++ run) ++ rest) = front := by
    rw [List.append_assoc, takeBytes_byteLength]
  rw [textsBetween, hstopOf, resume_append, hstart]
  simp only [Option.join_some, Option.getD_some, Nat.add_sub_cancel_left, hfront]

variable {s : CharSet}

theorem matchAt_plus (p : Point) :
    (Node.plus s).matchAt 0 p =
      if p.rest.takeWhile s.holds = [] then none
      else some #[some p.offset, some (p.offset + byteLength (p.rest.takeWhile s.holds))] := by
  rw [Node.matchAt, Node.run_plus (.inl rfl)]
  rfl

/-- The first run of characters of the set lies behind all the others. -/
theorem leftmost_plus (p : Point) :
    leftmost ((Node.plus s).matchAt 0) p =
      if p.rest.dropWhile (!s.holds ·) = [] then none
      else
        let start := p.offset + byteLength (p.rest.takeWhile (!s.holds ·))
        some #[some start,
          some (start + byteLength ((p.rest.dropWhile (!s.holds ·)).takeWhile s.holds))] := by
  induction hrest : p.rest generalizing p with
  | nil =>
    rw [leftmost_nil hrest, matchAt_plus, hrest]
    rfl
  | cons c cs ih =>
    rw [leftmost_cons hrest, matchAt_plus, hrest]
    cases hc : s.holds c with
    | true => simp [hc]
    | false =>
      rw [ih (p.next c cs) rfl]
      simp only [List.takeWhile_cons, List.dropWhile_cons, hc, Bool.not_false, if_true,
        Bool.false_eq_true, if_false, Option.none_or, Point.next, byteLength_cons, Nat.add_assoc]

/-- The machine finds no separator, or the first run of them. -/
theorem search_plus (p : Point) :
    ((∀ c ∈ p.rest, s.holds c = false) ∧
        ((Node.plus s).program 0).search p.before p.offset p.rest = none) ∨
      ∃ front seps rest slots, p.rest = (front ++ seps) ++ rest ∧
        (∀ c ∈ front, s.holds c = false) ∧ seps ≠ [] ∧ (∀ c ∈ seps, s.holds c = true) ∧
        ((Node.plus s).program 0).search p.before p.offset p.rest = some slots ∧
        slots[0]? = some (some (p.offset + byteLength front)) ∧
        slots[1]? = some (some (p.offset + byteLength (front ++ seps))) := by
  have hsplit := p.rest.takeWhile_append_dropWhile (p := (!s.holds ·))
  have hfront : ∀ c ∈ p.rest.takeWhile (!s.holds ·), s.holds c = false := by
    simpa using fun c => List.mem_takeWhile_imp (p := (!s.holds ·)) (l := p.rest)
  have hhead : ∀ c ∈ (p.rest.dropWhile (!s.holds ·)).head?, s.holds c = true := by
    intro c hc
    simpa using of_mem_head?_dropWhile c hc
  rw [Program.search_eq _ 0 (Node.advances_plus s) p, leftmost_plus]
  generalize p.rest.takeWhile (!s.holds ·) = front at *
  generalize p.rest.dropWhile (!s.holds ·) = tail at *
  rcases tail with _ | ⟨c, cs⟩
  · rw [List.append_nil] at hsplit
    exact .inl ⟨hsplit ▸ hfront, if_pos rfl⟩
  · have hseps := (c :: cs).takeWhile_append_dropWhile (p := s.holds)
    refine .inr ⟨front, (c :: cs).takeWhile s.holds, (c :: cs).dropWhile s.holds, _, ?_, hfront, ?_,
      fun d => List.mem_takeWhile_imp, if_neg (List.cons_ne_nil c cs), rfl, ?_⟩
    · rw [List.append_assoc, hseps, hsplit]
    · simp [hhead c rfl]
    · simp [Nat.add_assoc]

theorem fields_eq_matchesFrom (p : Point) {rounds : Nat} (hrounds : p.rest.length < rounds)
    (lastStop : Option Nat) :
    fields s.holds p.rest =
      (textsBetween p.offset p.rest (((Node.plus s).program 0).matchesFrom rounds p.before p.offset
        p.rest lastStop)).filter (!·.isEmpty) := by
  induction rounds generalizing p lastStop with
  | zero => omega
  | succ rounds ih =>
    rcases search_plus p with
      ⟨hnone, hsearch⟩ | ⟨front, seps, rest, slots, hrest, hfront, hne, hseps, hsearch, hplaces⟩
    · have hfields : fields s.holds (p.rest ++ []) = _ := fields_append hnone (by simp)
      rw [List.append_nil, fields_nil, List.append_nil] at hfields
      rw [Program.matchesFrom_of_none hsearch, textsBetween, hfields]
    · obtain ⟨hstart, hstop⟩ := hplaces
      have hpos := byteLength_pos hne
      have hhead : ∀ c ∈ (seps ++ rest).head?, s.holds c = true :=
        of_mem_head?_append hne hseps rest
      have hlength : rest.length < rounds := by
        have := congrArg List.length hrest
        have := List.length_pos_iff.mpr hne
        grind
      have hlater := ih
        ⟨(front ++ seps).getLast?.or p.before, p.offset + byteLength (front ++ seps), rest⟩
        hlength (some (p.offset + byteLength (front ++ seps)))
      rw [Program.matchesFrom_of_some hsearch hrest hstart hstop (by rw [byteLength_append]; omega),
        hrest, textsBetween_cons hstart hstop, List.append_assoc, fields_append hfront hhead,
        fields_append_of_seps hseps, hlater, ← List.filter_append]
      rfl

def separator : CharSet := .union (.union .empty .blank) (.single ',')

theorem holds_separator : separator.holds = Command.isSeparator := by
  funext c
  simp [separator, Command.isSeparator]

theorem reads_separator : Reads "[\\s,]+" (.plus separator) 0 := by
  decide +kernel

theorem fields_eq_allMatches (line : List Char) :
    fields Command.isSeparator line =
      (textsBetween 0 line (allMatches "[\\s,]+" line)).filter (!·.isEmpty) := by
  rw [reads_separator.allMatches_eq, ← holds_separator]
  have hrounds : line.length < 2 * line.length + 2 := by omega
  exact fields_eq_matchesFrom ⟨none, 0, line⟩ hrounds none

end Separators

section Files

open Command

/-- What an include file declares is what the patterns find in its lines. -/
theorem extractAssemblerConstants_eq_matches (content : String) :
    extractAssemblerConstants content = (lines content.toList).filterMap fun line =>
      (firstMatch? "^\\s*(\\w+)\\s*=\\s*(\\S.*?)\\s*$" line).bind fun slots =>
        (captured? line slots 1).bind fun name => (captured? line slots 2).map fun value =>
          { name := String.ofList name.2
            kind := .assemblerConstant
            detail := String.ofList value.2 } := by
  refine List.filterMap_congr fun line hline => ?_
  rw [assignment?_eq_firstMatch? (feed_not_mem_of_mem_lines hline)]
  simp only [Option.map_bind, Option.map_map, Function.comp_def]

theorem extractMovementConstants_eq_matches (content : String) :
    extractMovementConstants content = (lines content.toList).filterMap fun line =>
      (firstMatch? "^\\s*create_movement_action\\s+(\\w+)(?:\\s*,\\s*(\\w+))?" line).bind
        fun slots => (captured? line slots 1).map fun name =>
          { name := String.ofList name.2
            kind := .movementConstant
            detail := String.ofList (((captured? line slots 2).map Prod.snd).getD []) } := by
  refine List.filterMap_congr fun line _ => ?_
  rw [movementAction?_eq_firstMatch?]
  simp only [Option.map_bind, Option.map_map, Function.comp_def]

theorem extractMacros_eq_matches (content : String) :
    extractMacros content =
      (NumberedLines.ofText content.toList).toList.filterMap fun (number, line) =>
        (firstMatch? "^\\s*\\.macro\\s+(\\w+)(.*)$" line).bind fun slots =>
          (captured? line slots 1).bind fun name => (captured? line slots 2).map fun params =>
            { name := String.ofList name.2
              kind := .macroCall
              documentation := documentationAt (NumberedLines.ofText content.toList) number
              parameters := ((textsBetween 0 params.2 (allMatches "[\\s,]+" params.2)).filter
                (!·.isEmpty)).map paramOf } := by
  refine List.filterMap_congr fun (number, line) hline => ?_
  have hfeed := NumberedLines.feed_not_mem_of_line? (NumberedLines.mem_toList_iff.mp hline)
  simp only [macroHead?_eq_firstMatch? hfeed, Option.map_bind, Option.map_map, Function.comp_def,
    fields_eq_allMatches]

end Files

end ScriptIndex.Pattern
