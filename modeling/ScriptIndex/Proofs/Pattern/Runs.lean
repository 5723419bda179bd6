import ScriptIndex.Declaration
import ScriptIndex.Proofs.Pattern.Machine
import ScriptIndex.Proofs.Text.Bytes
import ScriptIndex.Proofs.Text.Word

/-!
# Runs of characters in a pattern

A repetition of a set takes the longest run of such characters if stopping earlier gains nothing.
That is so if what comes after it refuses the characters of the set, since with fewer of them it
would have to start with one that is left over.
-/
namespace ScriptIndex.Pattern

open Text

namespace CharSet

def holds (s : CharSet) (c : Char) : Bool := s.contains c.toNat

@[simp] theorem holds_word : word.holds = isWordChar := by
  funext c
  simp [holds, contains, Char.ofNat_toNat]

@[simp] theorem holds_blank : blank.holds = isBlank := by
  funext c
  simp [holds, contains, Char.ofNat_toNat]

@[simp] theorem holds_single (c d : Char) : (single c).holds d = (d == c) := by
  rw [holds, single, contains, Bool.eq_iff_iff, beq_iff_eq, Bool.and_eq_true, decide_eq_true_eq,
    decide_eq_true_eq, ← Char.toNat_inj]
  omega

@[simp] theorem holds_compl (s : CharSet) (c : Char) : (compl s).holds c = !s.holds c := rfl

@[simp] theorem holds_union (s t : CharSet) (c : Char) :
    (union s t).holds c = (s.holds c || t.holds c) := rfl

@[simp] theorem holds_empty (c : Char) : empty.holds c = false := rfl

end CharSet

@[simp] theorem drop_length_takeWhile {α : Type*} (p : α → Bool) (l : List α) :
    l.drop (l.takeWhile p).length = l.dropWhile p := by
  have h := congrArg (List.drop (l.takeWhile p).length) (l.takeWhile_append_dropWhile (p := p))
  rwa [List.drop_left, eq_comm] at h

namespace Way

/-- The way after some characters. -/
def past (w : Way) (passed : List Char) : Way :=
  ⟨⟨passed.getLast?.or w.before, w.offset + byteLength passed, w.rest.drop passed.length⟩, w.slots⟩

@[simp] theorem past_nil (w : Way) : w.past [] = w := rfl

@[simp] theorem past_past (w : Way) (a b : List Char) : (w.past a).past b = w.past (a ++ b) := by
  simp [past, Nat.add_assoc, List.getLast?_append, Option.or_assoc]

theorem next_eq {w : Way} {c : Char} {cs : List Char} (hrest : w.rest = c :: cs) :
    (⟨w.next c cs, w.slots⟩ : Way) = w.past [c] := by
  simp [past, Point.next, hrest]

@[simp] theorem rest_past (w : Way) (passed : List Char) :
    (w.past passed).rest = w.rest.drop passed.length := rfl

@[simp] theorem offset_past (w : Way) (passed : List Char) :
    (w.past passed).offset = w.offset + byteLength passed := rfl

@[simp] theorem slots_past (w : Way) (passed : List Char) : (w.past passed).slots = w.slots := rfl

@[simp] theorem rest_save (w : Way) (slot : Nat) : (w.save slot).rest = w.rest := rfl

@[simp] theorem offset_save (w : Way) (slot : Nat) : (w.save slot).offset = w.offset := rfl

@[simp] theorem slots_save (w : Way) (slot : Nat) :
    (w.save slot).slots = w.slots.setIfInBounds slot (some w.offset) := rfl

@[simp] theorem before_save (w : Way) (slot : Nat) : (w.save slot).before = w.before := rfl

end Way

/-- The continuation fails in front of a character of the set. -/
def Refuses (k : Continuation) (s : CharSet) : Prop :=
  ∀ (w : Way) (c : Char) (cs : List Char), w.rest = c :: cs → s.holds c = true → k w = none

/-- The continuation fails wherever it fails behind all characters of the set. -/
def Yields (k : Continuation) (s : CharSet) : Prop :=
  ∀ w : Way, k (w.past (w.rest.takeWhile s.holds)) = none → k w = none

/-- Stopping before the end of a run of characters of the set gains nothing. -/
def Longest (k : Continuation) (s : CharSet) (w : Way) : Prop :=
  (k (w.past (w.rest.takeWhile s.holds))).isSome ∨ Yields k s

theorem Refuses.yields {k : Continuation} {s : CharSet} (h : Refuses k s) : Yields k s := by
  intro v hv
  cases hrest : v.rest with
  | nil => simpa [hrest] using hv
  | cons c cs =>
    cases hc : s.holds c with
    | true => exact h v c cs hrest hc
    | false => simpa [hrest, hc] using hv

theorem Refuses.longest {k : Continuation} {s : CharSet} (h : Refuses k s) {w : Way} :
    Longest k s w :=
  .inr h.yields

namespace Node

def star (s : CharSet) : Node := .times 0 none true (.set s)

def plus (s : CharSet) : Node := .times 1 none true (.set s)

variable {s t : CharSet} {k : Continuation} {w : Way}

theorem run_set_cons {c : Char} {cs : List Char} (hrest : w.rest = c :: cs) :
    (Node.set s).run k w = if s.holds c then k (w.past [c]) else none := by
  rw [run, Point.pass?, hrest]
  dsimp only
  rw [CharSet.holds]
  split
  · exact congrArg k (Way.next_eq hrest)
  · rfl

theorem run_set_nil (hrest : w.rest = []) : (Node.set s).run k w = none := by
  rw [run, Point.pass?, hrest]
  rfl

theorem many_set {greedy : Bool} (w : Way) :
    many (Node.set s).run greedy k w =
      prefer greedy ((Node.set s).run (many (Node.set s).run greedy k) w) (k w) := by
  rw [many]
  congr 1
  cases hrest : w.rest with
  | nil => rw [run_set_nil hrest, run_set_nil hrest]
  | cons c cs =>
    rw [run_set_cons hrest, run_set_cons hrest]
    simp [hrest]

theorem many_set_of_longest {w : Way} (hk : Longest k s w) :
    many (Node.set s).run true k w = k (w.past (w.rest.takeWhile s.holds)) := by
  induction hrest : w.rest generalizing w with
  | nil => simp [many_set, run_set_nil hrest, prefer]
  | cons c cs ih =>
    rw [many_set, run_set_cons hrest, prefer, if_pos rfl]
    cases hc : s.holds c with
    | true =>
      have hnext : Longest k s (w.past [c]) := hk.imp_left (by simp [hrest, hc])
      rw [if_pos rfl, ih hnext (by simp [hrest])]
      cases hlast : k (w.past (w.rest.takeWhile s.holds)) with
      | none =>
        have hnone := (hk.resolve_left (by simp [hlast])) w hlast
        simp [hrest, hc] at hlast
        simp [hc, hnone, hlast]
      | some slots =>
        simp [hrest, hc] at hlast
        simp [hc, hlast]
    | false => simp [hc]

theorem run_star {w : Way} (hk : Longest k s w) :
    (star s).run k w = k (w.past (w.rest.takeWhile s.holds)) :=
  many_set_of_longest hk

theorem run_plus {w : Way} (hk : Longest k s w) :
    (plus s).run k w =
      if w.rest.takeWhile s.holds = [] then none
      else k (w.past (w.rest.takeWhile s.holds)) := by
  change (Node.set s).run (many (Node.set s).run true k) w = _
  cases hrest : w.rest with
  | nil => simp [run_set_nil hrest]
  | cons c cs =>
    rw [run_set_cons hrest]
    cases hc : s.holds c with
    | true =>
      have hnext : Longest k s (w.past [c]) := hk.imp_left (by simp [hrest, hc])
      simp [hc, many_set_of_longest hnext, hrest]
    | false => simp [hc]

/-- A run of characters of a set, kept as a group. -/
theorem run_group_plus {index : Nat} {w : Way}
    (hk : Longest (fun v => k (v.save (2 * index + 1))) s (w.save (2 * index))) :
    (group index (plus s)).run k w =
      if w.rest.takeWhile s.holds = [] then none
      else k (((w.save (2 * index)).past (w.rest.takeWhile s.holds)).save (2 * index + 1)) :=
  run_plus hk

theorem run_optional {body : Node} (w : Way) :
    (times 0 (some 1) true body).run k w = (body.run k w).or (k w) := rfl

theorem run_seqOf_nil : (seqOf []).run k = k := rfl

theorem run_seqOf_cons (a : Node) (as : List Node) :
    (seqOf (a :: as)).run k = a.run ((seqOf as).run k) := by
  cases as <;> rfl

theorem run_seqOf_append (as bs : List Node) :
    (seqOf (as ++ bs)).run k = (seqOf as).run ((seqOf bs).run k) := by
  induction as with
  | nil => rfl
  | cons a as ih => rw [List.cons_append, run_seqOf_cons, run_seqOf_cons, ih]

def literal (c : Char) : Node := .set (.single c)

theorem advances_seqOf {nodes : List Node} (h : ∀ node ∈ nodes, node.Advances) :
    (seqOf nodes).Advances := by
  fun_induction seqOf nodes with
  | case1 => trivial
  | case2 a => exact h a (by simp)
  | case3 a as _ ih => exact ⟨h a (by simp), ih fun node hnode => h node (by simp [hnode])⟩

theorem advances_star (s : CharSet) : (star s).Advances := ⟨trivial, fun _ => Nat.one_pos⟩

theorem advances_plus (s : CharSet) : (plus s).Advances := ⟨trivial, fun _ => Nat.one_pos⟩

theorem run_literal (c : Char) (w : Way) :
    (literal c).run k w = if w.rest.head? = some c then k (w.past [c]) else none := by
  cases hrest : w.rest with
  | nil => simp [literal, run_set_nil hrest]
  | cons d cs =>
    by_cases hd : d = c
    · simp [literal, run_set_cons hrest, hd]
    · simp [literal, run_set_cons hrest, hd]

theorem run_literals (text : List Char) (w : Way) :
    (seqOf (text.map literal)).run k w =
      (Declaration.dropLiteral? text w.rest).bind fun _ => k (w.past text) := by
  induction text generalizing w with
  | nil => simp [Declaration.dropLiteral?, run_seqOf_nil]
  | cons c text ih =>
    rw [List.map_cons, run_seqOf_cons, run_literal]
    cases hrest : w.rest with
    | nil => rfl
    | cons d cs =>
      by_cases hd : d = c
      · simp [Declaration.dropLiteral?, hd, ih, hrest]
      · simp [Declaration.dropLiteral?, hd, Ne.symm hd]

end Node

theorem isWordChar_disjoint {c : Char} (h : CharSet.blank.holds c = true) :
    CharSet.word.holds c = false := by
  simpa using isWordChar_of_isBlank (by simpa using h)

theorem isBlank_disjoint {c : Char} (h : CharSet.word.holds c = true) :
    CharSet.blank.holds c = false := by
  simpa using isBlank_of_isWordChar (by simpa using h)

theorem single_disjoint {s : CharSet} {c : Char} (h : s.holds c = false) {d : Char}
    (hd : s.holds d = true) : (CharSet.single c).holds d = false := by
  rw [CharSet.holds_single, beq_eq_false_iff_ne]
  rintro rfl
  rw [h] at hd
  cases hd

namespace Refuses

variable {s t : CharSet} {k : Continuation} {body : Node}

theorem set (hdisjoint : ∀ c, s.holds c = true → t.holds c = false) :
    Refuses ((Node.set t).run k) s := by
  intro w c cs hrest hc
  simp [Node.run_set_cons hrest, hdisjoint c hc]

theorem literal {c : Char} (hc : s.holds c = false) : Refuses ((Node.literal c).run k) s :=
  set fun _ => single_disjoint hc

theorem star (hdisjoint : ∀ c, s.holds c = true → t.holds c = false) (hk : Refuses k s) :
    Refuses ((Node.star t).run k) s := by
  intro w c cs hrest hc
  change many (Node.set t).run true k w = none
  simp [Node.many_set, set hdisjoint w c cs hrest hc, hk w c cs hrest hc, prefer]

theorem plus (hdisjoint : ∀ c, s.holds c = true → t.holds c = false) :
    Refuses ((Node.plus t).run k) s :=
  set hdisjoint

theorem save (hk : Refuses k s) (slot : Nat) : Refuses (fun w => k (w.save slot)) s :=
  fun w c cs hrest hc => hk (w.save slot) c cs hrest hc

theorem group {index : Nat} (h : Refuses (body.run fun w => k (w.save (2 * index + 1))) s) :
    Refuses ((Node.group index body).run k) s :=
  fun w c cs hrest hc => h (w.save (2 * index)) c cs hrest hc

theorem literals {text : List Char} (hne : text ≠ []) (htext : text.head?.any s.holds = false) :
    Refuses ((Node.seqOf (text.map Node.literal)).run k) s := by
  obtain ⟨d, text, rfl⟩ := List.exists_cons_of_ne_nil hne
  intro w c cs hrest hc
  have hd : c ≠ d := by
    rintro rfl
    simp [hc] at htext
  rw [List.map_cons, Node.run_seqOf_cons, Node.run_literal]
  simp [hrest, hd]

theorem optional (hbody : Refuses (body.run k) s) (hk : Refuses k s) :
    Refuses ((Node.times 0 (some 1) true body).run k) s := by
  intro w c cs hrest hc
  rw [Node.run_optional, hbody w c cs hrest hc, hk w c cs hrest hc]
  rfl

theorem alt {first second : Node} (hfirst : Refuses (first.run k) s)
    (hsecond : Refuses (second.run k) s) : Refuses ((Node.alt first second).run k) s := by
  intro w c cs hrest hc
  rw [Node.run, hfirst w c cs hrest hc, hsecond w c cs hrest hc]
  rfl

theorem stopText : Refuses ((Node.look .stopText).run k) s := by
  intro w c cs hrest _
  simp [Node.run, Look.holds, hrest]

end Refuses

theorem Yields.star {k : Continuation} {s : CharSet} (hk : Refuses k s) :
    Yields ((Node.star s).run k) s := by
  intro w hnone
  rw [Node.run_star hk.longest] at hnone ⊢
  have hstop : (w.rest.dropWhile s.holds).takeWhile s.holds = [] :=
    takeWhile_append_rest (List.forall_mem_nil _) of_mem_head?_dropWhile
  rwa [Way.rest_past, drop_length_takeWhile, hstop] at hnone

theorem Yields.optional {k : Continuation} {s : CharSet} {body : Node}
    (hbody : Refuses (body.run k) s) (hk : Yields k s) :
    Yields ((Node.times 0 (some 1) true body).run k) s := by
  intro w hnone
  rw [Node.run_optional, Option.or_eq_none_iff] at hnone ⊢
  exact ⟨hbody.yields w hnone.1, hk w hnone.2⟩

/-- A character that may follow others. -/
theorem Node.run_star_literal {s : CharSet} {c : Char} (hc : s.holds c = false) (k : Continuation)
    (w : Way) :
    (star s).run ((literal c).run k) w =
      if (w.rest.dropWhile s.holds).head? = some c then k (w.past (w.rest.takeWhile s.holds ++ [c]))
      else none := by
  rw [run_star (Refuses.literal hc).longest, run_literal, Way.rest_past,
    drop_length_takeWhile, Way.past_past]

theorem resume_append (front rest : List Char) (before : Option Char) (offset : Nat) :
    resume before offset (offset + byteLength front) (front ++ rest) =
      (front.getLast?.or before, offset + byteLength front, rest) := by
  induction front generalizing before offset with
  | nil => cases rest <;> simp [resume]
  | cons c front ih =>
    have hpos := c.utf8Size_pos
    rw [List.cons_append, resume, if_pos (by rw [byteLength_cons]; omega), byteLength_cons,
      ← Nat.add_assoc, ih]
    simp [List.getLast?_cons]

theorem captured?_eq {front text rest : List Char} {slots : Slots} {group : Nat}
    (hstart : slots[2 * group]? = some (some (byteLength front)))
    (hstop : slots[2 * group + 1]? = some (some (byteLength front + byteLength text))) :
    captured? (front ++ (text ++ rest)) slots group = some (byteLength front, text) := by
  have hresume := resume_append front (text ++ rest) none 0
  rw [Nat.zero_add] at hresume
  simp [captured?, hstart, hstop, hresume, takeBytes_byteLength]

theorem leftmost_behind {found : Point → Option Slots}
    (h : ∀ p c, p.before = some c → found p = none) (c : Char) (offset : Nat) (rest : List Char) :
    leftmost found ⟨some c, offset, rest⟩ = none := by
  induction rest generalizing c offset with
  | nil => rw [leftmost, h _ c rfl]
  | cons d cs ih => rw [leftmost, h _ c rfl, ih, Option.none_or]

/-- A match that has to start at the start of the line is the first one. -/
theorem leftmost_of_anchored {found : Point → Option Slots}
    (h : ∀ p c, p.before = some c → found p = none) (offset : Nat) (line : List Char) :
    leftmost found ⟨none, offset, line⟩ = found ⟨none, offset, line⟩ := by
  cases line with
  | nil => rw [leftmost]
  | cons c cs => rw [leftmost, leftmost_behind h, Option.or_none]

namespace Program

variable {prog : Program} {p : Point} {rounds : Nat} {lastStop : Option Nat}

theorem matchesFrom_of_none (h : prog.search p.before p.offset p.rest = none) :
    prog.matchesFrom rounds p.before p.offset p.rest lastStop = [] := by
  cases rounds <;> simp [matchesFrom, h]

/-- A match that is not empty is listed, and the search goes on behind it. -/
theorem matchesFrom_of_some {slots : Slots} {passed rest : List Char} {start : Nat}
    (h : prog.search p.before p.offset p.rest = some slots) (hrest : p.rest = passed ++ rest)
    (hstart : slots[0]? = some (some start))
    (hstop : slots[1]? = some (some (p.offset + byteLength passed)))
    (hlt : start < p.offset + byteLength passed) :
    prog.matchesFrom (rounds + 1) p.before p.offset p.rest lastStop =
      slots :: prog.matchesFrom rounds (passed.getLast?.or p.before) (p.offset + byteLength passed)
        rest (some (p.offset + byteLength passed)) := by
  have hstopOf : stopOf slots = p.offset + byteLength passed := by simp [stopOf, hstop]
  have hrepeats : repeatsEmpty lastStop slots = false := by
    simp [repeatsEmpty, hstart, hstop]
    omega
  simp only [matchesFrom, h, hrepeats, Bool.false_eq_true, if_false, hstopOf]
  rw [hrest, resume_append]

end Program

/-- The first match of a pattern given as text. -/
def firstMatch? (pattern : String) (line : List Char) : Option Slots :=
  (compile? pattern).bind fun prog => prog.search none 0 line

/-- All matches of a pattern given as text. -/
def allMatches (pattern : String) (line : List Char) : List Slots :=
  match compile? pattern with
  | some prog => prog.findAll line
  | none => []

/-- The text is the pattern of a node that the machine runs as it is meant. -/
def Reads (pattern : String) (node : Node) (groups : Nat) : Prop :=
  read? pattern = some (node, groups) ∧ node.size ≤ maxSize ∧ node.Advances

instance (pattern : String) (node : Node) (groups : Nat) : Decidable (Reads pattern node groups) :=
  inferInstanceAs (Decidable (_ ∧ _))

theorem Reads.compile?_eq {pattern : String} {node : Node} {groups : Nat}
    (h : Reads pattern node groups) : compile? pattern = some (node.program groups) :=
  Pattern.compile?_eq h.1 h.2.1

theorem Reads.allMatches_eq {pattern : String} {node : Node} {groups : Nat}
    (h : Reads pattern node groups) (line : List Char) :
    allMatches pattern line = (node.program groups).findAll line := by
  rw [allMatches, h.compile?_eq]

section Anchored

/-- A pattern that matches at the start of a line only. -/
def anchored (nodes : List Node) : Node := .seqOf (.look .startText :: nodes)

/-- The way on which a match starts. -/
def startWay (groups : Nat) (line : List Char) : Way :=
  Way.save ⟨⟨none, 0, line⟩, Array.replicate (2 * groups + 2) none⟩ 0

@[simp] theorem rest_startWay (groups : Nat) (line : List Char) :
    (startWay groups line).rest = line := rfl

@[simp] theorem offset_startWay (groups : Nat) (line : List Char) :
    (startWay groups line).offset = 0 := rfl

@[simp] theorem slots_startWay (groups : Nat) (line : List Char) :
    (startWay groups line).slots =
      (Array.replicate (2 * groups + 2) none).setIfInBounds 0 (some 0) := rfl

theorem matchAt_anchored {nodes : List Node} {groups : Nat} (p : Point) (c : Char)
    (hbefore : p.before = some c) : (anchored nodes).matchAt groups p = none := by
  rw [Node.matchAt, anchored, Node.run_seqOf_cons, Node.run]
  simp [Look.holds, Way.save, hbefore]

/-- No match of such a pattern follows the first one. -/
theorem Reads.allMatches_of_firstMatch? {pattern : String} {nodes : List Node} {groups : Nat}
    (h : Reads pattern (anchored nodes) groups) {passed rest : List Char} {slots : Slots}
    (hfirst : firstMatch? pattern (passed ++ rest) = some slots) (hne : passed ≠ [])
    (hstart : slots[0]? = some (some 0)) (hstop : slots[1]? = some (some (byteLength passed))) :
    allMatches pattern (passed ++ rest) = [slots] := by
  have hpos := byteLength_pos hne
  have hlater : ((anchored nodes).program groups).search passed.getLast? (byteLength passed) rest =
      none := by
    rw [List.getLast?_eq_some_getLast hne]
    exact (Program.search_eq _ groups h.2.2 ⟨_, _, rest⟩).trans
      (leftmost_behind matchAt_anchored _ _ _)
  rw [firstMatch?, h.compile?_eq, Option.bind_some] at hfirst
  rw [h.allMatches_eq, Program.findAll]
  refine (Program.matchesFrom_of_some (p := ⟨none, 0, passed ++ rest⟩) hfirst rfl hstart
    (by simpa using hstop) (by simpa using hpos)).trans ?_
  exact congrArg _ (Program.matchesFrom_of_none
    (p := ⟨passed.getLast?.or none, 0 + byteLength passed, rest⟩) (by simpa using hlater))

theorem Reads.allMatches_of_firstMatch?_eq_none {pattern : String} {node : Node} {groups : Nat}
    (h : Reads pattern node groups) {line : List Char} (hfirst : firstMatch? pattern line = none) :
    allMatches pattern line = [] := by
  rw [firstMatch?, h.compile?_eq, Option.bind_some] at hfirst
  rw [h.allMatches_eq, Program.findAll]
  exact Program.matchesFrom_of_none (p := ⟨none, 0, line⟩) hfirst

theorem Reads.firstMatch?_eq {pattern : String} {nodes : List Node} {groups : Nat}
    (h : Reads pattern (anchored nodes) groups) (line : List Char) :
    firstMatch? pattern line =
      (Node.seqOf nodes).run (fun w => some (w.save 1).slots) (startWay groups line) := by
  rw [firstMatch?, h.compile?_eq, Option.bind_some]
  refine (Program.search_eq _ groups h.2.2 ⟨none, 0, line⟩).trans ?_
  rw [leftmost_of_anchored matchAt_anchored, Node.matchAt, anchored, Node.run_seqOf_cons, Node.run]
  rfl

end Anchored

end ScriptIndex.Pattern
