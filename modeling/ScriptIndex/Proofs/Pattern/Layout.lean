import ScriptIndex.Proofs.Pattern.Backtracking

/-!
# Programs do what their patterns mean

Trying a program from one of its instructions on comes to an end and has one result. From the first
instruction of a node on, the result is that of the node, provided that what follows the node in the
program does what the continuation does.
-/
namespace ScriptIndex.Pattern

/-- What trying a program from an instruction on leads to. Both branches of a split are tried. -/
inductive Program.Tries (prog : Program) : Nat → Way → Option Slots → Prop
  | accept {pc w} (hcode : prog.code[pc]? = some .accept) : Tries prog pc w (some (w.save 1).slots)
  | pass {pc chars w q r} (hcode : prog.code[pc]? = some (.set chars))
      (hpass : w.pass? chars = some q) (hnext : Tries prog (pc + 1) ⟨q, w.slots⟩ r) :
      Tries prog pc w r
  | stuck {pc chars w} (hcode : prog.code[pc]? = some (.set chars)) (hpass : w.pass? chars = none) :
      Tries prog pc w none
  | look {pc condition w r} (hcode : prog.code[pc]? = some (.look condition))
      (hlook : condition.holds w.before w.rest.head? = true) (hnext : Tries prog (pc + 1) w r) :
      Tries prog pc w r
  | refuse {pc condition w} (hcode : prog.code[pc]? = some (.look condition))
      (hlook : condition.holds w.before w.rest.head? = false) : Tries prog pc w none
  | save {pc slot w r} (hcode : prog.code[pc]? = some (.save slot))
      (hnext : Tries prog (pc + 1) (w.save slot) r) : Tries prog pc w r
  | jump {pc target w r} (hcode : prog.code[pc]? = some (.jump target))
      (hnext : Tries prog target w r) : Tries prog pc w r
  | split {pc first second w r s} (hcode : prog.code[pc]? = some (.split first second))
      (hfirst : Tries prog first w r) (hsecond : Tries prog second w s) : Tries prog pc w (r.or s)

namespace Program

variable {prog : Program} {w : Way}

theorem Tries.choice {pc go leave : Nat} {greedy : Bool} {r s : Option Slots}
    (hcode : prog.code[pc]? = some (Pattern.choice greedy go leave)) (hgo : prog.Tries go w r)
    (hleave : prog.Tries leave w s) : prog.Tries pc w (prefer greedy r s) := by
  cases greedy with
  | false => exact .split hcode hleave hgo
  | true => exact .split hcode hgo hleave

/-- The instructions stand in the program from `start` on. -/
def Holds (prog : Program) (start : Nat) (instrs : List Instr) : Prop :=
  ∀ i x, instrs[i]? = some x → prog.code[start + i]? = some x

theorem holds_cons {start : Nat} {x : Instr} {instrs : List Instr} :
    prog.Holds start (x :: instrs) ↔
      prog.code[start]? = some x ∧ prog.Holds (start + 1) instrs := by
  constructor
  · intro h
    refine ⟨h 0 x rfl, fun i y hy => ?_⟩
    rw [Nat.add_assoc, Nat.add_comm 1 i]
    exact h (i + 1) y hy
  · rintro ⟨hx, h⟩ i y hy
    cases i with
    | zero => exact hx.trans hy
    | succ i =>
      rw [← Nat.add_assoc, Nat.add_right_comm]
      exact h i y hy

theorem holds_append {start : Nat} {xs ys : List Instr} :
    prog.Holds start (xs ++ ys) ↔ prog.Holds start xs ∧ prog.Holds (start + xs.length) ys := by
  induction xs generalizing start with
  | nil => simp [Holds]
  | cons x xs ih =>
    rw [List.cons_append, holds_cons, holds_cons, ih, List.length_cons, and_assoc, Nat.add_assoc,
      Nat.add_comm 1]

end Program

@[simp]
theorem length_copies {piece : Nat → List Instr} {size : Nat}
    (hpiece : ∀ start, (piece start).length = size) (n start : Nat) :
    (copies piece size n start).length = n * size := by
  induction n generalizing start with
  | zero => simp [copies]
  | succ n ih => rw [copies, List.length_append, hpiece, ih, Nat.succ_mul, Nat.add_comm]

theorem holds_copies {prog : Program} {piece : Nat → List Instr} {size : Nat}
    (hpiece : ∀ start, (piece start).length = size) {n start : Nat}
    (h : prog.Holds start (copies piece size n start)) (i : Nat) (hi : i < n) :
    prog.Holds (start + i * size) (piece (start + i * size)) := by
  induction n generalizing start i with
  | zero => cases hi
  | succ n ih =>
    rw [copies, Program.holds_append, hpiece] at h
    cases i with
    | zero => simpa using h.1
    | succ i =>
      have := ih h.2 i (Nat.lt_of_succ_lt_succ hi)
      rwa [Nat.succ_mul, Nat.add_comm (i * size), ← Nat.add_assoc]

namespace Node

theorem length_layout (node : Node) (start : Nat) : (node.layout start).length = node.size := by
  induction node generalizing start with
  | empty | set | look => rfl
  | group _ body ih => simp [layout, size, ih]
  | seq a b iha ihb => simp [layout, size, iha, ihb]
  | alt a b iha ihb =>
    simp only [layout, size, List.length_append, List.length_cons, iha, ihb]
    omega
  | times least most greedy body ih =>
    cases most with
    | some most => simp [layout, size, ih]
    | none =>
      rw [layout, size]
      split
      · simp [ih]
      · simp [length_copies ih]

/-- From `start` on, a node of the program does what it means, as long as what comes after it does
what the continuation does. -/
def LaidOut (prog : Program) (node : Node) (start : Nat) : Prop :=
  ∀ (k : Continuation) (w : Way),
    (∀ v : Way, v.rest.length + node.minLength ≤ w.rest.length →
      prog.Tries (start + node.size) v (k v)) →
    prog.Tries start w (node.run k w)

section Repetition

variable {prog : Program} {body : Node}

theorem tries_exactly (n start : Nat)
    (hbody : ∀ i < n, body.LaidOut prog (start + i * body.size)) (k : Continuation) (w : Way)
    (hk : ∀ v : Way, v.rest.length + n * body.minLength ≤ w.rest.length →
      prog.Tries (start + n * body.size) v (k v)) :
    prog.Tries start w (exactly body.run n k w) := by
  induction n generalizing start w with
  | zero => simpa [exactly] using hk w (by simp)
  | succ n ih =>
    have hfirst : body.LaidOut prog start := by simpa using hbody 0 (Nat.succ_pos n)
    refine hfirst _ _ fun v hv => ih _ (fun i hi => ?_) v fun u hu => ?_
    · have := hbody (i + 1) (Nat.succ_lt_succ hi)
      rwa [Nat.succ_mul, Nat.add_comm (i * body.size), ← Nat.add_assoc] at this
    · have := hk u (by rw [Nat.succ_mul]; omega)
      rwa [Nat.succ_mul, Nat.add_comm (n * body.size), ← Nat.add_assoc] at this

theorem tries_atMost {greedy : Bool} {stop : Nat} (n start : Nat)
    (hstop : start + n * (body.size + 1) = stop)
    (hchoice : ∀ i < n, prog.code[start + i * (body.size + 1)]? =
      some (choice greedy (start + i * (body.size + 1) + 1) stop))
    (hbody : ∀ i < n, body.LaidOut prog (start + i * (body.size + 1) + 1)) (k : Continuation)
    (w : Way) (hk : ∀ v : Way, v.rest.length ≤ w.rest.length → prog.Tries stop v (k v)) :
    prog.Tries start w (atMost body.run greedy n k w) := by
  induction n generalizing start w with
  | zero =>
    rw [Nat.zero_mul, Nat.add_zero] at hstop
    exact hstop ▸ hk w (Nat.le_refl _)
  | succ n ih =>
    have hfirst := hchoice 0 (Nat.succ_pos n)
    have hround := hbody 0 (Nat.succ_pos n)
    rw [Nat.zero_mul, Nat.add_zero] at hfirst hround
    have hshift (i : Nat) :
        start + (i + 1) * (body.size + 1) = start + 1 + body.size + i * (body.size + 1) := by
      rw [Nat.succ_mul]
      omega
    refine .choice hfirst (hround _ _ fun v hv => ?_) (hk w (Nat.le_refl _))
    refine ih _ (hshift n ▸ hstop) (fun i hi => ?_) (fun i hi => ?_) v fun u hu => hk u (by omega)
    · have := hchoice (i + 1) (Nat.succ_lt_succ hi)
      rwa [hshift] at this
    · have := hbody (i + 1) (Nat.succ_lt_succ hi)
      rwa [hshift] at this

/-- The loop of an unbounded repetition: after a round the same choice comes again. The induction is
on the length of what is left of the line. -/
theorem tries_many {greedy : Bool} {start leave : Nat} (hadvances : 0 < body.minLength)
    (hbody : body.LaidOut prog start)
    (hchoice : prog.code[start + body.size]? = some (choice greedy start leave)) (k : Continuation)
    {pc : Nat} (hpc : prog.code[pc]? = some (choice greedy start leave)) (w : Way)
    (hk : ∀ v : Way, v.rest.length ≤ w.rest.length → prog.Tries leave v (k v)) :
    prog.Tries pc w (many body.run greedy k w) := by
  induction hn : w.rest.length using Nat.strongRecOn generalizing w pc with
  | ind n ih =>
    rw [many]
    refine .choice hpc (hbody _ _ fun v hv => ?_) (hk w (Nat.le_refl _))
    have hshort : v.rest.length < w.rest.length := by omega
    rw [if_pos hshort]
    exact ih _ (hn ▸ hshort) hchoice v (fun u hu => hk u (by omega)) rfl

/-- A bounded repetition: the rounds that are needed, then the choices of one more. -/
theorem laidOut_times_some {least most start : Nat} {greedy : Bool}
    (hbody : ∀ place, prog.Holds place (body.layout place) → body.LaidOut prog place)
    (hholds : prog.Holds start ((times least (some most) greedy body).layout start)) :
    (times least (some most) greedy body).LaidOut prog start := by
  intro k w hk
  rw [layout, Program.holds_append, length_copies body.length_layout] at hholds
  have hrounds := holds_copies body.length_layout hholds.1
  have hchoices := holds_copies (by simp [length_layout]) hholds.2
  refine tries_exactly _ _ (fun i hi => hbody _ (hrounds i hi)) _ _ fun v hv => ?_
  refine tries_atMost _ _ rfl (fun i hi => (Program.holds_cons.mp (hchoices i hi)).1)
    (fun i hi => hbody _ (Program.holds_cons.mp (hchoices i hi)).2) _ _ fun u hu => ?_
  rw [Nat.add_assoc]
  exact hk u (by rw [minLength]; omega)

/-- An unbounded repetition: if no round is needed the loop starts with its choice, otherwise the
last needed round is its body. -/
theorem laidOut_times_none {least start : Nat} {greedy : Bool} (hadvances : 0 < body.minLength)
    (hbody : ∀ place, prog.Holds place (body.layout place) → body.LaidOut prog place)
    (hholds : prog.Holds start ((times least none greedy body).layout start)) :
    (times least none greedy body).LaidOut prog start := by
  intro k w hk
  rw [layout] at hholds
  split at hholds
  case isTrue hleast =>
    subst hleast
    rw [List.cons_append, Program.holds_cons, Program.holds_append, length_layout] at hholds
    obtain ⟨hfirst, hround, hagain⟩ := hholds
    refine tries_many hadvances (hbody _ hround) (Program.holds_cons.mp hagain).1 k hfirst w
      fun v hv => ?_
    have := hk v (by simpa [minLength] using hv)
    rwa [size, if_pos rfl, ← Nat.add_assoc] at this
  case isFalse hleast =>
    rw [Program.holds_append, length_copies body.length_layout] at hholds
    have hrounds := holds_copies body.length_layout hholds.1
    have hagain := (Program.holds_cons.mp hholds.2).1
    have hlast := hbody _ (hrounds (least - 1) (by omega))
    have hend : start + (least - 1) * body.size + body.size = start + least * body.size := by
      rw [Nat.add_assoc, ← Nat.succ_mul, Nat.succ_eq_add_one, Nat.sub_add_cancel (by omega)]
    refine tries_exactly _ _ (fun i hi => hbody _ (hrounds i hi)) _ _ fun v hv => ?_
    refine tries_many hadvances hlast (hend ▸ hagain) k hagain v fun u hu => ?_
    have := hk u (by rw [minLength]; omega)
    rwa [size, if_neg hleast, ← Nat.add_assoc] at this

end Repetition

/-- A node that stands in a program does there what it means. -/
theorem laidOut (prog : Program) (node : Node) (start : Nat) (hadvances : node.Advances)
    (hholds : prog.Holds start (node.layout start)) : node.LaidOut prog start := by
  induction node generalizing start with
  | empty => exact fun k w hk => hk w (Nat.le_refl _)
  | set chars =>
    intro k w hk
    have hcode := (Program.holds_cons.mp hholds).1
    rw [run]
    cases hpass : w.pass? chars with
    | none => exact .stuck hcode hpass
    | some q =>
      obtain ⟨c, cs, hrest, _, rfl⟩ := Point.pass?_eq_some_iff.mp hpass
      exact .pass hcode hpass (hk _ (Nat.le_of_eq (congrArg List.length hrest.symm)))
  | look condition =>
    intro k w hk
    have hcode := (Program.holds_cons.mp hholds).1
    rw [run]
    split
    case isTrue hlook => exact .look hcode hlook (hk w (Nat.le_refl _))
    case isFalse hlook => exact .refuse hcode (Bool.eq_false_iff.mpr hlook)
  | group index body ih =>
    intro k w hk
    rw [layout, List.cons_append, Program.holds_cons, Program.holds_append, length_layout] at hholds
    obtain ⟨hopen, hbody, hclose⟩ := hholds
    have hsize : start + (group index body).size = start + 1 + body.size + 1 := by rw [size]; omega
    refine .save hopen (ih _ hadvances hbody _ _ fun v hv => ?_)
    have := hk (v.save (2 * index + 1)) hv
    rw [hsize] at this
    exact .save (Program.holds_cons.mp hclose).1 this
  | seq a b iha ihb =>
    intro k w hk
    rw [layout, Program.holds_append, length_layout] at hholds
    refine iha _ hadvances.1 hholds.1 _ _ fun v hv => ihb _ hadvances.2 hholds.2 _ _ fun u hu => ?_
    have := hk u (by rw [minLength]; omega)
    rwa [size, ← Nat.add_assoc] at this
  | alt a b iha ihb =>
    intro k w hk
    rw [layout, List.cons_append, Program.holds_cons, Program.holds_append, length_layout,
      Program.holds_cons] at hholds
    obtain ⟨hsplit, ha, hjump, hb⟩ := hholds
    have hend : start + (a.alt b).size = start + a.size + 2 + b.size := by
      rw [size]
      omega
    have hskip : start + 1 + a.size + 1 = start + a.size + 2 := by omega
    rw [hend] at hk
    rw [hskip] at hb
    refine .split hsplit (iha _ hadvances.1 ha _ _ fun v hv => ?_)
      (ihb _ hadvances.2 hb _ _ fun v hv => hk v (by rw [minLength]; omega))
    refine .jump hjump ?_
    rw [show start + a.size + b.size + 2 = start + a.size + 2 + b.size by omega]
    exact hk v (by rw [minLength]; omega)
  | times least most greedy body ih =>
    cases most with
    | some most => exact laidOut_times_some (fun place => ih place hadvances.1) hholds
    | none => exact laidOut_times_none (hadvances.2 rfl) (fun place => ih place hadvances.1) hholds

/-- Trying the program of a pattern at a place finds the preferred match there. -/
theorem tries_program (node : Node) (groups : Nat) (hadvances : node.Advances) (p : Point) :
    (node.program groups).Tries 0 (Way.save ⟨p, Array.replicate (2 * groups + 2) none⟩ 0)
      (node.matchAt groups p) := by
  have hcode : (node.program groups).Holds 0 (node.layout 0 ++ [Instr.accept]) := by
    intro i x hx
    simpa [program] using hx
  rw [Program.holds_append, length_layout] at hcode
  refine laidOut _ node 0 hadvances hcode.1 _ _ fun v _ => .accept ?_
  exact (Program.holds_cons.mp hcode.2).1

end Node
end ScriptIndex.Pattern
