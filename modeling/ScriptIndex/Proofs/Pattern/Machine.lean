import ScriptIndex.Proofs.Pattern.Layout

/-!
# The machine finds what backtracking finds

Whether a program succeeds from an instruction on does not depend on the kept places. So a thread
that comes to an instruction where a preferred thread has already been at this place may be dropped:
if it could succeed, the preferred one would too. Steps that pass no character never lead back to
where they came from, so the preferred thread is not the one that is being followed.
-/
namespace ScriptIndex.Pattern.Program

open Relation (TransGen)

variable {prog : Program} {p : Point}

/-- The steps that pass no character. The first instruction comes after the second one. -/
inductive Edge (prog : Program) (p : Point) : Nat → Nat → Prop
  | look {pc condition} (hcode : prog.code[pc]? = some (.look condition))
      (hlook : condition.holds p.before p.rest.head? = true) : Edge prog p (pc + 1) pc
  | save {pc slot} (hcode : prog.code[pc]? = some (.save slot)) : Edge prog p (pc + 1) pc
  | jump {pc target} (hcode : prog.code[pc]? = some (.jump target)) : Edge prog p target pc
  | first {pc a b} (hcode : prog.code[pc]? = some (.split a b)) : Edge prog p a pc
  | second {pc a b} (hcode : prog.code[pc]? = some (.split a b)) : Edge prog p b pc

theorem Tries.acc {pc : Nat} {w : Way} {r : Option Slots} (h : prog.Tries pc w r) :
    Acc (prog.Edge w.toPoint) pc := by
  induction h with
  | accept hcode | pass hcode | stuck hcode | refuse hcode | look hcode | save hcode | jump hcode
    | split hcode =>
    refine ⟨_, fun q hq => ?_⟩
    cases hq <;> simp_all [Way.save]

theorem Tries.not_transGen_self {pc : Nat} {w : Way} {r : Option Slots} (h : prog.Tries pc w r) :
    ¬ TransGen (prog.Edge w.toPoint) pc pc := by
  have hacc := h.acc.transGen
  clear h
  induction hacc with
  | intro pc _ ih => exact fun hself => ih pc hself hself

/-- The kept places do not matter for success. -/
theorem Tries.isSome_eq {pc : Nat} {w v : Way} {r s : Option Slots} (h : prog.Tries pc w r)
    (hpoint : v.toPoint = w.toPoint) (h' : prog.Tries pc v s) : s.isSome = r.isSome := by
  induction h generalizing v s with
  | accept hcode | pass hcode | stuck hcode | refuse hcode | look hcode | save hcode | jump hcode
    | split hcode => cases h' <;> grind [Way.save]

theorem Tries.lt_size {pc : Nat} {w : Way} {r : Option Slots} (h : prog.Tries pc w r) :
    pc < prog.code.size := by
  cases h <;> exact (Array.getElem?_eq_some_iff.mp ‹_›).1

def Succeeds (prog : Program) (p : Point) (pc : Nat) : Prop :=
  ∃ slots s, prog.Tries pc ⟨p, slots⟩ (some s)

theorem Tries.succeeds_iff {pc : Nat} {slots : Slots} {r : Option Slots}
    (h : prog.Tries pc ⟨p, slots⟩ r) : prog.Succeeds p pc ↔ r.isSome := by
  constructor
  · rintro ⟨slots', s, hs⟩
    exact (h.isSome_eq (v := ⟨p, slots'⟩) rfl hs).symm
  · intro hr
    exact ⟨slots, r.get hr, by rwa [Option.some_get]⟩

def AnySucceeds (prog : Program) (p : Point) (ts : List Thread) : Prop :=
  ∃ t ∈ ts, prog.Succeeds p t.pc

@[simp]
theorem anySucceeds_nil : ¬ prog.AnySucceeds p [] := by simp [AnySucceeds]

@[simp]
theorem anySucceeds_cons {t : Thread} {ts : List Thread} :
    prog.AnySucceeds p (t :: ts) ↔ prog.Succeeds p t.pc ∨ prog.AnySucceeds p ts := by
  simp [AnySucceeds]

@[simp]
theorem anySucceeds_append {ts us : List Thread} :
    prog.AnySucceeds p (ts ++ us) ↔ prog.AnySucceeds p ts ∨ prog.AnySucceeds p us := by
  simp [AnySucceeds, or_and_right, exists_or]

/-- The result of threads that are tried one after the other. -/
inductive Best (prog : Program) (p : Point) : List Thread → Option Slots → Prop
  | nil : Best prog p [] none
  | cons {t ts r s} (hfirst : prog.Tries t.pc ⟨p, t.slots⟩ r) (hrest : Best prog p ts s) :
      Best prog p (t :: ts) (r.or s)

theorem best_cons {t : Thread} {ts : List Thread} {r : Option Slots} :
    prog.Best p (t :: ts) r ↔
      ∃ a b, prog.Tries t.pc ⟨p, t.slots⟩ a ∧ prog.Best p ts b ∧ r = a.or b := by
  constructor
  · intro h
    cases h with
    | cons hfirst hrest => exact ⟨_, _, hfirst, hrest, rfl⟩
  · rintro ⟨a, b, hfirst, hrest, rfl⟩
    exact .cons hfirst hrest

theorem best_append {ts us : List Thread} {r : Option Slots} :
    prog.Best p (ts ++ us) r ↔ ∃ a b, prog.Best p ts a ∧ prog.Best p us b ∧ r = a.or b := by
  induction ts generalizing r with
  | nil =>
    constructor
    · exact fun h => ⟨none, r, .nil, h, rfl⟩
    · rintro ⟨_, b, ⟨⟩, h, rfl⟩
      exact h
  | cons t ts ih =>
    simp only [List.cons_append, best_cons, ih]
    constructor
    · rintro ⟨a, _, hfirst, ⟨b, c, hb, hc, rfl⟩, rfl⟩
      exact ⟨a.or b, c, ⟨a, b, hfirst, hb, rfl⟩, hc, (Option.or_assoc ..).symm⟩
    · rintro ⟨_, c, ⟨a, b, hfirst, hb, rfl⟩, hc, rfl⟩
      exact ⟨a, b.or c, hfirst, ⟨b, c, hb, hc, rfl⟩, Option.or_assoc ..⟩

theorem Best.anySucceeds_iff {ts : List Thread} {r : Option Slots} (h : prog.Best p ts r) :
    prog.AnySucceeds p ts ↔ r.isSome := by
  induction h with
  | nil => simp
  | cons hfirst _ ih =>
    rw [anySucceeds_cons, hfirst.succeeds_iff, ih, Option.isSome_or, Bool.or_eq_true]

/-- The thread waits for a character, or it accepts. -/
def Waits (prog : Program) (pc : Nat) : Prop :=
  prog.code[pc]? = some .accept ∨ ∃ chars, prog.code[pc]? = some (.set chars)

/-- If one can succeed from an instruction, so one can from a thread that was collected, or from one
of those that are to be followed first and were reached from this instruction. -/
def Covered (prog : Program) (p : Point) (collected ts : List Thread) (pc : Nat) : Prop :=
  ∃ first later, ts = first ++ later ∧ (∀ u ∈ first, TransGen (prog.Edge p) u.pc pc) ∧
    (prog.Succeeds p pc → prog.AnySucceeds p collected ∨ prog.AnySucceeds p first)

/-- What holds while the threads `ts` are still to be followed. -/
structure Closed (prog : Program) (p : Point) (front : Front) (ts : List Thread) : Prop where
  size_eq : front.reached.size = prog.code.size
  waits : ∀ t ∈ front.threads, prog.Waits t.pc
  covered : ∀ pc, front.reached[pc]? = some true → prog.Covered p front.threads ts pc

namespace Closed

variable {front : Front} {t : Thread} {ts : List Thread} {r : Option Slots}

/-- A thread at an instruction that was reached already adds nothing to what was collected. -/
theorem anySucceeds_of_reached (h : prog.Closed p front (t :: ts))
    (hreached : front.reached[t.pc]? = some true) (htries : prog.Tries t.pc ⟨p, t.slots⟩ r)
    (hsucceeds : prog.Succeeds p t.pc) : prog.AnySucceeds p front.threads := by
  obtain ⟨first, later, hts, hbelow, hcover⟩ := h.covered _ hreached
  cases first with
  | nil => simpa using hcover hsucceeds
  | cons u us =>
    obtain ⟨rfl, _⟩ := List.cons.inj hts
    exact absurd (hbelow t (by simp)) htries.not_transGen_self

theorem drop (h : prog.Closed p front (t :: ts)) (hreached : front.reached[t.pc]? = some true)
    (htries : prog.Tries t.pc ⟨p, t.slots⟩ r) : prog.Closed p front ts := by
  refine ⟨h.size_eq, h.waits, fun pc hpc => ?_⟩
  obtain ⟨first, later, hts, hbelow, hcover⟩ := h.covered pc hpc
  cases first with
  | nil => exact ⟨[], ts, rfl, by simp, hcover⟩
  | cons u us =>
    obtain ⟨rfl, rfl⟩ := List.cons.inj hts
    refine ⟨us, later, rfl, fun v hv => hbelow v (by simp [hv]), fun hs => ?_⟩
    have hdrop := h.anySucceeds_of_reached hreached htries
    have := hcover hs
    grind [anySucceeds_cons]

/-- A thread is replaced by threads at the next instructions. -/
theorem expand (h : prog.Closed p front (t :: ts)) {us : List Thread}
    (hedge : ∀ u ∈ us, prog.Edge p u.pc t.pc)
    (hsucceeds : prog.Succeeds p t.pc → prog.AnySucceeds p us) :
    prog.Closed p { front with reached := front.reached.setIfInBounds t.pc true } (us ++ ts) := by
  refine ⟨by simpa using h.size_eq, h.waits, fun pc hpc => ?_⟩
  by_cases heq : pc = t.pc
  · subst heq
    exact ⟨us, ts, rfl, fun u hu => .single (hedge u hu), fun hs => .inr (hsucceeds hs)⟩
  · rw [Array.getElem?_setIfInBounds_ne (Ne.symm heq)] at hpc
    obtain ⟨first, later, hts, hbelow, hcover⟩ := h.covered pc hpc
    cases first with
    | nil => exact ⟨[], us ++ ts, rfl, by simp, hcover⟩
    | cons u vs =>
      obtain ⟨rfl, rfl⟩ := List.cons.inj hts
      refine ⟨us ++ vs, later, by simp, fun v hv => ?_, fun hs => ?_⟩
      · rcases List.mem_append.mp hv with hv | hv
        · exact .trans (.single (hedge v hv)) (hbelow t (by simp))
        · exact hbelow v (by simp [hv])
      · have := hcover hs
        grind [anySucceeds_cons, anySucceeds_append]

theorem collect (h : prog.Closed p front (t :: ts)) (hwaits : prog.Waits t.pc) :
    prog.Closed p
      { threads := t :: front.threads, reached := front.reached.setIfInBounds t.pc true } ts := by
  refine ⟨by simpa using h.size_eq, List.forall_mem_cons.mpr ⟨hwaits, h.waits⟩, fun pc hpc => ?_⟩
  by_cases heq : pc = t.pc
  · subst heq
    exact ⟨[], ts, rfl, by simp, fun hs => .inl (anySucceeds_cons.mpr (.inl hs))⟩
  · rw [Array.getElem?_setIfInBounds_ne (Ne.symm heq)] at hpc
    obtain ⟨first, later, hts, hbelow, hcover⟩ := h.covered pc hpc
    cases first with
    | nil =>
      refine ⟨[], ts, rfl, by simp, fun hs => ?_⟩
      have := hcover hs
      grind [anySucceeds_cons, anySucceeds_nil]
    | cons u us =>
      obtain ⟨rfl, rfl⟩ := List.cons.inj hts
      refine ⟨us, later, rfl, fun v hv => hbelow v (by simp [hv]), fun hs => ?_⟩
      have := hcover hs
      grind [anySucceeds_cons]

end Closed

theorem count_false_set {reached : Array Bool} {pc : Nat} (h : reached[pc]? = some false) :
    (reached.setIfInBounds pc true).count false + 1 = reached.count false := by
  obtain ⟨hpc, hfalse⟩ := Array.getElem?_eq_some_iff.mp h
  have hpos : 0 < reached.count false := Array.count_pos_iff.mpr (hfalse ▸ Array.getElem_mem hpc)
  simp only [Array.setIfInBounds, dif_pos hpc, Array.count_set, hfalse]
  grind

/-- A thread at an instruction that was reached adds nothing to what is preferred to it. -/
theorem Closed.or_of_reached {front : Front} {t : Thread} {ts : List Thread} {a c : Option Slots}
    (hclosed : prog.Closed p front (t :: ts)) (hreached : front.reached[t.pc]? = some true)
    (ha : prog.Best p front.threads.reverse a) (hc : prog.Tries t.pc ⟨p, t.slots⟩ c) :
    a.or c = a := by
  cases c with
  | none => exact Option.or_none
  | some s =>
    have hsome := hclosed.anySucceeds_of_reached hreached hc (hc.succeeds_iff.mpr rfl)
    have hreverse : prog.AnySucceeds p front.threads.reverse := by
      simpa [AnySucceeds] using hsome
    obtain ⟨s, rfl⟩ := Option.isSome_iff_exists.mp (ha.anySucceeds_iff.mp hreverse)
    rfl

/-- Following threads keeps their result. Each round drops a thread or reaches a new instruction,
and at most two threads take the place of one. -/
theorem follow_spec (rounds : Nat) (ts : List Thread) (front : Front) (r : Option Slots)
    (hrounds : 2 * front.reached.count false + ts.length ≤ rounds)
    (hclosed : prog.Closed p front ts) (hbest : prog.Best p (front.threads.reverse ++ ts) r) :
    prog.Closed p (prog.follow p.place rounds ts front) [] ∧
      prog.Best p (prog.follow p.place rounds ts front).threads.reverse r := by
  induction rounds generalizing ts front with
  | zero =>
    obtain rfl : ts = [] := List.eq_nil_of_length_eq_zero (by omega)
    exact ⟨hclosed, by simpa [follow] using hbest⟩
  | succ rounds ih =>
    cases ts with
    | nil => exact ⟨hclosed, by simpa [follow] using hbest⟩
    | cons t ts =>
      obtain ⟨a, b, ha, hb, rfl⟩ := best_append.mp hbest
      obtain ⟨c, d, hc, hd, rfl⟩ := best_cons.mp hb
      have hpc : t.pc < front.reached.size := hclosed.size_eq ▸ hc.lt_size
      rw [List.length_cons] at hrounds
      rw [follow, Array.getD_eq_getD_getElem?, Array.getElem?_eq_getElem hpc, Option.getD_some]
      split
      case isTrue hreached =>
        replace hreached := Array.getElem?_eq_some_iff.mpr ⟨hpc, hreached⟩
        refine ih ts front (by omega) (hclosed.drop hreached hc)
          (best_append.mpr ⟨a, d, ha, hd, ?_⟩)
        rw [← Option.or_assoc, hclosed.or_of_reached hreached ha hc]
      case isFalse hreached =>
        have hfewer :=
          count_false_set (Array.getElem?_eq_some_iff.mpr ⟨hpc, by simpa using hreached⟩)
        have hexpand (us : List Thread) (hlength : us.length ≤ 2)
            (hedge : ∀ u ∈ us, prog.Edge p u.pc t.pc) (hus : prog.Best p us c) :=
          ih (us ++ ts) { front with reached := front.reached.setIfInBounds t.pc true }
            (by rw [List.length_append]; dsimp only; omega)
            (hclosed.expand hedge fun hs => hus.anySucceeds_iff.mpr (hc.succeeds_iff.mp hs))
            (best_append.mpr ⟨a, c.or d, ha, best_append.mpr ⟨c, d, hus, hd, rfl⟩, rfl⟩)
        have hcollect (hwaits : prog.Waits t.pc) :=
          ih ts { threads := t :: front.threads, reached := front.reached.setIfInBounds t.pc true }
            (by dsimp only; omega) (hclosed.collect hwaits) (by simpa using hbest)
        cases hc with
        | accept hcode => simpa only [hcode] using hcollect (.inl hcode)
        | pass hcode => simpa only [hcode] using hcollect (.inr ⟨_, hcode⟩)
        | stuck hcode => simpa only [hcode] using hcollect (.inr ⟨_, hcode⟩)
        | refuse hcode hlook =>
          simpa [hcode, Point.place, hlook] using hexpand [] (by simp) (by simp) .nil
        | look hcode hlook hnext =>
          simpa [hcode, Point.place, hlook] using
            hexpand [{ t with pc := t.pc + 1 }] (by simp) (by simpa using .look hcode hlook)
              (by simpa using Best.cons hnext .nil)
        | save hcode hnext =>
          simpa [hcode, Point.place] using
            hexpand [⟨t.pc + 1, t.slots.setIfInBounds _ (some p.offset)⟩] (by simp)
              (by simpa using .save hcode) (by simpa using Best.cons hnext .nil)
        | jump hcode hnext =>
          simpa [hcode] using
            hexpand [{ t with pc := _ }] (by simp) (by simpa using .jump hcode)
              (by simpa using Best.cons hnext .nil)
        | split hcode hfirst hsecond =>
          simpa [hcode] using
            hexpand [{ t with pc := _ }, { t with pc := _ }] (by simp)
              (by simpa using ⟨.first hcode, .second hcode⟩)
              (by simpa using Best.cons hfirst (.cons hsecond .nil))

theorem closed_fresh (prog : Program) (p : Point) : prog.Closed p prog.fresh [] where
  size_eq := by simp [fresh]
  waits := by simp [fresh]
  covered pc hpc := by
    rw [fresh, Array.getElem?_replicate] at hpc
    split at hpc <;> cases hpc

theorem add_spec {front : Front} {t : Thread} {r s : Option Slots}
    (hclosed : prog.Closed p front []) (hbest : prog.Best p front.threads.reverse r)
    (ht : prog.Tries t.pc ⟨p, t.slots⟩ s) :
    prog.Closed p (prog.add p.place front t) [] ∧
      prog.Best p (prog.add p.place front t).threads.reverse (r.or s) := by
  have hrounds : 2 * front.reached.count false + [t].length ≤ 2 * prog.code.size + 1 := by
    have := front.reached.count_le_size (a := false)
    have := hclosed.size_eq
    simp only [List.length_singleton]
    omega
  refine follow_spec _ _ _ _ hrounds ⟨hclosed.size_eq, hclosed.waits, fun pc hpc => ?_⟩ ?_
  · obtain ⟨first, later, hts, hbelow, hcover⟩ := hclosed.covered pc hpc
    obtain ⟨rfl, _⟩ := List.append_eq_nil_iff.mp hts.symm
    exact ⟨[], [t], rfl, hbelow, hcover⟩
  · exact best_append.mpr ⟨r, s, hbest, by simpa using Best.cons ht .nil, rfl⟩

/-- Moving threads over a character keeps what they lead to: the threads that have moved come first,
and then the match that was found. -/
theorem advance_spec {c : Char} {cs : List Char} (hrest : p.rest = c :: cs) {ts : List Thread}
    {r s : Option Slots} {front : Front} (found : Option Slots) (hwaits : ∀ t ∈ ts, prog.Waits t.pc)
    (hts : prog.Best p ts r) (hclosed : prog.Closed (p.next c cs) front [])
    (hbest : prog.Best (p.next c cs) front.threads.reverse s) :
    let moved := prog.advance (some c) p.offset (p.next c cs).place ts found front
    prog.Closed (p.next c cs) moved.2 [] ∧
      ∃ s', prog.Best (p.next c cs) moved.2.threads.reverse s' ∧
        s'.or moved.1 = (s.or r).or found := by
  induction hts generalizing front s with
  | nil => exact ⟨hclosed, s, hbest, by simp [advance]⟩
  | @cons t ts a b hfirst hlater ih =>
    have hwaits' := fun u hu => hwaits u (List.mem_cons_of_mem t hu)
    cases hfirst with
    | accept hcode =>
      simp only [advance, hcode]
      exact ⟨hclosed, s, hbest, by simp [Way.save]⟩
    | pass hcode hpass hnext =>
      obtain ⟨_, _, hcons, hmem, rfl⟩ := Point.pass?_eq_some_iff.mp hpass
      obtain ⟨rfl, rfl⟩ := List.cons.inj (hrest.symm.trans hcons)
      obtain ⟨hclosed', hbest'⟩ := add_spec (t := { t with pc := t.pc + 1 }) hclosed hbest hnext
      have := ih hwaits' hclosed' hbest'
      simpa [advance, hcode, hmem, Option.or_assoc] using this
    | @stuck _ chars _ hcode hpass =>
      have hmem : chars.contains c.toNat = false := by simpa [Point.pass?, hrest] using hpass
      simpa [advance, hcode, hmem] using ih hwaits' hclosed hbest
    | refuse hcode | look hcode | save hcode | jump hcode | split hcode =>
      have := hwaits t (by simp)
      simp [Waits, hcode] at this

/-- At the end of a line the first thread that accepts ends the search. -/
theorem advance_end_spec (hrest : p.rest = []) {ts : List Thread} {found r : Option Slots}
    {place : Place} {front : Front} (hts : prog.Best p ts r) (hwaits : ∀ t ∈ ts, prog.Waits t.pc) :
    (prog.advance none p.offset place ts found front).1 = r.or found := by
  induction hts with
  | nil => simp [advance]
  | @cons t ts a b hfirst hlater ih =>
    have hwaits' := fun u hu => hwaits u (List.mem_cons_of_mem t hu)
    cases hfirst with
    | accept hcode => simp [advance, hcode, Way.save]
    | pass hcode hpass =>
      obtain ⟨_, _, hcons, _⟩ := Point.pass?_eq_some_iff.mp hpass
      cases hrest.symm.trans hcons
    | stuck hcode => simpa [advance, hcode] using ih hwaits'
    | refuse hcode | look hcode | save hcode | jump hcode | split hcode =>
      have := hwaits t (by simp)
      simp [Waits, hcode] at this

/-- What a search finds from a place on when a match may still start there. -/
theorem start_spec {m : Option Slots} {front : Front} {r : Option Slots} (found : Option Slots)
    (hstart : prog.Tries 0 (Way.save ⟨p, Array.replicate (2 * prog.groups + 2) none⟩ 0) m)
    (hclosed : prog.Closed p front []) (hbest : prog.Best p front.threads.reverse r) :
    let started := if found.isNone then prog.start p.place front else front
    prog.Closed p started [] ∧
      ∃ s, prog.Best p started.threads.reverse s ∧ s.or found = r.or (found.or m) := by
  cases found with
  | none =>
    obtain ⟨hclosed', hbest'⟩ := add_spec (t := ⟨0, _⟩) hclosed hbest hstart
    exact ⟨hclosed', r.or m, hbest', by simp⟩
  | some s => exact ⟨hclosed, r, hbest, by simp⟩

theorem searchFrom_cons {c : Char} {cs : List Char} (hrest : p.rest = c :: cs) (front : Front)
    (found : Option Slots) :
    prog.searchFrom p.before p.offset front found (c :: cs) =
      let started := if found.isNone then prog.start p.place front else front
      let moved := prog.advance (some c) p.offset (p.next c cs).place started.threads.reverse found
        prog.fresh
      if moved.1.isSome && moved.2.threads.isEmpty then moved.1
      else prog.searchFrom (p.next c cs).before (p.next c cs).offset moved.2 moved.1 cs := by
  rw [Point.place, hrest]
  rfl

/-- The search from a place on: the threads that are there come first, then the match that was
found, and then the matches that start at this place or later. -/
theorem searchFrom_spec {matchAt : Point → Option Slots}
    (hstart : ∀ p,
      prog.Tries 0 (Way.save ⟨p, Array.replicate (2 * prog.groups + 2) none⟩ 0) (matchAt p))
    {rest : List Char} (p : Point) (hrest : p.rest = rest) {front : Front} {found r : Option Slots}
    (hclosed : prog.Closed p front []) (hbest : prog.Best p front.threads.reverse r) :
    prog.searchFrom p.before p.offset front found rest =
      r.or (found.or (leftmost matchAt p)) := by
  induction rest generalizing p front found r with
  | nil =>
    obtain ⟨hclosed₁, r₁, hbest₁, hr₁⟩ := start_spec found (hstart p) hclosed hbest
    rw [leftmost_nil hrest, ← hr₁]
    rw [Point.place, hrest] at hclosed₁ hbest₁
    exact advance_end_spec hrest hbest₁ fun t ht => hclosed₁.waits t (by simpa using ht)
  | cons c cs ih =>
    obtain ⟨hclosed₁, r₁, hbest₁, hr₁⟩ := start_spec found (hstart p) hclosed hbest
    obtain ⟨hclosed₂, r₂, hbest₂, hr₂⟩ := advance_spec hrest found
      (fun t ht => hclosed₁.waits t (by simpa using ht)) hbest₁ (closed_fresh prog _) .nil
    rw [searchFrom_cons hrest, leftmost_cons hrest, ← found.or_assoc, ← Option.or_assoc, ← hr₁,
      ← Option.none_or (o := r₁), ← hr₂, Option.or_assoc]
    dsimp only
    generalize prog.advance _ _ _ _ _ _ = moved at hclosed₂ hbest₂ ⊢
    split
    case isTrue hdone =>
      rw [Bool.and_eq_true, List.isEmpty_iff] at hdone
      obtain ⟨s, hs⟩ := Option.isSome_iff_exists.mp hdone.1
      rw [hdone.2] at hbest₂
      cases hbest₂
      rw [hs]
      rfl
    case isFalse => exact ih _ rfl hclosed₂ hbest₂

/-- The machine finds the match that starts first, and of those the preferred one. -/
theorem search_eq (node : Node) (groups : Nat) (hadvances : node.Advances) (p : Point) :
    (node.program groups).search p.before p.offset p.rest = leftmost (node.matchAt groups) p := by
  rw [search, searchFrom_spec (node.tries_program groups hadvances) p rfl (closed_fresh _ p) .nil,
    Option.none_or, Option.none_or]

end ScriptIndex.Pattern.Program
