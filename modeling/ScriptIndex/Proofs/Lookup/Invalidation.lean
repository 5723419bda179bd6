import ScriptIndex.Proofs.Lookup.Fetches

/-!
# Slots that are dropped, and all others

Dropping empties some slots of the store. A run that goes on from there is set beside the run that
goes on from the store as it was: the first lookup of an emptied slot reads its file again, and no
lookup of another slot can tell the two runs apart, neither by its calls nor by its reply.
-/
namespace ScriptIndex

/-- The state behind a provider is the same, or calls change nothing and the answers are the same. -/
def Provider.Agree {σ : Type} (p : Provider σ) (s t : σ) : Prop :=
  s = t ∨ p.Steady ∧ p.answers s = p.answers t

namespace Lookup

variable {σ : Type} {p : Provider σ}

/-- The two ways to drop entries of the store. -/
inductive Drop where
  | forget (id : String)
  | forgetIncludes

namespace Drop

def apply : Drop → FactStore → FactStore
  | forget id, store => store.forget id
  | forgetIncludes, store => store.forgetIncludes

/-- The slots that are emptied: those about a resource, or the commands and tokens of all files. -/
def drops : Drop → Slot → Bool
  | forget id, slot => slot.file = Resource.canonical id
  | forgetIncludes, .fact kind _ => kind = .commands
  | forgetIncludes, .tokens _ _ => true

theorem find?_apply (drop : Drop) (slot : Slot) (store : FactStore) :
    slot.find? (drop.apply store) = if drop.drops slot then none else slot.find? store := by
  cases drop with
  | forget id =>
    simp only [drops, decide_eq_true_eq]
    cases slot with
    | fact kind key => exact kind.held_forget store id key
    | tokens file expression => exact store.find?_forget_misc id (file, expression)
  | forgetIncludes =>
    cases slot with
    | fact kind key =>
      simp only [drops, decide_eq_true_eq]
      exact kind.held_forgetIncludes store key
    | tokens file expression => rfl

theorem find?_apply_of_drops {drop : Drop} {slot : Slot} (h : drop.drops slot = true)
    (store : FactStore) : slot.find? (drop.apply store) = none :=
  (drop.find?_apply slot store).trans (if_pos h)

theorem find?_apply_of_kept {drop : Drop} {slot : Slot} (h : drop.drops slot = false)
    (store : FactStore) : slot.find? (drop.apply store) = slot.find? store := by
  rw [drop.find?_apply, h, if_neg Bool.false_ne_true]

end Drop

/-- What may happen to a store after a drop. -/
inductive Later (σ : Type) where
  | get (fetch : Fetch)
  | drop (drop : Drop)
  /-- The state behind the provider becomes another one. -/
  | change (state : σ)

namespace Later

def after (p : Provider σ) : Later σ → FactStore × σ → FactStore × σ
  | get fetch, st => (fetch.run p st).2
  | drop other, st => (other.apply st.1, st.2)
  | change s, st => (st.1, s)

def afterAll (p : Provider σ) (events : List (Later σ)) (st : FactStore × σ) : FactStore × σ :=
  events.foldl (fun st event => event.after p st) st

end Later

/-- An emptied slot stays empty until it is looked up. -/
theorem find?_afterAll {slot : Slot} {events : List (Later σ)} {st : FactStore × σ}
    (hnone : slot.find? st.1 = none) (h : ∀ fetch, .get fetch ∈ events → fetch.slot ≠ slot) :
    slot.find? (Later.afterAll p events st).1 = none := by
  induction events generalizing st with
  | nil => exact hnone
  | cons event events ih =>
    refine ih ?_ fun fetch hmem => h fetch (List.mem_cons_of_mem _ hmem)
    cases event with
    | get fetch =>
      have hne : fetch.slot ≠ slot := h fetch List.mem_cons_self
      exact (fetch.find?_run_of_ne p hne.symm st).trans hnone
    | drop other =>
      change slot.find? (other.apply st.1) = none
      rw [other.find?_apply, hnone, ite_self]
    | change s => exact hnone

/-- Two runs that may differ in the slots that were dropped, and nowhere else. -/
structure AlikeBut (p : Provider σ) (drop : Drop) (st other : FactStore × σ) : Prop where
  slots : ∀ slot, drop.drops slot = false → slot.find? st.1 = slot.find? other.1
  states : p.Agree st.2 other.2

namespace Fetch

theorem answers_ask (hp : p.Steady) (fetch : Fetch) (s : σ) :
    p.answers (fetch.ask p s).2 = p.answers s := by
  cases fetch with
  | fact kind id => exact hp _ _ (.read _ s)
  | tokens inc =>
    simp only [ask]
    split
    · rfl
    · exact hp _ _ (.read _ s)
    · exact (hp _ _ (.resolve _ _)).trans (hp _ _ (.read _ s))

theorem answers_run (hp : p.Steady) (fetch : Fetch) (st : FactStore × σ) :
    p.answers (fetch.run p st).2.2 = p.answers st.2 := by
  cases hheld : fetch.held st.1 with
  | some found => rw [run_of_held p hheld]
  | none =>
    rw [run_of_none p hheld]
    exact fetch.answers_ask hp st.2

/-- What a lookup asks for and finds depends on the answers of the provider only. -/
theorem ask_agree {s t : σ} (h : p.Agree s t) (fetch : Fetch) :
    (fetch.ask p s).1 = (fetch.ask p t).1 ∧ fetch.asked p s = fetch.asked p t ∧
      p.Agree (fetch.ask p s).2 (fetch.ask p t).2 := by
  rcases h with rfl | ⟨hp, h⟩
  · exact ⟨rfl, rfl, Or.inl rfl⟩
  · have hafter : p.answers (fetch.ask p s).2 = p.answers (fetch.ask p t).2 := by
      rw [fetch.answers_ask hp, fetch.answers_ask hp, h]
    have htext (key : String) : (p.read key s).1 = (p.read key t).1 :=
      congrFun (congrArg Answers.text h) key
    refine ⟨?_, ?_, Or.inr ⟨hp, hafter⟩⟩
    · cases fetch with
      | fact kind id => simp only [ask, htext]
      | tokens inc =>
        have howner (file : String) : (p.resolve file (p.read file s).2).1 =
            (p.resolve file (p.read file t).2).1 := by
          have hread := (hp _ _ (.read file s)).trans (h.trans (hp _ _ (.read file t)).symm)
          exact congrFun (congrArg Answers.owner hread) file
        simp only [ask, htext, howner]
        split <;> rfl
    · cases fetch with
      | fact kind id => rfl
      | tokens inc => simp only [asked, htext]

end Fetch

namespace AlikeBut

variable {drop : Drop} {st other : FactStore × σ} {fetch : Fetch}

theorem held_eq (h : AlikeBut p drop st other) (hkept : drop.drops fetch.slot = false) :
    fetch.held st.1 = fetch.held other.1 :=
  Fetch.held_congr (h.slots _ hkept)

theorem calls_eq (h : AlikeBut p drop st other) (hkept : drop.drops fetch.slot = false) :
    fetch.calls p st = fetch.calls p other := by
  rw [Fetch.calls, Fetch.calls, h.held_eq hkept, (fetch.ask_agree h.states).2.1]

theorem reply_eq (h : AlikeBut p drop st other) (hkept : drop.drops fetch.slot = false) :
    (fetch.run p st).1 = (fetch.run p other).1 := by
  cases hheld : fetch.held st.1 with
  | some found => rw [Fetch.run_of_held p hheld, Fetch.run_of_held p (h.held_eq hkept ▸ hheld)]
  | none =>
    rw [Fetch.run_of_none p hheld, Fetch.run_of_none p (h.held_eq hkept ▸ hheld)]
    exact (fetch.ask_agree h.states).1

/-- A lookup of a slot that was not dropped does the same in both runs. -/
theorem get_kept (h : AlikeBut p drop st other) (hkept : drop.drops fetch.slot = false) :
    AlikeBut p drop (fetch.run p st).2 (fetch.run p other).2 := by
  cases hheld : fetch.held st.1 with
  | some found =>
    rw [Fetch.run_of_held p hheld, Fetch.run_of_held p (h.held_eq hkept ▸ hheld)]
    exact h
  | none =>
    obtain ⟨hanswer, -, hstates⟩ := fetch.ask_agree h.states
    rw [Fetch.run_of_none p hheld, Fetch.run_of_none p (h.held_eq hkept ▸ hheld), hanswer]
    refine ⟨?_, hstates⟩
    intro slot hslot
    cases (fetch.ask p other.2).1 with
    | error e => exact h.slots slot hslot
    | ok found =>
      by_cases heq : slot = fetch.slot
      · subst heq
        exact (Slot.find?_put_self _ _ found).trans (Slot.find?_put_self _ _ found).symm
      · exact (Slot.find?_put_of_ne heq _ found).trans
          ((h.slots slot hslot).trans (Slot.find?_put_of_ne heq _ found).symm)

/-- A lookup of a slot that was dropped may call in one run only, which does not change the answers
of a steady provider. -/
theorem get_dropped (hp : p.Steady) (h : AlikeBut p drop st other)
    (hdropped : drop.drops fetch.slot = true) :
    AlikeBut p drop (fetch.run p st).2 (fetch.run p other).2 := by
  refine ⟨?_, Or.inr ⟨hp, ?_⟩⟩
  · intro slot hslot
    have hne : slot ≠ fetch.slot := by
      rintro rfl
      rw [hslot] at hdropped
      cases hdropped
    rw [fetch.find?_run_of_ne p hne, fetch.find?_run_of_ne p hne]
    exact h.slots slot hslot
  · rw [fetch.answers_run hp, fetch.answers_run hp]
    rcases h.states with heq | ⟨-, heq⟩
    · rw [heq]
    · exact heq

theorem get (h : AlikeBut p drop st other)
    (hfetch : p.Steady ∨ drop.drops fetch.slot = false) :
    AlikeBut p drop (fetch.run p st).2 (fetch.run p other).2 := by
  cases hslot : drop.drops fetch.slot with
  | false => exact h.get_kept hslot
  | true =>
    rcases hfetch with hp | hkept
    · exact h.get_dropped hp hslot
    · rw [hkept] at hslot
      cases hslot

theorem afterAll {events : List (Later σ)} (h : AlikeBut p drop st other)
    (hevents : p.Steady ∨ ∀ fetch, .get fetch ∈ events → drop.drops fetch.slot = false) :
    AlikeBut p drop (Later.afterAll p events st) (Later.afterAll p events other) := by
  induction events generalizing st other with
  | nil => exact h
  | cons event events ih =>
    refine ih ?_ ?_
    · cases event with
      | get fetch => exact h.get (hevents.imp_right fun hkept => hkept fetch List.mem_cons_self)
      | drop again =>
        refine ⟨?_, h.states⟩
        intro slot hslot
        change slot.find? (again.apply st.1) = slot.find? (again.apply other.1)
        rw [again.find?_apply, again.find?_apply, h.slots slot hslot]
      | change s => exact ⟨h.slots, Or.inl rfl⟩
    · exact hevents.imp_right fun hkept fetch hmem => hkept fetch (List.mem_cons_of_mem _ hmem)

end AlikeBut

/-- What a drop does to the lookups after it. The first lookup of a slot that was dropped reads its
file. A lookup of any other slot makes the same calls and has the same reply as without the drop. -/
theorem drop_exact (p : Provider σ) (drop : Drop) (st : FactStore × σ) (events : List (Later σ))
    (fetch : Fetch) :
    let dropped := Later.afterAll p events (drop.apply st.1, st.2)
    let kept := Later.afterAll p events st
    (fetch.enabled = true → drop.drops fetch.slot = true →
      (∀ other, .get other ∈ events → other.slot ≠ fetch.slot) →
        (calls (fetch.run p.recorded) dropped.1 dropped.2).getLast? =
          some (.read fetch.slot.file)) ∧
    (drop.drops fetch.slot = false →
      (p.Steady ∨ ∀ other, .get other ∈ events → drop.drops other.slot = false) →
        (fetch.run p dropped).1 = (fetch.run p kept).1 ∧
        calls (fetch.run p.recorded) dropped.1 dropped.2 =
          calls (fetch.run p.recorded) kept.1 kept.2) := by
  intro dropped kept
  refine ⟨?_, ?_⟩
  · intro henabled hdrops hevents
    have hnone : fetch.slot.find? dropped.1 = none :=
      find?_afterAll (Drop.find?_apply_of_drops hdrops st.1) hevents
    have hheld : fetch.held dropped.1 = none := (fetch.held_of_enabled henabled _).trans hnone
    rw [fetch.calls_run, Fetch.calls, hheld]
    exact fetch.getLast?_asked p dropped.2
  · intro hkept hevents
    have hstart : AlikeBut p drop (drop.apply st.1, st.2) st :=
      ⟨fun slot hslot => Drop.find?_apply_of_kept hslot st.1, Or.inl rfl⟩
    have halike : AlikeBut p drop dropped kept := hstart.afterAll hevents
    refine ⟨halike.reply_eq hkept, ?_⟩
    rw [fetch.calls_run, fetch.calls_run, halike.calls_eq hkept]

def sharedTables : Provider.Tables where
  files := ((∅ : NameMap String).insert "a b.inc" ".macro one\n").insert "c.inc" ".macro two\n"

/-- The commands of the file that was dropped are read again, under another spelling and after other
lookups, while those of the other file still come from the store. -/
theorem drop_exact_shared :
    let st := Later.afterAll Provider.tables
      [.get (.fact .commands "a b.inc"), .get (.fact .commands "c.inc")] ({}, sharedTables)
    let again : List (Later Provider.Tables) := [.get (.fact .content "a b.inc")]
    let dropped := Later.afterAll Provider.tables again ((Drop.forget "a%20b.inc").apply st.1, st.2)
    let kept := Later.afterAll Provider.tables again st
    (calls (commandsIn Provider.tables.recorded "a%20b.inc") dropped.1 dropped.2).getLast? =
        some (.read "a b.inc") ∧
      calls (commandsIn Provider.tables.recorded "a%20b.inc") kept.1 kept.2 = [] ∧
      (commandsIn Provider.tables "c.inc" dropped).1 = (commandsIn Provider.tables "c.inc" kept).1 ∧
      calls (commandsIn Provider.tables.recorded "c.inc") dropped.1 dropped.2 = [] := by
  intro st again dropped kept
  have hother : ∀ other, .get other ∈ again → other.slot ≠ (Fetch.fact .commands "a%20b.inc").slot := by
    intro other hmem
    have heq : other = .fact .content "a b.inc" := by simpa [again] using hmem
    rw [heq]
    simp [Fetch.slot]
  have hread := (drop_exact Provider.tables (.forget "a%20b.inc") st again
    (.fact .commands "a%20b.inc")).1 rfl (by decide +kernel) hother
  have hsame := (drop_exact Provider.tables (.forget "a%20b.inc") st again
    (.fact .commands "c.inc")).2 (by decide +kernel) (Or.inl Provider.tables_steady)
  refine ⟨hread, by decide +kernel, hsame.1, hsame.2.trans ?_⟩
  decide +kernel

end Lookup
end ScriptIndex
