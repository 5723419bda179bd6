import ScriptIndex.Proofs.Lookup.Fetches

/-!
# Slots are filled once

Every operation on a store is a chain of lookups by resource, with questions for settings in between,
and all its calls are theirs. As long as nothing is dropped, a slot that was filled stays filled. So
along a run a slot is read with success at most once, and later lookups of it make no calls. An
operation that fails leaves the store as it was.
-/
namespace ScriptIndex.Lookup

variable {σ α β ι : Type} {p : Provider σ}

/-- What can be asked of a store: lookups by resource, and facts gathered from several of them. -/
inductive Operation where
  | fetch (fetch : Fetch)
  | commands (id : String)
  | miscTokens (id : String)
  | allSymbols (id : String)
  | facts (id : String)

namespace Operation

abbrev Reply : Operation → Type
  | fetch f => f.slot.Fact
  | commands _ => NameMap Command
  | miscTokens _ => NameMap MiscToken
  | allSymbols _ => NameMap Symbol
  | facts _ => Facts

def run (p : Provider σ) : (op : Operation) → LookupM σ (Except LookupError op.Reply)
  | fetch f => f.run p
  | commands id => Lookup.commands p id
  | miscTokens id => Lookup.miscTokens p id
  | allSymbols id => do return .ok (← Lookup.allSymbols p id)
  | facts id => Lookup.facts p id

end Operation

/-- A step of an operation, with the state in which it is taken. -/
inductive Step (σ : Type) where
  | fetch (fetch : Fetch) (st : FactStore × σ)
  | settings (key : String) (st : FactStore × σ)

namespace Step

def start : Step σ → FactStore × σ
  | fetch _ st => st
  | settings _ st => st

def after (p : Provider σ) : Step σ → FactStore × σ
  | fetch f st => (f.run p st).2
  | settings key st => (st.1, (p.settings key st.2).2)

def calls (p : Provider σ) : Step σ → List Provider.Call
  | fetch f st => Lookup.calls (f.run p.recorded) st.1 st.2
  | settings key _ => [.settings key]

def slot? : Step σ → Option Slot
  | fetch f _ => some f.slot
  | settings _ _ => none

/-- Whether a step looks a slot up by reading its file, with success. -/
def reads (p : Provider σ) (slot : Slot) (step : Step σ) : Bool :=
  step.slot? = some slot && .read slot.file ∈ step.calls p &&
    (p.read slot.file step.start.2).1.isOk

end Step

def fetchSteps (p : Provider σ) : List Fetch → FactStore × σ → List (Step σ)
  | [], _ => []
  | f :: fs, st => .fetch f st :: fetchSteps p fs (f.run p st).2

/-- A question for the settings of a resource, and the lookups that these ask for. -/
def settledSteps (p : Provider σ) (wanted : Settings → List Fetch) (id : String)
    (st : FactStore × σ) : List (Step σ) :=
  let key := Resource.canonical id
  .settings key st ::
    match (p.settings key st.2).1 with
    | .ok settings => fetchSteps p (wanted settings) (st.1, (p.settings key st.2).2)
    | .error _ => []

def commandSteps (p : Provider σ) : String → FactStore × σ → List (Step σ) :=
  settledSteps p fun settings => settings.commandIncludes.map (.fact .commands)

def tokenSteps (p : Provider σ) : String → FactStore × σ → List (Step σ) :=
  settledSteps p fun settings => settings.symbolIncludes.map .tokens

/-- What is looked up about a document besides its text. -/
def gatherSteps (p : Provider σ) (key : String) (st : FactStore × σ) : List (Step σ) :=
  let st₁ := (commands p key st).2
  let st₂ := (constants p key st₁).2
  let st₃ := (allSymbols p key st₂).2
  commandSteps p key st ++ .fetch (.fact .constants key) st₁ :: .fetch (.fact .symbols key) st₂ ::
    tokenSteps p key st₃

/-- The steps that are taken only after a success. -/
def ifOk (answer : Except LookupError α) (steps : List (Step σ)) : List (Step σ) :=
  match answer with
  | .ok _ => steps
  | .error _ => []

def Operation.steps (p : Provider σ) : Operation → FactStore × σ → List (Step σ)
  | fetch f, st => [.fetch f st]
  | commands id, st => commandSteps p id st
  | miscTokens id, st => tokenSteps p id st
  | allSymbols id, st => [.fetch (.fact .symbols id) st]
  | facts id, st =>
    let key := Resource.canonical id
    .fetch (.fact .content key) st ::
      ifOk (content p key st).1 (gatherSteps p key (content p key st).2)

def Chain (p : Provider σ) : FactStore × σ → List (Step σ) → FactStore × σ → Prop
  | st, [], later => later = st
  | st, step :: steps, later => step.start = st ∧ Chain p (step.after p) steps later

theorem Chain.append {st mid later : FactStore × σ} {steps next : List (Step σ)}
    (h : Chain p st steps mid) (h' : Chain p mid next later) : Chain p st (steps ++ next) later := by
  induction steps generalizing st with
  | nil =>
    obtain rfl : mid = st := h
    exact h'
  | cons step steps ih => exact ⟨h.1, ih h.2⟩

/-- A run is made of steps: these lead from its start to its end, and its calls are theirs. -/
structure MadeOf (p : Provider σ) (run : LookupM σ α)
    (recorded : LookupM (σ × List Provider.Call) α) (steps : FactStore × σ → List (Step σ)) :
    Prop where
  chain : ∀ st, Chain p st (steps st) (run st).2
  recorded : ∀ st before, recorded (st.1, st.2, before) =
    ((run st).1, (run st).2.1, (run st).2.2,
      (steps st).reverse.flatMap (Step.calls p) ++ before)

namespace MadeOf

theorem pure (a : α) : MadeOf p (pure a) (pure a) fun _ => [] :=
  ⟨fun _ => rfl, fun _ _ => rfl⟩

theorem bind {run : LookupM σ α} {recorded : LookupM (σ × List Provider.Call) α}
    {next : α → LookupM σ β} {recordedNext : α → LookupM (σ × List Provider.Call) β}
    {steps : FactStore × σ → List (Step σ)} (more : α → FactStore × σ → List (Step σ))
    (h : MadeOf p run recorded steps) (h' : ∀ a, MadeOf p (next a) (recordedNext a) (more a)) :
    MadeOf p (run >>= next) (recorded >>= recordedNext)
      fun st => steps st ++ more (run st).1 (run st).2 := by
  refine ⟨fun st => (h.chain st).append ((h' (run st).1).chain (run st).2), ?_⟩
  intro st before
  change (recordedNext (recorded (st.1, st.2, before)).1) (recorded (st.1, st.2, before)).2 = _
  rw [h.recorded]
  change recordedNext (run st).1 ((run st).2.1, (run st).2.2, _) = _
  rw [(h' (run st).1).recorded]
  simp only [List.reverse_append, List.flatMap_append, List.append_assoc]
  rfl

theorem map (f : α → β) {run : LookupM σ α} {recorded : LookupM (σ × List Provider.Call) α}
    {steps : FactStore × σ → List (Step σ)} (h : MadeOf p run recorded steps) :
    MadeOf p (do return f (← run)) (do return f (← recorded)) steps := by
  refine ⟨h.chain, ?_⟩
  intro st before
  change (f (recorded (st.1, st.2, before)).1, (recorded (st.1, st.2, before)).2) = _
  rw [h.recorded]
  rfl

theorem fetch (p : Provider σ) (f : Fetch) :
    MadeOf p (f.run p) (f.run p.recorded) fun st => [.fetch f st] := by
  refine ⟨fun st => ⟨rfl, rfl⟩, ?_⟩
  intro st before
  rw [f.run_recorded]
  simp [Step.calls, f.calls_run]

theorem settings (p : Provider σ) (key : String) :
    MadeOf p (call (p.settings key)) (call (p.recorded.settings key))
      fun st => [.settings key st] :=
  ⟨fun _ => ⟨rfl, rfl⟩, fun _ _ => rfl⟩

theorem mergeAll {lookup : ι → LookupM σ (Except LookupError (NameMap α))}
    {recorded : ι → LookupM (σ × List Provider.Call) (Except LookupError (NameMap α))}
    {wanted : ι → Fetch}
    (h : ∀ item, MadeOf p (lookup item) (recorded item) fun st => [.fetch (wanted item) st])
    (hafter : ∀ item st, (lookup item st).2 = ((wanted item).run p st).2)
    (items : List ι) (merged : NameMap α) :
    MadeOf p (Lookup.mergeAll lookup items merged) (Lookup.mergeAll recorded items merged)
      (fetchSteps p (items.map wanted)) := by
  induction items generalizing merged with
  | nil => exact .pure merged
  | cons item items ih =>
    have hnext : MadeOf p (Lookup.mergeAll lookup (item :: items) merged)
        (Lookup.mergeAll recorded (item :: items) merged) fun st =>
          [.fetch (wanted item) st] ++ fetchSteps p (items.map wanted) (lookup item st).2 := by
      apply bind (fun _ => fetchSteps p (items.map wanted)) (h item)
      intro answer
      cases answer with
      | ok facts => exact ih (merged.merge facts)
      | error e => exact ih merged
    simp only [hafter] at hnext
    exact hnext

/-- A run that asks for settings and fails without them. -/
theorem settled {next : Settings → LookupM σ (Except LookupError α)}
    {recordedNext : Settings → LookupM (σ × List Provider.Call) (Except LookupError α)}
    {wanted : Settings → List Fetch}
    (h : ∀ settings, MadeOf p (next settings) (recordedNext settings) (fetchSteps p (wanted settings)))
    (id : String) :
    MadeOf p
      (do match ← call (p.settings (Resource.canonical id)) with
        | .error e => return .error e
        | .ok settings => next settings)
      (do match ← call (p.recorded.settings (Resource.canonical id)) with
        | .error e => return .error e
        | .ok settings => recordedNext settings)
      (settledSteps p wanted id) := by
  apply bind (fun answer st => match answer with
    | .ok settings => fetchSteps p (wanted settings) st
    | .error _ => []) (settings p (Resource.canonical id))
  intro answer
  cases answer with
  | error e => exact .pure _
  | ok settings => exact h settings

theorem commands (p : Provider σ) (id : String) :
    MadeOf p (Lookup.commands p id) (Lookup.commands p.recorded id) (commandSteps p id) := by
  apply settled
  intro settings
  exact (mergeAll (fun file => fetch p (.fact .commands file)) (fun _ _ => rfl)
    settings.commandIncludes ∅).map _

theorem miscTokens (p : Provider σ) (id : String) :
    MadeOf p (Lookup.miscTokens p id) (Lookup.miscTokens p.recorded id) (tokenSteps p id) := by
  apply settled
  intro settings
  exact (mergeAll (fun inc => fetch p (.tokens inc)) (fun _ _ => rfl)
    settings.symbolIncludes ∅).map _

theorem allSymbols (p : Provider σ) (id : String) :
    MadeOf p (Lookup.allSymbols p id) (Lookup.allSymbols p.recorded id)
      fun st => [.fetch (.fact .symbols id) st] := by
  apply bind (fun _ _ => []) (fetch p (.fact .symbols id))
  exact fun _ => ⟨fun _ => rfl, fun _ _ => rfl⟩

theorem facts (p : Provider σ) (id : String) :
    MadeOf p (Lookup.facts p id) (Lookup.facts p.recorded id) ((Operation.facts id).steps p) := by
  apply bind (fun answer st => ifOk answer (gatherSteps p (Resource.canonical id) st))
    (fetch p (.fact .content (Resource.canonical id)))
  intro answer
  cases answer with
  | error e => exact .pure _
  | ok text =>
    let key := Resource.canonical id
    let afterSymbols := tokenSteps p key
    let afterConstants := fun st => .fetch (.fact .symbols key) st ::
      afterSymbols (Lookup.allSymbols p key st).2
    let afterCommands := fun st => .fetch (.fact .constants key) st ::
      afterConstants (constants p key st).2
    exact bind (fun _ => afterCommands) (commands p key) fun _ =>
      bind (fun _ => afterConstants) (fetch p (.fact .constants key)) fun _ =>
        bind (fun _ => afterSymbols) (allSymbols p key) fun _ => (miscTokens p key).map _

theorem operation (p : Provider σ) (op : Operation) :
    MadeOf p (op.run p) (op.run p.recorded) (op.steps p) := by
  cases op with
  | fetch f => exact fetch p f
  | commands id => exact commands p id
  | miscTokens id => exact miscTokens p id
  | allSymbols id => exact (allSymbols p id).map _
  | facts id => exact facts p id

end MadeOf

def runAll (p : Provider σ) : List Operation → LookupM σ Unit
  | [] => pure ()
  | op :: ops => do
    let _ ← op.run p
    runAll p ops

def allSteps (p : Provider σ) : List Operation → FactStore × σ → List (Step σ)
  | [], _ => []
  | op :: ops, st => op.steps p st ++ allSteps p ops (op.run p st).2

theorem MadeOf.runAll (p : Provider σ) (ops : List Operation) :
    MadeOf p (runAll p ops) (runAll p.recorded ops) (allSteps p ops) := by
  induction ops with
  | nil => exact .pure ()
  | cons op ops ih => exact bind (fun _ => allSteps p ops) (operation p op) fun _ => ih

namespace Step

variable {slot : Slot} {step : Step σ}

/-- What is in a slot stays there. -/
theorem filled_after (h : (slot.find? step.start.1).isSome = true) :
    (slot.find? (step.after p).1).isSome = true := by
  cases step with
  | settings key st => exact h
  | fetch f st =>
    change (slot.find? st.1).isSome = true at h
    change (slot.find? (f.run p st).2.1).isSome = true
    by_cases hslot : slot = f.slot
    · subst hslot
      obtain ⟨found, hheld⟩ := Option.isSome_iff_exists.1 (f.isSome_held h)
      rw [Fetch.run_of_held p hheld]
      exact h
    · rw [f.find?_run_of_ne p hslot]
      exact h

theorem calls_of_filled (hslot : step.slot? = some slot)
    (h : (slot.find? step.start.1).isSome = true) : step.calls p = [] := by
  cases step with
  | settings key st => cases hslot
  | fetch f st =>
    obtain rfl : f.slot = slot := Option.some.inj hslot
    change (f.slot.find? st.1).isSome = true at h
    rw [calls, f.calls_run, Fetch.calls, if_pos (f.isSome_held h)]

/-- A step that reads the file of a slot with success fills the slot. -/
theorem filled_of_reads (h : step.reads p slot = true) :
    (slot.find? (step.after p).1).isSome = true := by
  simp only [reads, Bool.and_eq_true, decide_eq_true_eq] at h
  obtain ⟨⟨hslot, hcall⟩, hread⟩ := h
  cases step with
  | settings key st => cases hslot
  | fetch f st =>
    obtain rfl : f.slot = slot := Option.some.inj hslot
    rw [calls, f.calls_run, Fetch.calls] at hcall
    change (p.read f.slot.file st.2).1.isOk = true at hread
    change (f.slot.find? (f.run p st).2.1).isSome = true
    cases hheld : f.held st.1 with
    | some found => simp [hheld] at hcall
    | none =>
      cases ht : (p.read f.slot.file st.2).1 with
      | error e =>
        rw [ht] at hread
        cases hread
      | ok text =>
        obtain ⟨found, hask⟩ := f.exists_ask_of_read p ht
        rw [Fetch.run_of_none p hheld, hask]
        exact Option.isSome_of_eq_some (f.slot.find?_put_self st.1 found)

theorem calls_ne_nil_of_reads (h : step.reads p slot = true) :
    step.slot? = some slot ∧ step.calls p ≠ [] := by
  simp only [reads, Bool.and_eq_true, decide_eq_true_eq] at h
  exact ⟨h.1.1, List.ne_nil_of_mem h.1.2⟩

end Step

namespace Chain

variable {slot : Slot} {st later : FactStore × σ} {steps : List (Step σ)}

theorem calls_eq_nil (h : Chain p st steps later) (hfilled : (slot.find? st.1).isSome = true) :
    ∀ step ∈ steps, step.slot? = some slot → step.calls p = [] := by
  induction steps generalizing st with
  | nil => exact fun step hmem => by cases hmem
  | cons first steps ih =>
    obtain ⟨rfl, hrest⟩ := h
    intro step hmem hslot
    rcases List.mem_cons.1 hmem with rfl | hmem
    · exact Step.calls_of_filled hslot hfilled
    · exact ih hrest (Step.filled_after hfilled) step hmem hslot

/-- After a slot was read with success, its lookups make no calls. -/
theorem pairwise (h : Chain p st steps later) (slot : Slot) :
    steps.Pairwise fun step next =>
      step.reads p slot = true → next.slot? = some slot → next.calls p = [] := by
  induction steps generalizing st with
  | nil => exact .nil
  | cons first steps ih =>
    obtain ⟨rfl, hrest⟩ := h
    refine .cons ?_ (ih hrest)
    intro next hmem hreads hslot
    exact hrest.calls_eq_nil (Step.filled_of_reads hreads) next hmem hslot

theorem countP_reads_le (h : Chain p st steps later) (slot : Slot) :
    steps.countP (Step.reads p slot) ≤ 1 := by
  have hpairs := h.pairwise slot
  clear h
  induction hpairs with
  | nil => exact Nat.zero_le 1
  | @cons first steps hfirst _ ih =>
    rw [List.countP_cons]
    by_cases hreads : first.reads p slot = true
    · have hnone : steps.countP (Step.reads p slot) = 0 := by
        rw [List.countP_eq_zero]
        intro next hmem hagain
        obtain ⟨hslot, hcalls⟩ := Step.calls_ne_nil_of_reads hagain
        exact hcalls (hfirst next hmem hreads hslot)
      rw [hnone, if_pos hreads]
    · rw [if_neg hreads]
      exact ih

end Chain

theorem Fetch.store_of_error {fetch : Fetch} {st : FactStore × σ} {e : LookupError}
    (h : (fetch.run p st).1 = .error e) : (fetch.run p st).2.1 = st.1 := by
  cases hheld : fetch.held st.1 with
  | some found => rw [run_of_held p hheld]
  | none =>
    rw [run_of_none p hheld] at h ⊢
    change (fetch.ask p st.2).1 = .error e at h
    change fetch.keep st.1 (fetch.ask p st.2).1 = st.1
    rw [h]
    rfl

theorem Operation.store_of_error {op : Operation} {st : FactStore × σ} {e : LookupError}
    (h : (op.run p st).1 = .error e) : (op.run p st).2.1 = st.1 := by
  cases op with
  | fetch f => exact Fetch.store_of_error h
  | commands id =>
    change (Lookup.commands p id st).1 = .error e at h
    change (Lookup.commands p id st).2.1 = st.1
    cases hs : (p.answers st.2).settings (Resource.canonical id) with
    | error e => rw [commands_of_fault hs]
    | ok settings =>
      rw [commands_of_settings hs] at h
      cases h
  | miscTokens id =>
    change (Lookup.miscTokens p id st).1 = .error e at h
    change (Lookup.miscTokens p id st).2.1 = st.1
    cases hs : (p.answers st.2).settings (Resource.canonical id) with
    | error e => rw [miscTokens_of_fault hs]
    | ok settings =>
      rw [miscTokens_of_settings hs] at h
      cases h
  | allSymbols id => cases h
  | facts id =>
    change (Lookup.facts p id st).1 = .error e at h
    change (Lookup.facts p id st).2.1 = st.1
    cases hcontent : (content p (Resource.canonical id) st).1 with
    | error e =>
      have hstore : ((Fetch.fact .content (Resource.canonical id)).run p st).2.1 = st.1 :=
        Fetch.store_of_error hcontent
      rw [facts_of_contentFault hcontent]
      exact hstore
    | ok text =>
      rw [facts_of_content hcontent] at h
      cases h

/-- Along a run without drops each slot is read with success at most once, and no lookup of the slot
after that makes a call. A disabled include never makes one. An operation that fails leaves the store
as it was. The steps that the run is made of are where all its calls come from. -/
theorem slots_filled_once (p : Provider σ) (ops : List Operation) (st : FactStore × σ) :
    Chain p st (allSteps p ops st) (runAll p ops st).2 ∧
      calls (runAll p.recorded ops) st.1 st.2 =
        (allSteps p ops st).reverse.flatMap (Step.calls p) ∧
      (∀ slot, (allSteps p ops st).countP (Step.reads p slot) ≤ 1) ∧
      (∀ slot, (allSteps p ops st).Pairwise fun step next =>
        step.reads p slot = true → next.slot? = some slot → next.calls p = []) ∧
      (∀ inc : PatternInclude, inc.pattern = none → ∀ now : FactStore × σ,
        calls (miscTokensIn p.recorded inc) now.1 now.2 = []) ∧
      ∀ (op : Operation) (now : FactStore × σ) (e : LookupError),
        (op.run p now).1 = .error e → (op.run p now).2.1 = now.1 := by
  have hrun := MadeOf.runAll p ops
  refine ⟨hrun.chain st, ?_, (hrun.chain st).countP_reads_le, (hrun.chain st).pairwise, ?_, ?_⟩
  · rw [calls, hrun.recorded st []]
    exact List.append_nil _
  · intro inc hinc now
    rw [calls, miscTokensIn_of_disabled hinc]
  · exact fun op now e => Operation.store_of_error

/-- A script with two command includes, of which one is not there, and a symbol include. -/
def townTables : Provider.Tables where
  files := ((∅ : NameMap String).insert "town.pory" "const A = 1\n").insert "event.inc" ".macro lock\n"
  settings := (∅ : NameMap Settings.Value).insert "*" (.object
    [("commandIncludes", .array [.string "event.inc", .string "gone.inc"]),
      ("symbolIncludes", .array [.array [.string "(lock)", .string "other", .string "event.inc"]])])

/-- Two scripts are looked at, one of them twice, and one is not there. -/
def townRun : List Operation := [.facts "town.pory", .facts "lost.pory", .facts "town.pory"]

/-- The include that is there is read once for its commands, the missing one each time. -/
theorem slots_filled_once_town :
    let start : FactStore × Provider.Tables := ({}, townTables)
    let now := (facts Provider.tables "town.pory" start).2
    (allSteps Provider.tables townRun start).countP
        (Step.reads Provider.tables (.fact .commands "event.inc")) = 1 ∧
      (calls (runAll Provider.tables.recorded townRun) start.1 start.2).count (.read "gone.inc") = 2 ∧
      calls (miscTokensIn Provider.tables.recorded (.ofParts "(" "other" "event.inc")) now.1 now.2 =
        [] ∧
      (facts Provider.tables "lost.pory" now).1.isOk = false ∧
      (facts Provider.tables "lost.pory" now).2.1 = now.1 := by
  intro start now
  obtain ⟨-, -, hcount, -, hdisabled, herror⟩ := slots_filled_once Provider.tables townRun start
  have hread : 0 < (allSteps Provider.tables townRun start).countP
      (Step.reads Provider.tables (.fact .commands "event.inc")) := by
    decide +kernel
  have hfault : (facts Provider.tables "lost.pory" now).1.isOk = false := by decide +kernel
  refine ⟨Nat.le_antisymm (hcount _) hread, by decide +kernel, ?_, hfault, ?_⟩
  · exact hdisabled (.ofParts "(" "other" "event.inc") (by decide +kernel) now
  · cases hreply : (facts Provider.tables "lost.pory" now).1 with
    | error e => exact herror (.facts "lost.pory") now e hreply
    | ok found =>
      rw [hreply] at hfault
      cases hfault

end ScriptIndex.Lookup
