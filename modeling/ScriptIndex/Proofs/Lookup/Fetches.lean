import ScriptIndex.Proofs.Lookup.Calls
import ScriptIndex.Proofs.Lookup.TokenTypes

/-!
# Lookups by resource

The five lookups by resource do the same with different slots of the store: they answer with what the
slot holds, and otherwise ask the provider and fill the slot unless the answer is an error. They make
no calls in the first case, and in the second the first call reads the file of the slot.
-/
namespace ScriptIndex.Lookup

variable {σ : Type}

/-- A place in the store: a category and a key in it. -/
inductive Slot where
  | fact (kind : FactKind) (key : String)
  | tokens (file expression : String)
  deriving DecidableEq

namespace Slot

abbrev Fact : Slot → Type
  | fact kind _ => kind.Fact
  | tokens _ _ => NameMap MiscToken

def file : Slot → String
  | fact _ key => key
  | tokens file _ => file

def find? : (slot : Slot) → FactStore → Option slot.Fact
  | fact kind key, store => kind.held store key
  | tokens file expression, store => FactStore.miscCategory.find? store (file, expression)

def put : (slot : Slot) → FactStore → slot.Fact → FactStore
  | fact kind key, store, found => kind.category.insert store key found
  | tokens file expression, store, found =>
    FactStore.miscCategory.insert store (file, expression) found

theorem find?_put_self (slot : Slot) (store : FactStore) (found : slot.Fact) :
    slot.find? (slot.put store found) = some found := by
  cases slot with
  | fact kind key => exact (kind.held_insert_self store key key found).trans (if_pos rfl)
  | tokens file expression =>
    exact (FactStore.find?_insert_misc store _ (file, expression) found).trans (if_pos rfl)

theorem find?_put_of_ne {slot other : Slot} (h : other ≠ slot) (store : FactStore)
    (found : slot.Fact) : other.find? (slot.put store found) = other.find? store := by
  cases slot with
  | fact kind key =>
    cases other with
    | fact kind' key' =>
      by_cases hkind : kind' = kind
      · subst hkind
        have hkey : key' ≠ key := fun heq => h (by rw [heq])
        exact (kind'.held_insert_self store key key' found).trans (if_neg hkey)
      · exact FactKind.held_insert_of_ne hkind store key key' found
    | tokens file' expression' =>
      cases kind <;> rfl
  | tokens file expression =>
    cases other with
    | fact kind' key' => exact held_insert_misc kind' store (file, expression) found key'
    | tokens file' expression' =>
      have hkey : (file', expression') ≠ (file, expression) := by
        rintro ⟨⟩
        exact h rfl
      exact (FactStore.find?_insert_misc store _ _ found).trans (if_neg hkey)

end Slot

/-- A lookup by resource. -/
inductive Fetch where
  | fact (kind : FactKind) (id : String)
  | tokens (inc : PatternInclude)

namespace Fetch

def slot : Fetch → Slot
  | fact kind id => .fact kind (Resource.canonical id)
  | tokens inc => .tokens (Resource.canonical inc.file) inc.expression

/-- Only an include whose expression is no pattern is disabled. -/
def enabled : Fetch → Bool
  | fact _ _ => true
  | tokens inc => inc.pattern.isSome

def run (p : Provider σ) : (fetch : Fetch) → LookupM σ (Except LookupError fetch.slot.Fact)
  | fact .content id => content p id
  | fact .commands id => commandsIn p id
  | fact .constants id => constants p id
  | fact .symbols id => symbols p id
  | tokens inc => miscTokensIn p inc

theorem run_fact (p : Provider σ) (kind : FactKind) (id : String) :
    (fact kind id).run p = Lookup.fact p kind id := by
  cases kind <;> rfl

/-- What the provider lets a lookup find, and the state after it was asked. -/
def ask (p : Provider σ) : (fetch : Fetch) → σ → Except LookupError fetch.slot.Fact × σ
  | fact kind id, s =>
    let key := Resource.canonical id
    ((p.read key s).1.map (kind.parse key), (p.read key s).2)
  | tokens inc, s =>
    let file := Resource.canonical inc.file
    let read := p.read file s
    match inc.pattern, read.1 with
    | none, _ => (.ok (∅ : NameMap MiscToken), s)
    | some _, .error e => (.error e, read.2)
    | some pattern, .ok text =>
      let owner := p.resolve file read.2
      (.ok (.ofFacts MiscToken.name (MiscToken.extract text pattern inc.type owner.1)), owner.2)

def asked (p : Provider σ) : Fetch → σ → List Provider.Call
  | fact _ id, _ => [.read (Resource.canonical id)]
  | tokens inc, s =>
    let file := Resource.canonical inc.file
    match (p.read file s).1 with
    | .ok _ => [.resolve file, .read file]
    | .error _ => [.read file]

/-- What a lookup is answered without a call; a disabled include is answered with no tokens. -/
def held : (fetch : Fetch) → FactStore → Option fetch.slot.Fact
  | fact kind id, store => kind.held store (Resource.canonical id)
  | tokens inc, store =>
    match inc.pattern with
    | none => some (∅ : NameMap MiscToken)
    | some _ => FactStore.miscCategory.find? store (tokenKey inc)

theorem held_of_enabled {fetch : Fetch} (h : fetch.enabled = true) (store : FactStore) :
    fetch.held store = fetch.slot.find? store := by
  cases fetch with
  | fact kind id => rfl
  | tokens inc =>
    obtain ⟨pattern, hinc⟩ := Option.isSome_iff_exists.1 h
    simp only [held, hinc]
    rfl

theorem held_of_disabled {fetch : Fetch} (h : fetch.enabled = false) (store : FactStore) :
    (fetch.held store).isSome = true := by
  cases fetch with
  | fact kind id => cases h
  | tokens inc =>
    have hinc : inc.pattern = none := by simpa [enabled] using h
    simp only [held, hinc]
    rfl

/-- A lookup sees no more of the store than its slot. -/
theorem held_congr {fetch : Fetch} {store other : FactStore}
    (h : fetch.slot.find? store = fetch.slot.find? other) : fetch.held store = fetch.held other := by
  cases fetch with
  | fact kind id => exact h
  | tokens inc =>
    cases hinc : inc.pattern with
    | none => simp only [held, hinc]
    | some pattern =>
      simp only [held, hinc]
      exact h

theorem isSome_held (fetch : Fetch) {store : FactStore}
    (h : (fetch.slot.find? store).isSome = true) : (fetch.held store).isSome = true := by
  cases henabled : fetch.enabled with
  | true =>
    rw [fetch.held_of_enabled henabled]
    exact h
  | false => exact held_of_disabled henabled store

theorem run_of_held (p : Provider σ) {fetch : Fetch} {st : FactStore × σ} {found : fetch.slot.Fact}
    (h : fetch.held st.1 = some found) : fetch.run p st = (.ok found, st) := by
  cases fetch with
  | fact kind id =>
    rw [run_fact]
    exact fact_of_held h
  | tokens inc =>
    cases hinc : inc.pattern with
    | none =>
      simp only [held, hinc] at h
      cases h
      exact miscTokensIn_of_disabled hinc st
    | some pattern =>
      simp only [held, hinc] at h
      exact miscTokensIn_of_held hinc h

/-- What is in the store after a slot was asked for. -/
def keep (fetch : Fetch) (store : FactStore) : Except LookupError fetch.slot.Fact → FactStore
  | .ok found => fetch.slot.put store found
  | .error _ => store

theorem run_of_none (p : Provider σ) {fetch : Fetch} {st : FactStore × σ}
    (h : fetch.held st.1 = none) :
    fetch.run p st = ((fetch.ask p st.2).1, fetch.keep st.1 (fetch.ask p st.2).1,
      (fetch.ask p st.2).2) := by
  cases fetch with
  | fact kind id =>
    rw [run_fact]
    cases ht : (p.answers st.2).text (Resource.canonical id) with
    | ok text =>
      rw [fact_of_text h ht]
      change (p.read _ _).1 = _ at ht
      simp only [ask, ht]
      rfl
    | error e =>
      rw [fact_of_fault h ht]
      change (p.read _ _).1 = _ at ht
      simp only [ask, ht]
      rfl
  | tokens inc =>
    cases hinc : inc.pattern with
    | none => simp [held, hinc] at h
    | some pattern =>
      simp only [held, hinc, tokenKey] at h
      cases ht : (p.read (Resource.canonical inc.file) st.2).1 with
      | error e =>
        simp only [run, miscTokensIn, ask, hinc, remember, h, readTokens, bind, StateT.bind, call, ht]
        rfl
      | ok text =>
        simp only [run, miscTokensIn, ask, hinc, remember, h, readTokens, bind, StateT.bind, call, ht]
        rfl

/-- A lookup fills its own slot and no other. -/
theorem find?_run_of_ne (p : Provider σ) {fetch : Fetch} {slot : Slot} (h : slot ≠ fetch.slot)
    (st : FactStore × σ) : slot.find? (fetch.run p st).2.1 = slot.find? st.1 := by
  cases hheld : fetch.held st.1 with
  | some found => rw [run_of_held p hheld]
  | none =>
    rw [run_of_none p hheld]
    cases (fetch.ask p st.2).1 with
    | ok found => exact Slot.find?_put_of_ne h st.1 found
    | error e => rfl

def calls (p : Provider σ) (fetch : Fetch) (st : FactStore × σ) : List Provider.Call :=
  if (fetch.held st.1).isSome then [] else fetch.asked p st.2

theorem ask_recorded (p : Provider σ) {fetch : Fetch} (h : fetch.enabled = true) (s : σ)
    (before : List Provider.Call) :
    fetch.ask p.recorded (s, before) =
      ((fetch.ask p s).1, (fetch.ask p s).2, fetch.asked p s ++ before) := by
  cases fetch with
  | fact kind id => rfl
  | tokens inc =>
    obtain ⟨pattern, hinc⟩ := Option.isSome_iff_exists.1 h
    cases ht : (p.read (Resource.canonical inc.file) s).1 with
    | error e => simp [ask, asked, hinc, Provider.recorded, ht]
    | ok text => simp [ask, asked, hinc, Provider.recorded, ht]

theorem enabled_of_none {fetch : Fetch} {store : FactStore} (h : fetch.held store = none) :
    fetch.enabled = true := by
  by_contra hdisabled
  have hheld := held_of_disabled (Bool.eq_false_of_not_eq_true hdisabled) store
  rw [h] at hheld
  cases hheld

/-- A provider with a record of its calls replies as before, and the record grows by the calls of the
lookup. -/
theorem run_recorded (p : Provider σ) (fetch : Fetch) (store : FactStore) (s : σ)
    (before : List Provider.Call) :
    fetch.run p.recorded (store, s, before) =
      ((fetch.run p (store, s)).1, (fetch.run p (store, s)).2.1, (fetch.run p (store, s)).2.2,
        fetch.calls p (store, s) ++ before) := by
  cases h : fetch.held store with
  | some found =>
    rw [run_of_held p h, run_of_held p.recorded h]
    simp [calls, h]
  | none =>
    rw [run_of_none p h, run_of_none p.recorded h, ask_recorded p (enabled_of_none h)]
    simp [calls, h]

theorem calls_run (p : Provider σ) (fetch : Fetch) (st : FactStore × σ) :
    Lookup.calls (fetch.run p.recorded) st.1 st.2 = fetch.calls p st := by
  rw [Lookup.calls, run_recorded]
  exact List.append_nil _

/-- What can be read can be looked up. -/
theorem exists_ask_of_read (p : Provider σ) (fetch : Fetch) {s : σ} {text : String}
    (h : (p.read fetch.slot.file s).1 = .ok text) : ∃ found, (fetch.ask p s).1 = .ok found := by
  cases fetch with
  | fact kind id =>
    change (p.read (Resource.canonical id) s).1 = _ at h
    simp only [ask, h]
    exact ⟨_, rfl⟩
  | tokens inc =>
    change (p.read (Resource.canonical inc.file) s).1 = _ at h
    cases hinc : inc.pattern with
    | none =>
      simp only [ask, hinc]
      exact ⟨_, rfl⟩
    | some pattern =>
      simp only [ask, hinc, h]
      exact ⟨_, rfl⟩

/-- Whoever asks the provider reads the file first. -/
theorem getLast?_asked (p : Provider σ) (fetch : Fetch) (s : σ) :
    (fetch.asked p s).getLast? = some (.read fetch.slot.file) := by
  cases fetch with
  | fact kind id => rfl
  | tokens inc =>
    rw [asked]
    split <;> rfl

end Fetch
end ScriptIndex.Lookup
