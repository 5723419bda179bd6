import ScriptIndex.Proofs.Lookup.Answers

/-!
# The calls of a lookup

A provider that keeps a record of its calls replies as before, so the record tells what a lookup asks
for: the text of the resource under its canonical id, and only if the store holds nothing about it.
-/
namespace ScriptIndex

variable {σ α : Type}

/-- The provider with a record of its calls, last one first. -/
def Provider.recorded (p : Provider σ) : Provider (σ × List Provider.Call) where
  read id st := ((p.read id st.1).1, (p.read id st.1).2, .read id :: st.2)
  resolve id st := ((p.resolve id st.1).1, (p.resolve id st.1).2, .resolve id :: st.2)
  settings id st := ((p.settings id st.1).1, (p.settings id st.1).2, .settings id :: st.2)

namespace Lookup

def calls (run : LookupM (σ × List Provider.Call) α) (store : FactStore) (s : σ) :
    List Provider.Call := (run (store, s, [])).2.2.2

theorem fact_recorded (p : Provider σ) (kind : FactKind) (id : String) (store : FactStore) (s : σ)
    (before : List Provider.Call) :
    let plain := fact p kind id (store, s)
    fact p.recorded kind id (store, s, before) = (plain.1, plain.2.1, plain.2.2,
      if (kind.held store (Resource.canonical id)).isSome then before
      else .read (Resource.canonical id) :: before) := by
  intro plain
  have htext : (p.recorded.answers (s, before)).text = (p.answers s).text := rfl
  cases hheld : kind.held store (Resource.canonical id) with
  | some held =>
    have hplain : plain = (.ok held, store, s) := fact_of_held hheld
    rw [hplain, fact_of_held hheld]
    simp
  | none =>
    cases ht : (p.answers s).text (Resource.canonical id) with
    | ok text =>
      have hplain : plain = _ := fact_of_text hheld ht
      rw [hplain, fact_of_text hheld (by rw [htext, ht])]
      simp [Provider.recorded]
    | error e =>
      have hplain : plain = _ := fact_of_fault hheld ht
      rw [hplain, fact_of_fault hheld (by rw [htext, ht])]
      simp [Provider.recorded]

/-- A lookup reads the resource under its canonical id unless the store holds what is looked up. -/
theorem calls_fact (p : Provider σ) (kind : FactKind) (id : String) (store : FactStore) (s : σ) :
    calls (fact p.recorded kind id) store s =
      if (kind.held store (Resource.canonical id)).isSome then []
      else [.read (Resource.canonical id)] := by
  rw [calls, fact_recorded]

end Lookup
end ScriptIndex
