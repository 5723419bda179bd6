import Mathlib.Data.List.Induction
import ScriptIndex.Buffers

/-!
# What buffers remember

Texts are put into the buffers, documents are dropped and the size limit is set anew, in any order. What
is held of a document follows from this history alone: it is the last text that was put, provided that
this text was within the limit of its time and that the document was not dropped since. The outcome of a
put tells how the text compares with what is held.
-/
namespace ScriptIndex

/-- When an outcome is the right one for a text, given the text that is held and the limit. -/
def PutOutcome.Reports (held : Option String) (limit : Nat) (text : String) : PutOutcome → Prop
  | .rejected => limit < text.utf8ByteSize
  | .inserted => text.utf8ByteSize ≤ limit ∧ held = none
  | .unchanged => text.utf8ByteSize ≤ limit ∧ held = some text
  | .changed => text.utf8ByteSize ≤ limit ∧ ∃ other, held = some other ∧ other ≠ text

namespace Buffers

section Put

variable (buffers : Buffers) (id text key : String)

theorem text?_put : (buffers.put id text).2.text? key =
    if key = id then if text.utf8ByteSize ≤ buffers.maxSize then some text else none
    else buffers.text? key := by
  by_cases hsize : text.utf8ByteSize ≤ buffers.maxSize
  · rw [put, if_neg (Nat.not_lt.2 hsize), if_pos hsize]
    exact NameMap.find?_insert _ _ _ _
  · rw [put, if_pos (Nat.lt_of_not_le hsize), if_neg hsize]
    exact NameMap.find?_erase _ _ _

theorem text?_remove : (buffers.remove id).text? key = if key = id then none else buffers.text? key :=
  NameMap.find?_erase _ _ _

@[simp] theorem maxSize_put : (buffers.put id text).2.maxSize = buffers.maxSize := by
  rw [put]
  split <;> rfl

@[simp] theorem maxSize_remove : (buffers.remove id).maxSize = buffers.maxSize := rfl

theorem put_fst_eq_iff (outcome : PutOutcome) :
    (buffers.put id text).1 = outcome ↔
      outcome.Reports (buffers.text? id) buffers.maxSize text := by
  by_cases hsize : text.utf8ByteSize ≤ buffers.maxSize
  · rw [put, if_neg (Nat.not_lt.2 hsize)]
    cases hheld : buffers.text? id with
    | none => cases outcome <;> simp [PutOutcome.Reports, hsize]
    | some held =>
      by_cases hsame : held = text <;> cases outcome <;> simp [PutOutcome.Reports, hsize, hsame]
  · rw [put, if_pos (Nat.lt_of_not_le hsize)]
    cases outcome <;> simp [PutOutcome.Reports, hsize, Nat.lt_of_not_le hsize]

theorem text?_put_of_unchanged (h : (buffers.put id text).1 = .unchanged) :
    (buffers.put id text).2.text? key = buffers.text? key := by
  obtain ⟨hsize, hheld⟩ := (put_fst_eq_iff buffers id text .unchanged).1 h
  by_cases hkey : key = id
  · simp [text?_put, hkey, hsize, hheld]
  · simp [text?_put, hkey]

end Put

/-- What may be done to buffers. -/
inductive Step where
  | put (id text : String)
  | remove (id : String)
  | limit (maxSize : Nat)

namespace Step

def after (buffers : Buffers) : Step → Buffers
  | put id text => (buffers.put id text).2
  | remove id => buffers.remove id
  | limit maxSize => { buffers with maxSize }

/-- Whether a text of the document is put or the document is dropped. -/
def Touches (key : String) : Step → Prop
  | put id _ => id = key
  | remove id => id = key
  | limit _ => False

def limit? : Step → Option Nat
  | limit maxSize => some maxSize
  | put _ _ | remove _ => none

end Step

def ofHistory (maxSize : Nat) (history : List Step) : Buffers := history.foldl Step.after { maxSize }

/-- The limit in force after a history: the last one that was set. -/
def limitAfter (maxSize : Nat) (history : List Step) : Nat :=
  (history.filterMap Step.limit?).getLast?.getD maxSize

/-- The last that happened to a document is that a text was put, one within the limit of that time. -/
def Accepted (maxSize : Nat) (history : List Step) (key text : String) : Prop :=
  ∃ earlier later, history = earlier ++ .put key text :: later ∧
    text.utf8ByteSize ≤ limitAfter maxSize earlier ∧ ∀ step ∈ later, ¬step.Touches key

section History

variable (maxSize : Nat) (history : List Step) (key text : String)

theorem ofHistory_append (step : Step) :
    ofHistory maxSize (history ++ [step]) = step.after (ofHistory maxSize history) := by
  simp [ofHistory]

theorem maxSize_ofHistory : (ofHistory maxSize history).maxSize = limitAfter maxSize history := by
  induction history using List.reverseRecOn with
  | nil => rfl
  | append_singleton history step ih =>
    rw [ofHistory_append]
    cases step with
    | put id text => simpa [Step.after, limitAfter, Step.limit?] using ih
    | remove id => simpa [Step.after, limitAfter, Step.limit?] using ih
    | limit size => simp [Step.after, limitAfter, Step.limit?]

theorem not_accepted_nil : ¬Accepted maxSize [] key text := by
  rintro ⟨earlier, later, hsplit, -⟩
  simp at hsplit

/-- Only the last step matters if it is about the document, and else only the steps before it. -/
theorem accepted_append_iff (step : Step) :
    Accepted maxSize (history ++ [step]) key text ↔
      step = .put key text ∧ text.utf8ByteSize ≤ limitAfter maxSize history ∨
        ¬step.Touches key ∧ Accepted maxSize history key text := by
  constructor
  · rintro ⟨earlier, later, hsplit, hsize, hlater⟩
    cases later using List.reverseRecOn with
    | nil =>
      obtain ⟨rfl, hstep⟩ := List.append_inj' hsplit rfl
      simp only [List.cons.injEq, and_true] at hstep
      exact Or.inl ⟨hstep, hsize⟩
    | append_singleton later last =>
      rw [← List.cons_append, ← List.append_assoc] at hsplit
      obtain ⟨rfl, hlast⟩ := List.append_inj' hsplit rfl
      simp only [List.cons.injEq, and_true] at hlast
      subst hlast
      refine Or.inr ⟨hlater step (by simp), earlier, later, rfl, hsize, ?_⟩
      exact fun other hother => hlater other (by simp [hother])
  · rintro (⟨rfl, hsize⟩ | ⟨hstep, earlier, later, rfl, hsize, hlater⟩)
    · exact ⟨history, [], rfl, hsize, by simp⟩
    · refine ⟨earlier, later ++ [step], by simp, hsize, ?_⟩
      simp only [List.mem_append, List.mem_singleton]
      rintro other (hother | rfl)
      · exact hlater other hother
      · exact hstep

theorem text?_ofHistory :
    (ofHistory maxSize history).text? key = some text ↔ Accepted maxSize history key text := by
  induction history using List.reverseRecOn with
  | nil => simp [not_accepted_nil, ofHistory, text?]
  | append_singleton history step ih =>
    rw [accepted_append_iff, ofHistory_append, ← ih]
    cases step with
    | limit size => simp [Step.after, Step.Touches, Buffers.text?]
    | remove id =>
      by_cases hkey : key = id
      · simp [Step.after, Step.Touches, text?_remove, hkey]
      · simp [Step.after, Step.Touches, text?_remove, hkey, Ne.symm hkey]
    | put id new =>
      by_cases hkey : key = id
      · simp only [Step.after, Step.Touches, text?_put, hkey, maxSize_ofHistory]
        grind
      · simp [Step.after, Step.Touches, text?_put, hkey, Ne.symm hkey]

end History

/-- After every history the buffers hold of a document what was accepted last. The outcome of a next put
is the one that tells how the text compares with the limit in force and with what is held, and a put
that is reported as no change leaves the texts of all documents as they were. -/
theorem held_is_last_accepted (maxSize : Nat) (history : List Step) (key : String) :
    let buffers := ofHistory maxSize history
    (∀ text, buffers.text? key = some text ↔ Accepted maxSize history key text) ∧
    ∀ text,
      (∀ outcome, (buffers.put key text).1 = outcome ↔
        outcome.Reports (buffers.text? key) (limitAfter maxSize history) text) ∧
      ((buffers.put key text).1.isChange = false →
        ∀ other, (buffers.put key text).2.text? other = buffers.text? other) := by
  intro buffers
  refine ⟨fun text => text?_ofHistory maxSize history key text, fun text => ⟨?_, ?_⟩⟩
  · intro outcome
    rw [← maxSize_ofHistory]
    exact put_fst_eq_iff buffers key text outcome
  · intro hchange other
    have houtcome : (buffers.put key text).1 = .unchanged := by
      simpa [PutOutcome.isChange] using hchange
    exact text?_put_of_unchanged buffers key text other houtcome

end Buffers
end ScriptIndex
