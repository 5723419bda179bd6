import Mathlib.Data.List.Induction
import ScriptIndex.Proofs.Lookup.Refinement
import ScriptIndex.Proofs.NameMap

/-!
# The types of misc tokens

The store keeps misc tokens by file and expression, and so without regard to the type that an include
asks for. An include is therefore served tokens of the type of the include that filled the entry: the
first one with its file and expression since the entry was last dropped. Over one provider this tells
the reply to every include after any run.
-/
namespace ScriptIndex

namespace FactStore

theorem find?_insert_misc (store : FactStore) (key k : String × String)
    (tokens : NameMap MiscToken) :
    miscCategory.find? (miscCategory.insert store key tokens) k =
      if k = key then some tokens else miscCategory.find? store k := by
  obtain ⟨file, expression⟩ := key
  obtain ⟨file', expression'⟩ := k
  simp only [miscCategory, NameMap.find?_insert, Prod.mk.injEq]
  by_cases hfile : file' = file
  · subst hfile
    simp only [true_and, if_true, Option.bind_some, NameMap.find?_insert]
    by_cases hexpression : expression' = expression
    · simp [hexpression]
    · simp only [hexpression, if_false]
      cases store.miscTokens.find? file' with
      | none => rfl
      | some ofFile => rfl
  · simp [hfile]

theorem find?_forget_misc (store : FactStore) (id : String) (k : String × String) :
    miscCategory.find? (store.forget id) k =
      if k.1 = Resource.canonical id then none else miscCategory.find? store k := by
  simp only [miscCategory, forget, NameMap.find?_erase]
  split <;> rfl

end FactStore

def Answers.symbolIncludes (a : Answers) (id : String) : List PatternInclude :=
  match a.settings id with
  | .ok settings => settings.symbolIncludes
  | .error _ => []

/-- Every token of a text comes from a match of the pattern in one of its lines. -/
theorem MiscToken.exists_match {content resource : String} {pattern : Pattern.Program}
    {type : TokenType} {token : MiscToken} (h : token ∈ extract content pattern type resource) :
    token.type = type ∧ ∃ line ∈ Text.lines content.toList, ∃ slots ∈ pattern.findAll line,
      ((Pattern.captured? line slots 1).map fun found => String.ofList found.2) = some token.name ∧
        token.value = valueOf type line slots := by
  rw [extract, List.mem_flatMap] at h
  obtain ⟨⟨line, number⟩, hline, h⟩ := h
  rw [List.mem_filterMap] at h
  obtain ⟨slots, hslots, h⟩ := h
  rw [ofMatch?, Option.map_eq_some_iff] at h
  obtain ⟨⟨offset, name⟩, hname, rfl⟩ := h
  refine ⟨rfl, line, List.fst_mem_of_mem_zipIdx hline, slots, hslots, ?_, rfl⟩
  rw [hname]
  rfl

namespace Lookup

variable {σ α ι : Type} {p : Provider σ}

/-- A run that does not touch a part of the store. -/
def Leaves {β : Type} (part : FactStore → β) (run : LookupM σ α) : Prop :=
  ∀ st, part (run st).2.1 = part st.1

section Leaves

variable {β : Type} {part : FactStore → β}

theorem fact_leaves {kind : FactKind}
    (h : ∀ store key facts, part (kind.category.insert store key facts) = part store) (id : String) :
    Leaves part (fact p kind id) := by
  intro st
  cases hheld : kind.held st.1 (Resource.canonical id) with
  | some held => rw [fact_of_held hheld]
  | none =>
    cases ht : (p.answers st.2).text (Resource.canonical id) with
    | error e => rw [fact_of_fault hheld ht]
    | ok text =>
      rw [fact_of_text hheld ht]
      exact h _ _ _

theorem mergeAll_leaves {lookup : ι → LookupM σ (Except LookupError (NameMap α))}
    (h : ∀ item, Leaves part (lookup item)) (items : List ι) (merged : NameMap α) :
    Leaves part (mergeAll lookup items merged) := by
  induction items generalizing merged with
  | nil => exact fun st => rfl
  | cons item items ih =>
    intro st
    rw [mergeAll_cons, ih]
    exact h item st

theorem commands_leaves (h : ∀ store key facts,
    part (FactStore.commandCategory.insert store key facts) = part store) (id : String) :
    Leaves part (commands p id) := by
  intro st
  cases hs : (p.answers st.2).settings (Resource.canonical id) with
  | error e => rw [commands_of_fault hs]
  | ok settings =>
    rw [commands_of_settings hs]
    exact mergeAll_leaves (@fact_leaves σ p _ part .commands h) settings.commandIncludes ∅ _

end Leaves

def LeavesTokens (run : LookupM σ α) : Prop :=
  ∀ st, (run st).2.1.miscTokens = st.1.miscTokens

theorem fact_leavesTokens (kind : FactKind) (id : String) : LeavesTokens (fact p kind id) :=
  fact_leaves (fun _ _ _ => by cases kind <;> rfl) id

theorem commands_leavesTokens (id : String) : LeavesTokens (commands p id) :=
  commands_leaves (fun _ _ _ => rfl) id

/-- The tokens of a type that a pattern finds in a file, none if the file cannot be read. -/
def readable? (a : Answers) (pattern : Pattern.Program) (file : String) (type : TokenType) :
    Option (NameMap MiscToken) :=
  (a.text file).toOption.map (tokensOf a pattern type file)

/-- The store holds the tokens under a key as an include of a type left them, or none at all. -/
def HoldsTokens (a : Answers) (pattern : Pattern.Program) (key : String × String)
    (store : FactStore) (held : Option TokenType) : Prop :=
  FactStore.miscCategory.find? store key =
    held.bind fun type => (a.text key.1).toOption.map (tokensOf a pattern type key.1)

/-- The type of the tokens under a key after an include was served. -/
def serve (key : String × String) (held : Option TokenType) (inc : PatternInclude) :
    Option TokenType :=
  if tokenKey inc = key then held.or (some inc.type) else held

variable {a : Answers} {pattern : Pattern.Program} {key : String × String}
  {held : Option TokenType}

theorem HoldsTokens.of_eq {store later : FactStore} (h : HoldsTokens a pattern key store held)
    (heq : later.miscTokens = store.miscTokens) : HoldsTokens a pattern key later held := by
  simp only [HoldsTokens, FactStore.miscCategory] at h ⊢
  rw [heq]
  exact h

/-- An include fills the entry of its key, if that is empty, and leaves all other entries alone. -/
theorem find?_miscTokensIn (hp : p.Steady) (hpattern : Pattern.compile? key.2 = some pattern)
    (inc : PatternInclude) (st : FactStore × σ) :
    FactStore.miscCategory.find? (miscTokensIn p inc st).2.1 key =
      if tokenKey inc = key then (FactStore.miscCategory.find? st.1 key).or
        (readable? (p.answers st.2) pattern key.1 inc.type)
      else FactStore.miscCategory.find? st.1 key := by
  by_cases hkey : tokenKey inc = key
  · have hinc : inc.pattern = some pattern := by
      rw [inc.compiled, ← hpattern, ← hkey]
      rfl
    subst hkey
    rw [if_pos rfl, readable?]
    cases hk : FactStore.miscCategory.find? st.1 (tokenKey inc) with
    | some tokens =>
      rw [miscTokensIn_of_held hinc hk, hk]
      rfl
    | none =>
      cases ht : (p.answers st.2).text (Resource.canonical inc.file) with
      | ok text =>
        rw [miscTokensIn_of_text hp hinc hk ht, FactStore.find?_insert_misc, if_pos rfl]
        simp [tokenKey, ht, Except.toOption]
      | error e =>
        rw [miscTokensIn_of_fault hinc hk ht, hk]
        simp [tokenKey, ht, Except.toOption]
  · rw [if_neg hkey]
    cases hinc : inc.pattern with
    | none => rw [miscTokensIn_of_disabled hinc]
    | some other =>
      cases hk : FactStore.miscCategory.find? st.1 (tokenKey inc) with
      | some tokens => rw [miscTokensIn_of_held hinc hk]
      | none =>
        cases ht : (p.answers st.2).text (Resource.canonical inc.file) with
        | ok text =>
          rw [miscTokensIn_of_text hp hinc hk ht, FactStore.find?_insert_misc, if_neg (Ne.symm hkey)]
        | error e => rw [miscTokensIn_of_fault hinc hk ht]

/-- Whether tokens can be had does not depend on their type. -/
theorem readable?_or (file : String) (type other : TokenType) :
    (readable? a pattern file type).or (readable? a pattern file other) =
      readable? a pattern file type := by
  simp only [readable?]
  cases a.text file with
  | ok text => simp [Except.toOption]
  | error e => simp [Except.toOption]

theorem holdsTokens_miscTokensIn (hp : p.Steady) (hpattern : Pattern.compile? key.2 = some pattern)
    {st : FactStore × σ} (h : HoldsTokens (p.answers st.2) pattern key st.1 held)
    (inc : PatternInclude) :
    HoldsTokens (p.answers st.2) pattern key (miscTokensIn p inc st).2.1 (serve key held inc) := by
  change FactStore.miscCategory.find? st.1 key =
    held.bind (readable? (p.answers st.2) pattern key.1) at h
  rw [HoldsTokens, find?_miscTokensIn hp hpattern, h, serve]
  by_cases hkey : tokenKey inc = key
  · rw [if_pos hkey, if_pos hkey]
    cases held with
    | none => rfl
    | some type => exact readable?_or key.1 type inc.type
  · rw [if_neg hkey, if_neg hkey]
    rfl

theorem holdsTokens_mergeAll (hp : p.Steady) (hpattern : Pattern.compile? key.2 = some pattern)
    (includes : List PatternInclude) {st : FactStore × σ}
    (h : HoldsTokens (p.answers st.2) pattern key st.1 held) (merged : NameMap MiscToken) :
    HoldsTokens (p.answers st.2) pattern key
      (mergeAll (miscTokensIn p) includes merged st).2.1 (includes.foldl (serve key) held) := by
  induction includes generalizing st held merged with
  | nil => exact h
  | cons inc includes ih =>
    have hanswers := (miscTokensIn_calm hp inc st).answers_eq hp
    have hnext := holdsTokens_miscTokensIn hp hpattern h inc
    rw [mergeAll_cons, List.foldl_cons]
    rw [← hanswers] at hnext ⊢
    exact ih hnext _

/-- The reply to an include, from the type of the tokens that the store holds under its key. -/
theorem miscTokensIn_of_holdsTokens (hp : p.Steady) {inc : PatternInclude}
    (hinc : inc.pattern = some pattern) {st : FactStore × σ}
    (h : HoldsTokens (p.answers st.2) pattern (tokenKey inc) st.1 held) :
    (miscTokensIn p inc st).1 =
      ((p.answers st.2).text (Resource.canonical inc.file)).map
        (tokensOf (p.answers st.2) pattern (held.getD inc.type) (Resource.canonical inc.file)) := by
  cases ht : (p.answers st.2).text (Resource.canonical inc.file) with
  | error e =>
    have hk : FactStore.miscCategory.find? st.1 (tokenKey inc) = none := by
      rw [h]
      simp [tokenKey, ht, Except.toOption]
    rw [miscTokensIn_of_fault hinc hk ht]
    rfl
  | ok text =>
    cases held with
    | none =>
      rw [miscTokensIn_of_text hp hinc h ht]
      rfl
    | some type =>
      have hk : FactStore.miscCategory.find? st.1 (tokenKey inc) =
          some (tokensOf (p.answers st.2) pattern type (Resource.canonical inc.file) text) := by
        rw [h]
        simp [tokenKey, ht, Except.toOption]
      rw [miscTokensIn_of_held hinc hk]
      rfl

theorem holdsTokens_miscTokens (hp : p.Steady) (hpattern : Pattern.compile? key.2 = some pattern)
    {st : FactStore × σ} (h : HoldsTokens (p.answers st.2) pattern key st.1 held) (id : String) :
    HoldsTokens (p.answers st.2) pattern key (miscTokens p id st).2.1
      (((p.answers st.2).symbolIncludes (Resource.canonical id)).foldl (serve key) held) := by
  rw [Answers.symbolIncludes]
  cases hs : (p.answers st.2).settings (Resource.canonical id) with
  | error e =>
    rw [miscTokens_of_fault hs]
    exact h
  | ok settings =>
    rw [miscTokens_of_settings hs]
    rw [← hp _ _ (.settings (Resource.canonical id) st.2)] at h ⊢
    exact holdsTokens_mergeAll hp hpattern settings.symbolIncludes h ∅

theorem holdsTokens_facts (hp : p.Steady) (hpattern : Pattern.compile? key.2 = some pattern)
    {st : FactStore × σ} (hc : ∀ k, FactKind.content.Coherent (p.answers st.2) st.1 k)
    (h : HoldsTokens (p.answers st.2) pattern key st.1 held) (id : String) :
    HoldsTokens (p.answers st.2) pattern key (facts p id st).2.1
      (match (p.answers st.2).text (Resource.canonical (Resource.canonical id)) with
      | .ok _ => ((p.answers st.2).symbolIncludes
          (Resource.canonical (Resource.canonical id))).foldl (serve key) held
      | .error _ => held) := by
  have hanswer := fact_answer (p := p) (hc (Resource.canonical (Resource.canonical id)))
  cases ht : (p.answers st.2).text (Resource.canonical (Resource.canonical id)) with
  | error e =>
    rw [FactKind.found, ht] at hanswer
    rw [facts_of_contentFault hanswer]
    exact h.of_eq (fact_leavesTokens .content _ st)
  | ok text =>
    rw [FactKind.found, ht] at hanswer
    rw [facts_of_content hanswer]
    have hext := (((fact_calm (p := p) .content (Resource.canonical id) st).trans hp
      (commands_calm hp (Resource.canonical id) _)).trans hp
      (fact_calm .constants (Resource.canonical id) _)).trans hp
      (allSymbols_calm (Resource.canonical id) _)
    -- the four lookups before the last one leave the misc tokens alone
    have h₁ := h.of_eq (fact_leavesTokens (p := p) .content (Resource.canonical id) st)
    have h₂ := h₁.of_eq (commands_leavesTokens (p := p) (Resource.canonical id) _)
    have h₃ := h₂.of_eq (fact_leavesTokens (p := p) .constants (Resource.canonical id) _)
    have h₄ := h₃.of_eq (fact_leavesTokens (p := p) .symbols (Resource.canonical id) _)
    change HoldsTokens _ _ _ (allSymbols p (Resource.canonical id) _).2.1 _ at h₄
    rw [← hext.answers_eq hp] at h₄ ⊢
    exact holdsTokens_miscTokens hp hpattern h₄ (Resource.canonical id)

/-- What can be asked of a store over one provider. -/
inductive Call where
  | get (plain : Get)
  | miscTokensIn (inc : PatternInclude)
  | miscTokens (id : String)
  | allSymbols (id : String)
  | facts (id : String)
  | forget (id : String)
  | forgetIncludes

namespace Call

def after (p : Provider σ) : Call → FactStore × σ → FactStore × σ
  | get plain, st => (plain.run p st).2
  | miscTokensIn inc, st => (Lookup.miscTokensIn p inc st).2
  | miscTokens id, st => (Lookup.miscTokens p id st).2
  | allSymbols id, st => (Lookup.allSymbols p id st).2
  | facts id, st => (Lookup.facts p id st).2
  | forget id, st => (st.1.forget id, st.2)
  | forgetIncludes, st => (st.1.forgetIncludes, st.2)

/-- The includes that a call is served tokens of, in order. -/
def served (a : Answers) : Call → List PatternInclude
  | miscTokensIn inc => [inc]
  | miscTokens id => a.symbolIncludes (Resource.canonical id)
  | facts id =>
    match a.text (Resource.canonical (Resource.canonical id)) with
    | .ok _ => a.symbolIncludes (Resource.canonical (Resource.canonical id))
    | .error _ => []
  | get _ | allSymbols _ | forget _ | forgetIncludes => []

def drops (key : String × String) : Call → Bool
  | forget id => key.1 = Resource.canonical id
  | forgetIncludes => true
  | get _ | miscTokensIn _ | miscTokens _ | allSymbols _ | facts _ => false

/-- The type of the tokens under a key after a call. -/
def hold (a : Answers) (key : String × String) (held : Option TokenType) (call : Call) :
    Option TokenType :=
  if call.drops key then none else (call.served a).foldl (serve key) held

end Call

def reached (p : Provider σ) (calls : List Call) (s : σ) : FactStore × σ :=
  calls.foldl (fun st call => call.after p st) ({}, s)

/-- The type of the tokens that a run leaves under a key: that of the first include served under the
key since the tokens were last dropped. -/
def heldType (a : Answers) (calls : List Call) (key : String × String) : Option TokenType :=
  calls.foldl (Call.hold a key) none

/-- What a run over one provider keeps true. -/
structure Tracks (p : Provider σ) (a : Answers) (pattern : Pattern.Program) (key : String × String)
    (st : FactStore × σ) (held : Option TokenType) : Prop where
  answers : p.answers st.2 = a
  coherent : ∀ k, FactKind.content.Coherent a st.1 k
  tokens : HoldsTokens a pattern key st.1 held

theorem Tracks.of_extends (hp : p.Steady) {st later : FactStore × σ} {held' : Option TokenType}
    (h : Tracks p a pattern key st held) (hext : Extends p st later)
    (htokens : HoldsTokens (p.answers st.2) pattern key later.1 held') :
    Tracks p a pattern key later held' := by
  obtain ⟨rfl, hcoherent, -⟩ := h
  refine ⟨hext.answers_eq hp, fun k => ?_, htokens⟩
  rw [← hext.answers_eq hp]
  exact (hcoherent k).of_extends hp hext

theorem Get.run_leavesTokens (get : Get) : LeavesTokens (get.run p) := by
  cases get with
  | content id => exact fact_leavesTokens .content id
  | commandsIn file => exact fact_leavesTokens .commands file
  | constants id => exact fact_leavesTokens .constants id
  | symbols id => exact fact_leavesTokens .symbols id
  | commands id => exact commands_leavesTokens id

theorem Tracks.after (hp : p.Steady) (hpattern : Pattern.compile? key.2 = some pattern)
    {st : FactStore × σ} (h : Tracks p a pattern key st held) (call : Call) :
    Tracks p a pattern key (call.after p st) (call.hold a key held) := by
  have htokens := h.tokens
  have hcoherent := h.coherent
  rw [← h.answers] at htokens hcoherent
  cases call with
  | get plain =>
    exact h.of_extends hp (plain.run_calm hp st) (htokens.of_eq (plain.run_leavesTokens st))
  | miscTokensIn inc =>
    exact h.of_extends hp (miscTokensIn_calm hp inc st)
      (holdsTokens_miscTokensIn hp hpattern htokens inc)
  | miscTokens id =>
    refine h.of_extends hp (miscTokens_calm hp id st) ?_
    have hnext := holdsTokens_miscTokens hp hpattern htokens id
    rw [h.answers] at hnext ⊢
    exact hnext
  | allSymbols id =>
    exact h.of_extends hp (allSymbols_calm id st) (htokens.of_eq (fact_leavesTokens .symbols id st))
  | facts id =>
    refine h.of_extends hp (facts_calm hp id st) ?_
    have hnext := holdsTokens_facts hp hpattern hcoherent htokens id
    rw [h.answers] at hnext ⊢
    rw [Call.hold, Call.drops, if_neg Bool.false_ne_true, Call.served]
    cases ht : a.text (Resource.canonical (Resource.canonical id)) with
    | ok text =>
      rw [ht] at hnext
      exact hnext
    | error e =>
      rw [ht] at hnext
      exact hnext
  | forget id =>
    refine ⟨h.answers, fun k => (h.coherent k).forget id, ?_⟩
    rw [HoldsTokens, Call.after, FactStore.find?_forget_misc, Call.hold, Call.drops]
    by_cases hkey : key.1 = Resource.canonical id
    · simp [hkey]
    · have hsame := h.tokens
      rw [HoldsTokens] at hsame
      simpa [hkey, Call.served] using hsame
  | forgetIncludes =>
    exact ⟨h.answers, fun k => .forgetIncludes fun _ => h.coherent k, rfl⟩

theorem reached_tracks (hp : p.Steady) (hpattern : Pattern.compile? key.2 = some pattern)
    (calls : List Call) (s : σ) :
    Tracks p (p.answers s) pattern key (reached p calls s) (heldType (p.answers s) calls key) := by
  induction calls using List.reverseRecOn with
  | nil => exact ⟨rfl, fun k => .empty _ _ k, rfl⟩
  | append_singleton calls call ih =>
    rw [reached, heldType, List.foldl_append, List.foldl_append]
    exact ih.after hp hpattern call

theorem foldl_serve_of_same {includes : List PatternInclude} {type : TokenType}
    (h : ∀ inc ∈ includes, tokenKey inc = key → inc.type = type)
    (hheld : held = none ∨ held = some type) :
    includes.foldl (serve key) held = none ∨ includes.foldl (serve key) held = some type := by
  induction includes generalizing held with
  | nil => exact hheld
  | cons inc includes ih =>
    refine ih (fun other ho => h other (List.mem_cons_of_mem _ ho)) ?_
    rw [serve]
    split
    · rename_i hkey
      rw [h inc List.mem_cons_self hkey]
      rcases hheld with rfl | rfl
      · exact Or.inr rfl
      · exact Or.inr rfl
    · exact hheld

/-- Includes of one type leave tokens of that type. -/
theorem heldType_of_same {calls : List Call} {type : TokenType}
    (h : ∀ call ∈ calls, ∀ inc ∈ call.served a, tokenKey inc = key → inc.type = type) :
    heldType a calls key = none ∨ heldType a calls key = some type := by
  induction calls using List.reverseRecOn with
  | nil => exact Or.inl rfl
  | append_singleton calls call ih =>
    have hheld := ih fun other ho => h other (List.mem_append_left _ ho)
    have hserved := h call (List.mem_append_right _ List.mem_cons_self)
    rw [heldType, List.foldl_append]
    change Call.hold a key (heldType a calls key) call = none ∨
      Call.hold a key (heldType a calls key) call = some type
    rw [Call.hold]
    split
    · exact Or.inl rfl
    · exact foldl_serve_of_same hserved hheld

/-- After any run over one provider, an include is served tokens of the type of the first include with
its file and expression since these were last dropped. They are of its own type when no such include
has another one. -/
theorem miscTokensIn_reply (hp : p.Steady) (calls : List Call) (s : σ) (inc : PatternInclude)
    (hinc : inc.pattern = some pattern) :
    let a := p.answers s
    let file := Resource.canonical inc.file
    let type := (heldType a calls (tokenKey inc)).getD inc.type
    (miscTokensIn p inc (reached p calls s)).1 = (a.text file).map (fun text =>
      .ofFacts MiscToken.name (MiscToken.extract text pattern type (a.owner file))) ∧
    (∀ tokens, (miscTokensIn p inc (reached p calls s)).1 = .ok tokens →
      ∀ name token, tokens.find? name = some token → token.type = type ∧
        (type = .define → ∃ text, a.text file = .ok text ∧ ∃ line ∈ Text.lines text.toList,
          ∃ slots ∈ pattern.findAll line,
            ((Pattern.captured? line slots 1).map fun found => String.ofList found.2) =
              some token.name ∧
            token.value = (Pattern.captured? line slots 2).map fun found =>
              String.ofList found.2)) ∧
    ((∀ call ∈ calls, ∀ other ∈ call.served a, tokenKey other = tokenKey inc →
      other.type = inc.type) → type = inc.type) := by
  intro a file type
  have hpattern : Pattern.compile? (tokenKey inc).2 = some pattern := inc.compiled ▸ hinc
  have htracks := reached_tracks hp hpattern calls s
  have hreply : (miscTokensIn p inc (reached p calls s)).1 =
      (a.text file).map (tokensOf a pattern type file) := by
    have htokens := htracks.tokens
    rw [← htracks.answers] at htokens
    rw [miscTokensIn_of_holdsTokens hp hinc htokens, htracks.answers]
  refine ⟨hreply, ?_, ?_⟩
  · intro tokens htokens name token hfind
    rw [hreply] at htokens
    cases ht : a.text file with
    | error e =>
      rw [ht] at htokens
      cases htokens
    | ok text =>
      rw [ht] at htokens
      cases htokens
      obtain ⟨htype, line, hline, slots, hslots, hname, hvalue⟩ :=
        MiscToken.exists_match (NameMap.mem_of_find?_ofFacts hfind)
      refine ⟨htype, fun hdefine => ⟨text, rfl, line, hline, slots, hslots, hname, ?_⟩⟩
      rw [hvalue, hdefine]
      rfl
  · intro hsame
    rcases heldType_of_same hsame with hheld | hheld
    · exact congrArg (Option.getD · inc.type) hheld
    · exact congrArg (Option.getD · inc.type) hheld

def flagTables : Provider.Tables :=
  { files := (∅ : NameMap String).insert "flags.h" "#define A 1\n" }

def flagInclude (tag : String) : PatternInclude := .ofParts "#define (\\w+) (.+)" tag "flags.h"

/-- The flags are served as defines once those served as specials are dropped. -/
theorem miscTokensIn_reply_flags :
    ∃ pattern, (flagInclude "define").pattern = some pattern ∧
      Provider.tables.Steady ∧
      (miscTokensIn Provider.tables (flagInclude "define") (reached Provider.tables
        [.miscTokensIn (flagInclude "special"), .forget "flags.h"] flagTables)).1 =
        .ok (.ofFacts MiscToken.name
          (MiscToken.extract "#define A 1\n" pattern .define "flags.h")) := by
  have hpattern : (flagInclude "define").pattern.isSome := by decide +kernel
  obtain ⟨pattern, hpattern⟩ := Option.isSome_iff_exists.1 hpattern
  refine ⟨pattern, hpattern, Provider.tables_steady, ?_⟩
  have hreply := (miscTokensIn_reply Provider.tables_steady
    [.miscTokensIn (flagInclude "special"), .forget "flags.h"] flagTables (flagInclude "define")
    hpattern).1
  exact hreply

/-- The flags are served as specials, without their values, to an include that asks for defines. -/
theorem flags_served_as_specials :
    let shown (calls : List Call) :=
      (miscTokensIn Provider.tables (flagInclude "define")
        (reached Provider.tables calls flagTables)).1.toOption.map fun tokens =>
          tokens.toList.map fun (name, token) => (name, token.type, token.value)
    shown [] = some [("A", .define, some "1")] ∧
      shown [.miscTokensIn (flagInclude "special")] = some [("A", .special, none)] := by
  decide +kernel

end Lookup
end ScriptIndex
