import ScriptIndex.Proofs.Lookup.TokenTypes

/-!
# What is served from a store

A lookup serves what the store holds, whether or not it agrees with the provider any more, and what is
found in the current text where the store holds nothing. For misc tokens the includes before an include
may have filled its entry. This says exactly what the facts about a document are made of, include by
include and for every store.
-/
namespace ScriptIndex

namespace Lookup

variable {σ : Type} {p : Provider σ} {a : Answers} {store : FactStore}

/-- The type that an include is served when nothing is held: that of the first one with its key. -/
def firstType (includes : List PatternInclude) (inc : PatternInclude) : TokenType :=
  ((includes.find? fun other => tokenKey other = tokenKey inc).map PatternInclude.type).getD inc.type

/-- The tokens that an include is served, as one of several includes. -/
def servedTokens (a : Answers) (store : FactStore) (includes : List PatternInclude)
    (inc : PatternInclude) : Except LookupError (NameMap MiscToken) :=
  match inc.pattern with
  | none => .ok ∅
  | some pattern =>
    match FactStore.miscCategory.find? store (tokenKey inc) with
    | some tokens => .ok tokens
    | none => (a.text (Resource.canonical inc.file)).map
        (tokensOf a pattern (firstType includes inc) (Resource.canonical inc.file))

theorem servedTokens_congr {a b : Answers} {store : FactStore} {includes : List PatternInclude}
    {inc : PatternInclude}
    (htext : b.text (Resource.canonical inc.file) = a.text (Resource.canonical inc.file))
    (howner : b.owner (Resource.canonical inc.file) = a.owner (Resource.canonical inc.file)) :
    servedTokens b store includes inc = servedTokens a store includes inc := by
  have htokens : ∀ pattern type, tokensOf b pattern type (Resource.canonical inc.file) =
      tokensOf a pattern type (Resource.canonical inc.file) := by
    intro pattern type
    funext text
    rw [tokensOf, tokensOf, howner]
  simp only [servedTokens, htext, htokens]

theorem miscTokensIn_fst (hp : p.Steady) (inc : PatternInclude) (st : FactStore × σ) :
    (miscTokensIn p inc st).1 = servedTokens (p.answers st.2) st.1 [inc] inc := by
  rw [servedTokens]
  cases hinc : inc.pattern with
  | none => rw [miscTokensIn_of_disabled hinc]
  | some pattern =>
    cases hk : FactStore.miscCategory.find? st.1 (tokenKey inc) with
    | some tokens => rw [miscTokensIn_of_held hinc hk]
    | none =>
      cases ht : (p.answers st.2).text (Resource.canonical inc.file) with
      | ok text =>
        rw [miscTokensIn_of_text hp hinc hk ht]
        simp [firstType, Except.map]
      | error e =>
        rw [miscTokensIn_of_fault hinc hk ht]
        rfl

/-- What the store holds of misc tokens after some includes have been served from it. -/
def TokensAfter (a : Answers) (store : FactStore) (includes : List PatternInclude)
    (now : FactStore) : Prop :=
  ∀ (inc : PatternInclude) (pattern : Pattern.Program), inc.pattern = some pattern →
    FactStore.miscCategory.find? now (tokenKey inc) =
      (FactStore.miscCategory.find? store (tokenKey inc)).or
        ((includes.find? fun other => tokenKey other = tokenKey inc).bind fun first =>
          readable? a pattern (Resource.canonical inc.file) first.type)

namespace TokensAfter

variable {includes : List PatternInclude} {now : FactStore × σ}

theorem nil (a : Answers) (store : FactStore) : TokensAfter a store [] store := by
  intro inc pattern _
  simp

/-- The first include with a key decides what the later ones are served. -/
theorem reply (hp : p.Steady) (h : TokensAfter (p.answers now.2) store includes now.1)
    (inc : PatternInclude) (rest : List PatternInclude) :
    (miscTokensIn p inc now).1 =
      servedTokens (p.answers now.2) store (includes ++ inc :: rest) inc := by
  rw [miscTokensIn_fst hp, servedTokens, servedTokens]
  cases hinc : inc.pattern with
  | none => rfl
  | some pattern =>
    simp only [h inc pattern hinc, firstType, List.find?_append]
    cases FactStore.miscCategory.find? store (tokenKey inc) with
    | some tokens => rfl
    | none =>
      cases includes.find? fun other => tokenKey other = tokenKey inc with
      | none => simp
      | some first =>
        cases ht : (p.answers now.2).text (Resource.canonical inc.file) with
        | ok text => simp [readable?, ht, Except.toOption, Except.map]
        | error e => simp [readable?, ht, Except.toOption, Except.map]

theorem step (hp : p.Steady) (h : TokensAfter (p.answers now.2) store includes now.1)
    (inc : PatternInclude) :
    TokensAfter (p.answers now.2) store (includes ++ [inc]) (miscTokensIn p inc now).2.1 := by
  intro other pattern hother
  have hpattern : Pattern.compile? (tokenKey other).2 = some pattern := other.compiled ▸ hother
  rw [find?_miscTokensIn hp hpattern, h other pattern hother, List.find?_append]
  by_cases hkey : tokenKey inc = tokenKey other
  · simp only [hkey, if_true, List.find?_singleton, decide_true, Option.or_assoc]
    cases includes.find? fun first => tokenKey first = tokenKey other with
    | none => rfl
    | some first => exact congrArg _ (readable?_or _ first.type inc.type)
  · simp [hkey]

end TokensAfter

theorem mergeAll_served (hp : p.Steady) {done : List PatternInclude} (rest : List PatternInclude)
    (now : FactStore × σ) (hanswers : p.answers now.2 = a) (h : TokensAfter a store done now.1)
    (merged : NameMap MiscToken) :
    (mergeAll (miscTokensIn p) rest merged now).1 =
      mergeFound (rest.map (servedTokens a store (done ++ rest))) merged := by
  induction rest generalizing done now merged with
  | nil => rfl
  | cons inc rest ih =>
    subst hanswers
    have hassoc : done ++ inc :: rest = done ++ [inc] ++ rest := by simp
    have hnext := ((miscTokensIn_calm hp inc now).answers_eq hp)
    rw [mergeAll_cons, h.reply hp inc rest, List.map_cons, mergeFound, List.foldl_cons, hassoc]
    exact ih _ hnext (h.step hp inc) _

end Lookup

/-- The misc tokens that a resource may use, with those of its includes as they are served. -/
def Answers.tokensFrom (a : Answers) (store : FactStore) (key : String) :
    Except LookupError (NameMap MiscToken) :=
  (a.settings key).map fun settings =>
    Lookup.mergeFound
      (settings.symbolIncludes.map (Lookup.servedTokens a store settings.symbolIncludes)) ∅

/-- The symbols of the workspace, with those of a resource as they are served. -/
def Answers.symbolsFrom (a : Answers) (store : FactStore) (key : String) : NameMap Symbol :=
  Lookup.knownSymbols <|
    match FactKind.symbols.served a store key with
    | .ok facts => FactKind.symbols.category.insert store key facts
    | .error _ => store

/-- The facts about a document, each category as it is served. -/
def Answers.factsFrom (a : Answers) (store : FactStore) (key : String) : Except LookupError Facts :=
  (FactKind.content.served a store key).map fun content =>
    { content
      commands := Lookup.orNone (a.commandsFrom store key)
      constants := Lookup.orNone (FactKind.constants.served a store key)
      symbols := a.symbolsFrom store key
      miscTokens := Lookup.orNone (a.tokensFrom store key) }

namespace Lookup

variable {σ : Type} {p : Provider σ}

theorem miscTokens_served (hp : p.Steady) (id : String) (st : FactStore × σ) :
    (miscTokens p id st).1 = (p.answers st.2).tokensFrom st.1 (Resource.canonical id) := by
  rw [Answers.tokensFrom]
  cases hs : (p.answers st.2).settings (Resource.canonical id) with
  | error e =>
    rw [miscTokens_of_fault hs]
    rfl
  | ok settings =>
    rw [miscTokens_of_settings hs]
    have hasked := hp _ _ (.settings (Resource.canonical id) st.2)
    have hmerge := mergeAll_served hp settings.symbolIncludes
      (st.1, (p.settings (Resource.canonical id) st.2).2) hasked (TokensAfter.nil _ st.1) ∅
    exact congrArg Except.ok hmerge

/-- Lookups that leave the misc tokens alone do not change what is served of them. -/
theorem Extends.tokensFrom_eq (hp : p.Steady) {st later : FactStore × σ} (h : Extends p st later)
    (htokens : later.1.miscTokens = st.1.miscTokens) (key : String) :
    (p.answers later.2).tokensFrom later.1 key = (p.answers st.2).tokensFrom st.1 key := by
  have hserved : servedTokens (p.answers later.2) later.1 = servedTokens (p.answers st.2) st.1 := by
    ext1 includes
    ext1 inc
    simp only [servedTokens, FactStore.miscCategory, htokens, h.answers_eq hp]
  rw [Answers.tokensFrom, Answers.tokensFrom, hserved, h.answers_eq hp]

theorem allSymbols_served (id : String) (st : FactStore × σ) :
    (allSymbols p id st).1 = (p.answers st.2).symbolsFrom st.1 (Resource.canonical id) := by
  change knownSymbols (fact p .symbols id st).2.1 = _
  rw [Answers.symbolsFrom]
  cases hheld : FactKind.symbols.held st.1 (Resource.canonical id) with
  | some held =>
    rw [fact_of_held hheld, FactKind.served_of_held hheld]
    -- what is held is put back in its place
    have hsame : st.1.symbols.insert (Resource.canonical id) held = st.1.symbols := by
      apply NameMap.eq_of_find?
      intro key
      rw [NameMap.find?_insert]
      split
      · next hkey =>
        rw [hkey]
        exact hheld.symm
      · rfl
    change _ = (st.1.symbols.insert (Resource.canonical id) held).values.foldl NameMap.merge ∅
    rw [hsame, knownSymbols]
  | none =>
    rw [FactKind.served_of_none hheld, FactKind.found]
    cases ht : (p.answers st.2).text (Resource.canonical id) with
    | ok text =>
      rw [fact_of_text hheld ht]
      rfl
    | error e =>
      rw [fact_of_fault hheld ht]
      rfl

/-- Lookups that leave the symbols alone do not change what is served of them. -/
theorem Extends.symbolsFrom_eq (hp : p.Steady) {st later : FactStore × σ} (h : Extends p st later)
    (hsymbols : later.1.symbols = st.1.symbols) (key : String) :
    (p.answers later.2).symbolsFrom later.1 key = (p.answers st.2).symbolsFrom st.1 key := by
  rw [Answers.symbolsFrom, Answers.symbolsFrom, h.served_eq hp]
  cases FactKind.symbols.served (p.answers st.2) st.1 key with
  | ok facts =>
    change (later.1.symbols.insert key facts).values.foldl NameMap.merge ∅ =
      (st.1.symbols.insert key facts).values.foldl NameMap.merge ∅
    rw [hsymbols]
  | error e => simp only [knownSymbols, hsymbols]

/-- The facts about a document, from any store. -/
theorem facts_served (hp : p.Steady) (id : String) (st : FactStore × σ) :
    (facts p id st).1 =
      (p.answers st.2).factsFrom st.1 (Resource.canonical (Resource.canonical id)) := by
  have hcontent := fact_served (p := p) .content (Resource.canonical id) st
  rw [Answers.factsFrom]
  cases hserved : FactKind.content.served (p.answers st.2) st.1
      (Resource.canonical (Resource.canonical id)) with
  | error e =>
    rw [facts_of_contentFault (hcontent.trans hserved)]
    rfl
  | ok text =>
    have hext₁ := fact_calm (p := p) .content (Resource.canonical id) st
    have hext₂ := hext₁.trans hp (commands_calm hp (Resource.canonical id) _)
    have hext₃ := hext₂.trans hp (fact_calm .constants (Resource.canonical id) _)
    have hext₄ := hext₃.trans hp (allSymbols_calm (Resource.canonical id) _)
    rw [facts_of_content (hcontent.trans hserved)]
    -- the first three lookups leave the symbols alone, and the first four the misc tokens
    have hsymbols : (constants p (Resource.canonical id) (commands p (Resource.canonical id)
        (content p (Resource.canonical id) st).2).2).2.1.symbols = st.1.symbols := by
      calc
        _ = _ := @fact_leaves _ p _ FactStore.symbols .constants (fun _ _ _ => rfl) _ _
        _ = _ := commands_leaves (fun _ _ _ => rfl) (Resource.canonical id) _
        _ = _ := @fact_leaves _ p _ FactStore.symbols .content (fun _ _ _ => rfl) _ st
    have htokens : (allSymbols p (Resource.canonical id) (constants p (Resource.canonical id)
        (commands p (Resource.canonical id)
          (content p (Resource.canonical id) st).2).2).2).2.1.miscTokens = st.1.miscTokens := by
      calc
        _ = _ := fact_leavesTokens .symbols (Resource.canonical id) _
        _ = _ := fact_leavesTokens .constants (Resource.canonical id) _
        _ = _ := commands_leavesTokens (Resource.canonical id) _
        _ = _ := fact_leavesTokens .content (Resource.canonical id) st
    have hcommands := (commands_served hp (Resource.canonical id) _).trans
      (hext₁.commandsFrom_eq hp _)
    have hconstants := (fact_served .constants (Resource.canonical id) _).trans
      (hext₂.served_eq hp _)
    have hall := (allSymbols_served (Resource.canonical id) _).trans
      (hext₃.symbolsFrom_eq hp hsymbols _)
    have hmisc := (miscTokens_served hp (Resource.canonical id) _).trans
      (hext₄.tokensFrom_eq hp htokens _)
    refine congrArg Except.ok ?_
    rw [Facts.mk.injEq]
    exact ⟨rfl, congrArg orNone hcommands, congrArg orNone hconstants, hall, congrArg orNone hmisc⟩

/-- The facts about a document whose text is served. -/
theorem facts_of_served (hp : p.Steady) {id text : String} {st : FactStore × σ}
    (h : FactKind.content.served (p.answers st.2) st.1
      (Resource.canonical (Resource.canonical id)) = .ok text) :
    ∃ found, (facts p id st).1 = .ok found ∧ found.content = text ∧
      found.commands = orNone ((p.answers st.2).commandsFrom st.1
        (Resource.canonical (Resource.canonical id))) ∧
      found.miscTokens = orNone ((p.answers st.2).tokensFrom st.1
        (Resource.canonical (Resource.canonical id))) := by
  rw [facts_served hp, Answers.factsFrom, h]
  exact ⟨_, rfl, rfl, rfl, rfl⟩

end Lookup
end ScriptIndex
