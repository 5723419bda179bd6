import Mathlib.Data.List.Sort
import ScriptIndex.Command.Macros
import ScriptIndex.Proofs.Declaration.Search
import ScriptIndex.Proofs.Text.Blank
import ScriptIndex.Proofs.Text.Lines

/-!
# Macros read back

The macros of a text are numbered by the lines that declare them, one for each such line. A macro that is
written out with any blanks and separators around its name and parameters is read back from its line as
it was, and a parameter is read back from its written form.
-/
namespace ScriptIndex.Command

open Text Declaration

/-- A line declares a macro by name, and the text of its parameters follows. -/
def DeclaresMacro (line name rest : List Char) : Prop :=
  ∃ indent gap, line = indent ++ (".macro".toList ++ (gap ++ (name ++ rest))) ∧
    (∀ c ∈ indent, isBlank c = true) ∧ gap ≠ [] ∧ (∀ c ∈ gap, isBlank c = true) ∧
    NameRun gap name rest

theorem macroHead?_of_declares {line name rest : List Char} (h : DeclaresMacro line name rest) :
    macroHead? line = some (name, rest) := by
  obtain ⟨indent, gap, rfl, hindent, hne, hgap, hrun⟩ := h
  have hdot : ∀ c ∈ (".macro".toList ++ (gap ++ (name ++ rest))).head?, isBlank c = false := by
    simp
    decide
  have hname : ∀ c ∈ (name ++ rest).head?, isBlank c = false :=
    of_mem_head?_append hrun.ne_nil (fun c hc => isBlank_of_isWordChar (hrun.word c hc)) _
  rw [macroHead?, dropWhile_append_rest hindent hdot, (dropLiteral?_eq_some_iff _ _ _).2 rfl]
  simp only [takeWhile_append_rest hgap hname, dropWhile_append_rest hgap hname,
    takeWhile_append_rest hrun.word hrun.after, dropWhile_append_rest hrun.word hrun.after]
  simp [hne, hrun.ne_nil]

theorem declares_of_macroHead? {line name rest : List Char}
    (h : macroHead? line = some (name, rest)) : DeclaresMacro line name rest := by
  rw [macroHead?] at h
  cases hdrop : dropLiteral? ".macro".toList (line.dropWhile isBlank) with
  | none =>
    rw [hdrop] at h
    cases h
  | some afterKeyword =>
    have hkeyword := (dropLiteral?_eq_some_iff _ _ _).1 hdrop
    simp only [hdrop] at h
    split at h
    · cases h
    · next hne =>
      simp only [Bool.or_eq_true, List.isEmpty_iff, not_or] at hne
      obtain ⟨rfl, rfl⟩ := Prod.mk.inj (Option.some.inj h)
      have hgap : ∀ c ∈ afterKeyword.takeWhile isBlank, isBlank c = true :=
        fun c hc => List.mem_takeWhile_imp hc
      refine ⟨line.takeWhile isBlank, afterKeyword.takeWhile isBlank, ?_,
        fun c hc => List.mem_takeWhile_imp hc, hne.1, hgap, hne.2,
        fun c hc => List.mem_takeWhile_imp hc, ?_, of_mem_head?_dropWhile⟩
      · rw [List.takeWhile_append_dropWhile, List.takeWhile_append_dropWhile, ← hkeyword,
          List.takeWhile_append_dropWhile]
      · exact fun c hc => isWordChar_of_isBlank (hgap c (List.mem_of_getLast? hc))

theorem macroHead?_eq_some_iff {line name rest : List Char} :
    macroHead? line = some (name, rest) ↔ DeclaresMacro line name rest :=
  ⟨declares_of_macroHead?, macroHead?_of_declares⟩

def lineAt? (content : String) (n : Nat) : Option (List Char) :=
  (NumberedLines.ofText content.toList).line? n

def IsMacroLine (content : String) (n : Nat) : Prop :=
  ∃ line name rest, lineAt? content n = some line ∧ DeclaresMacro line name rest

/-- The macros of a text, in order, are numbered by all the lines that declare one. -/
structure MacrosByLine (content : String) (numbered : List (Nat × Command)) : Prop where
  commands : numbered.map Prod.snd = extractMacros content
  sorted : numbered.Pairwise fun x y => x.1 < y.1
  declared : ∀ n, n ∈ numbered.map Prod.fst ↔ IsMacroLine content n

def macroOn (content : String) (number : Nat) (name rest : List Char) : Command where
  name := String.ofList name
  kind := .macroCall
  documentation := documentationAt (.ofText content.toList) number
  parameters := (fields isSeparator rest).map paramOf

def numberedMacros (content : String) : List (Nat × Command) :=
  (NumberedLines.ofText content.toList).toList.filterMap fun (number, line) =>
    (macroHead? line).map fun (name, rest) => (number, macroOn content number name rest)

theorem mem_numberedMacros_iff {content : String} {n : Nat} {c : Command} :
    (n, c) ∈ numberedMacros content ↔ ∃ line name rest, lineAt? content n = some line ∧
      DeclaresMacro line name rest ∧ c = macroOn content n name rest := by
  simp only [numberedMacros, List.mem_filterMap, Option.map_eq_some_iff, Prod.exists, Prod.mk.injEq,
    NumberedLines.mem_toList_iff, macroHead?_eq_some_iff, lineAt?]
  constructor
  · rintro ⟨_, line, hline, name, rest, hdeclares, rfl, rfl⟩
    exact ⟨line, name, rest, hline, hdeclares, rfl⟩
  · rintro ⟨line, name, rest, hline, hdeclares, rfl⟩
    exact ⟨n, line, hline, name, rest, hdeclares, rfl, rfl⟩

theorem macrosByLine_numberedMacros (content : String) :
    MacrosByLine content (numberedMacros content) where
  commands := by
    rw [numberedMacros, List.map_filterMap, extractMacros]
    simp only [Option.map_map]
    rfl
  sorted := by
    rw [numberedMacros, List.pairwise_filterMap]
    apply (NumberedLines.pairwise_toList _).imp
    intro x y hlt a ha b hb
    obtain ⟨_, -, rfl⟩ := Option.map_eq_some_iff.1 ha
    obtain ⟨_, -, rfl⟩ := Option.map_eq_some_iff.1 hb
    exact hlt
  declared n := by
    simp only [List.mem_map, Prod.exists, exists_and_right, exists_eq_right, mem_numberedMacros_iff,
      IsMacroLine]
    constructor
    · rintro ⟨c, line, name, rest, hline, hdeclares, -⟩
      exact ⟨line, name, rest, hline, hdeclares⟩
    · rintro ⟨line, name, rest, hline, hdeclares⟩
      exact ⟨_, line, name, rest, hline, hdeclares, rfl⟩

/-- There is one way to number the macros of a text. -/
theorem MacrosByLine.eq_numberedMacros {content : String} {numbered : List (Nat × Command)}
    (h : MacrosByLine content numbered) : numbered = numberedMacros content := by
  have hall := macrosByLine_numberedMacros content
  have hnumbers : numbered.map Prod.fst = (numberedMacros content).map Prod.fst := by
    apply List.Pairwise.eq_of_mem_iff (r := (· < ·))
    · exact List.pairwise_map.2 h.sorted
    · exact List.pairwise_map.2 hall.sorted
    · intro n
      rw [h.declared, hall.declared]
  have hcommands := h.commands.trans hall.commands.symm
  rw [← List.zip_unzip numbered, ← List.zip_unzip (numberedMacros content), List.unzip_eq_map,
    List.unzip_eq_map, hnumbers, hcommands]

theorem isWordChar_of_isSeparator {c : Char} (h : isSeparator c = true) : isWordChar c = false := by
  rw [isSeparator, Bool.or_eq_true, beq_iff_eq] at h
  rcases h with hblank | rfl
  · exact isWordChar_of_isBlank hblank
  · decide

theorem dropEnding?_eq_some_iff {ending cs front : List Char} :
    dropEnding? ending cs = some front ↔ cs = front ++ ending := by
  simp only [dropEnding?, Option.map_eq_some_iff, dropLiteral?_eq_some_iff]
  constructor
  · rintro ⟨rest, hcs, rfl⟩
    simpa using congrArg List.reverse hcs
  · rintro rfl
    exact ⟨front.reverse, by simp⟩

theorem dropEnding?_eq_none {ending cs : List Char} (h : ¬ending <:+ cs) :
    dropEnding? ending cs = none := by
  rw [Option.eq_none_iff_forall_ne_some]
  intro front hfront
  exact h ⟨front, (dropEnding?_eq_some_iff.1 hfront).symm⟩

/-- What tells the kind of a parameter, behind its name. -/
def ending : ParamKind → String
  | .required => ":req"
  | .withDefault value => "=" ++ value
  | .optional => ""
  | .vararg => ":vararg"

def written (p : Param) : List Char := p.name.toList ++ (ending p.kind).toList

/-- A parameter with a name and a default value that can be written, and whose written form does not end
like that of another kind. -/
structure Writable (p : Param) : Prop where
  name_ne_nil : p.name.toList ≠ []
  name_plain : ∀ c ∈ p.name.toList, isSeparator c = false ∧ c ≠ '='
  value_plain : ∀ value, p.kind = .withDefault value → ∀ c ∈ value.toList, isSeparator c = false
  no_ending : p.kind ≠ .required → p.kind ≠ .vararg →
    ¬":req".toList <:+ written p ∧ ¬":vararg".toList <:+ written p

theorem writable_iff (p : Param) : Writable p ↔ p.name.toList ≠ [] ∧
    (p.name.toList.all fun c => !isSeparator c && c != '=') = true ∧
    (p.default?.all fun value => value.toList.all fun c => !isSeparator c) = true ∧
    (p.kind ≠ .required → p.kind ≠ .vararg →
      ¬":req".toList <:+ written p ∧ ¬":vararg".toList <:+ written p) := by
  have hvalue : (p.default?.all fun value => value.toList.all fun c => !isSeparator c) = true ↔
      ∀ value, p.kind = .withDefault value → ∀ c ∈ value.toList, isSeparator c = false := by
    cases hkind : p.kind <;> simp [Param.default?, hkind]
  rw [hvalue]
  constructor
  · intro h
    exact ⟨h.name_ne_nil, by simpa using h.name_plain, h.value_plain, h.no_ending⟩
  · rintro ⟨hne, hname, hvalue, hending⟩
    exact ⟨hne, by simpa using hname, hvalue, hending⟩

instance : DecidablePred Writable := fun p => decidable_of_iff' _ (writable_iff p)

namespace Writable

variable {p : Param}

theorem written_ne_nil (h : Writable p) : written p ≠ [] :=
  List.append_ne_nil_of_left_ne_nil h.name_ne_nil _

theorem isSeparator_ending (h : Writable p) :
    ∀ c ∈ (ending p.kind).toList, isSeparator c = false := by
  intro c hc
  cases hkind : p.kind with
  | required =>
    rw [hkind] at hc
    have hplain : ":req".toList.all (!isSeparator ·) = true := by decide
    simpa using List.all_eq_true.1 hplain c hc
  | vararg =>
    rw [hkind] at hc
    have hplain : ":vararg".toList.all (!isSeparator ·) = true := by decide
    simpa using List.all_eq_true.1 hplain c hc
  | optional =>
    rw [hkind] at hc
    cases hc
  | withDefault value =>
    rw [hkind, ending, String.toList_append] at hc
    rcases List.mem_cons.1 hc with rfl | hvalue
    · decide
    · exact h.value_plain value hkind c hvalue

theorem isSeparator_written (h : Writable p) : ∀ c ∈ written p, isSeparator c = false := by
  intro c hc
  rcases List.mem_append.1 hc with hname | hending
  · exact (h.name_plain c hname).1
  · exact h.isSeparator_ending c hending

/-- A parameter is read back from its written form. -/
theorem paramOf_written (h : Writable p) : paramOf (written p) = p := by
  obtain ⟨name, kind⟩ := p
  have hname : ∀ c ∈ name.toList, (c != '=') = true := fun c hc => bne_iff_ne.2 (h.name_plain c hc).2
  cases kind with
  | required =>
    have hreq : dropEnding? ":req".toList (written ⟨name, .required⟩) = some name.toList :=
      dropEnding?_eq_some_iff.2 rfl
    rw [paramOf, hreq]
    simp
  | vararg =>
    have hreq : ¬":req".toList <:+ written ⟨name, .vararg⟩ := by
      rintro ⟨front, hfront⟩
      have hlast := congrArg List.getLast? hfront
      simp [written, ending] at hlast
    have hvararg : dropEnding? ":vararg".toList (written ⟨name, .vararg⟩) = some name.toList :=
      dropEnding?_eq_some_iff.2 rfl
    rw [paramOf, dropEnding?_eq_none hreq, hvararg]
    simp
  | optional =>
    obtain ⟨hreq, hvararg⟩ := h.no_ending (by simp) (by simp)
    have hnone : (written ⟨name, .optional⟩).dropWhile (· != '=') = [] := by
      simpa [written, ending] using hname
    rw [paramOf, dropEnding?_eq_none hreq, dropEnding?_eq_none hvararg]
    simp only [hnone]
    simp [written, ending]
  | withDefault value =>
    obtain ⟨hreq, hvararg⟩ := h.no_ending (by simp) (by simp)
    have hmark : ∀ c ∈ ('=' :: value.toList).head?, (c != '=') = false := by simp
    have htake := takeWhile_append_rest hname hmark
    have hdrop := dropWhile_append_rest hname hmark
    rw [paramOf, dropEnding?_eq_none hreq, dropEnding?_eq_none hvararg]
    simp [written, ending, htake, hdrop]

end Writable

/-- A macro written out on a line, with all blanks and separators. -/
structure WrittenMacro where
  indent : List Char
  /-- The blanks before the name. -/
  gap : List Char
  name : String
  /-- Each parameter with the separators before it. -/
  params : List (List Char × Param)
  /-- The separators at the end of the line. -/
  tail : List Char
  isBlank_indent : ∀ c ∈ indent, isBlank c = true
  gap_ne_nil : gap ≠ []
  isBlank_gap : ∀ c ∈ gap, isBlank c = true
  name_ne_nil : name.toList ≠ []
  isWordChar_name : ∀ c ∈ name.toList, isWordChar c = true
  separated : ∀ p ∈ params, p.1 ≠ [] ∧ ∀ c ∈ p.1, isSeparator c = true
  writable : ∀ p ∈ params, Writable p.2
  isSeparator_tail : ∀ c ∈ tail, isSeparator c = true

/-- The text of parameters with the separators around them. -/
def paramText (params : List (List Char × Param)) (tail : List Char) : List Char :=
  params.flatMap (fun p => p.1 ++ written p.2) ++ tail

theorem isSeparator_head?_paramText {params : List (List Char × Param)} {tail : List Char}
    (hparams : ∀ p ∈ params, p.1 ≠ [] ∧ ∀ c ∈ p.1, isSeparator c = true)
    (htail : ∀ c ∈ tail, isSeparator c = true) :
    ∀ c ∈ (paramText params tail).head?, isSeparator c = true := by
  cases params with
  | nil => exact fun c hc => htail c (List.mem_of_mem_head? hc)
  | cons p params =>
    obtain ⟨hne, hseps⟩ := hparams p List.mem_cons_self
    rw [paramText, List.flatMap_cons, List.append_assoc, List.append_assoc]
    exact of_mem_head?_append hne hseps _

/-- The fields between the separators are the written parameters. -/
theorem fields_paramText {params : List (List Char × Param)} {tail : List Char}
    (hparams : ∀ p ∈ params, p.1 ≠ [] ∧ ∀ c ∈ p.1, isSeparator c = true)
    (hwritable : ∀ p ∈ params, Writable p.2) (htail : ∀ c ∈ tail, isSeparator c = true) :
    fields isSeparator (paramText params tail) = params.map fun p => written p.2 := by
  induction params with
  | nil => exact fields_of_seps htail
  | cons p params ih =>
    rw [List.forall_mem_cons] at hparams hwritable
    have hrest := isSeparator_head?_paramText hparams.2 htail
    have htext : paramText (p :: params) tail = p.1 ++ (written p.2 ++ paramText params tail) := by
      simp [paramText]
    rw [htext, fields_append_of_seps hparams.1.2, fields_append_of_token hwritable.1.written_ne_nil
      hwritable.1.isSeparator_written hrest, ih hparams.2 hwritable.2, List.map_cons]

namespace WrittenMacro

def text (m : WrittenMacro) : List Char :=
  m.indent ++ (".macro".toList ++ (m.gap ++ (m.name.toList ++ paramText m.params m.tail)))

def command (m : WrittenMacro) (documentation : String) : Command where
  name := m.name
  kind := .macroCall
  documentation := documentation
  parameters := m.params.map Prod.snd

/-- A carriage return at the end of the line is one of the separators there. -/
theorem withoutReturn_text (m : WrittenMacro) :
    withoutReturn m.text = m.indent ++ (".macro".toList ++ (m.gap ++
      (m.name.toList ++ withoutReturn (paramText m.params m.tail)))) := by
  by_cases hparams : paramText m.params m.tail = []
  · have hname : '\r' ∉ m.name.toList := fun hmem => absurd (m.isWordChar_name _ hmem) (by decide)
    have htext : m.text = m.indent ++ (".macro".toList ++ m.gap) ++ m.name.toList := by
      simp [text, hparams]
    rw [htext, withoutReturn_append _ m.name_ne_nil, withoutReturn_of_not_mem hname, hparams]
    simp [withoutReturn, dropReturn]
  · have htext : m.text = m.indent ++ (".macro".toList ++ (m.gap ++ m.name.toList)) ++
        paramText m.params m.tail := by
      simp [text]
    rw [htext, withoutReturn_append _ hparams]
    simp

theorem fields_withoutReturn (cs : List Char) :
    fields isSeparator (withoutReturn cs) = fields isSeparator cs := by
  rcases withoutReturn_eq_or cs with heq | heq
  · rw [heq]
  · conv_rhs => rw [heq]
    rw [fields_concat (by decide)]

/-- The line of a written macro declares it. -/
theorem declares_text (m : WrittenMacro) : DeclaresMacro (withoutReturn m.text) m.name.toList
    (withoutReturn (paramText m.params m.tail)) := by
  refine ⟨m.indent, m.gap, m.withoutReturn_text, m.isBlank_indent, m.gap_ne_nil, m.isBlank_gap,
    m.name_ne_nil, m.isWordChar_name, ?_, ?_⟩
  · exact fun c hc => isWordChar_of_isBlank (m.isBlank_gap c (List.mem_of_getLast? hc))
  · intro c hc
    have hfirst : c ∈ (paramText m.params m.tail).head? := by
      rcases withoutReturn_eq_or (paramText m.params m.tail) with heq | heq
      · rwa [heq] at hc
      · rw [heq, List.head?_append, Option.mem_def.1 hc, Option.some_or]
        rfl
    exact isWordChar_of_isSeparator (isSeparator_head?_paramText m.separated m.isSeparator_tail c hfirst)

theorem map_paramOf_fields (m : WrittenMacro) :
    (fields isSeparator (withoutReturn (paramText m.params m.tail))).map paramOf =
      m.params.map Prod.snd := by
  rw [fields_withoutReturn, fields_paramText m.separated m.writable m.isSeparator_tail, List.map_map]
  apply List.map_congr_left
  intro p hp
  exact (m.writable p hp).paramOf_written

theorem text_ne_nil (m : WrittenMacro) : m.text ≠ [] := by
  simp [text]

end WrittenMacro

/-- The macros of a text are numbered by the lines that declare them, one for each, and a macro written out
as a row of the text is the one with the number of the row. -/
theorem written_macros_read_back (content : String) :
    ∃ numbered, MacrosByLine content numbered ∧
      ∀ (n : Nat) (m : WrittenMacro), (pieces (· == '\n') content.toList)[n]? = some m.text →
        ∃ documentation, (n, m.command documentation) ∈ numbered := by
  refine ⟨numberedMacros content, macrosByLine_numberedMacros content, fun n m hrow => ?_⟩
  have hline : lineAt? content n = some (withoutReturn m.text) := by
    rw [lineAt?, NumberedLines.line?_ofText, List.getElem?_map, getElem?_lineRows hrow m.text_ne_nil]
    rfl
  refine ⟨documentationAt (.ofText content.toList) n, mem_numberedMacros_iff.2
    ⟨withoutReturn m.text, m.name.toList, _, hline, m.declares_text, ?_⟩⟩
  rw [macroOn, m.map_paramOf_fields]
  simp [WrittenMacro.command]

/-- A macro with a parameter of each kind. The endings also stand inside names and values. -/
def sampleMacro : WrittenMacro where
  indent := "\t ".toList
  gap := "\u00a0 ".toList
  name := "give_ß"
  params := [(" ".toList, ⟨"item:req", .required⟩), (",\t,".toList, ⟨"a:b", .withDefault "x:req="⟩),
    ("\u3000".toList, ⟨"n", .withDefault ""⟩), (", ".toList, ⟨"\\more", .optional⟩),
    (",".toList, ⟨"rest", .vararg⟩)]
  tail := ", \r".toList
  isBlank_indent := List.all_eq_true.1 (by decide)
  gap_ne_nil := by decide
  isBlank_gap := List.all_eq_true.1 (by decide)
  name_ne_nil := by decide
  isWordChar_name := List.all_eq_true.1 (by decide +kernel)
  separated := by
    simp
    decide
  writable := by decide
  isSeparator_tail := List.all_eq_true.1 (by decide)

theorem written_macros_read_back_sample :
    let content :=
      "@ d\r\n\t .macro\u00a0 give_ß item:req:req,\t,a:b=x:req=\u3000n=, \\more,rest:vararg, \r\n"
    (pieces (· == '\n') content.toList)[1]? = some sampleMacro.text ∧
      extractMacros content = [sampleMacro.command "d"] ∧
      ∃ numbered documentation, MacrosByLine content numbered ∧
        (1, sampleMacro.command documentation) ∈ numbered := by
  intro content
  have hrow : (pieces (· == '\n') content.toList)[1]? = some sampleMacro.text := by decide +kernel
  obtain ⟨numbered, hnumbered, hwritten⟩ := written_macros_read_back content
  obtain ⟨documentation, hmem⟩ := hwritten 1 sampleMacro hrow
  exact ⟨hrow, by decide +kernel, numbered, documentation, hnumbered, hmem⟩

end ScriptIndex.Command
