import Mathlib.Algebra.Group.Nat.Defs
import ScriptIndex.Feature.SignatureHelp
import ScriptIndex.Proofs.Command.Signature
import ScriptIndex.Proofs.Comment.Escapes
import ScriptIndex.Proofs.Cursor.CallSite

/-!
# The parameter at the cursor

A call is written on a line as a name, an opening parenthesis, arguments with commas between them and a
closing parenthesis. From behind the opening parenthesis up to the closing one the help for the call is
shown. Its parameter is the one whose argument the cursor is in, and a cursor on the comma that ends an
argument is still in it.
-/
namespace ScriptIndex

open Text

/-- A call on a line, with what stands before it and after it. -/
structure WrittenCall where
  before : List Char
  name : List Char
  arguments : List (List Char)
  after : List Char
  name_ne_nil : name ≠ []
  name_word : ∀ c ∈ name, isAsciiWord c = true
  before_end : ∀ c ∈ before.getLast?, isAsciiWord c = false
  plain : ∀ argument ∈ arguments, ∀ c ∈ argument, c ≠ '(' ∧ c ≠ ')' ∧ c ≠ ','

namespace WrittenCall

variable (call : WrittenCall)

def head : List Char := call.before ++ call.name

def inner : List Char := [','].intercalate call.arguments

def text : List Char := call.head ++ '(' :: (call.inner ++ [')'])

def line : List Char := call.text ++ call.after

/-- The first `k` arguments, each with the comma that ends it. -/
def ended (k : Nat) : List Char := (call.arguments.take k).flatMap (· ++ [','])

/-- The line up to a cursor behind a part of argument `k`. -/
def upTo (k : Nat) (part : List Char) : List Char := call.head ++ '(' :: (call.ended k ++ part)

theorem exists_inner_of_part {k : Nat} {argument part : List Char}
    (hk : call.arguments[k]? = some argument) (hpart : part <+: argument) :
    ∃ rest, call.inner = (call.ended k ++ part) ++ rest := by
  obtain ⟨rest, hinner⟩ := exists_intercalate_eq [','] hk
  obtain ⟨remainder, rfl⟩ := hpart
  exact ⟨remainder ++ rest, by simp [inner, ended, hinner]⟩

theorem ne_paren_of_mem_inner {c : Char} (h : c ∈ call.inner) : c ≠ '(' ∧ c ≠ ')' := by
  have hplain := call.plain
  rw [inner] at h
  generalize call.arguments = arguments at h hplain
  induction arguments with
  | nil => simp at h
  | cons first later ih =>
    rw [List.forall_mem_cons] at hplain
    cases later with
    | nil =>
      have hc := hplain.1 c (by simpa using h)
      exact ⟨hc.1, hc.2.1⟩
    | cons second later =>
      rw [List.intercalate_cons_cons, List.mem_append, List.mem_append] at h
      rcases h with (hfirst | hcomma) | hlater
      · have hc := hplain.1 c hfirst
        exact ⟨hc.1, hc.2.1⟩
      · rw [List.mem_singleton.1 hcomma]
        decide
      · exact ih hlater hplain.2

theorem not_mem_bytes_inner : 0x28 ∉ bytes call.inner ∧ 0x29 ∉ bytes call.inner := by
  constructor
  · rw [← List.count_eq_zero, count_bytes (by decide), List.count_eq_zero]
    exact fun h => (call.ne_paren_of_mem_inner h).1 rfl
  · rw [← List.count_eq_zero, count_bytes (by decide), List.count_eq_zero]
    exact fun h => (call.ne_paren_of_mem_inner h).2 rfl

/-- Before a cursor in argument `k` there are `k` commas of the call. -/
theorem count_comma {k : Nat} {argument part : List Char}
    (hk : call.arguments[k]? = some argument) (hpart : part <+: argument) :
    (bytes (call.ended k ++ part)).count 0x2C = k := by
  have hlt : k < call.arguments.length := (List.getElem?_eq_some_iff.1 hk).1
  have hpartCount : part.count ',' = 0 := by
    rw [List.count_eq_zero]
    intro hmem
    exact (call.plain argument (List.mem_of_getElem? hk) ',' (hpart.subset hmem)).2.2 rfl
  have hcount (arguments : List (List Char)) (h : ∀ argument ∈ arguments, ',' ∉ argument) :
      (arguments.flatMap (· ++ [','])).count ',' = arguments.length := by
    induction arguments with
    | nil => rfl
    | cons first later ih =>
      rw [List.forall_mem_cons] at h
      simp [List.count_eq_zero.2 h.1, ih h.2]
  have hended : (call.ended k).count ',' = k := by
    rw [ended, hcount, List.length_take, Nat.min_eq_left (Nat.le_of_lt hlt)]
    intro argument hmem hcomma
    exact (call.plain argument (List.mem_of_mem_take hmem) ',' hcomma).2.2 rfl
  rw [count_bytes (by decide), List.count_append]
  exact congrArg₂ (· + ·) hended hpartCount

end WrittenCall

/-- Of the indices found in a text, as many are before the end of its first part as there are found in
this part. -/
theorem countP_findIdxs_append {α : Type} (p : α → Bool) (xs ys : List α) (start : Nat) :
    ((xs ++ ys).findIdxs p start).countP (fun i => decide (i < start + xs.length)) =
      xs.countP p := by
  rw [List.findIdxs_append, List.countP_append, List.countP_eq_length.2, List.countP_eq_zero.2,
    List.length_findIdxs, Nat.add_zero]
  · intro i hi
    have := List.ge_of_mem_findIdxs i hi
    simpa using this
  · intro i hi
    have := List.lt_add_of_mem_findIdxs i hi
    simp
    omega

section Help

variable {facts : Facts} {number : Nat} {call : WrittenCall}

/-- The call is found from its opening parenthesis to its closing one. -/
theorem callSiteAt_written (hline : (lines facts.content.toList)[number]? = some call.line)
    (hkept : byteLength call.text ≤ byteLength (Comment.before call.line)) {column : Nat}
    (hfrom : byteLength call.head ≤ column)
    (hto : column ≤ byteLength call.head + byteLength call.inner + 1) :
    Cursor.callSiteAt facts.content number column = .ok
      { command := String.ofList call.name
        openParen := .clipped number (byteLength call.head)
        closeParen := .clipped number (byteLength call.head + 1 + byteLength call.inner)
        commas := ((bytes call.inner).findIdxs (· == 0x2C) (byteLength call.head + 1)).map
          (.clipped number) } := by
  have hsplit : ∃ rest, Comment.before call.line = call.text ++ rest := by
    obtain ⟨cut, hcut⟩ := takeBytes_isPrefix (Comment.start (bytes call.line)) call.line
    exact exists_append_of_byteLength_le hcut.symm hkept
  obtain ⟨rest, hrest⟩ := hsplit
  have hcode : Cursor.codeBytes? facts.content number = some ((bytes call.before ++ bytes call.name) ++
      0x28 :: (bytes call.inner ++ 0x29 :: bytes rest)) := by
    rw [Cursor.codeBytes?, hline, Option.map_some, hrest]
    simp [WrittenCall.text, WrittenCall.head]
    rfl
  have hhead : byteLength call.head = (bytes call.before ++ bytes call.name).length := by
    rw [WrittenCall.head, ← length_bytes, bytes_append]
  have hword := isWordByte_of_mem_bytes call.name_word
  have hname : bytes call.name ≠ [] := by
    intro hnil
    exact call.name_ne_nil (bytes_inj (hnil.trans bytes_nil.symm))
  have hcommand : ofAscii (bytes call.name) = String.ofList call.name := by
    have hascii := @ofAscii_bytes (String.ofList call.name)
    rw [String.toList_ofList] at hascii
    exact hascii fun b hb => toNat_lt_of_isWordByte (hword b hb)
  rw [hhead, ← length_bytes call.inner] at hto ⊢
  rw [hhead] at hfrom
  rw [Cursor.callSiteAt_of_call hcode hname hword (isWordByte_of_getLast? call.before_end)
    call.not_mem_bytes_inner.1 call.not_mem_bytes_inner.2 hfrom hto, hcommand]

theorem activeParameter_eq (parameters : List Param) (k : Nat) : activeParameter parameters k =
    if parameters.length - 1 < k ∧ parameters.getLast?.map Param.kind = some .vararg
    then parameters.length - 1 else k := by
  rw [List.getLast?_eq_getElem?]
  cases hlast : parameters[parameters.length - 1]? <;> simp [activeParameter, hlast]

theorem activeParameter_le (parameters : List Param) (k : Nat) : activeParameter parameters k ≤ k := by
  simp only [activeParameter]
  split <;> omega

/-- As many commas are before a cursor in argument `k` of a call. -/
theorem length_filter_commas {k : Nat} {argument part : List Char}
    (hk : call.arguments[k]? = some argument) (hpart : part <+: argument) {start : Nat}
    (hcolumn : start + byteLength (call.ended k ++ part) ≤ maxCount) :
    ((((bytes call.inner).findIdxs (· == 0x2C) start).map (.clipped number)).filter
      fun comma : Position => comma.character < start + byteLength (call.ended k ++ part)).length =
        k := by
  obtain ⟨rest, hinner⟩ := call.exists_inner_of_part hk hpart
  have hcomma : (bytes (call.ended k ++ part)).countP (· == 0x2C) = k := call.count_comma hk hpart
  have hclip : (fun comma : Position =>
      decide (comma.character < start + byteLength (call.ended k ++ part))) ∘ .clipped number =
        fun i => decide (i < start + (bytes (call.ended k ++ part)).length) := by
    funext i
    rw [length_bytes]
    exact decide_eq_decide.2 (clip_lt_iff hcolumn i)
  rw [← List.countP_eq_length_filter, List.countP_map, hclip, hinner,
    bytes_append _ rest, countP_findIdxs_append, hcomma]

/-- The help for a call, with the argument that the cursor is in. A cursor whose column cannot be counted
is behind the closing parenthesis, wherever that stands. -/
theorem signatureHelpAt?_written (hline : (lines facts.content.toList)[number]? = some call.line)
    (hkept : byteLength call.text ≤ byteLength (Comment.before call.line)) {command : Command}
    (hcommand : facts.commands.find? (String.ofList call.name) = some command)
    (hparameters : command.parameters ≠ []) {k : Nat} {argument part : List Char}
    (hk : call.arguments[k]? = some argument) (hpart : part <+: argument) :
    signatureHelpAt? facts number (unitLength (call.upTo k part)) =
      if byteLength (call.upTo k part) ≤ maxCount then some
        { signature := command.signature
          documentation := CompletionItem.nonempty? command.documentation
          activeParameter := activeParameter command.parameters k }
      else none := by
  have hupTo : byteLength (call.upTo k part) =
      byteLength call.head + 1 + byteLength (call.ended k ++ part) := by
    rw [WrittenCall.upTo, byteLength_append, byteLength_cons, Nat.add_assoc]
    rfl
  obtain ⟨rest, hinner⟩ := call.exists_inner_of_part hk hpart
  have hcursor : bytesAtCursor facts.content.toList number (unitLength (call.upTo k part)) =
      byteLength (call.upTo k part) := by
    have hfront : call.line = call.upTo k part ++ (rest ++ ')' :: call.after) := by
      simp [WrittenCall.line, WrittenCall.text, WrittenCall.upTo, hinner]
    simp only [bytesAtCursor, hline]
    rw [hfront, bytesOfUnits_append]
  have hto : byteLength (call.upTo k part) ≤ byteLength call.head + byteLength call.inner + 1 := by
    rw [hupTo, hinner, byteLength_append _ rest]
    omega
  rw [signatureHelpAt?]
  simp only [hcursor, callSiteAt_written hline hkept (by omega) hto, hcommand, Position.clipped]
  by_cases hcolumn : byteLength (call.upTo k part) ≤ maxCount
  · have hcount : k ≤ maxCount := by
      have hcomma : (bytes (call.ended k ++ part)).count 0x2C ≤
          (bytes (call.ended k ++ part)).length := List.count_le_length
      rw [call.count_comma hk hpart, length_bytes] at hcomma
      omega
    have hinside : ¬(command.parameters.isEmpty = true ∨
        byteLength (call.upTo k part) ≤ clip (byteLength call.head) ∨
          clip (byteLength call.head + 1 + byteLength call.inner) < byteLength (call.upTo k part)) := by
      rw [clip_lt_iff hcolumn, ← Nat.not_lt, clip_lt_iff hcolumn]
      simp only [List.isEmpty_iff, hparameters, false_or]
      omega
    rw [if_neg hinside, if_pos hcolumn, hupTo, length_filter_commas hk hpart (hupTo ▸ hcolumn),
      clip_of_le (Nat.le_trans (activeParameter_le _ _) hcount)]
  · have hbehind : clip (byteLength call.head + 1 + byteLength call.inner) <
        byteLength (call.upTo k part) :=
      Nat.lt_of_le_of_lt (Nat.min_le_right _ _) (Nat.lt_of_not_le hcolumn)
    rw [if_pos (Or.inr (Or.inr hbehind)), if_neg hcolumn]

/-- On the opening parenthesis itself there is no help. -/
theorem signatureHelpAt?_head (hline : (lines facts.content.toList)[number]? = some call.line)
    (hkept : byteLength call.text ≤ byteLength (Comment.before call.line)) :
    signatureHelpAt? facts number (unitLength call.head) = none := by
  have hcursor : bytesAtCursor facts.content.toList number (unitLength call.head) =
      byteLength call.head := by
    simp only [bytesAtCursor, hline]
    rw [WrittenCall.line, WrittenCall.text, List.append_assoc, bytesOfUnits_append]
  -- a parenthesis whose column is clipped is still not before the cursor
  have houtside : byteLength call.head ≤ clip (byteLength call.head) ∨
      clip (byteLength call.head + 1 + byteLength call.inner) < byteLength call.head := by
    simp only [clip]
    omega
  rw [signatureHelpAt?]
  simp only [hcursor, callSiteAt_written hline hkept (Nat.le_refl _) (by omega), Position.clipped]
  split
  · rfl
  · rw [if_pos (Or.inr houtside)]

end Help

/-- For a call of a known command with parameters that no comment cuts off, the help follows the cursor:
in argument `k`, from behind the character that opens it up to the one that ends it, parameter `k` is
active, or the last one if there are no more and it takes all further arguments. On the opening
parenthesis there is no help, and neither is there at a column that 32 bits cannot count. -/
theorem help_follows_arguments (facts : Facts) (number : Nat) (call : WrittenCall)
    (hline : (lines facts.content.toList)[number]? = some call.line)
    (hkept : byteLength call.text ≤ byteLength (Comment.before call.line)) (command : Command)
    (hcommand : facts.commands.find? (String.ofList call.name) = some command)
    (hparameters : command.parameters ≠ []) :
    (∀ k argument part, call.arguments[k]? = some argument → part <+: argument →
      let last := command.parameters.length - 1
      signatureHelpAt? facts number (unitLength (call.upTo k part)) =
        if byteLength (call.upTo k part) < 2 ^ 32 then some
          { signature := command.signature
            documentation := CompletionItem.nonempty? command.documentation
            activeParameter :=
              if last < k ∧ command.parameters.getLast?.map Param.kind = some .vararg then last
              else k }
        else none) ∧
    signatureHelpAt? facts number (unitLength call.head) = none := by
  refine ⟨fun k argument part hk hpart => ?_, signatureHelpAt?_head hline hkept⟩
  intro last
  rw [signatureHelpAt?_written hline hkept hcommand hparameters hk hpart, activeParameter_eq]
  exact if_congr Nat.lt_succ_iff.symm rfl rfl

/-- A document with a call whose first argument holds characters of two and four bytes, before a comment
that holds parentheses. -/
def greeting : Facts where
  content := "lock\né say(\"é😀\", b,c) # (,)"
  commands := (∅ : NameMap Command).insert "say"
    { name := "say", kind := .macroCall, parameters := [⟨"text", .required⟩, ⟨"more", .vararg⟩] }
  constants := ∅
  symbols := ∅
  miscTokens := ∅

def greetingCall : WrittenCall where
  before := "é ".toList
  name := "say".toList
  arguments := ["\"é😀\"".toList, " b".toList, "c".toList]
  after := " # (,)".toList
  name_ne_nil := by decide
  name_word := by simp [isAsciiWord]
  before_end := by simp [isAsciiWord]
  plain := by simp

/-- The third argument belongs to the second parameter, and the cursor is at the closing parenthesis. -/
theorem help_follows_arguments_greeting :
    unitLength (greetingCall.upTo 2 ['c']) = 16 ∧
      signatureHelpAt? greeting 1 16 = some ⟨⟨"say(text, more...)", [(4, 8), (10, 17)]⟩, none, 1⟩ ∧
      signatureHelpAt? greeting 1 5 = none := by
  have hhelp := help_follows_arguments greeting 1 greetingCall (by decide +kernel) (by decide +kernel)
    { name := "say", kind := .macroCall, parameters := [⟨"text", .required⟩, ⟨"more", .vararg⟩] }
    (by decide +kernel) (by decide)
  have hargument := hhelp.1 2 ['c'] ['c'] rfl List.prefix_rfl
  have hcolumn : unitLength (greetingCall.upTo 2 ['c']) = 16 := by decide +kernel
  have hhead : unitLength greetingCall.head = 5 := by decide +kernel
  rw [hcolumn] at hargument
  rw [hhead] at hhelp
  refine ⟨hcolumn, hargument.trans ?_, hhelp.2⟩
  decide +kernel

/-- A call without arguments behind `n` characters of two bytes. -/
def indentedCall (n : Nat) : WrittenCall where
  before := List.replicate n 'é'
  name := "say".toList
  arguments := [[]]
  after := []
  name_ne_nil := by decide
  name_word := by simp [isAsciiWord]
  before_end := by
    intro c hc
    obtain rfl := List.eq_of_mem_replicate (List.mem_of_getLast? hc)
    decide
  plain := by simp

def indented (n : Nat) : Facts := { greeting with content := String.ofList (indentedCall n).line }

theorem line_indentedCall (n : Nat) :
    (indentedCall n).line = List.replicate n 'é' ++ "say()".toList := by
  simp [WrittenCall.line, WrittenCall.text, WrittenCall.head, WrittenCall.inner, indentedCall]

theorem not_mem_line_indentedCall {c : Char} (hfront : c ≠ 'é') (hcall : c ∉ "say()".toList) (n : Nat) :
    c ∉ (indentedCall n).line := by
  rw [line_indentedCall, List.mem_append]
  rintro (hmem | hmem)
  · exact hfront (List.eq_of_mem_replicate hmem)
  · exact hcall hmem

theorem lines_indented (n : Nat) :
    (lines (indented n).content.toList)[0]? = some (indentedCall n).line := by
  have hne : (indentedCall n).line ≠ [] := by simp [line_indentedCall]
  have hfeed : '\n' ∉ (indentedCall n).line := not_mem_line_indentedCall (by decide) (by decide) n
  rw [indented, String.toList_ofList, lines_of_not_mem hfeed hne]
  rfl

theorem kept_indentedCall (n : Nat) : byteLength (indentedCall n).text ≤
    byteLength (Comment.before (indentedCall n).line) := by
  rw [Comment.before_of_not_mem (not_mem_line_indentedCall (by decide) (by decide) n)
    (not_mem_line_indentedCall (by decide) (by decide) n), WrittenCall.line, byteLength_append]
  exact Nat.le_add_right _ _

/-- Behind 4 GiB of text both parentheses of a call are clipped to the same column, and the cursor between
them is behind both. The column of the cursor itself is small enough, since it counts UTF-16 units. -/
theorem clipped_columns_hide_help :
    let call := indentedCall (2 ^ 31)
    let facts := indented (2 ^ 31)
    (lines facts.content.toList)[0]? = some call.line ∧
      byteLength call.text ≤ byteLength (Comment.before call.line) ∧
      (∃ command, facts.commands.find? (String.ofList call.name) = some command ∧
        command.parameters ≠ []) ∧
      call.arguments[0]? = some [] ∧ unitLength (call.upTo 0 []) = 2 ^ 31 + 4 ∧
      signatureHelpAt? facts 0 (unitLength (call.upTo 0 [])) = none := by
  intro call facts
  have hline := lines_indented (2 ^ 31)
  have hkept := kept_indentedCall (2 ^ 31)
  have hcommand : facts.commands.find? (String.ofList call.name) =
      some { name := "say", kind := .macroCall,
             parameters := [⟨"text", .required⟩, ⟨"more", .vararg⟩] } := by
    decide +kernel
  have hfar : ¬byteLength (call.upTo 0 []) ≤ maxCount := by
    have hbefore : byteLength call.before = 2 ^ 31 * 2 := byteLength_replicate (2 ^ 31) 'é'
    rw [WrittenCall.upTo, WrittenCall.head, byteLength_append, byteLength_append, hbefore, maxCount]
    omega
  have hunits : unitLength (call.upTo 0 []) = 2 ^ 31 + 4 := by
    have hbefore : unitLength call.before = 2 ^ 31 * 1 := unitLength_replicate (2 ^ 31) 'é'
    rw [WrittenCall.upTo, WrittenCall.head, unitLength_append, unitLength_append, hbefore]
    rfl
  refine ⟨hline, hkept, ⟨_, hcommand, List.cons_ne_nil _ _⟩, rfl, hunits, ?_⟩
  rw [signatureHelpAt?_written hline hkept hcommand (List.cons_ne_nil _ _) rfl List.prefix_rfl,
    if_neg hfar]

end ScriptIndex
