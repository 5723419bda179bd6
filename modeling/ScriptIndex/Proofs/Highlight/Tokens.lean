import Mathlib.Algebra.Group.Nat.Defs
import Mathlib.Data.List.Forall2
import ScriptIndex.Highlight.Kind
import ScriptIndex.Proofs.Highlight.Words

/-!
# What an editor reads from token data

An editor adds up the line numbers of token data, and the columns as long as it stays on one line.
Spans that come in order are read back as they were. The spans of a document come in order, since the
words do and since their columns in UTF-16 units are ordered like their byte columns, so what is read
from the token data of a document are its highlighted words.
-/
namespace ScriptIndex.Highlight

open Text

/-- The spans of data that follows a span at the given line and column. -/
def decodeFrom (line start : Nat) : List Nat → List Span
  | lines :: columns :: length :: kind :: modifiers :: data =>
    let span : Span :=
      ⟨line + lines, if lines = 0 then start + columns else columns, length, kind, modifiers⟩
    span :: decodeFrom span.line span.start data
  | _ => []

def decode (data : List Nat) : List Span := decodeFrom 0 0 data

/-- The span starts at the given place or after it. -/
def Span.StartsFrom (line start : Nat) (span : Span) : Prop :=
  line < span.line ∨ line = span.line ∧ start ≤ span.start

theorem Span.startsFrom_zero (span : Span) : span.StartsFrom 0 0 := by
  rw [StartsFrom]
  omega

theorem decodeFrom_encodeFrom {line start : Nat} {spans : List Span}
    (hfirst : ∀ span ∈ spans, span.StartsFrom line start)
    (hsorted : spans.Pairwise fun s t => t.StartsFrom s.line s.start) :
    decodeFrom line start (encodeFrom line start spans) = spans := by
  induction spans generalizing line start with
  | nil => rfl
  | cons span spans ih =>
    rw [List.pairwise_cons] at hsorted
    have hline : line + (span.line - line) = span.line := by
      rcases hfirst span List.mem_cons_self with hlater | ⟨hsame, -⟩ <;> omega
    have hstart : (if span.line - line = 0 then
        start + (if span.line = line then span.start - start else span.start) else
        if span.line = line then span.start - start else span.start) = span.start := by
      rcases hfirst span List.mem_cons_self with hlater | ⟨rfl, hle⟩
      · rw [if_neg (by omega), if_neg (by omega)]
      · rw [if_pos (Nat.sub_self _), if_pos rfl, Nat.add_sub_cancel' hle]
    simp only [encodeFrom, List.cons_append, List.nil_append, decodeFrom, hline, hstart]
    rw [ih hsorted.1 hsorted.2]

/-- Spans in ascending order are read back as they were. -/
theorem decode_encode {spans : List Span}
    (hsorted : spans.Pairwise fun s t => t.StartsFrom s.line s.start) :
    decode (encode spans) = spans :=
  decodeFrom_encodeFrom (fun span _ => span.startsFrom_zero) hsorted

/-- The numbers of a span fit in 32 bits. -/
structure Span.Fits (span : Span) : Prop where
  line : span.line < 2 ^ 32
  start : span.start < 2 ^ 32
  length : span.length < 2 ^ 32
  kind : span.kind < 2 ^ 32
  modifiers : span.modifiers < 2 ^ 32

/-- The data of spans that follow a span at the given line and column, with differences that may be
negative. -/
def differencesFrom (line start : Nat) : List Span → List Int
  | [] => []
  | s :: spans =>
    [(s.line : Int) - line, if s.line = line then (s.start : Int) - start else s.start, s.length,
      s.kind, s.modifiers] ++ differencesFrom s.line s.start spans

/-- The data of spans, with differences that may be negative. -/
def differences (spans : List Span) : List Int := differencesFrom 0 0 spans

/-- No difference is cut off at zero when every span starts at or after the one before it. -/
theorem map_ofNat_encodeFrom {line start : Nat} {spans : List Span}
    (hfirst : ∀ span ∈ spans, span.StartsFrom line start)
    (hsorted : spans.Pairwise fun s t => t.StartsFrom s.line s.start) :
    (encodeFrom line start spans).map Int.ofNat = differencesFrom line start spans := by
  induction spans generalizing line start with
  | nil => rfl
  | cons span spans ih =>
    rw [List.pairwise_cons] at hsorted
    have hline : Int.ofNat (span.line - line) = (span.line : Int) - line := by
      apply Int.ofNat_sub
      rcases hfirst span List.mem_cons_self with hlater | ⟨hsame, -⟩ <;> omega
    have hstart : Int.ofNat (if span.line = line then span.start - start else span.start) =
        if span.line = line then (span.start : Int) - start else span.start := by
      rcases hfirst span List.mem_cons_self with hlater | ⟨rfl, hle⟩
      · rw [if_neg (by omega), if_neg (by omega)]
        rfl
      · rw [if_pos rfl, if_pos rfl]
        exact Int.ofNat_sub hle
    rw [encodeFrom, differencesFrom, List.map_append, ih hsorted.1 hsorted.2]
    simp only [List.map_cons, List.map_nil, hline, hstart]
    rfl

theorem lt_of_mem_encodeFrom {line start : Nat} {spans : List Span}
    (hfits : ∀ span ∈ spans, span.Fits) {n : Nat} (hn : n ∈ encodeFrom line start spans) :
    n < 2 ^ 32 := by
  induction spans generalizing line start with
  | nil => cases hn
  | cons span spans ih =>
    rw [List.forall_mem_cons] at hfits
    obtain ⟨hline, hstart, hlength, hkind, hmodifiers⟩ := hfits.1
    rcases List.mem_append.1 hn with hfirst | hlater
    · simp only [List.mem_cons, List.not_mem_nil, or_false] at hfirst
      rcases hfirst with rfl | rfl | rfl | rfl | rfl
      · omega
      · split <;> omega
      · exact hlength
      · exact hkind
      · exact hmodifiers
    · exact ih hfits.2 hlater

/-- Spans of 32-bit numbers in ascending order, several at one place allowed: their data are read back as
they were and belong to no other such spans, no difference is cut off, and each number fits in 32 bits. -/
theorem encode_is_lossless (spans : List Span) (hfits : ∀ span ∈ spans, span.Fits)
    (hsorted : spans.Pairwise fun s t => t.StartsFrom s.line s.start) :
    decode (encode spans) = spans ∧ (encode spans).map Int.ofNat = differences spans ∧
      (∀ n ∈ encode spans, n < 2 ^ 32) ∧
      ∀ other : List Span, (other.Pairwise fun s t => t.StartsFrom s.line s.start) →
        encode other = encode spans → other = spans := by
  refine ⟨decode_encode hsorted, map_ofNat_encodeFrom (fun span _ => span.startsFrom_zero) hsorted,
    fun n hn => lt_of_mem_encodeFrom hfits hn, fun other hother hsame => ?_⟩
  rw [← decode_encode hother, hsame, decode_encode hsorted]

/-- Two spans at one place, one further on the line and one on a later line. -/
theorem encode_is_lossless_twins :
    let spans : List Span := [⟨0, 5, 3, 1, 0⟩, ⟨0, 5, 4, 0, 0⟩, ⟨0, 9, 2, 1, 7⟩, ⟨2, 4294967295, 0, 0, 0⟩]
    (∀ span ∈ spans, span.Fits) ∧ (spans.Pairwise fun s t => t.StartsFrom s.line s.start) ∧
      encode spans = [0, 5, 3, 1, 0, 0, 0, 4, 0, 0, 0, 4, 2, 1, 7, 2, 4294967295, 0, 0, 0] ∧
      decode (encode spans) = spans := by
  intro spans
  have hfits : ∀ span ∈ spans, span.Fits := by
    simp only [spans, List.forall_mem_cons]
    exact ⟨⟨by decide, by decide, by decide, by decide, by decide⟩,
      ⟨by decide, by decide, by decide, by decide, by decide⟩,
      ⟨by decide, by decide, by decide, by decide, by decide⟩,
      ⟨by decide, by decide, by decide, by decide, by decide⟩, fun _ h => absurd h List.not_mem_nil⟩
  have hsorted : spans.Pairwise fun s t => t.StartsFrom s.line s.start := by
    simp [spans, Span.StartsFrom]
  exact ⟨hfits, hsorted, rfl, (encode_is_lossless spans hfits hsorted).1⟩

theorem Kind.all_index (kind : Kind) : Kind.all[kind.index]? = some kind := by
  cases kind <;> rfl

/-- The span lies on the characters of the word, in UTF-16 units, and has the number of the word's
kind. -/
structure Marks (facts : Facts) (word : Word) (span : Span) : Prop where
  line : span.line = word.line
  start : ∃ before after,
    (lines facts.content.toList)[word.line]? = some (before ++ word.text.toList ++ after) ∧
      byteLength before = word.start ∧ span.start = unitLength before
  length : span.length = unitLength word.text.toList ∧ span.length = word.text.utf8ByteSize
  nonempty : 0 < span.length
  kind : ∃ kind, kindOf? facts word = some kind ∧ Kind.all[span.kind]? = some kind
  modifiers : span.modifiers = 0

section Document

variable {facts : Facts}

theorem marks_spanOf (hsize : facts.content.utf8ByteSize ≤ maxCount) {word : Word}
    (hword : word ∈ codeWords facts.content) {kind : Kind} (hkind : kindOf? facts word = some kind) :
    Marks facts word (spanOf word kind) := by
  rw [← byteLength_toList] at hsize
  have hstands := standsIn_of_mem_codeWords (Nat.le_trans (length_lines_le _) hsize) hword
  obtain ⟨before, after, htext, hbefore⟩ := hstands.place
  have hline : byteLength word.lineText ≤ maxCount :=
    Nat.le_trans (byteLength_le_of_mem_lines (List.mem_of_getElem? hstands.line)) hsize
  rw [htext, byteLength_append, byteLength_append] at hline
  obtain ⟨hbytes, hunits⟩ := measures_of_ascii hstands.ascii
  have hlength : (spanOf word kind).length = word.text.toList.length := by
    change clip word.text.utf8ByteSize = _
    rw [← byteLength_toList, clip_of_le (by omega), hbytes]
  refine ⟨rfl, ⟨before, after, htext ▸ hstands.line, hbefore, ?_⟩, ⟨?_, ?_⟩, ?_,
    ⟨kind, hkind, kind.all_index⟩, rfl⟩
  · have hcount := unitLength_le_byteLength before
    change unitsOfBytes word.lineText word.start = _
    rw [htext, ← hbefore, List.append_assoc, unitsOfBytes_append (by omega)]
  · rw [hlength, hunits]
  · rw [hlength, ← byteLength_toList, hbytes]
  · rw [hlength]
    exact List.length_pos_iff.2 hstands.nonempty

/-- Words that follow one another are marked by spans that do. -/
theorem Marks.order {v w : Word} {s t : Span} (hs : Marks facts v s) (ht : Marks facts w t)
    (h : v.EndsBefore w) :
    s.line < t.line ∨ s.line = t.line ∧ s.start < t.start ∧ s.start + s.length ≤ t.start := by
  rw [hs.line, ht.line]
  rcases h with hless | ⟨hsame, hle⟩
  · exact Or.inl hless
  · obtain ⟨before, after, hv, hbefore, hstart⟩ := hs.start
    obtain ⟨before', after', hw, hbefore', hstart'⟩ := ht.start
    rw [hsame, hw, List.append_assoc before'] at hv
    rw [← hbefore, ← hbefore', ← byteLength_append] at hle
    obtain ⟨middle, hmiddle⟩ := exists_append_of_byteLength_le (Option.some.inj hv).symm hle
    have hpos := hs.nonempty
    refine Or.inr ⟨hsame, ?_⟩
    rw [hstart, hstart', hmiddle, unitLength_append, unitLength_append, ← hs.length.1]
    omega

theorem forall₂_marks_spans (words : List Word)
    (hmarks : ∀ word ∈ words, ∀ kind, kindOf? facts word = some kind →
      Marks facts word (spanOf word kind)) :
    List.Forall₂ (Marks facts) (words.filter fun word => (kindOf? facts word).isSome)
      (words.filterMap fun word => (kindOf? facts word).map (spanOf word)) := by
  induction words with
  | nil => exact List.Forall₂.nil
  | cons word words ih =>
    rw [List.forall_mem_cons] at hmarks
    cases hkind : kindOf? facts word with
    | none => simpa [hkind] using ih hmarks.2
    | some kind => simpa [hkind] using ⟨hmarks.1 kind hkind, ih hmarks.2⟩

theorem pairwise_spans (hsize : facts.content.utf8ByteSize ≤ maxCount) :
    (spans facts).Pairwise fun s t =>
      s.line < t.line ∨ s.line = t.line ∧ s.start < t.start ∧ s.start + s.length ≤ t.start := by
  have hcount : (lines facts.content.toList).length ≤ maxCount :=
    Nat.le_trans (length_lines_le _) (by rwa [byteLength_toList])
  rw [spans, List.pairwise_filterMap]
  refine (pairwise_codeWords hcount).imp_of_mem fun {v w} hv hw hvw s hs t ht => ?_
  obtain ⟨kind, hkind, rfl⟩ := Option.map_eq_some_iff.1 hs
  obtain ⟨kind', hkind', rfl⟩ := Option.map_eq_some_iff.1 ht
  exact (marks_spanOf hsize hv hkind).order (marks_spanOf hsize hw hkind') hvw

end Document

/-- What is read from the token data of a document of fewer than `2 ^ 32` bytes: the words that have a
kind, each where it stands, in the order of the document and without overlaps. -/
theorem decode_tokenData (facts : Facts) (hsize : facts.content.utf8ByteSize < 2 ^ 32) :
    List.Forall₂ (Marks facts)
        ((codeWords facts.content).filter fun word => (kindOf? facts word).isSome)
        (decode (tokenData facts)) ∧
      (decode (tokenData facts)).Pairwise fun s t =>
        s.line < t.line ∨ s.line = t.line ∧ s.start < t.start ∧ s.start + s.length ≤ t.start := by
  have hcount : facts.content.utf8ByteSize ≤ maxCount := Nat.le_of_lt_succ hsize
  have horder := pairwise_spans hcount
  have hdecoded : decode (tokenData facts) = spans facts :=
    decode_encode (horder.imp fun h => h.imp_right fun h => ⟨h.1, Nat.le_of_lt h.2.1⟩)
  rw [hdecoded]
  exact ⟨forall₂_marks_spans _ fun word hword kind => marks_spanOf hcount hword, horder⟩

/-- A document with a string of characters of four and two bytes, a constant that is used and then
declared, and a comment. -/
def shopFacts : Facts where
  content := "\"😀é\" lock SHOP\nconst SHOP = 2 # lock\n\tlock"
  commands := (∅ : NameMap Command).insert "lock" { name := "lock", kind := .macroCall }
  constants := (∅ : NameMap Constant).insert "SHOP" ⟨"SHOP", ⟨1, 6⟩, "shop.pory"⟩
  symbols := ∅
  miscTokens := ∅

/-- The first word starts after six UTF-16 units and nine bytes of its line. -/
theorem decode_tokenData_shop :
    let read : List Span := [⟨0, 6, 4, 1, 0⟩, ⟨0, 11, 4, 2, 0⟩, ⟨2, 1, 4, 1, 0⟩]
    shopFacts.content.utf8ByteSize < 2 ^ 32 ∧ decode (tokenData shopFacts) = read ∧
      List.Forall₂ (Marks shopFacts)
        ((codeWords shopFacts.content).filter fun word => (kindOf? shopFacts word).isSome) read := by
  intro read
  have hsize : shopFacts.content.utf8ByteSize < 2 ^ 32 := by decide +kernel
  have hread : decode (tokenData shopFacts) = read := by decide +kernel
  exact ⟨hsize, hread, hread ▸ (decode_tokenData shopFacts hsize).1⟩

end ScriptIndex.Highlight
