import Mathlib.Data.Bool.AllAny
import Mathlib.Data.List.TakeWhile
import ScriptIndex.Proofs.Disk
import ScriptIndex.Proofs.Url.Escape
import ScriptIndex.Resource

/-!
# Reading the URL of a path

The URL of an absolute path is written segment by segment. Reading it back gives the names of the path,
with each pair of dots worked off and the bar of a leading drive letter turned into a colon.
-/
namespace ScriptIndex.Url

open Text

/-- How a name is written as a path segment. -/
def segmentOf (name : String) : String := String.ofList (escape segmentSet name.toList)

@[simp] theorem toList_segmentOf (name : String) :
    (segmentOf name).toList = escape segmentSet name.toList := String.toList_ofList

theorem unescape_segmentOf (name : String) :
    unescape (bytes (segmentOf name).toList) = bytes name.toList := by
  have h := unescape_escape name.toList []
  rw [List.append_nil] at h
  rw [toList_segmentOf, h]
  exact List.append_nil _

theorem eq_of_unescape_segmentOf {name other : String}
    (h : unescape (bytes (segmentOf name).toList) = bytes other.toList) : name = other := by
  rw [unescape_segmentOf] at h
  exact String.toList_injective (bytes_inj h)

theorem segmentOf_ne_empty {name : String} (h : name ≠ "") : segmentOf name ≠ "" := by
  intro hempty
  apply h
  apply eq_of_unescape_segmentOf
  rw [hempty]
  rfl

theorem isDoubleDot_segmentOf (name : String) :
    isDoubleDot (segmentOf name).toList = true ↔ name = ".." := by
  constructor
  · intro h
    apply eq_of_unescape_segmentOf
    simp only [isDoubleDot, List.any_cons, List.any_nil, Bool.or_false, Bool.or_eq_true,
      beq_iff_eq] at h
    rcases h with h | h | h | h | h | h | h | h | h <;> rw [← h] <;> decide
  · rintro rfl
    decide

theorem isSingleDot_segmentOf (name : String) :
    isSingleDot (segmentOf name).toList = true ↔ name = "." := by
  constructor
  · intro h
    apply eq_of_unescape_segmentOf
    simp only [isSingleDot, List.any_cons, List.any_nil, Bool.or_false, Bool.or_eq_true,
      beq_iff_eq] at h
    rcases h with h | h | h <;> rw [← h] <;> decide
  · rintro rfl
    decide

/-- A drive letter is a letter and a mark, both of which are written as they are. -/
theorem exists_of_isDriveLetter {cs : List Char} (h : isDriveLetter cs = true) :
    ∃ a b, cs = [a, b] ∧ a.isAlpha = true ∧ (b = ':' ∨ b = '|') := by
  match cs with
  | [a, b] =>
    simp only [isDriveLetter, Bool.and_eq_true, Bool.or_eq_true, beq_iff_eq] at h
    exact ⟨a, b, rfl, h⟩

theorem toNat_lt_of_isAlpha {c : Char} (h : c.isAlpha = true) : c.toNat < 128 := by
  rcases Bool.or_eq_true_iff.1 h with hupper | hlower
  · have hrange : 65 ≤ c.val ∧ c.val ≤ 90 := of_decide_eq_true hupper
    have hle : c.val.toNat ≤ 90 := UInt32.le_iff_toNat_le.1 hrange.2
    exact Nat.lt_of_le_of_lt hle (by decide)
  · have hrange : (decide (97 ≤ c.val) && decide (c.val ≤ 122)) = true := hlower
    rw [Bool.and_eq_true_iff, decide_eq_true_iff, decide_eq_true_iff] at hrange
    have hle : c.val.toNat ≤ 122 := UInt32.le_iff_toNat_le.1 hrange.2
    exact Nat.lt_of_le_of_lt hle (by decide)

theorem segmentSet_of_isAlpha {c : Char} (h : c.isAlpha = true) :
    segmentSet (UInt8.ofNat c.toNat) = false := by
  have hall : ∀ n : Nat, n < 128 → (Char.ofNat n).isAlpha = true →
      segmentSet (UInt8.ofNat n) = false := by decide
  apply hall c.toNat (toNat_lt_of_isAlpha h)
  rw [Char.ofNat_toNat]
  exact h

theorem escape_of_isDriveLetter {cs : List Char} (h : isDriveLetter cs = true) :
    escape segmentSet cs = cs := by
  obtain ⟨a, b, rfl, ha, hb⟩ := exists_of_isDriveLetter h
  apply escape_eq_self
  intro c hc
  simp only [List.mem_cons, List.not_mem_nil, or_false] at hc
  rcases hc with rfl | rfl
  · exact ⟨toNat_lt_of_isAlpha ha, segmentSet_of_isAlpha ha⟩
  · rcases hb with rfl | rfl <;> decide

theorem isDriveLetter_segmentOf (name : String) :
    isDriveLetter (segmentOf name).toList = isDriveLetter name.toList := by
  rw [Bool.eq_iff_iff]
  constructor
  · intro h
    obtain ⟨a, b, hs, ha, hb⟩ := exists_of_isDriveLetter h
    have hbound : b.toNat < 128 := by rcases hb with rfl | rfl <;> decide
    have hname : name = String.ofList [a, b] := by
      apply eq_of_unescape_segmentOf
      rw [hs, String.toList_ofList, bytes_cons, bytes_cons,
        utf8EncodeChar_of_lt (toNat_lt_of_isAlpha ha), utf8EncodeChar_of_lt hbound]
      rfl
    rw [hname, String.toList_ofList, ← hs]
    exact h
  · intro h
    rw [toList_segmentOf, escape_of_isDriveLetter h]
    exact h

theorem normalDrive_segmentOf (name : String) :
    String.ofList (normalDrive (segmentOf name).toList) =
      segmentOf (String.ofList (normalDrive name.toList)) := by
  rw [normalDrive, isDriveLetter_segmentOf, normalDrive]
  by_cases h : isDriveLetter name.toList = true
  · obtain ⟨a, b, hname, ha, -⟩ := exists_of_isDriveLetter h
    have hdrive : isDriveLetter [a, ':'] = true := by simp [isDriveLetter, ha]
    rw [if_pos h, if_pos h, toList_segmentOf, escape_of_isDriveLetter h, hname]
    apply String.toList_injective
    rw [toList_segmentOf, String.toList_ofList]
    exact (escape_of_isDriveLetter hdrive).symm
  · rw [if_neg h, if_neg h, String.ofList_toList, String.ofList_toList]

theorem shorten_segmentOf (names : List String) :
    shorten (names.map segmentOf) = (shorten names).map segmentOf := by
  rw [shorten, shorten, List.getLast?_map]
  cases names.getLast? with
  | none => rfl
  | some last =>
    simp only [Option.map_some, isDriveLetter_segmentOf]
    split
    · rfl
    · rw [List.map_dropLast]

/-- The names on the way to a file, after one more part of its path. -/
def step (names : List String) (part : String) : List String :=
  if part = ".." then shorten names
  else names ++ [if names.isEmpty then String.ofList (normalDrive part.toList) else part]

/-- What a path leaves at its end: an empty segment after a pair of dots. -/
def ending (part : String) : List String := if part = ".." then [""] else []

theorem pushWritten_segmentOf {part : String} (hdot : part ≠ ".") (slash : Bool)
    (names : List String) :
    pushWritten true slash (names.map segmentOf) (segmentOf part).toList =
      (step names part ++ if slash then [] else ending part).map segmentOf := by
  rw [pushWritten, step, ending]
  by_cases hdots : part = ".."
  · rw [if_pos ((isDoubleDot_segmentOf part).2 hdots), if_pos hdots, if_pos hdots,
      shorten_segmentOf]
    cases slash with
    | true => simp
    | false => rw [List.map_append]; rfl
  · have hdouble : ¬isDoubleDot (segmentOf part).toList = true :=
      fun h => hdots ((isDoubleDot_segmentOf part).1 h)
    have hsingle : ¬isSingleDot (segmentOf part).toList = true :=
      fun h => hdot ((isSingleDot_segmentOf part).1 h)
    rw [if_neg hdouble, if_neg hsingle, if_neg hdots, if_neg hdots, ite_self, List.append_nil,
      List.map_append, Bool.true_and, List.isEmpty_map]
    -- what is written for a name holds plain characters only, so it is not escaped again
    have hplain : ∀ n : String, String.ofList (escape pathSet (segmentOf n).toList) =
        segmentOf n := by
      intro n
      rw [escape_of_isPlain fun c hc => isPlain_of_mem_escape (toList_segmentOf n ▸ hc),
        String.ofList_toList]
    cases names.isEmpty with
    | true =>
      have hdrive := hplain (String.ofList (normalDrive part.toList))
      rw [← normalDrive_segmentOf, String.toList_ofList] at hdrive
      simp only [if_true, List.map_cons, List.map_nil, hdrive, normalDrive_segmentOf]
    | false => simp only [Bool.false_eq_true, if_false, List.map_cons, List.map_nil, hplain]

theorem writtenSegments_append {cs : List Char} (h : ∀ c ∈ cs, isPlain c = true)
    (segments : List String) (current rest : List Char) :
    writtenSegments true true segments current (cs ++ rest) =
      writtenSegments true true segments (cs.reverse ++ current) rest := by
  induction cs generalizing current with
  | nil => rfl
  | cons c cs ih =>
    have hc := h c List.mem_cons_self
    have hslash : (c == '/') = false := beq_eq_false_iff_ne.2 (ne_of_isPlain hc (by decide))
    have hback : (c == '\\') = false := beq_eq_false_iff_ne.2 (ne_of_isPlain hc (by decide))
    rw [List.cons_append, writtenSegments, hslash, hback]
    simp only [Bool.and_false, Bool.or_false, Bool.false_eq_true, if_false]
    rw [ih fun d hd => h d (List.mem_cons_of_mem _ hd)]
    simp

theorem isPlain_segmentOf {name : String} {c : Char} (h : c ∈ (segmentOf name).toList) :
    isPlain c = true := by
  rw [toList_segmentOf] at h
  exact isPlain_of_mem_escape h

/-- The segments of a written path are the names that its parts lead along. -/
theorem writtenSegments_segmentOf (part : String) (parts names : List String)
    (hdot : "." ∉ part :: parts) :
    writtenSegments true true (names.map segmentOf) []
        ((segmentOf part).toList ++ (segmentsText (parts.map segmentOf)).toList) =
      ((part :: parts).foldl step names ++
        ending ((part :: parts).getLast (List.cons_ne_nil _ _))).map segmentOf := by
  have hpart : part ≠ "." := fun h => hdot (h ▸ List.mem_cons_self)
  induction parts generalizing part names with
  | nil =>
    rw [writtenSegments_append fun c => isPlain_segmentOf]
    change writtenSegments true true _ _ [] = _
    rw [writtenSegments, List.append_nil, List.reverse_reverse, pushWritten_segmentOf hpart]
    rfl
  | cons next parts ih =>
    have hnext : "." ∉ next :: parts := fun h => hdot (List.mem_cons_of_mem _ h)
    rw [writtenSegments_append fun c => isPlain_segmentOf, List.map_cons,
      toList_segmentsText_cons, writtenSegments]
    simp only [beq_self_eq_true, Bool.true_or, if_true]
    rw [List.append_nil, List.reverse_reverse, pushWritten_segmentOf hpart]
    simp only [if_true, List.append_nil]
    rw [ih next (step names part) hnext fun h => hnext (h ▸ List.mem_cons_self)]
    rfl

def ofSegments (segments : List String) : Url :=
  { scheme := "file", authority := some {}, path := .rooted segments }

theorem text_ofSegments (segments : List String) :
    (ofSegments segments).text = Resource.fileMark ++ segmentsText segments := by
  apply String.toList_injective
  simp [text, ofSegments, Authority.text, Path.text, Resource.fileMark]

/-- Nothing is left out of a text without blanks. -/
theorem cleaned_eq {text : String} (h : ∀ c ∈ text.toList, 0x20 < c.toNat) :
    cleaned text = text.toList := by
  have hfront : text.toList.dropWhile (fun c => decide (c.toNat ≤ 0x20)) = text.toList := by
    rw [List.dropWhile_eq_self_iff]
    intro hl
    simpa using h _ (List.getElem_mem hl)
  have hback : text.toList.reverse.dropWhile (fun c => decide (c.toNat ≤ 0x20)) =
      text.toList.reverse := by
    rw [List.dropWhile_eq_self_iff]
    intro hl
    simpa using h _ (List.mem_reverse.1 (List.getElem_mem hl))
  rw [cleaned, hfront, hback, List.reverse_reverse, List.filter_eq_self]
  intro c hc
  have hc' := h c hc
  rw [Bool.not_eq_true', isSkipped, Bool.or_eq_false_iff, Bool.or_eq_false_iff]
  refine ⟨⟨?_, ?_⟩, ?_⟩ <;>
  · apply beq_eq_false_iff_ne.2
    rintro rfl
    exact absurd hc' (by decide)

theorem mem_segmentsText {names : List String} {c : Char}
    (h : c ∈ (segmentsText (names.map segmentOf)).toList) : c = '/' ∨ isPlain c = true := by
  rw [toList_segmentsText, List.mem_flatMap] at h
  obtain ⟨s, hs, hc⟩ := h
  obtain ⟨name, -, rfl⟩ := List.mem_map.1 hs
  rcases List.mem_cons.1 hc with rfl | hc
  · exact Or.inl rfl
  · exact Or.inr (isPlain_segmentOf hc)

theorem withFileHost_slash (cs : List Char) :
    withFileHost ('/' :: cs) = .ok (withRooted "file" (some {}) ('/' :: cs)) := by
  have hends : endsAuthority true '/' = true := rfl
  have hhost : ∀ d : Bool, (if ("" == "localhost" || d) = true then "" else "") = "" := by decide
  simp only [withFileHost, List.takeWhile_cons, List.dropWhile_cons, hends, Bool.not_true,
    Bool.false_eq_true, if_false, List.isEmpty_nil, if_true]
  change Except.ok _ = _
  rw [hhost]
  rfl

theorem withRooted_slash {cs : List Char} (h : ∀ c ∈ cs, endsPath c = false) :
    withRooted "file" (some {}) ('/' :: cs) =
      ofSegments (trimEmpty (writtenSegments true true [] [] cs)) := by
  have hall : ∀ c ∈ '/' :: cs, (!endsPath c) = true := by
    intro c hc
    rcases List.mem_cons.1 hc with rfl | hc
    · rfl
    · rw [h c hc]
      rfl
  have htake : ('/' :: cs).takeWhile (fun c => !endsPath c) = '/' :: cs :=
    List.takeWhile_eq_self_iff.2 hall
  have hdrop : ('/' :: cs).dropWhile (fun c => !endsPath c) = [] := List.dropWhile_eq_nil_iff.2 hall
  rw [withRooted]
  simp only [htake, hdrop]
  rfl

/-- A text that starts like the URL of a file is read by its segments. -/
theorem parse?_slash {cs : List Char} (h : ∀ c ∈ cs, c = '/' ∨ isPlain c = true) :
    parse? (Resource.fileMark ++ String.ofList ('/' :: cs)) =
      some (ofSegments (trimEmpty (writtenSegments true true [] [] cs))) := by
  have hmark : ∀ c ∈ Resource.fileMark.toList, 0x20 < c.toNat := List.all_iff_forall_prop.1 (by decide)
  have hclean : cleaned (Resource.fileMark ++ String.ofList ('/' :: cs)) =
      Resource.fileMark.toList ++ '/' :: cs := by
    rw [cleaned_eq, String.toList_append, String.toList_ofList]
    intro c hc
    rw [String.toList_append, String.toList_ofList, List.mem_append, List.mem_cons] at hc
    rcases hc with hc | rfl | hc
    · exact hmark c hc
    · decide
    · rcases h c hc with rfl | hplain
      · decide
      · exact lt_toNat_of_isPlain hplain
  have hends : ∀ c ∈ cs, endsPath c = false := by
    intro c hc
    rcases h c hc with rfl | hplain
    · rfl
    · rw [endsPath, Bool.or_eq_false_iff]
      exact ⟨beq_eq_false_iff_ne.2 (ne_of_isPlain hplain (by decide)),
        beq_eq_false_iff_ne.2 (ne_of_isPlain hplain (by decide))⟩
  have hscheme : scheme? (Resource.fileMark.toList ++ '/' :: cs) =
      some ("file", '/' :: '/' :: '/' :: cs) := rfl
  rw [parse?, parse, hclean, hscheme]
  change (withFileHost ('/' :: cs)).toOption = _
  rw [withFileHost_slash, withRooted_slash hends]
  rfl

end ScriptIndex.Url
