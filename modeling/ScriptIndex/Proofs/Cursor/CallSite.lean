import Mathlib.Data.List.Sort
import ScriptIndex.Cursor.CallSite
import ScriptIndex.Proofs.Cursor.Token

/-!
# Finding the call around the cursor

The search goes back to the nearest opening parenthesis, takes the word in front of it and goes on to the
first closing parenthesis. On a line where a name and a parenthesis stand before the cursor, with no
parenthesis between this one and the cursor, this is the call that is found, with all of its commas.

`CallSearch` tells apart the ways in which a search can end by what stands at which index of the line,
each fault only when nothing that is looked for earlier is missing. The search ends in the one way that
this relation allows, at every line and column.
-/
namespace ScriptIndex.Cursor

open Text

theorem lastIndexUpTo?_eq_some_iff (b : UInt8) (bs : List UInt8) (n i : Nat) :
    lastIndexUpTo? b bs n = some i ↔
      i ≤ n ∧ bs[i]? = some b ∧ ∀ j, i < j → j ≤ n → bs[j]? ≠ some b := by
  induction n with
  | zero =>
    rw [lastIndexUpTo?]
    by_cases hb : bs[0]? = some b <;> grind
  | succ n ih =>
    rw [lastIndexUpTo?]
    by_cases hb : bs[n + 1]? = some b
    · rw [if_pos hb]
      constructor
      · intro hi
        cases hi
        exact ⟨Nat.le_refl _, hb, fun j hlt hle => by omega⟩
      · rintro ⟨hle, -, hlast⟩
        by_contra hne
        exact hlast (n + 1) (by grind) (Nat.le_refl _) hb
    · rw [if_neg hb, ih]
      constructor
      · rintro ⟨hle, hi, hlast⟩
        refine ⟨by omega, hi, fun j hlt hj => ?_⟩
        by_cases hend : j = n + 1
        · rwa [hend]
        · exact hlast j hlt (by omega)
      · rintro ⟨hle, hi, hlast⟩
        have hne : i ≠ n + 1 := by
          rintro rfl
          exact hb hi
        exact ⟨by omega, hi, fun j hlt hj => hlast j hlt (by omega)⟩

theorem lastIndexUpTo?_append {b : UInt8} (front : List UInt8) {inner : List UInt8}
    (rest : List UInt8) {n : Nat} (hinner : b ∉ inner) (hfrom : front.length ≤ n)
    (hto : n ≤ front.length + inner.length) :
    lastIndexUpTo? b (front ++ b :: (inner ++ rest)) n = some front.length := by
  rw [lastIndexUpTo?_eq_some_iff]
  refine ⟨hfrom, by simp, fun j hlt hle hj => hinner ?_⟩
  obtain ⟨i, rfl⟩ := Nat.exists_eq_add_of_lt hlt
  rw [List.getElem?_append_right (by omega), Nat.add_assoc, Nat.add_sub_cancel_left,
    List.getElem?_cons_succ, List.getElem?_append_left (by omega)] at hj
  exact List.mem_of_getElem? hj

theorem argumentMarks?_append (i : Nat) {inner : List UInt8} (hinner : 0x29 ∉ inner)
    (rest : List UInt8) :
    argumentMarks? i (inner ++ 0x29 :: rest) =
      some (inner.findIdxs (· == 0x2C) i, i + inner.length) := by
  induction inner generalizing i with
  | nil => simp [argumentMarks?]
  | cons b inner ih =>
    rw [List.mem_cons, not_or] at hinner
    simp [argumentMarks?, ih (i + 1) hinner.2, Ne.symm hinner.1]
    omega

theorem lastIndexUpTo?_eq_none_iff (b : UInt8) (bs : List UInt8) (n : Nat) :
    lastIndexUpTo? b bs n = none ↔ ∀ i ≤ n, bs[i]? ≠ some b := by
  induction n with
  | zero => simp [lastIndexUpTo?]
  | succ n ih =>
    rw [lastIndexUpTo?]
    by_cases hb : bs[n + 1]? = some b
    · simp only [if_pos hb, reduceCtorEq, false_iff]
      intro hnone
      exact hnone (n + 1) (Nat.le_refl _) hb
    · rw [if_neg hb, ih]
      constructor
      · intro hnone i hi
        by_cases hend : i = n + 1
        · rwa [hend]
        · exact hnone i (by omega)
      · intro hnone i hi
        exact hnone i (by omega)

theorem argumentMarks?_eq_none_iff (i : Nat) (bs : List UInt8) :
    argumentMarks? i bs = none ↔ 0x29 ∉ bs := by
  induction bs generalizing i with
  | nil => simp [argumentMarks?]
  | cons b bs ih => by_cases hb : b = 0x29 <;> simp [argumentMarks?, hb, ih, Ne.symm]

/-- The search once its two parentheses and the name before them are known. -/
theorem callSiteAt_of_parens {content : String} {line column : Nat}
    {front name inner rest : List UInt8}
    (hcode : codeBytes? content line = some ((front ++ name) ++ 0x28 :: (inner ++ 0x29 :: rest)))
    (hcolumn : column ≤ ((front ++ name) ++ 0x28 :: (inner ++ 0x29 :: rest)).length)
    (hopen : lastIndexUpTo? 0x28 ((front ++ name) ++ 0x28 :: (inner ++ 0x29 :: rest)) column =
      some (front ++ name).length)
    (hname : name ≠ []) (hrun : WordRun front name []) (hclose : 0x29 ∉ inner) :
    callSiteAt content line column = .ok
      { command := ofAscii name
        openParen := .clipped line (front ++ name).length
        closeParen := .clipped line ((front ++ name).length + 1 + inner.length)
        commas := (inner.findIdxs (· == 0x2C) ((front ++ name).length + 1)).map (.clipped line) } := by
  have hmarks : argumentMarks? (front ++ name).length (0x28 :: (inner ++ 0x29 :: rest)) =
      some (inner.findIdxs (· == 0x2C) ((front ++ name).length + 1),
        (front ++ name).length + 1 + inner.length) := by
    have hscan := argumentMarks?_append (front ++ name).length
      (show 0x29 ∉ 0x28 :: inner by simpa using hclose) rest
    rw [List.cons_append] at hscan
    rw [hscan]
    simp
    omega
  rw [callSiteAt, hcode]
  simp only [if_neg (Nat.not_lt.2 hcolumn), hopen, List.take_left, List.drop_left,
    wordBefore_append hrun.word hrun.before, List.isEmpty_iff, if_neg hname, hmarks]

/-- From the opening parenthesis to the closing one, the call of the name is found. -/
theorem callSiteAt_of_call {content : String} {line column : Nat} {front name inner rest : List UInt8}
    (hcode : codeBytes? content line =
      some ((front ++ name) ++ 0x28 :: (inner ++ 0x29 :: rest)))
    (hname : name ≠ []) (hword : ∀ b ∈ name, isWordByte b = true)
    (hfront : ∀ b ∈ front.getLast?, isWordByte b = false) (hopen : 0x28 ∉ inner)
    (hclose : 0x29 ∉ inner) (hfrom : (front ++ name).length ≤ column)
    (hto : column ≤ (front ++ name).length + inner.length + 1) :
    callSiteAt content line column = .ok
      { command := ofAscii name
        openParen := .clipped line (front ++ name).length
        closeParen := .clipped line ((front ++ name).length + 1 + inner.length)
        commas := (inner.findIdxs (· == 0x2C) ((front ++ name).length + 1)).map (.clipped line) } := by
  have hindex : lastIndexUpTo? 0x28 ((front ++ name) ++ 0x28 :: (inner ++ 0x29 :: rest)) column =
      some (front ++ name).length := by
    have hlast := lastIndexUpTo?_append (front ++ name) rest
      (show 0x28 ∉ inner ++ [0x29] by simpa using hopen) hfrom (by simp at hto ⊢; omega)
    simpa using hlast
  apply callSiteAt_of_parens hcode _ hindex hname ⟨hword, hfront, by simp⟩ hclose
  simp only [List.length_append, List.length_cons] at hto ⊢
  omega

/-- An index is that of the last opening parenthesis up to a column. -/
structure OpensAt (code : List UInt8) (column i : Nat) : Prop where
  le_column : i ≤ column
  isOpen : code[i]? = some 0x28
  last : ∀ j, i < j → j ≤ column → code[j]? ≠ some 0x28

theorem opensAt_iff {code : List UInt8} {column i : Nat} :
    OpensAt code column i ↔ lastIndexUpTo? 0x28 code column = some i := by
  rw [lastIndexUpTo?_eq_some_iff]
  exact ⟨fun h => ⟨h.le_column, h.isOpen, h.last⟩, fun h => ⟨h.1, h.2.1, h.2.2⟩⟩

theorem OpensAt.lt_length {code : List UInt8} {column i : Nat} (h : OpensAt code column i) :
    i < code.length :=
  (List.getElem?_eq_some_iff.1 h.isOpen).1

/-- An index is that of the first closing parenthesis after another index. -/
structure ClosesAt (code : List UInt8) (i j : Nat) : Prop where
  lt : i < j
  isClose : code[j]? = some 0x29
  first : ∀ k, i < k → k < j → code[k]? ≠ some 0x29

/-- What the search for a call gives at a column of the code of a line, if there is such a line. Each
fault is that of the first thing that is missing. -/
inductive CallSearch (code? : Option (List UInt8)) (line column : Nat) :
    Except CallFault CallSite → Prop
  | noLine (h : code? = none) : CallSearch code? line column (.error (.outOfRange line column))
  | behindLine {code : List UInt8} (hcode : code? = some code) (h : code.length < column) :
      CallSearch code? line column (.error (.outOfRange line column))
  | noOpenParen {code : List UInt8} (hcode : code? = some code) (hcolumn : column ≤ code.length)
      (h : ∀ i ≤ column, code[i]? ≠ some 0x28) :
      CallSearch code? line column (.error (.noOpenParen line))
  | noCommandName {code : List UInt8} {i : Nat} (hcode : code? = some code)
      (hcolumn : column ≤ code.length) (hopen : OpensAt code column i)
      (h : i = 0 ∨ ∃ b, code[i - 1]? = some b ∧ isWordByte b = false) :
      CallSearch code? line column (.error (.noCommandName line))
  | noCloseParen {code : List UInt8} {i : Nat} {b : UInt8} (hcode : code? = some code)
      (hcolumn : column ≤ code.length) (hopen : OpensAt code column i)
      (hname : i ≠ 0 ∧ code[i - 1]? = some b ∧ isWordByte b = true)
      (h : ∀ j, i < j → code[j]? ≠ some 0x29) :
      CallSearch code? line column (.error (.noCloseParen line))
  | call {code front : List UInt8} {i j : Nat} {command : String} {commas : List Nat}
      (hcode : code? = some code) (hcolumn : column ≤ code.length) (hopen : OpensAt code column i)
      (hname : command ≠ "") (hfront : code.take i = front ++ bytes command.toList)
      (hrun : WordRun front (bytes command.toList) []) (hclose : ClosesAt code i j)
      (hsorted : commas.Pairwise (· < ·))
      (hcommas : ∀ k, k ∈ commas ↔ i < k ∧ k < j ∧ code[k]? = some 0x2C) :
      CallSearch code? line column (.ok
        { command
          openParen := .clipped line i
          closeParen := .clipped line j
          commas := commas.map (.clipped line) })

theorem eq_take_cons_drop {code : List UInt8} {i : Nat} {b : UInt8} (h : code[i]? = some b) :
    code = code.take i ++ b :: code.drop (i + 1) := by
  obtain ⟨hi, rfl⟩ := List.getElem?_eq_some_iff.1 h
  rw [List.getElem_cons_drop, List.take_append_drop]

/-- The line around the two parentheses of a call. -/
theorem ClosesAt.exists_split {code : List UInt8} {i j : Nat} (h : ClosesAt code i j)
    (hopen : code[i]? = some 0x28) : ∃ inner rest,
      code = code.take i ++ 0x28 :: (inner ++ 0x29 :: rest) ∧ 0x29 ∉ inner ∧
        j = i + 1 + inner.length := by
  obtain ⟨d, rfl⟩ := Nat.exists_eq_add_of_lt h.lt
  have hclose : (code.drop (i + 1))[d]? = some 0x29 := by
    rw [List.getElem?_drop, ← h.isClose]
    congr 1
    omega
  have hd : d < (code.drop (i + 1)).length := (List.getElem?_eq_some_iff.1 hclose).1
  refine ⟨(code.drop (i + 1)).take d, (code.drop (i + 1)).drop (d + 1), ?_, ?_, ?_⟩
  · rw [← eq_take_cons_drop hclose, ← eq_take_cons_drop hopen]
  · intro hmem
    obtain ⟨k, hk⟩ := List.mem_iff_getElem?.1 hmem
    rw [List.getElem?_take, List.getElem?_drop] at hk
    split at hk
    · exact h.first (i + 1 + k) (by omega) (by omega) hk
    · cases hk
  · rw [List.length_take, Nat.min_eq_left (Nat.le_of_lt hd)]
    omega

theorem mem_findIdxs_comma_iff (front inner rest : List UInt8) (k : Nat) :
    k ∈ inner.findIdxs (· == 0x2C) (front.length + 1) ↔
      front.length < k ∧ k < front.length + 1 + inner.length ∧
        (front ++ 0x28 :: (inner ++ 0x29 :: rest))[k]? = some 0x2C := by
  have hindex (m : Nat) (hm : m < inner.length) :
      (front ++ 0x28 :: (inner ++ 0x29 :: rest))[front.length + 1 + m]? = some inner[m] := by
    rw [List.getElem?_append_right (by omega), Nat.add_assoc, Nat.add_sub_cancel_left,
      Nat.add_comm 1, List.getElem?_cons_succ, List.getElem?_append_left hm,
      List.getElem?_eq_getElem hm]
  rw [List.mem_findIdxs_iff_getElem_sub_pos]
  constructor
  · rintro ⟨hle, hm, hcomma⟩
    obtain ⟨m, rfl⟩ := Nat.exists_eq_add_of_le hle
    simp only [Nat.add_sub_cancel_left] at hm hcomma
    refine ⟨by omega, by omega, ?_⟩
    rw [hindex m hm, beq_iff_eq.1 hcomma]
  · rintro ⟨hle, hlt, hcomma⟩
    obtain ⟨m, rfl⟩ := Nat.exists_eq_add_of_le (show front.length + 1 ≤ k from hle)
    have hm : m < inner.length := by omega
    rw [hindex m hm] at hcomma
    simp only [Nat.add_sub_cancel_left]
    exact ⟨hle, hm, beq_iff_eq.2 (Option.some.inj hcomma)⟩

theorem exists_closesAt {code : List UInt8} {i : Nat} (h : ∃ j, i < j ∧ code[j]? = some 0x29) :
    ∃ j, ClosesAt code i j := by
  obtain ⟨hlt, hclose⟩ := Nat.find_spec h
  exact ⟨Nat.find h, hlt, hclose, fun k hk hbefore hb => Nat.find_min h hbefore ⟨hk, hb⟩⟩

theorem exists_commas (code : List UInt8) (i j : Nat) : ∃ commas : List Nat,
    commas.Pairwise (· < ·) ∧ ∀ k, k ∈ commas ↔ i < k ∧ k < j ∧ code[k]? = some 0x2C := by
  refine ⟨(List.range' (i + 1) (j - (i + 1))).filter fun k => code[k]? = some 0x2C, ?_, ?_⟩
  · exact List.Pairwise.filter _ List.pairwise_lt_range'
  · intro k
    rw [List.mem_filter, List.mem_range'_1, decide_eq_true_eq, ← and_assoc]
    apply and_congr_left
    intro _
    omega

theorem exists_command {bs : List UInt8} (h : wordBefore bs ≠ []) : ∃ front command,
    command ≠ "" ∧ bs = front ++ bytes command.toList ∧ WordRun front (bytes command.toList) [] := by
  obtain ⟨front, hfront, hrun⟩ := exists_front_of_wordBefore bs
  have hbytes : bytes (ofAscii (wordBefore bs)).toList = wordBefore bs :=
    bytes_ofAscii fun b hb => toNat_lt_of_isWordByte (hrun.word b hb)
  refine ⟨front, ofAscii (wordBefore bs), ?_, ?_, ?_⟩
  · rwa [Ne, ofAscii_eq_empty_iff]
  · rwa [hbytes]
  · rwa [hbytes]

/-- Every search ends in one of the ways that are told apart. -/
theorem exists_callSearch (code? : Option (List UInt8)) (line column : Nat) :
    ∃ result, CallSearch code? line column result := by
  cases code? with
  | none => exact ⟨_, .noLine rfl⟩
  | some code =>
    by_cases hcolumn : column ≤ code.length
    · cases hindex : lastIndexUpTo? 0x28 code column with
      | none => exact ⟨_, .noOpenParen rfl hcolumn ((lastIndexUpTo?_eq_none_iff _ _ _).1 hindex)⟩
      | some i =>
        have hopen : OpensAt code column i := opensAt_iff.2 hindex
        have hnil := wordBefore_take_eq_nil_iff hopen.lt_length.le
        by_cases hname : wordBefore (code.take i) = []
        · exact ⟨_, .noCommandName rfl hcolumn hopen (hnil.1 hname)⟩
        · by_cases hclose : ∃ j, i < j ∧ code[j]? = some 0x29
          · obtain ⟨j, hj⟩ := exists_closesAt hclose
            obtain ⟨front, command, hcommand, hfront, hrun⟩ := exists_command hname
            obtain ⟨commas, hsorted, hcommas⟩ := exists_commas code i j
            exact ⟨_, .call rfl hcolumn hopen hcommand hfront hrun hj hsorted hcommas⟩
          · rw [hnil, not_or] at hname
            obtain ⟨hi, hlast⟩ := hname
            have hlength := hopen.lt_length
            obtain ⟨b, hb⟩ : ∃ b, code[i - 1]? = some b :=
              ⟨_, List.getElem?_eq_getElem (show i - 1 < code.length by omega)⟩
            have hword : isWordByte b = true := by
              by_contra hnot
              exact hlast ⟨b, hb, Bool.eq_false_of_not_eq_true hnot⟩
            exact ⟨_, .noCloseParen rfl hcolumn hopen ⟨hi, hb, hword⟩
              fun j hj hparen => hclose ⟨j, hj, hparen⟩⟩
    · exact ⟨_, .behindLine rfl (Nat.not_le.1 hcolumn)⟩

theorem callSiteAt_of_callSearch {content : String} {line column : Nat}
    {result : Except CallFault CallSite}
    (h : CallSearch (codeBytes? content line) line column result) :
    callSiteAt content line column = result := by
  cases h with
  | noLine h => rw [callSiteAt, h]
  | behindLine hcode h =>
    rw [callSiteAt, hcode]
    exact if_pos h
  | noOpenParen hcode hcolumn h =>
    rw [callSiteAt, hcode]
    simp only [if_neg (Nat.not_lt.2 hcolumn), (lastIndexUpTo?_eq_none_iff _ _ _).2 h]
  | @noCommandName code i hcode hcolumn hopen h =>
    have hname := (wordBefore_take_eq_nil_iff hopen.lt_length.le).2 h
    rw [callSiteAt, hcode]
    simp only [if_neg (Nat.not_lt.2 hcolumn), opensAt_iff.1 hopen, hname, List.isEmpty_nil, if_true]
  | @noCloseParen code i b hcode hcolumn hopen hname h =>
    have hword : wordBefore (code.take i) ≠ [] := by
      rw [Ne, wordBefore_take_eq_nil_iff hopen.lt_length.le]
      simp [hname]
    have hmarks : argumentMarks? i (code.drop i) = none := by
      rw [argumentMarks?_eq_none_iff]
      intro hmem
      obtain ⟨k, hk⟩ := List.mem_iff_getElem?.1 hmem
      rw [List.getElem?_drop] at hk
      cases k with
      | zero => simp [hopen.isOpen] at hk
      | succ k => exact h (i + (k + 1)) (by omega) hk
    rw [callSiteAt, hcode]
    simp only [if_neg (Nat.not_lt.2 hcolumn), opensAt_iff.1 hopen, List.isEmpty_iff, if_neg hword,
      hmarks]
  | @call code front i j command commas hcode hcolumn hopen hname hfront hrun hclose hsorted
      hcommas =>
    obtain ⟨inner, rest, hsplit, hinner, rfl⟩ := hclose.exists_split hopen.isOpen
    have hi : i = (front ++ bytes command.toList).length := by
      rw [← hfront, List.length_take, Nat.min_eq_left (Nat.le_of_lt hopen.lt_length)]
    have hbytes : bytes command.toList ≠ [] := by
      intro hnil
      exact hname (String.toList_inj.1 (bytes_inj hnil))
    have hfound : commas =
        inner.findIdxs (· == 0x2C) ((front ++ bytes command.toList).length + 1) := by
      apply hsorted.eq_of_mem_iff List.pairwise_findIdxs
      intro k
      rw [hcommas, mem_findIdxs_comma_iff _ _ rest, hsplit, hfront, hi]
    rw [hfront] at hsplit
    subst hsplit hi
    rw [callSiteAt_of_parens hcode hcolumn (opensAt_iff.1 hopen) hbytes hrun hinner, hfound,
      ofAscii_bytes fun b hb => toNat_lt_of_isWordByte (hrun.word b hb)]

/-- The search for a call gives what the bytes of the line say and nothing else, a fault or a call. The
places it gives are exact as long as the line and the index can be counted. -/
theorem callSiteAt_eq_iff (content : String) (line column : Nat) :
    (∀ result, callSiteAt content line column = result ↔
      CallSearch (codeBytes? content line) line column result) ∧
    (line < 2 ^ 32 → ∀ i < 2 ^ 32, Position.clipped line i = ⟨line, i⟩) := by
  constructor
  · intro result
    constructor
    · rintro rfl
      obtain ⟨result, hsearch⟩ := exists_callSearch (codeBytes? content line) line column
      rwa [callSiteAt_of_callSearch hsearch]
    · exact callSiteAt_of_callSearch
  · intro hline i hi
    rw [Position.clipped, clip_of_le (Nat.le_of_lt_succ hline), clip_of_le (Nat.le_of_lt_succ hi)]

/-- With the cursor at the end of the code, behind a call inside a call, the inner one is found. One
column further there is nothing. -/
theorem callSiteAt_eq_iff_nested :
    let content := "x\n  é f(g(a, b), c # )"
    callSiteAt content 1 18 = .ok ⟨"g", ⟨1, 8⟩, ⟨1, 13⟩, [⟨1, 10⟩]⟩ ∧
      callSiteAt content 1 19 = .error (.outOfRange 1 19) := by
  intro content
  let code := bytes "  é f(g(a, b), c ".toList
  have hcode : codeBytes? content 1 = some code := by decide +kernel
  have hrun : WordRun (code.take 7) (bytes "g".toList) [] :=
    ⟨by decide +kernel, by decide +kernel, by simp⟩
  have hclose : ClosesAt code 8 13 := by
    have hfirst : ∀ k < 13, 8 < k → code[k]? ≠ some 0x29 := by decide +kernel
    exact ⟨by decide, by decide +kernel, fun k hk hlt => hfirst k hlt hk⟩
  have hcommas : ∀ k, k ∈ [10] ↔ 8 < k ∧ k < 13 ∧ code[k]? = some 0x2C := by
    have honly : ∀ k < 13, 8 < k → code[k]? = some 0x2C → k = 10 := by decide +kernel
    intro k
    rw [List.mem_singleton]
    constructor
    · rintro rfl
      decide +kernel
    · rintro ⟨hk, hlt, hcomma⟩
      exact honly k hlt hk hcomma
  have hplace := (callSiteAt_eq_iff content 1 18).2 (by decide)
  constructor
  · rw [← hplace 8 (by decide), ← hplace 13 (by decide), ← hplace 10 (by decide)]
    apply ((callSiteAt_eq_iff content 1 18).1 _).2
    exact .call hcode (by decide +kernel) (opensAt_iff.2 (by decide +kernel)) (by decide)
      (by decide +kernel) hrun hclose (by simp) hcommas
  · exact ((callSiteAt_eq_iff content 1 19).1 _).2 (.behindLine hcode (by decide +kernel))

end ScriptIndex.Cursor
