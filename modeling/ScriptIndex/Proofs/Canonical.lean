import ScriptIndex.Proofs.Url.Escape
import ScriptIndex.Resource

/-!
# Ids that stay as they are

To unescape a text makes it shorter wherever it changes anything. An id that comes back after it was
brought into canonical form again and again has therefore been canonical all along.
-/
namespace ScriptIndex

namespace Url

theorem length_unescape_le (bs : List UInt8) : (unescape bs).length ≤ bs.length := by
  fun_induction unescape bs with
  | case1 => simp
  | case2 b => simp
  | case3 a b => simp
  | case4 a b bs high low hb ha ih =>
    simp only [List.length_cons]
    omega
  | case5 a b bs hnone ih => simpa using ih
  | case6 p a b bs hp ih => simpa using ih

/-- Each escape that is replaced costs two bytes, so without a loss nothing was replaced. -/
theorem unescape_eq_self {bs : List UInt8} (h : (unescape bs).length = bs.length) :
    unescape bs = bs := by
  fun_induction unescape bs with
  | case1 => rfl
  | case2 b => rfl
  | case3 a b => rfl
  | case4 a b bs high low hb ha ih =>
    have hle := length_unescape_le bs
    simp only [List.length_cons] at h
    omega
  | case5 a b bs hnone ih => rw [ih (by simpa using h)]
  | case6 p a b bs hp ih => rw [ih (by simpa using h)]

end Url

namespace Resource

open Text Url

/-- An id is canonical, or its canonical form takes fewer bytes. -/
theorem canonical_eq_or_shorter (id : String) :
    canonical id = id ∨ (bytes (canonical id).toList).length < (bytes id.toList).length := by
  rw [canonical]
  cases hdecoded : decode? (unescape (bytes id.toList)) with
  | none => exact Or.inl rfl
  | some text =>
    have hbytes : bytes text.toList = unescape (bytes id.toList) := bytes_of_decode? hdecoded
    have hle := length_unescape_le (bytes id.toList)
    by_cases hlength : (unescape (bytes id.toList)).length = (bytes id.toList).length
    · left
      rw [unescape_eq_self hlength] at hbytes
      exact String.toList_injective (bytes_inj hbytes)
    · right
      rw [Option.getD_some, hbytes]
      omega

theorem length_canonical_le (id : String) :
    (bytes (canonical id).toList).length ≤ (bytes id.toList).length := by
  rcases canonical_eq_or_shorter id with heq | hlt
  · exact Nat.le_of_eq (by rw [heq])
  · omega

/-- To bring an id into canonical form twice gives the id back only if once does. -/
theorem canonical_canonical_eq_self_iff (id : String) :
    canonical (canonical id) = id ↔ canonical id = id := by
  refine ⟨fun h => ?_, fun h => by rw [h, h]⟩
  rcases canonical_eq_or_shorter id with heq | hlt
  · exact heq
  · have hle := length_canonical_le (canonical id)
    rw [h] at hle
    omega

end Resource
end ScriptIndex
