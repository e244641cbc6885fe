import Mathlib.Data.List.Count
import Mathlib.Data.List.Nodup
import Mathlib.Data.List.Range
import Mathlib.Data.List.TakeWhile
import Mathlib.Data.String.Basic

/-! Names made of a word and a number.
A word without digits can be told from the digits after it.
-/

namespace Distributed.Foundation

theorem digitFree {word : String} (h : (word.toList.all fun c => !c.isDigit) = true)
    : ∀ c ∈ word.toList, c.isDigit = false := by
  simpa using h

/-- A word without digits and the number after it are determined by the name. -/
theorem numbered_inj {left right : String} {first second : Nat}
    (hleft : ∀ c ∈ left.toList, c.isDigit = false)
    (hright : ∀ c ∈ right.toList, c.isDigit = false)
    (h : left ++ toString first = right ++ toString second)
    : left = right ∧ first = second := by
  have hword : ∀ (word : String) (number : Nat), (∀ c ∈ word.toList, c.isDigit = false) →
      (word ++ toString number).toList.takeWhile (fun c => !c.isDigit) = word.toList := by
    intro word number hletters
    have hdigits : ((toString number).toList.takeWhile fun c => !c.isDigit) = [] := by
      rw [List.takeWhile_eq_nil_iff]
      intro hne hhead
      have hdigit : ((toString number).toList.get ⟨0, hne⟩).isDigit = true := by
        refine Nat.isDigit_of_mem_toDigits (by decide : 0 < 10) (by decide)
          (?_ : _ ∈ Nat.toDigits 10 number)
        rw [← Nat.toList_repr]
        exact List.get_mem ..
      rw [hdigit] at hhead
      cases hhead
    rw [String.toList_append, List.takeWhile_append_of_pos (by simpa using hletters), hdigits,
      List.append_nil]
  have hwords : left = right := by
    rw [← String.toList_inj, ← hword left first hleft, ← hword right second hright, h]
  subst hwords
  have hnumbers : (toString first).toList = (toString second).toList := by
    have hlists := congrArg String.toList h
    rw [String.toList_append, String.toList_append] at hlists
    exact List.append_cancel_left hlists
  have hdigits : Nat.toDigits 10 first = Nat.toDigits 10 second := by
    rw [← Nat.toList_repr, ← Nat.toList_repr]
    exact hnumbers
  refine ⟨rfl, ?_⟩
  rw [← Nat.ofDigitChars_ten_toDigits (n := first), hdigits, Nat.ofDigitChars_ten_toDigits]

end Distributed.Foundation
