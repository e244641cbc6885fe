import Mathlib.Algebra.Group.Int.Defs
import Mathlib.Algebra.Group.Nat.Defs
import Mathlib.Data.List.Basic

/-! Integers read from their texts.
-/

namespace Distributed.Platform

def parseDigits : List Char → Nat → Option Nat
  | [], value => some value
  | digit :: rest, value =>
      if digit.isDigit then parseDigits rest (value * 10 + (digit.toNat - '0'.toNat))
      else none

/-- `str::parse` of an integer type with this range: an optional sign, a minus only where the
type has negative values, and decimal digits. -/
def parseInteger (least greatest : Int) (text : String) : Option Int := do
  let (negative, digits) := match text.toList with
    | '-' :: rest => if least < 0 then (true, rest) else (false, '-' :: rest)
    | '+' :: rest => (false, rest)
    | digits => (false, digits)
  if digits.isEmpty then none
  else
    let magnitude ← parseDigits digits 0
    let value : Int := if negative then -magnitude else magnitude
    if least ≤ value && value ≤ greatest then some value else none

def parseI64 (text : String) : Option Int := parseInteger (-2 ^ 63) (2 ^ 63 - 1) text

def parseU64 (text : String) : Option Int := parseInteger 0 (2 ^ 64 - 1) text

def parseU8 (text : String) : Option Int := parseInteger 0 255 text

theorem parseDigits_eq {digits : List Char} (h : ∀ digit ∈ digits, digit.isDigit = true)
    (value : Nat)
    : parseDigits digits value = some (Nat.ofDigitChars 10 digits value) := by
  induction digits generalizing value with
  | nil => rfl
  | cons digit rest ih =>
      obtain ⟨hdigit, hrest⟩ := List.forall_mem_cons.mp h
      rw [parseDigits, if_pos hdigit, ih hrest, Nat.ofDigitChars_cons, Nat.mul_comm]

theorem toList_toString_nat (value : Nat)
    : ∃ digit rest, (toString value).toList = digit :: rest
        ∧ (∀ other ∈ digit :: rest, other.isDigit = true)
        ∧ Nat.ofDigitChars 10 (digit :: rest) 0 = value := by
  have hdigits : (toString value).toList = Nat.toDigits 10 value := Nat.toList_repr
  cases hlist : Nat.toDigits 10 value with
  | nil => exact absurd hlist Nat.toDigits_ne_nil
  | cons digit rest =>
      refine ⟨digit, rest, hdigits.trans hlist, ?_, ?_⟩
      · rw [← hlist]
        exact fun other hother => Nat.isDigit_of_mem_toDigits (by decide) (by decide) hother
      · rw [← hlist, Nat.ofDigitChars_ten_toDigits]

/-- The digits of a printed number are no sign. -/
theorem isDigit_ne_sign {digit : Char} (h : digit.isDigit = true) : digit ≠ '-' ∧ digit ≠ '+' := by
  constructor
  · rintro rfl
    exact absurd h (by decide)
  · rintro rfl
    exact absurd h (by decide)

/-- An integer of the range reads back from the text it prints as. -/
theorem parseInteger_toString {least greatest value : Int} (hleast : least ≤ value)
    (hgreatest : value ≤ greatest)
    : parseInteger least greatest (toString value) = some value := by
  cases value with
  | ofNat value =>
      obtain ⟨digit, rest, hlist, hdigits, hvalue⟩ := toList_toString_nat value
      obtain ⟨hminus, hplus⟩ := isDigit_ne_sign (hdigits digit (List.mem_cons_self ..))
      have htext : (toString (Int.ofNat value)).toList = digit :: rest := hlist
      unfold parseInteger
      rw [htext]
      simpa [hminus, hplus, parseDigits_eq hdigits, hvalue] using And.intro hleast hgreatest
  | negSucc value =>
      obtain ⟨digit, rest, hlist, hdigits, hvalue⟩ := toList_toString_nat (value + 1)
      have htext : (toString (Int.negSucc value)).toList = '-' :: digit :: rest := by
        rw [← hlist, show toString (Int.negSucc value) = "-" ++ toString (value + 1) from rfl,
          String.toList_append]
        rfl
      have hnegative : least < 0 := Int.lt_of_le_of_lt hleast (Int.negSucc_lt_zero value)
      unfold parseInteger
      rw [htext]
      rw [Int.negSucc_eq] at *
      simpa [hnegative, parseDigits_eq hdigits, hvalue] using And.intro hleast hgreatest

theorem toString_int_injective : Function.Injective (toString : Int → String) := by
  intro value other h
  have hvalue : parseInteger (min value other) (max value other) (toString value) = some value :=
    parseInteger_toString (Int.min_le_left ..) (Int.le_max_left ..)
  have hother : parseInteger (min value other) (max value other) (toString other) = some other :=
    parseInteger_toString (Int.min_le_right ..) (Int.le_max_right ..)
  rw [h, hother] at hvalue
  exact (Option.some.inj hvalue).symm

theorem toString_nat_injective : Function.Injective (toString : Nat → String) := by
  intro value other h
  have hint : Int.ofNat value = Int.ofNat other := toString_int_injective h
  exact Int.ofNat.inj hint

end Distributed.Platform
