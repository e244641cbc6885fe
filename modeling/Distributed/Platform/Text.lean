import Mathlib.Algebra.Group.Nat.Defs
import Mathlib.Data.List.Basic

/-! Text and byte helpers of the Rust standard library used by the repository.
A `str` is a Lean `String`; byte lengths are UTF-8 lengths in both.
-/

namespace Distributed.Platform

abbrev Bytes : Type := List UInt8

/-- `char::is_whitespace`: the Unicode `White_Space` property. -/
def isWhitespace (c : Char) : Bool :=
  let n := c.toNat
  (0x09 ≤ n && n ≤ 0x0D) || n == 0x20 || n == 0x85 || n == 0xA0 || n == 0x1680
    || (0x2000 ≤ n && n ≤ 0x200A) || n == 0x2028 || n == 0x2029 || n == 0x202F
    || n == 0x205F || n == 0x3000

/-- `char::is_control`: the Unicode general category `Cc`. -/
def isControl (c : Char) : Bool :=
  let n := c.toNat
  n ≤ 0x1F || (0x7F ≤ n && n ≤ 0x9F)

/-- `value.trim().is_empty()`: nothing is left once whitespace is trimmed at both ends. -/
def isBlank (value : String) : Bool :=
  value.toList.all isWhitespace

/-- `char_indices().find(..)`: the first character that satisfies `found`, with its byte
offset. -/
def findCharFrom (found : Char → Bool) : Nat → List Char → Option (Nat × Char)
  | _, [] => none
  | offset, c :: rest =>
      if found c then some (offset, c) else findCharFrom found (offset + c.utf8Size) rest

def findChar (found : Char → Bool) (value : String) : Option (Nat × Char) :=
  findCharFrom found 0 value.toList

theorem findCharFrom_eq_none (found : Char → Bool) (offset : Nat) (chars : List Char)
    : findCharFrom found offset chars = none ↔ ∀ c ∈ chars, found c = false := by
  induction chars generalizing offset with
  | nil => simp [findCharFrom]
  | cons c rest ih =>
      by_cases hc : found c = true
      · simp [findCharFrom, hc]
      · simp [findCharFrom, hc, ih]

theorem findChar_eq_none {found : Char → Bool} {value : String}
    : findChar found value = none ↔ ∀ c ∈ value.toList, found c = false :=
  findCharFrom_eq_none found 0 value.toList

def hexDigit (nibble : Nat) : Char :=
  ['0', '1', '2', '3', '4', '5', '6', '7', '8', '9', 'a', 'b', 'c', 'd', 'e', 'f'].getD
    nibble '0'

/-- Two lowercase hexadecimal digits for every byte. -/
def bytesHex (bytes : Bytes) : String :=
  String.ofList
    (bytes.flatMap fun byte => [hexDigit (byte.toNat / 16), hexDigit (byte.toNat % 16)])

/-- `u64::to_be_bytes`. -/
def u64BeBytes (value : Nat) : Bytes :=
  [56, 48, 40, 32, 24, 16, 8, 0].map fun shift => UInt8.ofNat (value >>> shift)

/-- `str::as_bytes`. -/
def utf8Bytes (value : String) : Bytes :=
  value.toByteArray.data.toList

end Distributed.Platform
