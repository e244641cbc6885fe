import Distributed.Platform.Text
import Mathlib.Algebra.Group.Nat.Defs
import Mathlib.Data.List.Basic

/-! Unpadded URL-safe base64: three bytes are four characters of six bits each.
-/

namespace Distributed.Platform.Base64

def alphabet : List Char :=
  "ABCDEFGHIJKLMNOPQRSTUVWXYZabcdefghijklmnopqrstuvwxyz0123456789-_".toList

def digit (sextet : Nat) : Char := alphabet.getD sextet 'A'

def sextet? (c : Char) : Option Nat := alphabet.findIdx? (· = c)

/-- `URL_SAFE_NO_PAD.encode`. -/
def encode : Bytes → List Char
  | [] => []
  | [a] => [digit (a.toNat / 4), digit (a.toNat % 4 * 16)]
  | [a, b] =>
      [digit (a.toNat / 4), digit (a.toNat % 4 * 16 + b.toNat / 16), digit (b.toNat % 16 * 4)]
  | a :: b :: c :: rest =>
      digit (a.toNat / 4) :: digit (a.toNat % 4 * 16 + b.toNat / 16)
        :: digit (b.toNat % 16 * 4 + c.toNat / 64) :: digit (c.toNat % 64) :: encode rest

/-- `URL_SAFE_NO_PAD.decode`: the unused bits of the last character are zero. -/
def decode : List Char → Option Bytes
  | [] => some []
  | [_] => none
  | [x, y] => do
      let x ← sextet? x
      let y ← sextet? y
      if y % 16 = 0 then some [UInt8.ofNat (x * 4 + y / 16)] else none
  | [x, y, z] => do
      let x ← sextet? x
      let y ← sextet? y
      let z ← sextet? z
      if z % 4 = 0 then some [UInt8.ofNat (x * 4 + y / 16), UInt8.ofNat (y % 16 * 16 + z / 4)]
      else none
  | x :: y :: z :: w :: rest => do
      let x ← sextet? x
      let y ← sextet? y
      let z ← sextet? z
      let w ← sextet? w
      let rest ← decode rest
      some (UInt8.ofNat (x * 4 + y / 16) :: UInt8.ofNat (y % 16 * 16 + z / 4)
        :: UInt8.ofNat (z % 4 * 64 + w) :: rest)

theorem sextet?_digit {sextet : Nat} (h : sextet < 64) : sextet? (digit sextet) = some sextet := by
  have hall : ∀ n ∈ List.range 64, sextet? (digit n) = some n := by decide +kernel
  exact hall sextet (List.mem_range.mpr h)

theorem ofNat_eq {byte : UInt8} {value : Nat} (h : value = byte.toNat)
    : UInt8.ofNat value = byte := by
  rw [h, UInt8.ofNat_toNat]

theorem decode_encode (bytes : Bytes) : decode (encode bytes) = some bytes := by
  fun_induction encode bytes with
  | case1 => rfl
  | case2 a =>
      have ha := a.toNat_lt
      rw [decode, sextet?_digit (by omega), sextet?_digit (by omega)]
      have hbyte : UInt8.ofNat (a.toNat / 4 * 4 + a.toNat % 4 * 16 / 16) = a :=
        ofNat_eq (by omega)
      simp only [Option.bind_eq_bind, Option.bind_some, Nat.mul_mod_left, if_true, hbyte]
  | case3 a b =>
      have ha := a.toNat_lt
      have hb := b.toNat_lt
      rw [decode, sextet?_digit (by omega), sextet?_digit (by omega), sextet?_digit (by omega)]
      have hfirst : UInt8.ofNat (a.toNat / 4 * 4 + (a.toNat % 4 * 16 + b.toNat / 16) / 16) = a :=
        ofNat_eq (by omega)
      have hsecond : UInt8.ofNat ((a.toNat % 4 * 16 + b.toNat / 16) % 16 * 16
          + b.toNat % 16 * 4 / 4) = b := ofNat_eq (by omega)
      simp only [Option.bind_eq_bind, Option.bind_some, Nat.mul_mod_left, if_true, hfirst,
        hsecond]
  | case4 a b c rest ih =>
      have ha := a.toNat_lt
      have hb := b.toNat_lt
      have hc := c.toNat_lt
      rw [decode, sextet?_digit (by omega), sextet?_digit (by omega), sextet?_digit (by omega),
        sextet?_digit (by omega), ih]
      have hfirst : UInt8.ofNat (a.toNat / 4 * 4 + (a.toNat % 4 * 16 + b.toNat / 16) / 16) = a :=
        ofNat_eq (by omega)
      have hsecond : UInt8.ofNat ((a.toNat % 4 * 16 + b.toNat / 16) % 16 * 16
          + (b.toNat % 16 * 4 + c.toNat / 64) / 4) = b := ofNat_eq (by omega)
      have hthird : UInt8.ofNat ((b.toNat % 16 * 4 + c.toNat / 64) % 4 * 64 + c.toNat % 64) = c :=
        ofNat_eq (by omega)
      simp only [Option.bind_eq_bind, Option.bind_some, hfirst, hsecond, hthird]

theorem encode_injective : Function.Injective encode := fun bytes image h =>
  Option.some.inj ((decode_encode bytes).symm.trans ((congrArg decode h).trans
    (decode_encode image)))

end Distributed.Platform.Base64
