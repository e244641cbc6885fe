import Distributed.Platform.Integers
import Distributed.Platform.Text
import Mathlib.Data.List.Basic

/-! The UTF-8 bytes of a text.
-/

namespace Distributed.Platform

theorem utf8Bytes_ofList (chars : List Char)
    : utf8Bytes (String.ofList chars) = chars.flatMap String.utf8EncodeChar := by
  rw [utf8Bytes, String.toByteArray_ofList, List.utf8Encode, List.data_toByteArray]

theorem length_utf8Bytes (value : String) : (utf8Bytes value).length = value.utf8ByteSize :=
  rfl

theorem utf8Bytes_injective : Function.Injective utf8Bytes := fun _ _ h =>
  String.toByteArray_inj.mp (ByteArray.ext (Array.toList_inj.mp h))

theorem utf8Bytes_append (value rest : String)
    : utf8Bytes (value ++ rest) = utf8Bytes value ++ utf8Bytes rest := by
  rw [← String.ofList_toList (s := value ++ rest), String.toList_append, utf8Bytes_ofList,
    List.flatMap_append, ← utf8Bytes_ofList, ← utf8Bytes_ofList, String.ofList_toList,
    String.ofList_toList]

theorem mem_utf8Bytes {value : String} {byte : UInt8}
    : byte ∈ utf8Bytes value ↔ ∃ c ∈ value.toList, byte ∈ String.utf8EncodeChar c := by
  rw [← String.ofList_toList (s := value), utf8Bytes_ofList, List.mem_flatMap,
    String.toList_ofList]

theorem utf8EncodeChar_ascii {c : Char} (h : c.toNat < 128)
    : String.utf8EncodeChar c = [UInt8.ofNat c.toNat] :=
  if_pos (Nat.le_of_lt_succ h)

/-- A byte below 128 is a character of its own: the bytes of longer characters are all
above it. -/
theorem toNat_of_mem_utf8EncodeChar {c : Char} {byte : UInt8}
    (h : byte ∈ String.utf8EncodeChar c) (hbyte : byte.toNat < 128)
    : c.toNat = byte.toNat := by
  have habove : ∀ offset bound value : Nat, 0 < bound → 128 ≤ offset → offset + bound ≤ 256 →
      ¬(UInt8.ofNat (value % bound + offset)).toNat < 128 := by
    intro offset bound value hbound hoffset hrange
    have hvalue := Nat.mod_lt value hbound
    rw [UInt8.toNat_ofNat_of_lt' (by simp only [UInt8.size]; omega)]
    omega
  by_cases hascii : c.toNat < 128
  · rw [utf8EncodeChar_ascii hascii, List.mem_singleton] at h
    rw [h, UInt8.toNat_ofNat_of_lt' (by simp only [UInt8.size]; omega)]
  · have hlong : ¬c.val.toNat ≤ 127 := fun hle => hascii (Nat.lt_succ_of_le hle)
    simp only [String.utf8EncodeChar, hlong, if_false] at h
    split at h <;> [skip; split at h] <;>
      simp only [List.mem_cons, List.not_mem_nil, or_false] at h
    · rcases h with rfl | rfl
      · exact absurd hbyte (habove 192 32 _ (by decide) (by decide) (by decide))
      · exact absurd hbyte (habove 128 64 _ (by decide) (by decide) (by decide))
    · rcases h with rfl | rfl | rfl
      · exact absurd hbyte (habove 224 16 _ (by decide) (by decide) (by decide))
      · exact absurd hbyte (habove 128 64 _ (by decide) (by decide) (by decide))
      · exact absurd hbyte (habove 128 64 _ (by decide) (by decide) (by decide))
    · rcases h with rfl | rfl | rfl | rfl
      · exact absurd hbyte (habove 240 8 _ (by decide) (by decide) (by decide))
      · exact absurd hbyte (habove 128 64 _ (by decide) (by decide) (by decide))
      · exact absurd hbyte (habove 128 64 _ (by decide) (by decide) (by decide))
      · exact absurd hbyte (habove 128 64 _ (by decide) (by decide) (by decide))

/-- An ASCII character is among the bytes of a text where it is in the text. -/
theorem ascii_mem_utf8Bytes {value : String} {c : Char} (hc : c.toNat < 128)
    : UInt8.ofNat c.toNat ∈ utf8Bytes value ↔ c ∈ value.toList := by
  rw [mem_utf8Bytes]
  have hbyte : (UInt8.ofNat c.toNat).toNat = c.toNat :=
    UInt8.toNat_ofNat_of_lt' (by simp only [UInt8.size]; omega)
  constructor
  · rintro ⟨other, hother, hmem⟩
    have heq := toNat_of_mem_utf8EncodeChar hmem (by omega)
    rwa [← Char.toNat_inj.mp (heq.trans hbyte)]
  · intro hmem
    exact ⟨c, hmem, by rw [utf8EncodeChar_ascii hc]; exact List.mem_singleton_self _⟩

/-- The ASCII code of a hexadecimal digit. -/
def hexByte (nibble : Nat) : UInt8 := (hexDigit nibble).val.toUInt8

theorem utf8EncodeChar_hexDigit {nibble : Nat} (h : nibble < 16)
    : String.utf8EncodeChar (hexDigit nibble) = [hexByte nibble] := by
  have hall : ∀ n ∈ List.range 16, String.utf8EncodeChar (hexDigit n) = [hexByte n] := by
    decide
  exact hall nibble (List.mem_range.mpr h)

/-- Two bytes of text for every byte. -/
theorem utf8Bytes_bytesHex (bytes : Bytes)
    : utf8Bytes (bytesHex bytes)
      = bytes.flatMap fun byte => [hexByte (byte.toNat / 16), hexByte (byte.toNat % 16)] := by
  rw [bytesHex, utf8Bytes_ofList, List.flatMap_assoc]
  congr 1
  funext byte
  have hbyte := byte.toNat_lt
  have hhigh : byte.toNat / 16 < 16 := by omega
  have hlow : byte.toNat % 16 < 16 := by omega
  simp [utf8EncodeChar_hexDigit hhigh, utf8EncodeChar_hexDigit hlow]

theorem utf8ByteSize_bytesHex (bytes : Bytes)
    : (bytesHex bytes).utf8ByteSize = 2 * bytes.length := by
  rw [← length_utf8Bytes, utf8Bytes_bytesHex]
  induction bytes with
  | nil => rfl
  | cons byte bytes ih =>
      rw [List.flatMap_cons, List.length_append, ih, List.length_cons]
      simp
      omega

end Distributed.Platform
