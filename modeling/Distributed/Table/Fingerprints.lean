import Distributed.Foundation.PrefixCodes
import Distributed.Platform.Utf8
import Distributed.Table.Mutation

/-! Fingerprints of row keys.
Every part of a fingerprint has its length before it, so that a fingerprint determines its
columns, and their values up to the text of a float.
-/

namespace Distributed.Table

open Distributed.Foundation Distributed.Platform

theorem utf8Bytes_fingerprintPart (part : String)
    : utf8Bytes (fingerprintPart part)
      = utf8Bytes (toString part.utf8ByteSize) ++ 58 :: (utf8Bytes part ++ [59]) := by
  rw [fingerprintPart, utf8Bytes_append, utf8Bytes_append, utf8Bytes_append, List.append_assoc,
    List.append_assoc]
  rfl

theorem isDigit_toString {number : Nat} {c : Char} (h : c ∈ (toString number).toList)
    : c.isDigit = true := by
  obtain ⟨digit, rest, hlist, hdigits, -⟩ := toList_toString_nat number
  exact hdigits c (hlist ▸ h)

theorem colon_not_mem_toString (number : Nat) : (58 : UInt8) ∉ utf8Bytes (toString number) := by
  intro h
  have hcolon : ':' ∈ (toString number).toList :=
    (ascii_mem_utf8Bytes (c := ':') (by decide)).mp h
  exact absurd (isDigit_toString hcolon) (by decide)

theorem fingerprintPart_readsOff (part : String)
    : ReadsOff (fun part => utf8Bytes (fingerprintPart part)) (fun _ => True) Eq part := by
  intro other _ rest others h
  simp only [utf8Bytes_fingerprintPart, List.append_assoc, List.cons_append] at h
  obtain ⟨hlength, h⟩ := delimited_inj (colon_not_mem_toString _) (colon_not_mem_toString _) h
  have hsize : part.utf8ByteSize = other.utf8ByteSize :=
    toString_nat_injective (utf8Bytes_injective hlength)
  obtain ⟨hpart, hrest⟩ := List.append_inj h
    (by rw [length_utf8Bytes, length_utf8Bytes, hsize])
  exact ⟨utf8Bytes_injective hpart, (List.cons.inj hrest).2⟩

theorem bytesDebug_injective : Function.Injective bytesDebug := by
  have hwords : ∀ bytes : Bytes,
      ∀ word ∈ bytes.map fun byte => (toString byte.toNat).toList, word ≠ [] ∧ ',' ∉ word := by
    intro bytes word hword
    obtain ⟨byte, -, rfl⟩ := List.mem_map.mp hword
    obtain ⟨digit, rest, hlist, -, -⟩ := toList_toString_nat byte.toNat
    refine ⟨by rw [hlist]; exact List.cons_ne_nil _ _, ?_⟩
    exact fun hcomma => absurd (isDigit_toString hcomma) (by decide)
  intro left right h
  have hlists := String.toList_inj.mpr h
  simp only [bytesDebug, String.toList_append, String.toList_intercalate, List.map_map] at hlists
  have htexts := List.append_cancel_left (List.append_cancel_right hlists)
  have hbytes := separated_inj (hwords left) (hwords right) htexts
  refine List.map_injective_iff.mpr ?_ hbytes
  intro byte other hbyte
  exact UInt8.toNat_inj.mp (toString_nat_injective (String.toList_inj.mp hbyte))

/-- Values with one fingerprint: floats are told apart by their text alone. -/
def SameFingerprint (crates : Crates) : RowValue → RowValue → Prop
  | .f64 bits, .f64 image => crates.f64Debug bits = crates.f64Debug image
  | value, image => value = image

/-- The letters a fingerprint starts with tell the kinds of values apart. -/
def fingerprintLetters : RowValue → List Char
  | .null => ['n', 'u']
  | .bool _ => ['b', 'o']
  | .i64 _ => ['i', '6']
  | .u64 _ => ['u', '6']
  | .f64 _ => ['f', '6']
  | .string _ => ['s', 't']
  | .bytes _ => ['b', 'y']
  | .json _ => ['j', 's']

theorem take_valueFingerprint (crates : Crates) (value : RowValue)
    : (valueFingerprint crates value).toList.take 2 = fingerprintLetters value := by
  cases value <;> simp [valueFingerprint, fingerprintLetters, String.toList_append]

theorem fingerprintText_inj {word left right : String} (h : word ++ left = word ++ right)
    : left = right := by
  have hlists := String.toList_inj.mpr h
  rw [String.toList_append, String.toList_append] at hlists
  exact String.toList_inj.mp (List.append_cancel_left hlists)

theorem sameFingerprint_of_eq {crates : Crates}
    (hjson : Function.Injective crates.jsonToString) {value image : RowValue}
    (h : valueFingerprint crates value = valueFingerprint crates image)
    : SameFingerprint crates value image := by
  have hletters : fingerprintLetters value = fingerprintLetters image := by
    rw [← take_valueFingerprint crates, ← take_valueFingerprint crates, h]
  cases value <;> cases image <;> first
    | rfl
    | (simp [fingerprintLetters] at hletters; done)
    | have htext := fingerprintText_inj h
  · rename_i value image
    cases value <;> cases image <;> simp at htext ⊢ <;> rfl
  · exact congrArg _ (Int64.toInt_inj.mp (toString_int_injective htext))
  · exact congrArg _ (UInt64.toNat_inj.mp (toString_nat_injective htext))
  · exact htext
  · exact congrArg _ htext
  · exact congrArg _ (bytesDebug_injective htext)
  · exact congrArg _ (hjson htext)

theorem valueFingerprint_congr {crates : Crates} {value image : RowValue}
    (h : SameFingerprint crates value image)
    : valueFingerprint crates value = valueFingerprint crates image := by
  unfold SameFingerprint at h
  split at h
  · rw [valueFingerprint, valueFingerprint, h]
  · rw [h]

/-- One column of a key. -/
def entryFingerprint (crates : Crates) (entry : String × RowValue) : Bytes :=
  utf8Bytes (fingerprintPart entry.1)
    ++ utf8Bytes (fingerprintPart (valueFingerprint crates entry.2))

theorem utf8Bytes_keyFingerprint (crates : Crates) (key : RowKey)
    : utf8Bytes (keyFingerprint crates key) = key.entries.flatMap (entryFingerprint crates) := by
  have hfold : ∀ (entries : List (String × RowValue)) (fingerprint : String),
      utf8Bytes (entries.foldl
        (fun fingerprint entry =>
          fingerprint ++ fingerprintPart entry.1
            ++ fingerprintPart (valueFingerprint crates entry.2))
        fingerprint)
      = utf8Bytes fingerprint ++ entries.flatMap (entryFingerprint crates) := by
    intro entries
    induction entries with
    | nil => intro fingerprint; simp
    | cons entry rest ih =>
        intro fingerprint
        rw [List.foldl_cons, ih, List.flatMap_cons, utf8Bytes_append, utf8Bytes_append,
          entryFingerprint, List.append_assoc, List.append_assoc, List.append_assoc]
  exact hfold key.entries ""

def SameEntry (crates : Crates) (entry image : String × RowValue) : Prop :=
  entry.1 = image.1 ∧ SameFingerprint crates entry.2 image.2

theorem entryFingerprint_readsOff {crates : Crates}
    (hjson : Function.Injective crates.jsonToString) (entry : String × RowValue)
    : ReadsOff (entryFingerprint crates) (fun _ => True) (SameEntry crates) entry := by
  intro image _ rest others h
  simp only [entryFingerprint, List.append_assoc] at h
  obtain ⟨hcolumn, h⟩ := fingerprintPart_readsOff _ _ trivial _ _ h
  obtain ⟨hvalue, hrest⟩ := fingerprintPart_readsOff _ _ trivial _ _ h
  exact ⟨⟨hcolumn, sameFingerprint_of_eq hjson hvalue⟩, hrest⟩

theorem entryFingerprint_ne_nil (crates : Crates) (entry : String × RowValue)
    : entryFingerprint crates entry ≠ [] := by
  rw [entryFingerprint, utf8Bytes_fingerprintPart]
  simp

/-- Keys of one fingerprint have the same columns with the same values, floats by their
text. -/
theorem keyFingerprint_eq_iff {crates : Crates}
    (hjson : Function.Injective crates.jsonToString) {key other : RowKey}
    : keyFingerprint crates key = keyFingerprint crates other
      ↔ List.Forall₂ (SameEntry crates) key.entries other.entries := by
  rw [← utf8Bytes_injective.eq_iff, utf8Bytes_keyFingerprint, utf8Bytes_keyFingerprint]
  constructor
  · intro h
    exact flatMap_readsOff_all (fun entry _ => entryFingerprint_readsOff hjson entry)
      (fun _ _ => trivial) (entryFingerprint_ne_nil crates) h
  · intro h
    refine flatMap_eq_of_same h ?_
    rintro ⟨column, value⟩ _ ⟨column', image⟩ _ ⟨hcolumn, hvalue⟩
    cases hcolumn
    rw [entryFingerprint, entryFingerprint, valueFingerprint_congr hvalue]

end Distributed.Table
