import Distributed.InMemoryRepo.ProjectionControl
import Distributed.Platform.JsonIndex
import Distributed.Table.Fingerprints
import Mathlib.Data.List.TakeWhile

/-! Storage keys of rows.
A storage key is a table's name, a colon and a fingerprint. The name has no length before it:
a name with a colon can take over the start of another table's fingerprint.
-/

namespace Distributed.InMemoryRepo

open Distributed.Foundation Distributed.Platform Distributed.Table

/-- The place of a row: a table and a key its schema accepts. -/
structure RowAddress where
  schema : TableSchema
  key : RowKey
  schema_valid : schema.validate = .ok ()
  key_valid : validateKey schema key = .ok ()

def RowAddress.storageKey (crates : Crates) (address : RowAddress) : String :=
  relationalStorageKey crates address.schema.tableName address.key

theorem RowAddress.entries_ne_nil (address : RowAddress) : address.key.entries ≠ [] := by
  intro hempty
  have hvalid := address.key_valid
  rw [validateKey, if_pos hempty] at hvalid
  cases hvalid

theorem utf8Bytes_relationalStorageKey (crates : Crates) (table : String) (key : RowKey)
    : utf8Bytes (relationalStorageKey crates table key)
      = utf8Bytes table ++ 58 :: utf8Bytes (keyFingerprint crates key) := by
  rw [relationalStorageKey, utf8Bytes_append, utf8Bytes_append, List.append_assoc]
  rfl

/-- A digit is one byte, its ASCII code. -/
theorem digit_byte {digit : Char} (h : digit.isDigit = true)
    : String.utf8EncodeChar digit = [UInt8.ofNat digit.toNat]
      ∧ (UInt8.ofNat digit.toNat).toNat = digit.toNat
      ∧ 48 ≤ digit.toNat ∧ digit.toNat ≤ 57 := by
  have hrange : 48 ≤ digit.toNat ∧ digit.toNat ≤ 57 := Char.isDigit_iff_toNat.mp h
  exact ⟨utf8EncodeChar_ascii (by omega),
    UInt8.toNat_ofNat_of_lt' (by simp only [UInt8.size]; omega), hrange⟩

theorem parseDigits_bytes {digits : List Char} (h : ∀ digit ∈ digits, digit.isDigit = true)
    (value : Nat)
    : parseDigits value (digits.flatMap String.utf8EncodeChar)
      = some (Nat.ofDigitChars 10 digits value) := by
  induction digits generalizing value with
  | nil => rfl
  | cons digit rest ih =>
      obtain ⟨hdigit, hrest⟩ := List.forall_mem_cons.mp h
      obtain ⟨hbytes, hbyte, hrange⟩ := digit_byte hdigit
      rw [List.flatMap_cons, hbytes, List.singleton_append, parseDigits,
        if_pos (by omega), hbyte, ih hrest, Nat.ofDigitChars_cons]
      rfl

theorem parseUsize_toString (number : Nat)
    : parseUsize (utf8Bytes (toString number)) = some number := by
  obtain ⟨digit, rest, hlist, hdigits, hvalue⟩ := toList_toString_nat number
  have hbytes : utf8Bytes (toString number)
      = (digit :: rest).flatMap String.utf8EncodeChar := by
    rw [← hlist, ← utf8Bytes_ofList, String.ofList_toList]
  have hparsed : parseDigits 0 (utf8Bytes (toString number)) = some number := by
    rw [hbytes, parseDigits_bytes hdigits, hvalue]
  -- A printed length starts with a digit, not with a plus sign.
  obtain ⟨hdigit, hbyte, hrange⟩ := digit_byte (hdigits digit (List.mem_cons_self ..))
  have hne : UInt8.ofNat digit.toNat ≠ 43 := by
    intro heq
    rw [heq, show (43 : UInt8).toNat = 43 from rfl] at hbyte
    omega
  rw [List.flatMap_cons, hdigit, List.singleton_append] at hbytes
  rw [hbytes] at hparsed ⊢
  rw [parseUsize]
  · exact hparsed
  · exact List.cons_ne_nil _ _
  · exact fun h => hne (List.cons.inj h).1
  · exact fun _ h => hne (List.cons.inj h).1

/-- The text is parts, each of them a length, a colon, that many bytes and a semicolon. -/
inductive Parts : Bytes → Prop
  | nil : Parts []
  | cons {digits part rest : Bytes} : 58 ∉ digits → parseUsize digits = some part.length →
      Parts rest → Parts (digits ++ 58 :: (part ++ 59 :: rest))

theorem dropFingerprintPart_digits {digits : Bytes} (hdigits : 58 ∉ digits)
    (afterColon : Bytes)
    : dropFingerprintPart (digits ++ 58 :: afterColon)
      = (parseUsize digits).bind fun length =>
        match afterColon.drop length with
        | 59 :: rest => some rest
        | _ => none := by
  have hbefore : ∀ byte ∈ digits, decide (byte ≠ 58) = true := fun byte hbyte =>
    decide_eq_true fun heq => hdigits (heq ▸ hbyte)
  rw [dropFingerprintPart, List.dropWhile_append_of_pos hbefore,
    List.takeWhile_append_of_pos hbefore, List.dropWhile_cons_of_neg (by decide),
    List.takeWhile_cons_of_neg (by decide), List.append_nil]
  rfl

theorem dropFingerprintPart_eq_some_iff {text rest : Bytes}
    : dropFingerprintPart text = some rest
      ↔ ∃ digits part, 58 ∉ digits ∧ parseUsize digits = some part.length
        ∧ text = digits ++ 58 :: (part ++ 59 :: rest) := by
  constructor
  · intro h
    by_cases hcolon : 58 ∈ text
    · obtain ⟨digits, afterColon, rfl, hdigits⟩ := List.eq_append_cons_of_mem hcolon
      rw [dropFingerprintPart_digits hdigits] at h
      obtain ⟨length, hlength, h⟩ := Option.bind_eq_some_iff.mp h
      split at h
      · rename_i left hleft
        cases h
        have hfits : length ≤ afterColon.length := by
          by_contra hlong
          rw [List.drop_eq_nil_of_le (by omega)] at hleft
          cases hleft
        refine ⟨digits, afterColon.take length, hdigits, ?_, ?_⟩
        · rw [hlength, List.length_take_of_le hfits]
        · rw [← hleft, List.take_append_drop]
      · cases h
    · have hnone : text.dropWhile (fun byte => decide (byte ≠ 58)) = [] :=
        List.dropWhile_eq_nil_iff.mpr fun byte hbyte =>
          decide_eq_true fun heq => hcolon (heq ▸ hbyte)
      rw [dropFingerprintPart, hnone] at h
      cases h
  · rintro ⟨digits, part, hdigits, hlength, rfl⟩
    rw [dropFingerprintPart_digits hdigits, hlength, Option.bind_some, List.drop_left]
    rfl

/-- Every part takes at least one byte, so that the bytes bound the parts. -/
theorem isFingerprint_iff {fuel : Nat} {text : Bytes} (hfuel : text.length ≤ fuel)
    : isFingerprint fuel text = true ↔ Parts text := by
  induction fuel generalizing text with
  | zero =>
      cases List.length_eq_zero_iff.mp (Nat.le_zero.mp hfuel)
      exact ⟨fun _ => .nil, fun _ => rfl⟩
  | succ fuel ih =>
      cases htext : text with
      | nil => exact ⟨fun _ => .nil, fun _ => rfl⟩
      | cons byte bytes =>
          rw [isFingerprint.eq_3 _ _ (List.cons_ne_nil _ _), ← htext]
          constructor
          · intro h
            split at h
            · rename_i rest hrest
              obtain ⟨digits, part, hdigits, hlength, rfl⟩ :=
                dropFingerprintPart_eq_some_iff.mp hrest
              refine .cons hdigits hlength ((ih ?_).mp h)
              simp only [List.length_append, List.length_cons] at hfuel
              omega
            · cases h
          · intro h
            cases h with
            | nil => cases htext
            | @cons digits part rest hdigits hlength hrest =>
                rw [dropFingerprintPart_eq_some_iff.mpr ⟨digits, part, hdigits, hlength, rfl⟩]
                refine (ih ?_).mpr hrest
                simp only [List.length_append, List.length_cons] at hfuel
                omega

/-- The scan takes a key that is the table's name, a colon and parts. -/
theorem storageKeyBelongsToTable_iff {storageKey table : String}
    : storageKeyBelongsToTable storageKey table = true
      ↔ ∃ rest, rest ≠ [] ∧ Parts rest
        ∧ utf8Bytes storageKey = utf8Bytes table ++ 58 :: rest := by
  have hdrop (rest : Bytes) : (utf8Bytes table ++ 58 :: rest).drop
      ((utf8Bytes table).length + 1) = rest := by
    rw [← List.drop_drop, List.drop_left, List.drop_one, List.tail_cons]
  unfold storageKeyBelongsToTable
  constructor
  · intro h
    split at h
    · rename_i byte bytes hpre hrest
      obtain ⟨rest, hkey⟩ := List.isPrefixOf_iff_prefix.mp hpre
      rw [List.append_assoc, List.singleton_append] at hkey
      rw [← hkey, hdrop] at hrest
      exact ⟨rest, hrest ▸ List.cons_ne_nil _ _,
        (isFingerprint_iff (Nat.le_refl _)).mp (hrest ▸ h), hkey.symm⟩
    · cases h
  · rintro ⟨rest, hne, hparts, hkey⟩
    have hpre : (utf8Bytes table ++ [58]).isPrefixOf (utf8Bytes storageKey) = true :=
      List.isPrefixOf_iff_prefix.mpr ⟨rest, by simp [hkey]⟩
    rw [hpre, hkey, hdrop]
    cases rest with
    | nil => exact absurd rfl hne
    | cons byte bytes => exact (isFingerprint_iff (Nat.le_refl _)).mpr hparts

theorem Parts.part {rest : Bytes} (h : Parts rest) (part : String)
    : Parts (utf8Bytes (fingerprintPart part) ++ rest) := by
  rw [utf8Bytes_fingerprintPart, List.append_assoc, List.cons_append, List.append_assoc]
  refine .cons (colon_not_mem_toString _) ?_ h
  rw [parseUsize_toString, length_utf8Bytes]

theorem parts_entries (crates : Crates) (entries : List (String × RowValue))
    : Parts (entries.flatMap (entryFingerprint crates)) := by
  induction entries with
  | nil => exact .nil
  | cons entry rest ih =>
      rw [List.flatMap_cons, entryFingerprint, List.append_assoc]
      exact (ih.part _).part _

theorem RowAddress.fingerprint_ne_nil (crates : Crates) (address : RowAddress)
    : utf8Bytes (keyFingerprint crates address.key) ≠ [] := by
  rw [utf8Bytes_keyFingerprint]
  intro hempty
  obtain ⟨entry, hentry⟩ := List.exists_mem_of_ne_nil _ address.entries_ne_nil
  exact entryFingerprint_ne_nil crates entry (List.flatMap_eq_nil_iff.mp hempty entry hentry)

/-- The other row's table is named like this row's with a colon and more after it, this row's
fingerprint starts with what is more and a colon, and the other row's fingerprint is what
follows. -/
def RowAddress.Overlaps (crates : Crates) (address other : RowAddress) : Prop :=
  ∃ more, utf8Bytes other.schema.tableName = utf8Bytes address.schema.tableName ++ 58 :: more
    ∧ utf8Bytes (keyFingerprint crates address.key)
      = more ++ 58 :: utf8Bytes (keyFingerprint crates other.key)

/-- One of the two names is the other with a colon and more after it, and after the table's
name and a colon the row's name and fingerprint go on with parts. -/
def RowAddress.TakenFor (crates : Crates) (address : RowAddress) (table : String) : Prop :=
  ∃ more rest, rest ≠ [] ∧ Parts rest
    ∧ (utf8Bytes table = utf8Bytes address.schema.tableName ++ 58 :: more
          ∧ utf8Bytes (keyFingerprint crates address.key) = more ++ 58 :: rest
        ∨ utf8Bytes address.schema.tableName = utf8Bytes table ++ 58 :: more
          ∧ rest = more ++ 58 :: utf8Bytes (keyFingerprint crates address.key))

theorem ne_of_longer {name other : String} {more : Bytes}
    (h : utf8Bytes other = utf8Bytes name ++ 58 :: more)
    : name ≠ other := by
  rintro rfl
  have hlength := congrArg List.length h
  simp at hlength

theorem storageKey_eq_iff {crates : Crates} (hjson : Function.Injective crates.jsonToString)
    (address other : RowAddress)
    : address.storageKey crates = other.storageKey crates
      ↔ (address.schema.tableName = other.schema.tableName
            ∧ List.Forall₂ (SameEntry crates) address.key.entries other.key.entries)
        ∨ address.Overlaps crates other ∨ other.Overlaps crates address := by
  rw [← utf8Bytes_injective.eq_iff, RowAddress.storageKey, RowAddress.storageKey,
    utf8Bytes_relationalStorageKey, utf8Bytes_relationalStorageKey, append_delimiter_eq_iff,
    utf8Bytes_injective.eq_iff, utf8Bytes_injective.eq_iff, keyFingerprint_eq_iff hjson]
  rfl

theorem storageKeyBelongsToTable_storageKey (crates : Crates) (address : RowAddress)
    (table : String)
    : storageKeyBelongsToTable (address.storageKey crates) table = true
      ↔ address.schema.tableName = table ∨ address.TakenFor crates table := by
  rw [storageKeyBelongsToTable_iff, RowAddress.storageKey, utf8Bytes_relationalStorageKey]
  constructor
  · rintro ⟨rest, hne, hparts, hkey⟩
    rcases append_delimiter_eq_iff.mp hkey with
      ⟨hname, -⟩ | ⟨more, hname, hrest⟩ | ⟨more, hname, hrest⟩
    · exact .inl (utf8Bytes_injective hname)
    · exact .inr ⟨more, rest, hne, hparts, .inl ⟨hname, hrest⟩⟩
    · exact .inr ⟨more, rest, hne, hparts, .inr ⟨hname, hrest⟩⟩
  · rintro (rfl | ⟨more, rest, hne, hparts, hname⟩)
    · refine ⟨_, address.fingerprint_ne_nil crates, ?_, rfl⟩
      rw [utf8Bytes_keyFingerprint]
      exact parts_entries crates address.key.entries
    · refine ⟨rest, hne, hparts, append_delimiter_eq_iff.mpr (.inr ?_)⟩
      exact hname.imp (fun h => ⟨more, h⟩) fun h => ⟨more, h⟩

/-- Storage keys of two rows are equal for one table and, but for floats that print alike,
one key only, if and only if neither row overlaps the other; and the scan of a table accepts
a stored key for exactly the table it was written under, if and only if the row is not taken
for one of the scanned table. -/
theorem storage_keys_unambiguous {crates : Crates}
    (hjson : Function.Injective crates.jsonToString)
    : (∀ address other : RowAddress,
        (address.storageKey crates = other.storageKey crates
            ↔ address.schema.tableName = other.schema.tableName
              ∧ List.Forall₂ (SameEntry crates) address.key.entries other.key.entries)
          ↔ ¬ address.Overlaps crates other ∧ ¬ other.Overlaps crates address)
      ∧ ∀ (address : RowAddress) (table : String),
        (storageKeyBelongsToTable (address.storageKey crates) table = true
            ↔ address.schema.tableName = table)
          ↔ ¬ address.TakenFor crates table := by
  refine ⟨fun address other => ?_, fun address table => ?_⟩
  · have hname : address.Overlaps crates other ∨ other.Overlaps crates address →
        address.schema.tableName ≠ other.schema.tableName := by
      rintro (⟨more, h, -⟩ | ⟨more, h, -⟩)
      · exact ne_of_longer h
      · exact (ne_of_longer h).symm
    rw [storageKey_eq_iff hjson, ← not_or]
    tauto
  · have hname : address.TakenFor crates table → address.schema.tableName ≠ table := by
      rintro ⟨more, rest, -, -, ⟨h, -⟩ | ⟨h, -⟩⟩
      · exact ne_of_longer h
      · exact (ne_of_longer h).symm
    rw [storageKeyBelongsToTable_storageKey]
    tauto

/-- Functions of other crates for runs that tell JSON values apart by their text. -/
def indexedCrates : Crates := { uncalledCrates with jsonToString := Json.indexText }

/-- A table of rows by a text id. -/
def namedTable (name : String) : TableSchema where
  modelName := "Note"
  tableName := name
  columns := [
    { fieldName := "id", columnName := "id", columnType := .text, primaryKey := true }]
  primaryKey := ["id"]

def rowId (id : String) : RowKey := SortedMap.empty.insert "id" (.string id)

theorem validate_rowId (name id : String) : validateKey (namedTable name) (rowId id) = .ok () :=
  rfl

def noteAddress : RowAddress where
  schema := namedTable "t"
  key := rowId "x:2:id;8:string:y"
  schema_valid := by decide +kernel
  key_valid := validate_rowId ..

/-- The name ends where the id of the other row has a colon. -/
def colonAddress : RowAddress where
  schema := namedTable "t:2:id;24:string:x"
  key := rowId "y"
  schema_valid := by decide +kernel
  key_valid := validate_rowId ..

theorem note_belongs_to_its_table
    : storageKeyBelongsToTable (noteAddress.storageKey indexedCrates) "t" = true
      ∧ ¬storageKeyBelongsToTable (noteAddress.storageKey indexedCrates) "u:v" = true := by
  have hjson : Function.Injective indexedCrates.jsonToString := Json.indexText_injective
  have hscan := (storage_keys_unambiguous hjson).2 noteAddress
  have hown : ¬ noteAddress.TakenFor indexedCrates "t" := by
    rintro ⟨more, rest, -, -, ⟨hname, -⟩ | ⟨hname, -⟩⟩ <;> exact ne_of_longer hname rfl
  have hother : ¬ noteAddress.TakenFor indexedCrates "u:v" := by
    rintro ⟨more, rest, -, -, ⟨hname, -⟩ | ⟨hname, -⟩⟩
    · have hfirst : some (117 : UInt8) = some 116 := congrArg List.head? hname
      exact absurd hfirst (by decide)
    · have hfirst : some (116 : UInt8) = some 117 := congrArg List.head? hname
      exact absurd hfirst (by decide)
  exact ⟨((hscan "t").mpr hown).mpr rfl,
    fun h => absurd (((hscan "u:v").mpr hother).mp h) (by decide)⟩

/-- Two rows of two tables at one storage key; the scans of both tables take it. -/
theorem colon_name_shares_key
    : Function.Injective indexedCrates.jsonToString
      ∧ noteAddress.schema.tableName ≠ colonAddress.schema.tableName
      ∧ noteAddress.storageKey indexedCrates = colonAddress.storageKey indexedCrates
      ∧ storageKeyBelongsToTable (noteAddress.storageKey indexedCrates)
          colonAddress.schema.tableName = true := by
  have hkeys : noteAddress.storageKey indexedCrates = colonAddress.storageKey indexedCrates := by
    decide +kernel
  refine ⟨Json.indexText_injective, by decide, hkeys, ?_⟩
  rw [hkeys, storageKeyBelongsToTable_storageKey]
  exact .inl rfl

end Distributed.InMemoryRepo
