import Distributed.Platform.Crates
import Distributed.Repository.Error

/-! Bounded names, opaque strings, canonical bytes and positions of the projection
protocol. Each check returns its value with the fact it established.
-/

namespace Distributed.ProjectionProtocol

open Distributed.Platform Distributed.Repository Distributed.Table

/-- `ProjectionProtocolValidationError`. -/
inductive ValidationError where
  | empty (field : String)
  | tooLong (field : String) (len max : Nat)
  | invalidNameCharacter (field : String) (byteIndex : Nat) (character : Char)
  | invalidOpaqueCharacter (field : String) (byteIndex : Nat) (character : Char)
  | zero (field : String)
  | tooLarge (field : String) (value max : Nat)
  | scopeMismatch (field : String)
deriving DecidableEq

/-- `char::escape_default` for the characters a name check can report: the named escapes,
printable ASCII as it is, and a `\u` escape for everything else. -/
def escapeDefault (c : Char) : String :=
  let code := c.toNat
  if c = '\t' then "\\t"
  else if c = '\r' then "\\r"
  else if c = '\n' then "\\n"
  else if c = '\'' then "\\'"
  else if c = '"' then "\\\""
  else if c = '\\' then "\\\\"
  else if 0x20 ≤ code && code ≤ 0x7E then String.singleton c
  else "\\u\x7b" ++ String.ofList (Nat.toDigits 16 code) ++ "\x7d"

/-- The `Debug` quotes around an escaped character: its backslashes and quotes are escaped
once more. -/
def debugQuoted (text : String) : String :=
  let escape (c : Char) : List Char :=
    if c = '\\' then ['\\', '\\'] else if c = '"' then ['\\', '"'] else [c]
  "\"" ++ String.ofList (text.toList.flatMap escape) ++ "\""

/-- The `Display` text of a validation error. -/
def ValidationError.text : ValidationError → String
  | .empty field => s!"{field} must not be empty"
  | .tooLong field len max => s!"{field} is {len} bytes, exceeding the maximum of {max}"
  | .invalidNameCharacter field byteIndex character =>
      s!"{field} contains invalid character "
        ++ debugQuoted (escapeDefault character) ++ s!" at byte {byteIndex}"
  | .invalidOpaqueCharacter field byteIndex character =>
      s!"{field} contains control character "
        ++ debugQuoted (escapeDefault character) ++ s!" at byte {byteIndex}"
  | .zero field => s!"{field} must be greater than zero"
  | .tooLarge field value max => s!"{field} value {value} exceeds the maximum of {max}"
  | .scopeMismatch field => s!"{field} does not match the enclosing projection scope"

def maxProjectorNameBytes : Nat := 128
def maxProjectionSourceNameBytes : Nat := 128
def maxProjectionModelNameBytes : Nat := 128
def maxProjectionEpochBytes : Nat := 128
def maxProjectionPartitionBytes : Nat := 4 * 1024
def maxProjectionSourcePartitionBytes : Nat := 4 * 1024
def maxProjectionRecordKeyBytes : Nat := 4 * 1024

/-- `MAX_PROJECTION_POSITION`, the largest signed 64-bit value. -/
def maxProjectionPosition : Nat := 2 ^ 63 - 1

/-- Nonempty, at most `max` UTF-8 bytes, and no character that is `refused`. -/
def ValidText (refused : Char → Bool) (max : Nat) (value : String) : Prop :=
  value ≠ "" ∧ value.utf8ByteSize ≤ max ∧ ∀ c ∈ value.toList, refused c = false

instance (refused : Char → Bool) (max : Nat) (value : String)
    : Decidable (ValidText refused max value) :=
  haveI := List.decidableBAll (fun c => refused c = false) value.toList
  inferInstanceAs (Decidable (_ ∧ _ ∧ _))

def refusedInName (c : Char) : Bool := isControl c || isWhitespace c

abbrev ValidName (max : Nat) (value : String) : Prop := ValidText refusedInName max value

abbrev ValidOpaque (max : Nat) (value : String) : Prop := ValidText isControl max value

/-- The check shared by `validate_name` and `validate_opaque`. -/
def validateText (refused : Char → Bool)
    (refusal : String → Nat → Char → ValidationError)
    (field value : String) (max : Nat)
    : Except ValidationError { text : String // ValidText refused max text } :=
  if hempty : value = "" then .error (.empty field)
  else if hlong : max < value.utf8ByteSize then
    .error (.tooLong field value.utf8ByteSize max)
  else
    match hfound : findChar refused value with
    | some (byteIndex, character) => .error (refusal field byteIndex character)
    | none => .ok ⟨value, hempty, Nat.le_of_not_lt hlong, findChar_eq_none.mp hfound⟩

def validateName (field value : String) (max : Nat)
    : Except ValidationError { name : String // ValidName max name } :=
  validateText refusedInName .invalidNameCharacter field value max

def validateOpaque (field value : String) (max : Nat)
    : Except ValidationError { text : String // ValidOpaque max text } :=
  validateText isControl .invalidOpaqueCharacter field value max

def ValidCanonicalBytes (max : Nat) (bytes : Bytes) : Prop :=
  bytes ≠ [] ∧ bytes.length ≤ max

instance (max : Nat) (bytes : Bytes) : Decidable (ValidCanonicalBytes max bytes) :=
  inferInstanceAs (Decidable (_ ∧ _))

def validateCanonicalBytes (field : String) (value : Bytes) (max : Nat)
    : Except ValidationError { bytes : Bytes // ValidCanonicalBytes max bytes } :=
  if hempty : value = [] then .error (.empty field)
  else if hlong : max < value.length then .error (.tooLong field value.length max)
  else .ok ⟨value, hempty, Nat.le_of_not_lt hlong⟩

def validatePortablePosition (field : String) (value : Nat)
    : Except ValidationError { position : Nat // position ≤ maxProjectionPosition } :=
  if hlarge : maxProjectionPosition < value then
    .error (.tooLarge field value maxProjectionPosition)
  else .ok ⟨value, Nat.le_of_not_lt hlarge⟩

/-- A portable position that starts at one. -/
def ValidPosition (value : Nat) : Prop := 1 ≤ value ∧ value ≤ maxProjectionPosition

instance (value : Nat) : Decidable (ValidPosition value) :=
  inferInstanceAs (Decidable (_ ∧ _))

/-- The range check of a `NonZeroU64` position, with the two fields its errors name. -/
def validatePosition (field : String) (value : Nat)
    : Except ValidationError { position : Nat // ValidPosition position } :=
  if hlarge : maxProjectionPosition < value then
    .error (.tooLarge field value maxProjectionPosition)
  else if hzero : value = 0 then .error (.zero field)
  else .ok ⟨value, Nat.one_le_iff_ne_zero.mpr hzero, Nat.le_of_not_lt hlarge⟩

theorem validateText_eq_ok {refused : Char → Bool}
    {refusal : String → Nat → Char → ValidationError} {field value : String} {max : Nat}
    (h : ValidText refused max value)
    : validateText refused refusal field value max = .ok ⟨value, h⟩ := by
  obtain ⟨hempty, hlong, hchars⟩ := h
  have hfound := findChar_eq_none.mpr hchars
  unfold validateText
  rw [dif_neg hempty, dif_neg (Nat.not_lt.mpr hlong)]
  split
  · simp_all
  · rfl

theorem validateName_eq_ok {field value : String} {max : Nat} (h : ValidName max value)
    : validateName field value max = .ok ⟨value, h⟩ :=
  validateText_eq_ok h

theorem validateCanonicalBytes_eq_ok {field : String} {value : Bytes} {max : Nat}
    (h : ValidCanonicalBytes max value)
    : validateCanonicalBytes field value max = .ok ⟨value, h⟩ := by
  unfold validateCanonicalBytes
  rw [dif_neg h.1, dif_neg (Nat.not_lt.mpr h.2)]

theorem validatePosition_eq_ok {field : String} {value : Nat} (h : ValidPosition value)
    : validatePosition field value = .ok ⟨value, h⟩ := by
  unfold validatePosition
  rw [dif_neg (Nat.not_lt.mpr h.2), dif_neg (Nat.one_le_iff_ne_zero.mp h.1)]

theorem validatePosition_ok {field : String} {value : Nat}
    {position : { position : Nat // ValidPosition position }}
    (h : validatePosition field value = .ok position)
    : position.val = value := by
  unfold validatePosition at h
  split at h
  · cases h
  · split at h
    · cases h
    · cases h
      rfl

inductive ProjectionProtocolError where
  | validation (error : ValidationError)
  | repository (error : RepositoryError)
  | table (error : TableStoreError)
  | invalidBatch (message : String)
  | scopeMismatch (field : String)
  | incomparableInput
  | inputCorruption
  | messageIdReuse (messageId : String)
  | generationFenced (expected actual : Nat)
  | partitionStopped (failureId : String)
  | recordMissing (model : String)
  | recordAlreadyExists (model : String)
  | recordRevisionConflict (model : String)
      (expectedIncarnation expectedRevision actualIncarnation actualRevision : Nat)
  | recordTombstoned (model : String)
  | recreateRequiresTombstone (model : String)
  | causalWriteRequired (table : String)
  | positionOverflow (domain : String)

def ProjectionProtocolError.text : ProjectionProtocolError → String
  | .validation error => "invalid projection protocol value: " ++ error.text
  | .repository error => "projection repository error: " ++ error.text
  | .table error => "projection table error: " ++ error.text
  | .invalidBatch message => s!"invalid projection batch: {message}"
  | .scopeMismatch field => s!"{field} does not match the projection input scope"
  | .incomparableInput =>
      "projection input is incomparable with the durable checkpoint"
  | .inputCorruption =>
      "the same projection input cursor was reused with different content"
  | .messageIdReuse messageId =>
      s!"projection message ID `{messageId}` was reused for a different input"
  | .generationFenced expected actual =>
      s!"projection generation {actual} is fenced; active generation is {expected}"
  | .partitionStopped failureId =>
      s!"projection partition is stopped by terminal failure `{failureId}`"
  | .recordMissing model => s!"projection record `{model}` does not exist"
  | .recordAlreadyExists model => s!"projection record `{model}` already exists"
  | .recordRevisionConflict model expectedIncarnation expectedRevision actualIncarnation
      actualRevision =>
      s!"projection record `{model}` expected revision "
        ++ s!"({expectedIncarnation}, {expectedRevision}) but found "
        ++ s!"({actualIncarnation}, {actualRevision})"
  | .recordTombstoned model =>
      s!"projection record `{model}` is tombstoned; use explicit recreate"
  | .recreateRequiresTombstone model =>
      s!"projection record `{model}` can only be recreated from its exact tombstone revision"
  | .causalWriteRequired owned =>
      s!"table `{owned}` is causal-owned and requires the projection commit path"
  | .positionOverflow domain => s!"{domain} position overflow"

/-- `?` on a validation result. -/
def liftValidation {α : Type} (result : Except ValidationError α)
    : Except ProjectionProtocolError α :=
  result.mapError .validation

/-- `?` on a repository result. -/
def liftRepository {α : Type} (result : Except RepositoryError α)
    : Except ProjectionProtocolError α :=
  result.mapError .repository

/-- `?` on a table result. -/
def liftTable {α : Type} (result : Except TableStoreError α)
    : Except ProjectionProtocolError α :=
  result.mapError .table

def boundedName (field value : String) (max : Nat)
    : Except ProjectionProtocolError { name : String // ValidName max name } :=
  if h : ValidName max value then .ok ⟨value, h⟩
  else
    .error (.invalidBatch
      s!"{field} must contain 1..={max} non-whitespace, non-control UTF-8 bytes")

def boundedOpaque (field value : String) (max : Nat)
    : Except ProjectionProtocolError { text : String // ValidOpaque max text } :=
  if h : ValidOpaque max value then .ok ⟨value, h⟩
  else .error (.invalidBatch s!"{field} must contain 1..={max} non-control UTF-8 bytes")

end Distributed.ProjectionProtocol
