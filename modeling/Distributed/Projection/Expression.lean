import Distributed.DomainEvent.Occurrence
import Distributed.Foundation.Sorting
import Distributed.Platform.Json
import Distributed.Projection.ProgramError
import Distributed.Projection.Value

/-! Portable projection expressions over a domain-event occurrence.
-/

namespace Distributed.Projection

open Distributed.DomainEvent Distributed.Foundation Distributed.Platform

def maxProjectionExpressionDepth : Nat := 64

def maxProjectionPathSegments : Nat := 32

/-- Stable occurrence fields that portable expressions may read. -/
inductive ProjectionEnvelopeField where
  | occurrenceVersion
  | occurrenceId
  | eventName
  | eventVersion
  | bodyFingerprint
  | bodyKind
  | bodyTypeName
  | bodyVersion
  | bodySchema
  | bodyCodec
  | bodyCodecVersion
  | aggregateType
  | aggregateId
  | aggregateSequence
  | publicationOrdinal
deriving DecidableEq

inductive ProjectionScalarTransform where
  | stringConcat
  | firstPresent
deriving DecidableEq

/-- Declared portable result codec for an event-body path. -/
inductive ProjectionValueType where
  | boolean
  | i64
  | u64
  | f64
  | string
  | enum (name : String)
  | json
deriving DecidableEq

/-- A deterministic expression over a domain-event occurrence. -/
inductive ProjectionExpression where
  | bodyPath (path : List String) (valueType : ProjectionValueType)
  | envelope (field : ProjectionEnvelopeField)
  | constant (value : ProjectionValue)
  | enum (enumType variant : String)
  | list (values : List ProjectionExpression)
  | object (fields : List (String × ProjectionExpression))
  | transform (transform : ProjectionScalarTransform) (arguments : List ProjectionExpression)

/-- A field assignment that preserves the difference between null and removal. -/
inductive ProjectionAssignment where
  | set (expression : ProjectionExpression)
  | unset

namespace ProjectionValue

def signed (value : Int) : ProjectionValue := .i64 (toString value)

def unsigned (value : Nat) : ProjectionValue := .u64 (toString value)

def tryFloat (floats : Floats) (bits : UInt64)
    : Except ProjectionProgramError ProjectionValue :=
  let normalized := if f64IsZero bits then 0 else bits
  if f64IsFinite normalized then .ok (.f64 (floats.toText normalized))
  else .error .nonFiniteFloat

def validKeyComponent : ProjectionValue → Bool
  | .boolean _ | .i64 _ | .u64 _ | .f64 _ | .string _ | .enum .. => true
  | .null | .list _ | .object _ => false

def asString? : ProjectionValue → Option String
  | .string value => some value
  | _ => none

/-- Members in the order of their names. -/
def sortFields {α : Type} (fields : List (String × α)) : List (String × α) :=
  sortBy (fun left right => left.1.toList < right.1.toList) fields

def fromNumber (floats : Floats) (number : JsonNumber)
    : Except ProjectionProgramError ProjectionValue :=
  match number.asI64?.filter (· < 0) with
  | some value => .ok (signed value)
  | none =>
      match number.asU64? with
      | some value => .ok (unsigned value)
      | none => tryFloat floats (number.asF64 floats)

mutual

def fromJson (floats : Floats) : Json → Except ProjectionProgramError ProjectionValue
  | .null => .ok .null
  | .bool value => .ok (.boolean value)
  | .string value => .ok (.string value)
  | .number number => fromNumber floats number
  | .array items => do
      let values ← fromJsonItems floats items
      .ok (.list values)
  | .object fields => do
      let fields ← fromJsonFields floats fields
      .ok (.object (sortFields fields))

def fromJsonItems (floats : Floats)
    : List Json → Except ProjectionProgramError (List ProjectionValue)
  | [] => .ok []
  | item :: rest => do
      let value ← fromJson floats item
      let values ← fromJsonItems floats rest
      .ok (value :: values)

def fromJsonFields (floats : Floats)
    : JsonFields → Except ProjectionProgramError (List (String × ProjectionValue))
  | [] => .ok []
  | (name, item) :: rest => do
      let value ← fromJson floats item
      let values ← fromJsonFields floats rest
      .ok ((name, value) :: values)

end

end ProjectionValue

mutual

/-- `json_depth`: the deepest level of a value whose own level is given. -/
def jsonDepth : Json → Nat → Nat
  | .array items, level => jsonDepthItems items level
  | .object fields, level => jsonDepthFields fields level
  | .null, level | .bool _, level | .number _, level | .string _, level => level

def jsonDepthItems : List Json → Nat → Nat
  | [], level => level
  | item :: rest, level => max (jsonDepth item (level + 1)) (jsonDepthItems rest level)

def jsonDepthFields : JsonFields → Nat → Nat
  | [], level => level
  | (_, item) :: rest, level => max (jsonDepth item (level + 1)) (jsonDepthFields rest level)

end

def validateDepth (depth : Nat) : Except ProjectionProgramError Unit :=
  if maxProjectionExpressionDepth < depth then
    .error (.expressionTooDeep depth maxProjectionExpressionDepth)
  else .ok ()

def ProjectionValue.tryFromJson (floats : Floats) (value : Json)
    : Except ProjectionProgramError ProjectionValue := do
  validateDepth (jsonDepth value 1)
  fromJson floats value

def typeMismatch (expected : String) (value : Json) : ProjectionProgramError :=
  .valueTypeMismatch expected
    (match value with
    | .null => "null"
    | .bool _ => "boolean"
    | .number number =>
        if number.asI64?.isSome then "integer"
        else if number.asU64?.isSome then "unsigned integer"
        else "float"
    | .string _ => "string"
    | .array _ => "array"
    | .object _ => "object")

def ProjectionValue.tryFromTypedJson (floats : Floats) (value : Json)
    (valueType : ProjectionValueType) : Except ProjectionProgramError ProjectionValue :=
  match valueType, value with
  | _, .null => .ok .null
  | .boolean, .bool flag => .ok (.boolean flag)
  | .boolean, value => .error (typeMismatch "boolean" value)
  | .i64, .number number =>
      match number.asI64? with
      | some integer => .ok (signed integer)
      | none => .error (typeMismatch "i64" (.number number))
  | .i64, value => .error (typeMismatch "i64" value)
  | .u64, .number number =>
      match number.asU64? with
      | some integer => .ok (unsigned integer)
      | none => .error (typeMismatch "u64" (.number number))
  | .u64, value => .error (typeMismatch "u64" value)
  | .f64, .number number => tryFloat floats (number.asF64 floats)
  | .f64, value => .error (typeMismatch "f64" value)
  | .string, .string text => .ok (.string text)
  | .string, value => .error (typeMismatch "string" value)
  | .enum enumType, .string variant => .ok (.enum enumType variant)
  | .enum _, value => .error (typeMismatch "enum string" value)
  | .json, value => tryFromJson floats value

mutual

/-- `portable_value_depth`. -/
def ProjectionValue.depth : ProjectionValue → Nat → Nat
  | .list values, level => depthItems values level
  | .object fields, level => depthFields fields level
  | .null, level | .boolean _, level | .i64 _, level | .u64 _, level | .f64 _, level
  | .string _, level | .enum .., level => level

def ProjectionValue.depthItems : List ProjectionValue → Nat → Nat
  | [], level => level
  | value :: rest, level => max (value.depth (level + 1)) (depthItems rest level)

def ProjectionValue.depthFields : List (String × ProjectionValue) → Nat → Nat
  | [], level => level
  | (_, value) :: rest, level => max (value.depth (level + 1)) (depthFields rest level)

end

namespace ProjectionExpression

mutual

/-- The recursion of `validate_depth`. -/
def depth : ProjectionExpression → Nat → Nat
  | .list values, level => depthItems values level
  | .object fields, level => depthFields fields level
  | .transform _ arguments, level => depthItems arguments level
  | .constant value, level => level + (value.depth 1 - 1)
  | .bodyPath .., level | .envelope _, level | .enum .., level => level

def depthItems : List ProjectionExpression → Nat → Nat
  | [], level => level
  | value :: rest, level => max (value.depth (level + 1)) (depthItems rest level)

def depthFields : List (String × ProjectionExpression) → Nat → Nat
  | [], level => level
  | (_, value) :: rest, level => max (value.depth (level + 1)) (depthFields rest level)

end

/-- An expression that is not too deep. -/
def bounded (expression : ProjectionExpression)
    : Except ProjectionProgramError ProjectionExpression := do
  validateDepth (expression.depth 1)
  .ok expression

/-- `ProjectionExpression::body_path`. -/
def tryBodyPath (valueType : ProjectionValueType) (path : List String)
    : Except ProjectionProgramError ProjectionExpression := do
  if maxProjectionPathSegments < path.length then
    .error (.pathTooDeep path.length maxProjectionPathSegments)
  if "" ∈ path then
    .error (.emptyName "body path segment")
  if valueType = .enum "" then
    .error (.emptyName "body enum type")
  .ok (.bodyPath path valueType)

/-- `ProjectionExpression::enum_variant`. -/
def tryEnum (enumType variant : String)
    : Except ProjectionProgramError ProjectionExpression := do
  let enumType ← nonEmpty enumType "enum type"
  let variant ← nonEmpty variant "enum variant"
  .ok (.enum enumType variant)

/-- `ProjectionExpression::list`. -/
def tryList (values : List ProjectionExpression)
    : Except ProjectionProgramError ProjectionExpression :=
  bounded (.list values)

/-- The first name that the next member repeats. -/
def repeatedName {α : Type} : List (String × α) → Option String
  | first :: second :: rest =>
      if first.1 = second.1 then some first.1 else repeatedName (second :: rest)
  | _ => none

/-- `ProjectionExpression::object`. -/
def tryObject (fields : List (String × ProjectionExpression))
    : Except ProjectionProgramError ProjectionExpression := do
  fields.forM fun field => do
    let _ ← nonEmpty field.1 "object field"
  let fields := ProjectionValue.sortFields fields
  match repeatedName fields with
  | some name => .error (.duplicateName "object field" name)
  | none => bounded (.object fields)

/-- `ProjectionExpression::transform`. -/
def tryTransform (operator : ProjectionScalarTransform)
    (arguments : List ProjectionExpression)
    : Except ProjectionProgramError ProjectionExpression :=
  if arguments.isEmpty then
    .error (.invalidOperation "portable expression"
      "scalar transforms require at least one argument")
  else bounded (.transform operator arguments)

end ProjectionExpression

namespace ProjectionExpression

mutual

def same : ProjectionExpression → ProjectionExpression → Bool
  | .bodyPath path valueType, .bodyPath other otherType => path = other && valueType = otherType
  | .envelope field, .envelope other => field = other
  | .constant value, .constant other => value = other
  | .enum enumType variant, .enum otherType other => enumType = otherType && variant = other
  | .list values, .list others => sameItems values others
  | .object fields, .object others => sameFields fields others
  | .transform operator arguments, .transform other others =>
      operator = other && sameItems arguments others
  | _, _ => false

def sameItems : List ProjectionExpression → List ProjectionExpression → Bool
  | [], [] => true
  | value :: rest, other :: others => same value other && sameItems rest others
  | _, _ => false

def sameFields
    : List (String × ProjectionExpression) → List (String × ProjectionExpression) → Bool
  | [], [] => true
  | (name, value) :: rest, (otherName, other) :: others =>
      name = otherName && same value other && sameFields rest others
  | _, _ => false

end

mutual

theorem same_iff : ∀ left right : ProjectionExpression, same left right = true ↔ left = right
  | .bodyPath .., right => by cases right <;> simp [same]
  | .envelope _, right => by cases right <;> simp [same]
  | .constant _, right => by cases right <;> simp [same]
  | .enum .., right => by cases right <;> simp [same]
  | .list values, right => by cases right <;> simp [same, sameItems_iff values]
  | .object fields, right => by cases right <;> simp [same, sameFields_iff fields]
  | .transform _ arguments, right => by cases right <;> simp [same, sameItems_iff arguments]

theorem sameItems_iff
    : ∀ left right : List ProjectionExpression, sameItems left right = true ↔ left = right
  | [], right => by cases right <;> simp [sameItems]
  | value :: rest, right => by
      cases right <;> simp [sameItems, same_iff value, sameItems_iff rest]

theorem sameFields_iff
    : ∀ left right : List (String × ProjectionExpression),
      sameFields left right = true ↔ left = right
  | [], right => by cases right <;> simp [sameFields]
  | (name, value) :: rest, right => by
      cases right with
      | nil => simp [sameFields]
      | cons other others =>
          obtain ⟨otherName, other⟩ := other
          simp [sameFields, same_iff value, sameFields_iff rest]

end

instance : DecidableEq ProjectionExpression := fun left right =>
  decidable_of_iff _ (same_iff left right)

end ProjectionExpression

deriving instance DecidableEq for ProjectionAssignment

/-- Follow the segments of a path through nested objects. -/
def readPath : List String → Json → Option Json
  | [], value => some value
  | segment :: rest, .object fields => do
      let next ← JsonFields.get? segment fields
      readPath rest next
  | _ :: _, _ => none

def ProjectionEnvelopeField.read (occurrence : DomainEventOccurrence)
    : ProjectionEnvelopeField → ProjectionValue
  | .occurrenceVersion => .unsigned occurrence.occurrenceVersion
  | .occurrenceId => .string occurrence.id
  | .eventName => .string occurrence.descriptor.name
  | .eventVersion => .unsigned occurrence.descriptor.version
  | .bodyFingerprint => .string occurrence.descriptor.body.fingerprint
  | .bodyKind => .string occurrence.descriptor.body.kind.asStr
  | .bodyTypeName => .string occurrence.descriptor.body.typeName
  | .bodyVersion => .unsigned occurrence.descriptor.body.version
  | .bodySchema => .string occurrence.descriptor.body.schema
  | .bodyCodec => .string occurrence.descriptor.body.codec
  | .bodyCodecVersion => .unsigned occurrence.descriptor.body.codecVersion
  | .aggregateType => .string occurrence.aggregateType
  | .aggregateId => .string occurrence.aggregateId
  | .aggregateSequence => .unsigned occurrence.aggregateSequence
  | .publicationOrdinal => .unsigned occurrence.publicationOrdinal

namespace ProjectionExpression

section Resolve

variable (floats : Floats) (occurrence : DomainEventOccurrence) (body : Json)

mutual

def resolve : ProjectionExpression → Except ProjectionProgramError ResolvedProjectionValue
  | .bodyPath path valueType =>
      match readPath path body with
      | none => .ok .absent
      | some value => do
          let value ← ProjectionValue.tryFromTypedJson floats value valueType
          .ok (.value value)
  | .envelope field => .ok (.value (field.read occurrence))
  | .constant value => .ok (.value value)
  | .enum enumType variant => .ok (.value (.enum enumType variant))
  | .list values => do
      match ← resolveItems values with
      | some values => .ok (.value (.list values))
      | none => .ok .absent
  | .object fields => do
      match ← resolveFields fields with
      | some fields => .ok (.value (.object fields))
      | none => .ok .absent
  | .transform .stringConcat arguments => do
      match ← resolveStrings arguments with
      | some text => .ok (.value (.string text))
      | none => .ok .absent
  | .transform .firstPresent arguments => resolveFirst arguments

/-- The elements of a list, or nothing when one is absent. -/
def resolveItems
    : List ProjectionExpression → Except ProjectionProgramError (Option (List ProjectionValue))
  | [] => .ok (some [])
  | expression :: rest => do
      match ← resolve expression with
      | .value value =>
          let values ← resolveItems rest
          .ok (values.map (value :: ·))
      | .absent => .ok none
      | .unset => .error (.unsetNotAllowed "list element")

/-- The members of an object, or nothing when one is absent. -/
def resolveFields
    : List (String × ProjectionExpression)
      → Except ProjectionProgramError (Option (List (String × ProjectionValue)))
  | [] => .ok (some [])
  | (name, expression) :: rest => do
      match ← resolve expression with
      | .value value =>
          let fields ← resolveFields rest
          .ok (fields.map ((name, value) :: ·))
      | .absent => .ok none
      | .unset => .error (.unsetNotAllowed name)

/-- The concatenation of string arguments, or nothing when one is absent. -/
def resolveStrings
    : List ProjectionExpression → Except ProjectionProgramError (Option String)
  | [] => .ok (some "")
  | expression :: rest => do
      match ← resolve expression with
      | .value value =>
          match value.asString? with
          | none =>
              .error (.invalidOperation "string_concat expression"
                "all arguments must resolve to strings")
          | some text =>
              let texts ← resolveStrings rest
              .ok (texts.map (text ++ ·))
      | .absent => .ok none
      | .unset => .error (.unsetNotAllowed "string_concat argument")

/-- The first argument that is not absent. -/
def resolveFirst
    : List ProjectionExpression → Except ProjectionProgramError ResolvedProjectionValue
  | [] => .ok .absent
  | expression :: rest => do
      match ← resolve expression with
      | .absent => resolveFirst rest
      | .value value => .ok (.value value)
      | .unset => .ok .unset

end

end Resolve

def staticallyDistinct : ProjectionExpression → ProjectionExpression → Bool
  | .constant left, .constant right => left ≠ right
  | .enum leftType leftVariant, .enum rightType rightVariant =>
      leftType ≠ rightType || leftVariant ≠ rightVariant
  | _, _ => false

end ProjectionExpression

def ProjectionAssignment.resolve (floats : Floats) (occurrence : DomainEventOccurrence)
    (body : Json)
    : ProjectionAssignment → Except ProjectionProgramError ResolvedProjectionValue
  | .set expression => expression.resolve floats occurrence body
  | .unset => .ok .unset

end Distributed.Projection
