import Distributed.Platform.Crates
import Distributed.Projection.Program
import Distributed.ProjectionProtocol.Validation

/-! Resolving the operations of an arm on one occurrence into its final logical mutations.
-/

namespace Distributed.Projection

open Distributed.DomainEvent Distributed.Foundation Distributed.Platform

open Distributed.ProjectionProtocol

mutual

/-- The tagged form of a value, with the tag and the content as two members. -/
def ProjectionValue.toJson : ProjectionValue → Json
  | .null => .ofFields [("type", .string "null")]
  | .boolean value => .ofFields [("type", .string "boolean"), ("value", .bool value)]
  | .i64 text => .ofFields [("type", .string "i64"), ("value", .string text)]
  | .u64 text => .ofFields [("type", .string "u64"), ("value", .string text)]
  | .f64 text => .ofFields [("type", .string "f64"), ("value", .string text)]
  | .string value => .ofFields [("type", .string "string"), ("value", .string value)]
  | .enum enumType variant =>
      .ofFields [("type", .string "enum"),
        ("value", .ofFields [("enum_type", .string enumType), ("variant", .string variant)])]
  | .list items => .ofFields [("type", .string "list"), ("value", .array (itemsToJson items))]
  | .object fields =>
      .ofFields [("type", .string "object"), ("value", .array (fieldsToJson fields))]

def ProjectionValue.itemsToJson : List ProjectionValue → List Json
  | [] => []
  | value :: rest => value.toJson :: itemsToJson rest

def ProjectionValue.fieldsToJson : List (String × ProjectionValue) → List Json
  | [] => []
  | (name, value) :: rest =>
      .ofFields [("name", .string name), ("value", value.toJson)] :: fieldsToJson rest

end

def ResolvedProjectionKeyField.toJson (field : ResolvedProjectionKeyField) : Json :=
  .ofFields [("ordinal", .ofNat field.ordinal), ("name", .string field.name),
    ("value", field.value.toJson)]

/-- `bounded_value_bytes`: the domain, the length and the canonical JSON of a value. -/
def boundedValueBytes (crates : Crates) (domain kind : String) (value : Json) (max : Nat)
    : Except ProjectionProgramError Bytes :=
  let canonical := utf8Bytes (canonicalJsonText crates value)
  let encoded := utf8Bytes domain ++ u64BeBytes canonical.length ++ canonical
  if max < encoded.length then .error (.valueTooLarge kind encoded.length max)
  else .ok encoded

/-- `bounded_key_bytes`. -/
def boundedKeyBytes (crates : Crates) (fields : List ResolvedProjectionKeyField)
    : Except ProjectionProgramError Bytes :=
  boundedValueBytes crates "distributed.projection-key/v1\x00" "projection key"
    (.array (fields.map ResolvedProjectionKeyField.toJson)) maxProjectionRecordKeyBytes

section Resolve

variable (crates : Crates) (floats : Floats) (occurrence : DomainEventOccurrence) (body : Json)

def resolveKeyField (field : ProjectionKeyField)
    : Except ProjectionProgramError ResolvedProjectionKeyField := do
  match ← field.expression.resolve floats occurrence body with
  | .value value =>
      if value.validKeyComponent then
        .ok { ordinal := field.ordinal, name := field.name, value }
      else .error (.invalidKeyValue field.name)
  | .absent | .unset => .error (.invalidKeyValue field.name)

def resolveKey (key : List ProjectionKeyField)
    : Except ProjectionProgramError ResolvedProjectionKey := do
  let fields ← key.mapM (resolveKeyField floats occurrence body)
  let canonicalBytes ← boundedKeyBytes crates fields
  .ok { fields, canonicalBytes }

def resolveField (operation : ProjectionOperation) (field : ProjectionField)
    : Except ProjectionProgramError ResolvedProjectionField := do
  let value ← field.assignment.resolve floats occurrence body
  match operation.kind.isCompleteWrite, value with
  | true, .absent => .error (.requiredValueAbsent field.name)
  | true, .unset => .error (.unsetNotAllowed field.name)
  | _, _ =>
      .ok {
        operationStagingOrdinal := operation.stagingOrdinal
        fieldOrdinal := field.ordinal
        name := field.name
        value }

def resolveRelationshipEffect (effect : ProjectionRelationshipEffect)
    : Except ProjectionProgramError ResolvedProjectionRelationshipEffect := do
  let sourceKey ← resolveKey crates floats occurrence body effect.sourceKey
  let targetKey ← match effect.kind with
    | .link | .unlink => do
        let targetKey ← resolveKey crates floats occurrence body effect.targetKey
        .ok (some targetKey)
    | .invalidate => .ok none
  .ok {
    ordinal := effect.ordinal
    kind := effect.kind
    relationship := effect.relationship
    sourceKey := some sourceKey
    targetKey }

variable (programId : ProjectionProgramId) (armId : String)
  (partition : ResolvedProjectionPartition)

def resolveOperation (operation : ProjectionOperation)
    : Except ProjectionProgramError ResolvedProjectionMutation := do
  let key ← resolveKey crates floats occurrence body operation.key
  let fields ← operation.fields.mapM (resolveField floats occurrence body operation)
  let relationshipEffects ← operation.relationshipEffects.mapM
    (resolveRelationshipEffect crates floats occurrence body)
  .ok {
    kind := operation.kind
    target := operation.target
    scope := {
      partition
      model := operation.target.model
      storage := operation.target.storage
      key }
    fields
    provenance := {
      occurrenceId := occurrence.id
      programId
      armId
      operationIds := [operation.operationId]
      stagingOrdinals := [operation.stagingOrdinal]
      relationshipEffects
      invalidations := operation.invalidations } }

end Resolve

/-- The record that `coalesce_mutations` groups by. -/
structure ProjectionScopeKey where
  model : String
  storage : String
  key : Bytes
deriving DecidableEq

def ProjectionScopeKey.less (left right : ProjectionScopeKey) : Bool :=
  ((compareOfLessAndEq left.model.toList right.model.toList).then <|
    (compareOfLessAndEq left.storage.toList right.storage.toList).then <|
      compareOfLessAndEq left.key right.key) = .lt

def ResolvedProjectionMutation.scopeKey (mutation : ResolvedProjectionMutation)
    : ProjectionScopeKey :=
  ⟨mutation.target.model, mutation.target.storage, mutation.scope.key.canonicalBytes⟩

/-- One incoming field of a patch. -/
def mergeField (model : String) (fields : List ResolvedProjectionField)
    (field : ResolvedProjectionField)
    : Except ProjectionProgramError (List ResolvedProjectionField) :=
  match fields.find? fun candidate => candidate.name = field.name with
  | some prior =>
      if prior.value = field.value then .ok fields
      else
        .error (.ambiguousMutation model
          s!"field `{field.name}` receives conflicting values in one occurrence")
  | none => .ok (fields ++ [field])

def ResolvedProjectionField.less (left right : ResolvedProjectionField) : Bool :=
  ((compare left.operationStagingOrdinal right.operationStagingOrdinal).then <|
    (compare left.fieldOrdinal right.fieldOrdinal).then <|
      compareOfLessAndEq left.name.toList right.name.toList) = .lt

def sameResolvedFieldsIgnoringStaging (left right : List ResolvedProjectionField) : Bool :=
  left.length = right.length
    && (left.zip right).all fun (left, right) =>
      left.fieldOrdinal = right.fieldOrdinal && left.name = right.name
        && left.value = right.value

/-- The fields of `merge_mutation`. -/
def mergeFields (existing incoming : ResolvedProjectionMutation)
    : Except ProjectionProgramError (List ResolvedProjectionField) := do
  if existing.kind.isPatch then
    let fields ← incoming.fields.foldlM (mergeField existing.target.model) existing.fields
    .ok (sortBy ResolvedProjectionField.less fields)
  else if sameResolvedFieldsIgnoringStaging existing.fields incoming.fields then
    .ok existing.fields
  else
    .error (.ambiguousMutation existing.target.model
      "duplicate complete mutations are not byte-identical")

/-- The existing mutation with the given fields and the provenance of both. -/
def ResolvedProjectionMutation.absorb (existing incoming : ResolvedProjectionMutation)
    (fields : List ResolvedProjectionField) : ResolvedProjectionMutation :=
  { existing with
    fields
    provenance := { existing.provenance with
      operationIds := existing.provenance.operationIds ++ incoming.provenance.operationIds
      stagingOrdinals :=
        existing.provenance.stagingOrdinals ++ incoming.provenance.stagingOrdinals
      invalidations := sortInvalidations
        (existing.provenance.invalidations ++ incoming.provenance.invalidations) } }

def mergeMutation (existing incoming : ResolvedProjectionMutation)
    : Except ProjectionProgramError ResolvedProjectionMutation := do
  if existing.kind ≠ incoming.kind ∨ existing.target ≠ incoming.target
      ∨ existing.scope ≠ incoming.scope
      ∨ existing.provenance.relationshipEffects ≠ incoming.provenance.relationshipEffects then
    .error (.ambiguousMutation existing.target.model
      "same record scope resolves to incompatible logical mutations")
  let fields ← mergeFields existing incoming
  .ok (existing.absorb incoming fields)

/-- One iteration of `coalesce_mutations`; the map is its values in the order of their
keys. -/
def coalesceInto (merged : List ResolvedProjectionMutation)
    (mutation : ResolvedProjectionMutation)
    : Except ProjectionProgramError (List ResolvedProjectionMutation) :=
  if merged.any fun existing => existing.scopeKey = mutation.scopeKey then
    merged.mapM fun existing =>
      if existing.scopeKey = mutation.scopeKey then mergeMutation existing mutation
      else .ok existing
  else
    .ok (merged.orderedInsert
      (fun left right => left.scopeKey.less right.scopeKey = true) mutation)

def coalesceMutations (mutations : List ResolvedProjectionMutation)
    : Except ProjectionProgramError (List ResolvedProjectionMutation) :=
  mutations.foldlM coalesceInto []

def ProjectionMutationKind.rank : ProjectionMutationKind → Nat
  | .insert => 0
  | .upsert => 1
  | .patch => 2
  | .upsertPatch => 3
  | .delete => 4
  | .recreate => 5
  | .insertRelated => 6
  | .upsertRelated => 7

/-- The order of the mutations in a plan. -/
def ResolvedProjectionMutation.less (left right : ResolvedProjectionMutation) : Bool :=
  ((compare left.kind.rank right.kind.rank).then <|
    (compareOfLessAndEq left.target.model.toList right.target.model.toList).then <|
      (compareOfLessAndEq left.target.storage.toList right.target.storage.toList).then <|
        (compareOfLessAndEq left.scope.key.canonicalBytes right.scope.key.canonicalBytes).then <|
          compare (left.provenance.stagingOrdinals.headD 0)
            (right.provenance.stagingOrdinals.headD 0)) = .lt

/-- The mutations of `ResolvedProjectionPlan::resolve` for the selected arm. -/
def resolveMutations (crates : Crates) (floats : Floats) (programId : ProjectionProgramId)
    (arm : ProjectionArm) (occurrence : DomainEventOccurrence) (body : Json)
    (partition : ResolvedProjectionPartition)
    : Except ProjectionProgramError (List ResolvedProjectionMutation) := do
  let mutations ← arm.operations.mapM
    (resolveOperation crates floats occurrence body programId arm.armId partition)
  let merged ← coalesceMutations mutations
  .ok (sortBy ResolvedProjectionMutation.less merged)

end Distributed.Projection
