import Distributed.Projection.Expression
import Distributed.Projection.Plan

/-! Operations and arms of projection programs, as their constructors validate them.
-/

namespace Distributed.Projection

open Distributed.Foundation Distributed.Platform

def maxProjectionOperationsPerOccurrence : Nat := 128

structure ProjectionKeyField where
  ordinal : Nat
  name : String
  expression : ProjectionExpression
deriving DecidableEq

def ProjectionKeyField.tryNew (ordinal : Nat) (name : String)
    (expression : ProjectionExpression) : Except ProjectionProgramError ProjectionKeyField := do
  let name ← nonEmpty name "projection key field"
  .ok { ordinal, name, expression }

structure ProjectionField where
  ordinal : Nat
  name : String
  assignment : ProjectionAssignment
deriving DecidableEq

def ProjectionField.tryNew (ordinal : Nat) (name : String) (assignment : ProjectionAssignment)
    : Except ProjectionProgramError ProjectionField := do
  let name ← nonEmpty name "projection field"
  .ok { ordinal, name, assignment }

def ProjectionMutationKind.isPatch : ProjectionMutationKind → Bool
  | .patch | .upsertPatch => true
  | _ => false

def ProjectionMutationKind.isRelated : ProjectionMutationKind → Bool
  | .insertRelated | .upsertRelated => true
  | _ => false

/-- Portable relationship provenance with explicit endpoint-key expressions. -/
structure ProjectionRelationshipEffect where
  ordinal : Nat
  kind : ProjectionRelationshipEffectKind
  relationship : ProjectionRelationship
  sourceKey : List ProjectionKeyField
  targetKey : List ProjectionKeyField
deriving DecidableEq

structure ProjectionOperation where
  operationId : String
  stagingOrdinal : Nat
  kind : ProjectionMutationKind
  target : ProjectionTarget
  key : List ProjectionKeyField
  fields : List ProjectionField
  relationshipEffects : List ProjectionRelationshipEffect
  invalidations : List ProjectionInvalidation
deriving DecidableEq

structure ProjectionArm where
  armId : String
  selector : ProjectionEventSelector
  operations : List ProjectionOperation
deriving DecidableEq

/-- `sort_by_key`. -/
def sortByOrdinal {α : Type} (ordinal : α → Nat) (values : List α) : List α :=
  sortBy (fun left right => ordinal left < ordinal right) values

/-- The derived order: whole models first, then by the names in their order. -/
def ProjectionInvalidation.sortText : ProjectionInvalidation → Nat × List (List Char)
  | .model name => (0, [name.toList])
  | .relationship sourceModel name targetModel =>
      (1, [sourceModel.toList, name.toList, targetModel.toList])

def ProjectionInvalidation.less (left right : ProjectionInvalidation) : Bool :=
  left.sortText.1 < right.sortText.1
    || (left.sortText.1 = right.sortText.1 && left.sortText.2 < right.sortText.2)

/-- `sort` and `dedup`. -/
def sortInvalidations (invalidations : List ProjectionInvalidation)
    : List ProjectionInvalidation :=
  (sortBy ProjectionInvalidation.less invalidations).destutter (· ≠ ·)

def ProjectionInvalidation.relationship? : ProjectionInvalidation → Option ProjectionRelationship
  | .relationship sourceModel name targetModel => some ⟨sourceModel, name, targetModel⟩
  | .model _ => none

def validateRelationshipInvalidations (operationId : String)
    (effects : List ProjectionRelationshipEffect) (invalidations : List ProjectionInvalidation)
    : Except ProjectionProgramError Unit :=
  let declared := invalidations.filterMap ProjectionInvalidation.relationship?
  let proven := (effects.filter fun effect => effect.kind = .invalidate).map
    ProjectionRelationshipEffect.relationship
  if declared ⊆ proven ∧ proven ⊆ declared then .ok ()
  else
    .error (.invalidOperation operationId
      ("relationship invalidation inventory must exactly match keyed "
        ++ "relationship invalidation effects"))

/-- A complete write that names a key field assigns the key's own expression to it. -/
def validateCompleteKeyField (operationId : String) (fields : List ProjectionField)
    (keyField : ProjectionKeyField) : Except ProjectionProgramError Unit :=
  match fields.find? fun field => field.name = keyField.name with
  | none => .ok ()
  | some field =>
      if field.assignment = .set keyField.expression then .ok ()
      else
        .error (.invalidOperation operationId
          s!"complete-row key field `{keyField.name}` must use the exact key expression")

def ProjectionOperation.tryNew (operationId : String) (stagingOrdinal : Nat)
    (kind : ProjectionMutationKind) (target : ProjectionTarget)
    (key : List ProjectionKeyField) (fields : List ProjectionField)
    (relationshipEffects : List ProjectionRelationshipEffect)
    (invalidations : List ProjectionInvalidation)
    : Except ProjectionProgramError ProjectionOperation := do
  let operationId ← nonEmpty operationId "projection operation ID"
  let key := sortByOrdinal ProjectionKeyField.ordinal key
  let fields := sortByOrdinal ProjectionField.ordinal fields
  validateNamedOrdinals key "projection key field" ProjectionKeyField.ordinal
    ProjectionKeyField.name
  validateNamedOrdinals fields "projection field" ProjectionField.ordinal ProjectionField.name
  if key.isEmpty then
    .error (.invalidOperation operationId "a complete logical key is required")
  if kind = .delete && !fields.isEmpty then
    .error (.invalidOperation operationId "delete cannot declare fields")
  if kind ≠ .delete && fields.isEmpty then
    .error (.invalidOperation operationId "a write operation requires at least one field")
  if kind.isCompleteWrite && fields.any (fun field => field.assignment = .unset) then
    .error (.invalidOperation operationId "complete-row writes cannot unset fields")
  if kind.isCompleteWrite then
    key.forM (validateCompleteKeyField operationId fields)
  let relationshipEffects :=
    sortByOrdinal ProjectionRelationshipEffect.ordinal relationshipEffects
  validateOrdinals relationshipEffects "relationship effect"
    ProjectionRelationshipEffect.ordinal
  if kind.isRelated && relationshipEffects.isEmpty then
    .error (.invalidOperation operationId
      "related-row writes require relationship provenance")
  let invalidations := sortInvalidations invalidations
  validateRelationshipInvalidations operationId relationshipEffects invalidations
  .ok {
    operationId, stagingOrdinal, kind, target, key, fields, relationshipEffects,
    invalidations }

def keysStaticallyDisjoint (left right : List ProjectionKeyField) : Bool :=
  left.length = right.length
    && (left.zip right).any fun (left, right) =>
      left.ordinal = right.ordinal && left.name = right.name
        && left.expression.staticallyDistinct right.expression

/-- `same_fields_ignoring_operation`. -/
def sameFieldsIgnoringOperation (left right : List ProjectionField) : Bool :=
  left.length = right.length
    && (left.zip right).all fun (left, right) =>
      left.ordinal = right.ordinal && left.name = right.name
        && left.assignment = right.assignment

/-- Fields of two patches that both name a field assign the same to it. -/
def patchFieldsCompatible (left right : List ProjectionField) : Bool :=
  left.all fun leftField =>
    match right.find? fun rightField => rightField.name = leftField.name with
    | none => true
    | some rightField => rightField.assignment = leftField.assignment

def ProjectionOperation.compatible (left right : ProjectionOperation) : Bool :=
  left.kind = right.kind
    && left.relationshipEffects = right.relationshipEffects
    && if left.kind.isPatch then patchFieldsCompatible left.fields right.fields
      else sameFieldsIgnoringOperation left.fields right.fields

/-- One pair of `validate_static_ambiguity`. -/
def validatePair (left right : ProjectionOperation) : Except ProjectionProgramError Unit :=
  if left.target ≠ right.target then .ok ()
  else if left.key = right.key then
    if left.compatible right then .ok ()
    else
      .error (.ambiguousMutation left.target.model
        (s!"operations `{left.operationId}` and `{right.operationId}` statically target "
          ++ "the same key with order-dependent semantics"))
  else if keysStaticallyDisjoint left.key right.key then .ok ()
  else
    .error (.ambiguousMutation left.target.model
      (s!"operations `{left.operationId}` and `{right.operationId}` have dynamic keys whose "
        ++ "overlap cannot be disproved at registration"))

def validateStaticAmbiguity : List ProjectionOperation → Except ProjectionProgramError Unit
  | [] => .ok ()
  | left :: rest => do
      rest.forM (validatePair left)
      validateStaticAmbiguity rest

def ProjectionArm.tryNew (armId : String) (selector : ProjectionEventSelector)
    (operations : List ProjectionOperation) : Except ProjectionProgramError ProjectionArm := do
  let armId ← nonEmpty armId "projection arm ID"
  if maxProjectionOperationsPerOccurrence < operations.length then
    .error (.tooManyOperations operations.length maxProjectionOperationsPerOccurrence)
  let operations := sortByOrdinal ProjectionOperation.stagingOrdinal operations
  validateNamedOrdinals operations "projection operation" ProjectionOperation.stagingOrdinal
    ProjectionOperation.operationId
  validateStaticAmbiguity operations
  .ok { armId, selector, operations }

end Distributed.Projection
