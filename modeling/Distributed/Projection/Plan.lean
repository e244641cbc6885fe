import Distributed.DomainEvent.Occurrence
import Distributed.Projection.Value
import Distributed.Table.WritePlan

/-! Resolved logical mutations of portable projections. -/

namespace Distributed.Projection

open Distributed.DomainEvent Distributed.Platform Distributed.Table

inductive ProjectionMutationKind where
  | insert
  | upsert
  | patch
  | upsertPatch
  | delete
  | recreate
  | insertRelated
  | upsertRelated
deriving DecidableEq

def ProjectionMutationKind.isCompleteWrite : ProjectionMutationKind → Bool
  | .insert | .upsert | .recreate | .insertRelated | .upsertRelated => true
  | .patch | .upsertPatch | .delete => false

inductive ProjectionRelationshipEffectKind where
  | link
  | unlink
  | invalidate
deriving DecidableEq

structure ProjectionTarget where
  model : String
  storage : String
deriving DecidableEq

structure ProjectionRelationship where
  sourceModel : String
  relationship : String
  targetModel : String
deriving DecidableEq

inductive ProjectionInvalidation where
  | model (model : String)
  | relationship (sourceModel relationship targetModel : String)
deriving DecidableEq

/-- Domain-separated digest of a program. -/
structure ProjectionProgramId where
  digest : Digest
deriving DecidableEq

/-- Exact domain-event contract selected by a projection arm. -/
structure ProjectionEventSelector where
  occurrenceVersion : Nat
  eventName : String
  eventVersion : Nat
  bodyKind : DomainEventBodyKind
  bodyTypeName : String
  bodyVersion : Nat
  bodySchema : String
  bodyFingerprint : String
  bodyCodec : String
  bodyCodecVersion : Nat
deriving DecidableEq

inductive ResolvedProjectionPartitionValue where
  | unit
  | value (value : ProjectionValue)
deriving DecidableEq

structure ResolvedProjectionPartition where
  partition : ResolvedProjectionPartitionValue
  canonicalBytes : Bytes
deriving DecidableEq

structure ResolvedProjectionKeyField where
  ordinal : Nat
  name : String
  value : ProjectionValue
deriving DecidableEq

structure ResolvedProjectionKey where
  fields : List ResolvedProjectionKeyField
  canonicalBytes : Bytes
deriving DecidableEq

structure ResolvedProjectionMutationScope where
  partition : ResolvedProjectionPartition
  model : String
  storage : String
  key : ResolvedProjectionKey
deriving DecidableEq

structure ResolvedProjectionField where
  operationStagingOrdinal : Nat
  fieldOrdinal : Nat
  name : String
  value : ResolvedProjectionValue
deriving DecidableEq

structure ResolvedProjectionRelationshipEffect where
  ordinal : Nat
  kind : ProjectionRelationshipEffectKind
  relationship : ProjectionRelationship
  sourceKey : Option ResolvedProjectionKey
  targetKey : Option ResolvedProjectionKey
deriving DecidableEq

/-- Where a mutation comes from; of its occurrence only the id is read. -/
structure ProjectionMutationProvenance where
  occurrenceId : String
  programId : ProjectionProgramId
  armId : String
  operationIds : List String
  stagingOrdinals : List Nat
  relationshipEffects : List ResolvedProjectionRelationshipEffect
  invalidations : List ProjectionInvalidation
deriving DecidableEq

structure ResolvedProjectionMutation where
  kind : ProjectionMutationKind
  target : ProjectionTarget
  scope : ResolvedProjectionMutationScope
  fields : List ResolvedProjectionField
  provenance : ProjectionMutationProvenance
deriving DecidableEq

def ResolvedProjectionMutation.key (mutation : ResolvedProjectionMutation)
    : ResolvedProjectionKey :=
  mutation.scope.key

end Distributed.Projection
