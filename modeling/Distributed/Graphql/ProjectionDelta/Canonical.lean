import Distributed.Foundation.Grouping
import Distributed.Foundation.Sorting
import Distributed.Graphql.ProjectionDelta.Types

/-! Merging the operations of a delta, `projection_delta/canonical.rs`.
Operations of one scope are folded into one in the order they come. The fold keeps the latest
ordinal only.
-/

namespace Distributed.Graphql.ProjectionDelta

open Distributed.Foundation

def incompatibleFinalMutations : ProjectionDeltaError :=
  .invalidOperation "same scope resolves to incompatible final mutations"

def sameMergeScope (existing incoming : ProjectionDeltaMutation) : Bool :=
  match existing, incoming with
  | .upsert existing _ _, .upsert incoming _ _ | .upsert existing _ _, .patch incoming _ _ _
  | .upsert existing _ _, .delete incoming | .patch existing _ _ _, .upsert incoming _ _
  | .patch existing _ _ _, .patch incoming _ _ _ | .patch existing _ _ _, .delete incoming
  | .delete existing, .upsert incoming _ _ | .delete existing, .patch incoming _ _ _
  | .delete existing, .delete incoming => existing = incoming
  | .link relationship source target, .link relationship' source' target'
  | .link relationship source target, .unlink relationship' source' target'
  | .unlink relationship source target, .link relationship' source' target'
  | .unlink relationship source target, .unlink relationship' source' target' =>
      relationship = relationship' && source = source' && target = target'
  | .invalidateModel partition model, .invalidateModel partition' model' =>
      partition = partition' && model = model'
  | .invalidateRelationship relationship source, .invalidateRelationship relationship' source' =>
      relationship = relationship' && source = source'
  | _, _ => false

/-- What the two patches say of each field they name; later statements replace earlier ones. -/
def patchValues (set : List DeltaField) (unset : List String) (incomingSet : List DeltaField)
    (incomingUnset : List String)
    : SortedMap String (Option DeltaField) :=
  .ofList (set.map (fun field => (field.1, some field)) ++ unset.map (fun field => (field, none))
    ++ incomingSet.map (fun field => (field.1, some field))
    ++ incomingUnset.map (fun field => (field, none)))

def mergeMutation (existing incoming : ProjectionDeltaMutation)
    : Except ProjectionDeltaError ProjectionDeltaMutation :=
  if !sameMergeScope existing incoming then .error incompatibleFinalMutations
  else
    match existing, incoming with
    | .patch scope set unset ifPresent, .patch _ incomingSet incomingUnset incomingPresent =>
        let values := patchValues set unset incomingSet incomingUnset
        .ok (.patch scope (values.entries.filterMap Prod.snd)
          (values.entries.filterMap fun entry =>
            if entry.2.isNone then some entry.1 else none)
          (ifPresent && incomingPresent))
    | .upsert scope fields replace, .patch _ set unset true =>
        if (set.map Prod.fst ++ unset).any fun field => field ∉ replace then
          .error (.invalidOperation "patch fields must belong to the upsert replacement mask")
        else
          let values := SortedMap.ofList ((fields ++ set).map fun field => (field.1, field))
          let kept := unset.foldl SortedMap.erase values
          .ok (.upsert scope (kept.entries.map Prod.snd) (sortedSet replace))
    | .patch .., .upsert .. | .patch .., .delete _ | .upsert .., .upsert ..
    | .upsert .., .delete _ | .delete _, .upsert .. | .delete _, .delete _ => .ok incoming
    | .delete _, .patch .. => .ok existing
    | .link .., .link .. | .link .., .unlink .. | .unlink .., .link ..
    | .unlink .., .unlink .. => .ok incoming
    | .invalidateModel .., .invalidateModel .. => .ok incoming
    | .invalidateRelationship .., .invalidateRelationship .. => .ok incoming
    | _, _ => .error incompatibleFinalMutations

def mergeRefs (existing incoming : List Nat) : List Nat := sortedSet (existing ++ incoming)

def mergeOperation (existing incoming : ProjectionDeltaOperation)
    : Except ProjectionDeltaError ProjectionDeltaOperation :=
  if existing.occurrenceOrdinal = incoming.occurrenceOrdinal then
    if existing.mutation ≠ incoming.mutation then
      .error (.invalidOperation
        "same occurrence cannot contribute different mutations to one scope")
    else
      .ok { existing with
        projectionRefs := mergeRefs existing.projectionRefs incoming.projectionRefs }
  else do
    let mutation ←
      if existing.occurrenceOrdinal < incoming.occurrenceOrdinal then
        mergeMutation existing.mutation incoming.mutation
      else mergeMutation incoming.mutation existing.mutation
    .ok { occurrenceOrdinal := max existing.occurrenceOrdinal incoming.occurrenceOrdinal
          projectionRefs := mergeRefs existing.projectionRefs incoming.projectionRefs
          mutation }

/-- The entry of a scope is the first operation, then what the others are merged into. -/
def mergeEntry : Option ProjectionDeltaOperation → ProjectionDeltaOperation
    → Except ProjectionDeltaError ProjectionDeltaOperation
  | none, operation => .ok operation
  | some existing, operation => mergeOperation existing operation

def canonicalizeOperations (operations : List ProjectionDeltaOperation)
    : Except ProjectionDeltaError (List ProjectionDeltaOperation) := do
  let byScope ← operations.foldlM
    (groupStep ProjectionDeltaOperation.canonicalScope mergeEntry) SortedMap.empty
  .ok (sortBy ProjectionDeltaOperation.canonicalLess (byScope.entries.map Prod.snd))

end Distributed.Graphql.ProjectionDelta
