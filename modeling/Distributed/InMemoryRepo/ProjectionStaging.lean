import Distributed.InMemoryRepo.ProjectionState
import Distributed.ProjectionProtocol.Replay

/-! Staging of ownership, records and changes on a copy of the projection state.
A panic of the source is an error here; each is ruled out by the checks before it.
-/

namespace Distributed.InMemoryRepo

open Distributed.Foundation Distributed.Platform Distributed.ProjectionProtocol

open Distributed.Table

/-- `validate_ownership_batch`; `declared` are the earlier declarations. -/
def validateOwnershipBatchFrom
    : List ProjectionModelOwnership → List ProjectionModelOwnership →
      Except ProjectionProtocolError Unit
  | _, [] => .ok ()
  | declared, declaration :: rest => do
      match declared.find? fun earlier => earlier.model = declaration.model with
      | some previous =>
          if previous.table ≠ declaration.table then
            .error (.invalidBatch
              (s!"projection model `{declaration.model}` declares both table "
                ++ s!"`{previous.table}` and `{declaration.table}`"))
      | none => .ok ()
      match declared.find? fun earlier => earlier.table = declaration.table with
      | some previous =>
          if previous.model ≠ declaration.model then
            .error (.invalidBatch
              (s!"projection table `{declaration.table}` is declared by both model "
                ++ s!"`{previous.model}` and `{declaration.model}`"))
      | none => .ok ()
      validateOwnershipBatchFrom (declaration :: declared) rest

def validateOwnershipBatch (ownership : List ProjectionModelOwnership)
    : Except ProjectionProtocolError Unit :=
  validateOwnershipBatchFrom [] ownership

def changeKindForMutation : ProjectionMutationKind → ProjectionChangeKind
  | .upsert => .recordUpsert
  | .delete => .recordDelete
  | .recreate => .recordRecreate

namespace InMemoryProjectionProtocolState

/-- A declaration must be the registered owner of its table; `traffic` names the path in
the error. -/
def requireRegisteredOwner (protocol : InMemoryProjectionProtocolState)
    (partition : PartitionKey) (traffic : String) (declaration : ProjectionModelOwnership)
    : Except ProjectionProtocolError Unit := do
  let registeredKey : RegisteredModelKey := ⟨partition.topology, declaration.model⟩
  match protocol.registeredModels.lookup registeredKey with
  | some table =>
      if table ≠ declaration.table then
        .error (.invalidBatch
          (s!"projection model `{declaration.model}` was bootstrapped for table "
            ++ s!"`{table}`, not `{declaration.table}`"))
  | none =>
      .error (.invalidBatch
        (s!"projection model `{declaration.model}` was not registered before "
          ++ s!"{traffic} traffic"))
  if protocol.authoritativeTableOwners.lookup declaration.table ≠ some registeredKey then
    .error (.invalidBatch
      (s!"projection table `{declaration.table}` does not have model "
        ++ s!"`{declaration.model}` in this topology as its global authoritative owner"))

/-- Bind a model to its table within the partition. -/
def bindOwnership (partition : PartitionKey) (protocol : InMemoryProjectionProtocolState)
    (declaration : ProjectionModelOwnership)
    : Except ProjectionProtocolError InMemoryProjectionProtocolState := do
  let key : OwnershipKey := ⟨partition, declaration.model⟩
  match protocol.ownership.lookup key with
  | some previous =>
      if previous ≠ declaration.table then
        .error (.invalidBatch
          s!"projection model `{declaration.model}` is already bound to table `{previous}`")
  | none => .ok ()
  match protocol.ownership.toList.find? fun entry =>
      entry.1.partition = partition ∧ entry.2 = declaration.table
        ∧ entry.1.model ≠ declaration.model with
  | some (other, _) =>
      .error (.invalidBatch
        (s!"projection table `{declaration.table}` is already bound to model "
          ++ s!"`{other.model}`"))
  | none => .ok ()
  .ok { protocol with ownership := protocol.ownership.insert key declaration.table }

def ownedTable (protocol : InMemoryProjectionProtocolState) (partition : PartitionKey)
    (scope : ProjectionRecordScope) : Except ProjectionProtocolError String :=
  match protocol.ownership.lookup ⟨partition, scope.model⟩ with
  | some table => .ok table
  | none =>
      .error (.invalidBatch
        s!"projection model `{scope.model}` has no causal ownership declaration")

def requireMutationOwner (protocol : InMemoryProjectionProtocolState)
    (partition : PartitionKey) (mutation : ProjectionRecordMutation)
    : Except ProjectionProtocolError Unit := do
  let schema := mutation.mutation.schema
  let table ← protocol.ownedTable partition mutation.scope
  if table ≠ schema.tableName then
    .error (.invalidBatch
      (s!"projection model `{mutation.scope.model}` owns table `{table}`, "
        ++ s!"but its mutation targets `{schema.tableName}`"))
  if schema.modelName ≠ mutation.scope.model then
    .error (.invalidBatch
      (s!"projection record model `{mutation.scope.model}` does not match "
        ++ s!"table schema model `{schema.modelName}`"))

def registerOwnership (protocol : InMemoryProjectionProtocolState)
    (partition : PartitionKey) (batch : ProjectionCommitBatch)
    : Except ProjectionProtocolError InMemoryProjectionProtocolState := do
  batch.ownership.forM (protocol.requireRegisteredOwner partition "projector")
  validateOwnershipBatch batch.ownership
  let bound ← batch.ownership.foldlM (bindOwnership partition) protocol
  batch.mutations.forM (bound.requireMutationOwner partition)
  batch.observations.forM fun observation => do
    let _ ← bound.ownedTable partition observation.scope
    .ok ()
  .ok bound

def registerSameTransactionOwnership (protocol : InMemoryProjectionProtocolState)
    (partition : PartitionKey) (declaration : ProjectionModelOwnership)
    (mutation : SameTransactionProjectionMutation)
    : Except ProjectionProtocolError InMemoryProjectionProtocolState := do
  protocol.requireRegisteredOwner partition "direct projection" declaration
  let bound ← bindOwnership partition protocol declaration
  let schema := mutation.mutation.schema
  let table ← bound.ownedTable partition mutation.scope
  if table ≠ schema.tableName ∨ schema.modelName ≠ mutation.scope.model then
    .error (.invalidBatch
      (s!"direct projection record model `{mutation.scope.model}` does not own "
        ++ s!"staged table `{schema.tableName}`"))
  .ok bound

/-- Another live record of the topology and model with the same key digest. -/
def hasLiveIdentityOf (crates : Crates) (candidate : ProjectionRecordScope)
    (entry : ProjectionRecordScope × ProjectionRecordMetadata) : Bool :=
  !entry.2.tombstone && entry.1 ≠ candidate && entry.1.topology = candidate.topology
    && entry.1.model = candidate.model
    && entry.1.keyDigest crates = candidate.keyDigest crates

def ensureLiveRecordIdentityAvailable (crates : Crates)
    (protocol : InMemoryProjectionProtocolState) (metadata : ProjectionRecordMetadata)
    : Except ProjectionProtocolError Unit :=
  let candidate := metadata.revision.scope
  if metadata.tombstone then .ok ()
  else
    match protocol.records.toList.find? (hasLiveIdentityOf crates candidate) with
    | none => .ok ()
    | some (scope, _) =>
        if scope.canonicalKeyBytes ≠ candidate.canonicalKeyBytes then
          .error (.invalidBatch
            s!"projection live-record key digest collision for model `{candidate.model}`")
        else
          .error (.invalidBatch
            (s!"projection live record for model `{candidate.model}` is already owned "
              ++ "by another partition"))

/-- The next revision of a record whose exact current revision was presented. -/
def nextOfExact (scope : ProjectionRecordScope) (metadata : ProjectionRecordMetadata)
    (kind : ProjectionMutationKind)
    : Except ProjectionProtocolError (RecordRevision × Bool) := do
  match kind, metadata.tombstone with
  | .upsert, true | .delete, true => .error (.recordTombstoned scope.model)
  | .upsert, false => do
      let next ← checkedNext metadata.revision.revision "record revision"
      let revision ← liftValidation (RecordRevision.new scope metadata.revision.incarnation next)
      .ok (revision, false)
  | .delete, false => do
      let next ← checkedNext metadata.revision.revision "record revision"
      let revision ← liftValidation (RecordRevision.new scope metadata.revision.incarnation next)
      .ok (revision, true)
  | .recreate, false => .error (.recreateRequiresTombstone scope.model)
  | .recreate, true => do
      let next ← checkedNext metadata.revision.incarnation "record incarnation"
      let revision ← liftValidation (RecordRevision.new scope next 1)
      .ok (revision, false)

/-- The revision a mutation writes and whether it is a tombstone. -/
def nextRecord (protocol : InMemoryProjectionProtocolState) (scope : ProjectionRecordScope)
    (expectation : ProjectionRecordExpectation) (kind : ProjectionMutationKind)
    : Except ProjectionProtocolError (RecordRevision × Bool) :=
  match expectation, protocol.records.lookup scope with
  | .missing, none =>
      if kind = .upsert then do
        let revision ← liftValidation (RecordRevision.new scope 1 1)
        .ok (revision, false)
      else
        .error (.invalidBatch "delete/recreate requires an exact record expectation")
  | .missing, some metadata =>
      if metadata.tombstone then .error (.recordTombstoned scope.model)
      else .error (.recordAlreadyExists scope.model)
  | .exact _, none => .error (.recordMissing scope.model)
  | .exact expected, some metadata =>
      if expected ≠ metadata.revision then
        .error (.recordRevisionConflict scope.model expected.incarnation expected.revision
          metadata.revision.incarnation metadata.revision.revision)
      else nextOfExact scope metadata kind

/-- Whether the physical row must be there before the mutation. -/
def physicalRowExpected (expectation : ProjectionRecordExpectation)
    (kind : ProjectionMutationKind) : Option Bool :=
  match expectation, kind with
  | .missing, .upsert => some false
  | .exact _, .recreate => some false
  | .exact _, .upsert | .exact _, .delete => some true
  | .missing, .delete | .missing, .recreate => none

def validatePhysicalRecord (scope : ProjectionRecordScope)
    (expectation : ProjectionRecordExpectation) (kind : ProjectionMutationKind)
    (rowExists : Bool) : Except ProjectionProtocolError Unit :=
  match physicalRowExpected expectation kind with
  | none =>
      .error (.invalidBatch "projection mutation has no valid physical-row expectation")
  | some shouldExist =>
      if rowExists = shouldExist then .ok ()
      else
        let expected := if shouldExist then "present" else "absent"
        let actual := if rowExists then "present" else "absent"
        .error (.invalidBatch
          (s!"projection record `{scope.model}` metadata requires its physical row "
            ++ s!"to be {expected}, but it is {actual}"))

def appendChange (protocol : InMemoryProjectionProtocolState) (key : PartitionKey)
    (pending : PendingChange)
    : Except ProjectionProtocolError
        (ProjectionChange × InMemoryProjectionProtocolState) := do
  let some partition := protocol.partitions.lookup key
    | .error (.invalidBatch "partition is initialized before appending changes")
  let position := partition.changeHead + 1
  if 2 ^ 64 ≤ position then .error (.positionOverflow "projection change")
  let cursor ← liftValidation
    (ProjectionChangeCursor.new key.topology key.partition partition.changeEpoch position)
  let change : ProjectionChange := {
    cursor
    kind := pending.kind
    causationId := pending.causationId
    observationKind := pending.observationKind
    scope := pending.scope
    revision := pending.revision
    failureId := pending.failureId
  }
  .ok (change, {
    protocol with
    partitions := protocol.partitions.insert key {
      partition with
      changeHead := position
      changes := partition.changes.insert position change
    }
  })

def compactChangesThrough (protocol : InMemoryProjectionProtocolState) (key : PartitionKey)
    (through : Nat)
    : Except ProjectionProtocolError (Nat × InMemoryProjectionProtocolState) := do
  let some partition := protocol.partitions.lookup key
    | .error (.invalidBatch "cannot compact an unknown projection partition")
  if partition.changeHead < through then
    .error (.invalidBatch "cannot compact beyond the projection change head")
  if through ≤ partition.compactedThrough then
    .ok (partition.compactedThrough, protocol)
  else
    let expectedRemoved := through - partition.compactedThrough
    let actualRemoved := (partition.changes.keys.filter fun position =>
      partition.compactedThrough < position ∧ position ≤ through).length
    if actualRemoved ≠ expectedRemoved then
      .error (.invalidBatch
        (s!"projection change compaction expected to remove {expectedRemoved} "
          ++ s!"contiguous entries but found {actualRemoved}"))
    .ok (through, {
      protocol with
      partitions := protocol.partitions.insert key {
        partition with
        changes := partition.changes.filterKeys fun position => through < position
        compactedThrough := through
      }
    })

def retainChangeSuffix (protocol : InMemoryProjectionProtocolState) (key : PartitionKey)
    (retention : ProjectionChangeRetention)
    : Except ProjectionProtocolError InMemoryProjectionProtocolState := do
  let some partition := protocol.partitions.lookup key
    | .error (.invalidBatch "cannot retain changes for an unknown projection partition")
  let (_, compacted) ← protocol.compactChangesThrough key
    (partition.changeHead - retention.maxRetainedChanges)
  .ok compacted

end InMemoryProjectionProtocolState

end Distributed.InMemoryRepo
