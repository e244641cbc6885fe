import Distributed.InMemoryRepo.Repository

/-! The projection operations of the in-memory repository.
-/

namespace Distributed.InMemoryRepo

open Distributed.Foundation Distributed.Platform Distributed.ProjectionProtocol

open Distributed.Repository Distributed.Table

/-- The revision a direct upsert writes, given the record and whether its row is there. -/
def nextDirectRevision (scope : ProjectionRecordScope)
    (current : Option ProjectionRecordMetadata) (rowExists : Bool)
    : Except ProjectionProtocolError RecordRevision :=
  match current with
  | none =>
      if rowExists then .error (.recordAlreadyExists scope.model)
      else liftValidation (RecordRevision.new scope 1 1)
  | some metadata =>
      if metadata.tombstone then .error (.recordTombstoned scope.model)
      else if !rowExists then .error (.recordMissing scope.model)
      else do
        let next ← checkedNext metadata.revision.revision "record revision"
        liftValidation (RecordRevision.new scope metadata.revision.incarnation next)

/-- A direct projection is refused while its partition is stopped or awaits a retry. -/
def requireUnfencedPartition (protocol : InMemoryProjectionProtocolState)
    (key : PartitionKey) : Except ProjectionProtocolError Unit :=
  match protocol.partitions.lookup key with
  | none => .ok ()
  | some partition =>
      match partition.stoppedFailureId with
      | some failureId => .error (.partitionStopped failureId)
      | none =>
          if partition.pendingRetryFailureId.isSome then .error .incomparableInput
          else .ok ()

/-- The record, change and observation of the one staged upsert. -/
def stageDirectRecord (crates : Crates) (protocol : InMemoryProjectionProtocolState)
    (key : PartitionKey) (causationId : String) (scope : ProjectionRecordScope)
    (rowExists : Bool)
    : Except ProjectionProtocolError
        (ProjectionRecordMetadata × ProjectionChange × InMemoryProjectionProtocolState) := do
  let revision ← nextDirectRevision scope (protocol.records.lookup scope) rowExists
  let (change, protocol) ← protocol.appendChange key {
    kind := .recordUpsert
    causationId
    scope := some scope
    revision := some revision
  }
  let metadata : ProjectionRecordMetadata := ⟨revision, false, change.cursor⟩
  protocol.ensureLiveRecordIdentityAvailable crates metadata
  .ok (metadata, change,
    { protocol with records := protocol.records.insert scope metadata })

def stageDirectObservation (protocol : InMemoryProjectionProtocolState)
    (causationId : String) (metadata : ProjectionRecordMetadata)
    : Except ProjectionProtocolError
        (ProjectionObservation × InMemoryProjectionProtocolState) := do
  let scope := metadata.revision.scope
  let key : ObservationKey := ⟨causationId, scope, .record⟩
  if protocol.observations.contains key then
    .error (.invalidBatch
      s!"direct projection causation `{causationId}` already observed this record")
  let observation : ProjectionObservation :=
    ⟨causationId, .record, some metadata.revision, scope, metadata.change⟩
  .ok (observation,
    { protocol with observations := protocol.observations.insert key observation })

/-- `stage_same_transaction_projection` on copies of the protocol and of the touched
rows. -/
def stageSameTransactionProjection (crates : Crates)
    (protocol : InMemoryProjectionProtocolState) (rows : RelationalRows)
    (batch : SameTransactionProjectionBatch) (retention : ProjectionChangeRetention)
    : Except ProjectionProtocolError
        (SameTransactionProjectionEvidence × InMemoryProjectionProtocolState
          × RelationalRows) := do
  batch.validate
  protocol.requireRegisteredTopology batch.topology
  let key : PartitionKey := ⟨batch.topology, batch.partition⟩
  let protocol ← protocol.ensurePartition key batch.changeEpoch
  requireUnfencedPartition protocol key
  let (declaration :: _, mutation :: _) := (batch.ownership, batch.mutations)
    | .error (.invalidBatch "direct projection batch validation requires one owner")
  let protocol ← protocol.registerSameTransactionOwnership key declaration mutation
  let lockKey := mutation.mutation.lockKey crates
  let (metadata, change, protocol) ← stageDirectRecord crates protocol key
    batch.causationId mutation.scope (rows.contains lockKey)
  let rows ← liftTable (applyReadModelWritePlan crates [mutation.mutation] rows)
  if !rows.contains lockKey then
    .error (.invalidBatch
      (s!"direct projection upsert left model `{mutation.scope.model}` "
        ++ "without a physical row"))
  let (observation, protocol) ← stageDirectObservation protocol batch.causationId metadata
  let protocol ← protocol.retainChangeSuffix key retention
  .ok (⟨[metadata], [change], [observation]⟩, protocol, rows)

/-- The protocol copy of a commit with the records and changes it has staged. -/
structure StagedCommit where
  protocol : InMemoryProjectionProtocolState
  records : List ProjectionRecordMetadata := []
  changes : List ProjectionChange := []

def StagedCommit.append (staged : StagedCommit) (key : PartitionKey)
    (pending : PendingChange)
    : Except ProjectionProtocolError (ProjectionChange × StagedCommit) := do
  let (change, protocol) ← staged.protocol.appendChange key pending
  .ok (change, { staged with protocol, changes := staged.changes ++ [change] })

/-- One iteration of the mutation loop of `commit_projection`. -/
def stageMutation (crates : Crates) (input : TrustedProjectionInput)
    (rows : RelationalRows) (staged : StagedCommit) (mutation : ProjectionRecordMutation)
    : Except ProjectionProtocolError StagedCommit := do
  let (revision, tombstone) ←
    staged.protocol.nextRecord mutation.scope mutation.expectation mutation.kind
  InMemoryProjectionProtocolState.validatePhysicalRecord mutation.scope
    mutation.expectation mutation.kind (rows.contains (mutation.mutation.lockKey crates))
  let (change, staged) ← staged.append (.fromInput input.cursor) {
    kind := changeKindForMutation mutation.kind
    causationId := input.causationId
    scope := some mutation.scope
    revision := some revision
  }
  let metadata : ProjectionRecordMetadata := ⟨revision, tombstone, change.cursor⟩
  staged.protocol.ensureLiveRecordIdentityAvailable crates metadata
  .ok {
    staged with
    protocol := {
      staged.protocol with
      records := staged.protocol.records.insert mutation.scope metadata
    }
    records := staged.records ++ [metadata]
  }

/-- What an observation records: its scope, the revision it saw and, for a staged record,
the change that staged it. -/
def observedRevision (protocol : InMemoryProjectionProtocolState)
    (request : ProjectionObservationRequest)
    : Except ProjectionProtocolError
        (Option RecordRevision × Option ProjectionChangeCursor) :=
  match request.target with
  | .stagedRecord scope =>
      match protocol.records.lookup scope with
      | some metadata => .ok (some metadata.revision, some metadata.change)
      | none => .error (.invalidBatch "batch validation requires a staged record")
  | .existingRecord expected =>
      match protocol.records.lookup expected.scope with
      | none => .error (.recordMissing expected.scope.model)
      | some metadata =>
          if metadata.revision ≠ expected then
            .error (.recordRevisionConflict expected.scope.model expected.incarnation
              expected.revision metadata.revision.incarnation metadata.revision.revision)
          else .ok (some expected, none)
  | .dependency _ => .ok (none, none)

/-- The change an observation refers to: the staged record's, or a new one. -/
def observationChange (input : TrustedProjectionInput) (staged : StagedCommit)
    (request : ProjectionObservationRequest) (revision : Option RecordRevision)
    : Option ProjectionChangeCursor →
      Except ProjectionProtocolError (ProjectionChangeCursor × StagedCommit)
  | some cursor => .ok (cursor, staged)
  | none => do
      let (change, staged) ← staged.append (.fromInput input.cursor) {
        kind := .observation
        causationId := input.causationId
        observationKind := some request.kind
        scope := some request.scope
        revision
      }
      .ok (change.cursor, staged)

/-- One iteration of the observation loop of `commit_projection`. -/
def stageObservation (input : TrustedProjectionInput) (staged : StagedCommit)
    (request : ProjectionObservationRequest)
    : Except ProjectionProtocolError StagedCommit := do
  let (revision, stagedChange) ← observedRevision staged.protocol request
  let key : ObservationKey := ⟨input.causationId, request.scope, request.kind⟩
  if staged.protocol.observations.contains key then .ok staged
  else
    let (change, staged) ← observationChange input staged request revision stagedChange
    let observation : ProjectionObservation :=
      ⟨input.causationId, request.kind, revision, request.scope, change⟩
    .ok {
      staged with
      protocol := {
        staged.protocol with
        observations := staged.protocol.observations.insert key observation
      }
    }

/-- Every commit emits a change, if only a checkpoint. -/
def stageCheckpointChange (input : TrustedProjectionInput) (staged : StagedCommit)
    : Except ProjectionProtocolError StagedCommit :=
  match staged.changes with
  | [] => do
      let (_, staged) ← staged.append (.fromInput input.cursor) {
        kind := .checkpoint
        causationId := input.causationId
      }
      .ok staged
  | _ => .ok staged

/-- Store the input, its identity and its receipt, and clear the retry fence. -/
def recordAppliedInput (input : TrustedProjectionInput) (checkpoint : ProjectionCheckpoint)
    (protocol : InMemoryProjectionProtocolState) : InMemoryProjectionProtocolState :=
  let key : PartitionKey := .fromInput input.cursor
  let protocol := {
    protocol with
    inputs := protocol.inputs.insert (.new input.cursor input.generation) {
      cursor := input.cursor
      fingerprint := input.fingerprint
      messageId := input.messageId
      causationId := input.causationId
      checkpoint
      gapFree := input.gapFree
    }
  }
  let protocol := protocol.persistInputIdentity input
  {
    protocol with
    appliedReceipts := protocol.appliedReceipts.insert (.new input.cursor input.generation) {
      fingerprint := input.fingerprint
      messageId := input.messageId
      causationId := input.causationId
      gapFree := input.gapFree
      checkpoint
    }
    partitions :=
      match protocol.partitions.lookup key with
      | some partition =>
          protocol.partitions.insert key { partition with pendingRetryFailureId := none }
      | none => protocol.partitions
  }

/-- The lock keys of the mutations, which must differ; `seen` are the earlier ones. -/
def collectLockKeys (crates : Crates)
    : List String → List ProjectionRecordMutation →
      Except ProjectionProtocolError (List String)
  | seen, [] => .ok seen
  | seen, mutation :: rest =>
      let lockKey := mutation.mutation.lockKey crates
      if lockKey ∈ seen then
        .error (.invalidBatch s!"projection batch repeats table row `{lockKey}`")
      else collectLockKeys crates (lockKey :: seen) rest

/-- A deleted record must have lost its row and every other must have one. -/
def requireRowAfter (crates : Crates) (rows : RelationalRows)
    (mutation : ProjectionRecordMutation) : Except ProjectionProtocolError Unit :=
  let rowExists := rows.contains (mutation.mutation.lockKey crates)
  let shouldExist := decide (mutation.kind ≠ .delete)
  if rowExists ≠ shouldExist then
    let left :=
      if rowExists then "present when deletion required absence"
      else "absent when persistence required presence"
    .error (.invalidBatch
      (s!"projection table mutation left model `{mutation.scope.model}` physical row "
        ++ left))
  else .ok ()

/-- The part of `commit_projection` after the input was found to be new: what it answers,
with the staged rows, the keys they were taken under and the staged protocol. -/
def stageProjectionCommit (crates : Crates) (retention : ProjectionChangeRetention)
    (rows : RelationalRows) (protocol : InMemoryProjectionProtocolState)
    (batch : ProjectionCommitBatch)
    : Except ProjectionProtocolError
        (ProjectionCommitResult × List String × RelationalRows
          × InMemoryProjectionProtocolState) := do
  let input := batch.input
  let key : PartitionKey := .fromInput input.cursor
  let protocol ← protocol.ensurePartition key batch.changeEpoch
  let protocol := protocol.registerGapFree input
  let protocol ← protocol.registerOwnership key batch
  let touched ← collectLockKeys crates [] batch.mutations
  let stagedRows := stageRows rows touched
  let staged ← batch.mutations.foldlM (stageMutation crates input stagedRows) { protocol }
  let stagedRows ← liftTable (applyReadModelWritePlan crates
    (batch.mutations.map ProjectionRecordMutation.mutation) stagedRows)
  batch.mutations.forM (requireRowAfter crates stagedRows)
  let staged ← batch.observations.foldlM (stageObservation input) staged
  let staged ← stageCheckpointChange input staged
  let some last := staged.changes.getLast?
    | .error (.invalidBatch "every successful projection input emits a change")
  let checkpoint ← liftValidation
    (ProjectionCheckpoint.new input.cursor last.cursor input.gapFree)
  let protocol := recordAppliedInput input checkpoint staged.protocol
  let protocol ← protocol.retainChangeSuffix key retention
  .ok (⟨.applied, some checkpoint, staged.records, staged.changes⟩, touched, stagedRows,
    protocol)

/-- The receipt of an input must not be recorded yet. -/
def requireFreshReceipt (crates : Crates) (inbox : Finset (String × String))
    (input : TrustedProjectionInput) : Except ProjectionProtocolError Unit := do
  let receipt := input.inboxReceipt crates
  liftRepository receipt.validate
  if receipt.key ∈ inbox then .error (.messageIdReuse input.messageId)

def commitProjection (crates : Crates) (batch : ProjectionCommitBatch)
    : Txn InMemoryRepository ProjectionProtocolError ProjectionCommitResult :=
  Txn.staged fun repository => do
    let input := batch.input
    let key : PartitionKey := .fromInput input.cursor
    let protocol := repository.projectionProtocol
    batch.validate crates
    protocol.validatePartition key input batch.changeEpoch
    match ← protocol.classifyInput input with
    | .duplicate checkpoint => .ok (⟨.duplicate, some checkpoint, [], []⟩, repository)
    | .stale checkpoint => .ok (⟨.staleInput, some checkpoint, [], []⟩, repository)
    | .new => do
        protocol.validatePendingRetry key input
        requireFreshReceipt crates repository.inboxStore input
        let (result, touched, stagedRows, protocol) ← stageProjectionCommit crates
          repository.projectionChangeRetention repository.relationalRows protocol batch
        .ok (result, {
          repository with
          relationalRows := mergeRows repository.relationalRows stagedRows touched
          projectionProtocol := protocol
          inboxStore := insert (input.inboxReceipt crates).key repository.inboxStore
        })

end Distributed.InMemoryRepo
