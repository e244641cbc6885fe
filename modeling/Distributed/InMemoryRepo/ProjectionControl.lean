import Distributed.InMemoryRepo.ProjectionStore
import Mathlib.Data.Finset.Basic

/-! Registration, failures, repair, compaction and reads of the projection store.
-/

namespace Distributed.InMemoryRepo

open Distributed.Foundation Distributed.Platform Distributed.ProjectionProtocol

open Distributed.Repository Distributed.Table

/-- The digits of a `usize`. Its range needs no check here: a length past the end of the
key is refused by the caller. -/
def parseDigits : Nat → Bytes → Option Nat
  | value, [] => some value
  | value, digit :: rest =>
      if 48 ≤ digit.toNat ∧ digit.toNat ≤ 57 then
        parseDigits (10 * value + (digit.toNat - 48)) rest
      else none

/-- `str::parse::<usize>`, which also takes a leading plus sign. -/
def parseUsize : Bytes → Option Nat
  | [] => none
  | [43] => none
  | 43 :: digits => parseDigits 0 digits
  | digits => parseDigits 0 digits

/-- The rest after one part with its length, a colon and a closing semicolon. -/
def dropFingerprintPart (fingerprint : Bytes) : Option Bytes :=
  match fingerprint.dropWhile fun byte => byte ≠ 58 with
  | [] => none
  | _ :: afterColon => do
      let length ← parseUsize (fingerprint.takeWhile fun byte => byte ≠ 58)
      match afterColon.drop length with
      | 59 :: rest => some rest
      | _ => none

/-- The parts of a fingerprint; `fuel` bounds their number. -/
def isFingerprint : Nat → Bytes → Bool
  | _, [] => true
  | 0, _ :: _ => false
  | fuel + 1, fingerprint =>
      match dropFingerprintPart fingerprint with
      | some rest => isFingerprint fuel rest
      | none => false

def storageKeyBelongsToTable (storageKey table : String) : Bool :=
  match (utf8Bytes table ++ [58]).isPrefixOf (utf8Bytes storageKey),
      (utf8Bytes storageKey).drop ((utf8Bytes table).length + 1) with
  | true, byte :: rest => isFingerprint (rest.length + 1) (byte :: rest)
  | _, _ => false

/-- One iteration of `register_projection_models`. -/
def registerModel (rows : RelationalRows) (topology : ProjectorTopologyId)
    (protocol : InMemoryProjectionProtocolState) (declaration : ProjectionModelOwnership)
    : Except ProjectionProtocolError InMemoryProjectionProtocolState := do
  let key : RegisteredModelKey := ⟨topology, declaration.model⟩
  match protocol.authoritativeTableOwners.lookup declaration.table with
  | some previous =>
      if previous ≠ key then
        .error (.invalidBatch
          (s!"projection table `{declaration.table}` already has authoritative owner "
            ++ s!"`{previous.model}` in another topology"))
  | none =>
      if rows.keys.any fun storageKey =>
          storageKeyBelongsToTable storageKey declaration.table then
        .error (.invalidBatch
          (s!"projection table `{declaration.table}` contains rows without causal "
            ++ "metadata; rebuild or verified import is required before registration"))
  match protocol.registeredModels.lookup key with
  | some previous =>
      if previous ≠ declaration.table then
        .error (.invalidBatch
          (s!"projection model `{declaration.model}` is already registered for table "
            ++ s!"`{previous}`"))
  | none => .ok ()
  match protocol.registeredModels.toList.find? fun entry =>
      entry.1.topology = topology ∧ entry.2 = declaration.table
        ∧ entry.1.model ≠ declaration.model with
  | some (other, _) =>
      .error (.invalidBatch
        (s!"projection table `{declaration.table}` is already registered for model "
          ++ s!"`{other.model}`"))
  | none => .ok ()
  .ok {
    protocol with
    registeredModels := protocol.registeredModels.insert key declaration.table
    authoritativeTableOwners :=
      protocol.authoritativeTableOwners.insert declaration.table key
  }

def registerProjectionModels (topology : ProjectorTopologyId)
    (ownership : List ProjectionModelOwnership)
    : Txn InMemoryRepository ProjectionProtocolError Unit :=
  Txn.staged fun repository => do
    if ownership = [] then
      .error (.invalidBatch
        "projection topology bootstrap requires at least one model/table owner")
    validateOwnershipBatch ownership
    let protocol := repository.projectionProtocol
    let staged := {
      protocol with
      registeredTopologies := insert topology protocol.registeredTopologies
    }
    let staged ← ownership.foldlM (registerModel repository.relationalRows topology) staged
    .ok ((), {
      repository with
      projectionProtocol := staged
      causalTables :=
        repository.causalTables ∪ (ownership.map ProjectionModelOwnership.table).toFinset
    })

def failureMatchesBatch (failure : ProjectionFailure) (batch : ProjectionFailureBatch)
    : Bool :=
  failure.input = batch.input.cursor
    && failure.inputFingerprint = batch.input.fingerprint
    && failure.messageId = batch.input.messageId
    && failure.causationId = batch.input.causationId
    && failure.gapFree = batch.input.gapFree
    && failure.generation = batch.input.generation
    && failure.failureCode = batch.failureCode
    && failure.failureBytes = batch.failureBytes
    && failure.failureDigest = batch.failureDigest
    && failure.change.epoch = batch.changeEpoch

/-- The stored failure when the batch is an exact redelivery of it. -/
def existingFailure (protocol : InMemoryProjectionProtocolState)
    (stoppedFailureId : String) (batch : ProjectionFailureBatch)
    : Option ProjectionFailure := do
  if stoppedFailureId ≠ batch.failureId then none
  let existing ← protocol.failures.lookup stoppedFailureId
  if failureMatchesBatch existing batch
      && (protocol.failureInputs.lookup stoppedFailureId).any (fun fence =>
        fence.generation = batch.input.generation && fence.matchesRetry batch.input)
      && protocol.hasExactMessageIdentity batch.input then
    some existing
  else none

/-- The checks `record_projection_failure` makes on a known partition. The answer is the
stored failure when the partition is already stopped by this very failure. -/
def checkFailurePartition (protocol : InMemoryProjectionProtocolState)
    (batch : ProjectionFailureBatch)
    : Except ProjectionProtocolError (Option ProjectionFailure) :=
  match protocol.partitions.lookup (.fromInput batch.input.cursor) with
  | none => .ok none
  | some partition => do
      if batch.input.generation ≠ partition.activeGeneration then
        .error (.generationFenced partition.activeGeneration.value
          batch.input.generation.value)
      protocol.validateGapFree batch.input.cursor batch.input.gapFree
      protocol.validateInputIdentity batch.input
      match partition.stoppedFailureId with
      | none => .ok none
      | some stoppedFailureId =>
          match existingFailure protocol stoppedFailureId batch with
          | some existing => .ok (some existing)
          | none => .error (.partitionStopped stoppedFailureId)

/-- Stop the partition and remember the exact input to retry. -/
def recordFailedInput (batch : ProjectionFailureBatch) (failure : ProjectionFailure)
    (protocol : InMemoryProjectionProtocolState) : InMemoryProjectionProtocolState :=
  let key : PartitionKey := .fromInput batch.input.cursor
  let protocol := {
    protocol with
    partitions :=
      match protocol.partitions.lookup key with
      | some partition =>
          protocol.partitions.insert key {
            partition with
            stoppedFailureId := some batch.failureId
            pendingRetryFailureId := none
          }
      | none => protocol.partitions
  }
  let protocol := protocol.persistInputIdentity batch.input
  {
    protocol with
    failureInputs :=
      protocol.failureInputs.insert batch.failureId (.fromInput batch.input)
    failures := protocol.failures.insert batch.failureId failure
  }

/-- The part of `record_projection_failure` after the input was found to be new. -/
def stageProjectionFailure (retention : ProjectionChangeRetention)
    (protocol : InMemoryProjectionProtocolState) (batch : ProjectionFailureBatch)
    : Except ProjectionProtocolError
        (ProjectionFailure × InMemoryProjectionProtocolState) := do
  let input := batch.input
  let key : PartitionKey := .fromInput input.cursor
  let protocol ← protocol.ensurePartition key batch.changeEpoch
  let protocol := protocol.registerGapFree input
  let (change, protocol) ← protocol.appendChange key {
    kind := .failure
    causationId := input.causationId
    failureId := some batch.failureId
  }
  let failure : ProjectionFailure := {
    failureId := batch.failureId
    input := input.cursor
    inputFingerprint := input.fingerprint
    messageId := input.messageId
    causationId := input.causationId
    generation := input.generation
    gapFree := input.gapFree
    failureCode := batch.failureCode
    failureBytes := batch.failureBytes
    failureDigest := batch.failureDigest
    change := change.cursor
  }
  let protocol := recordFailedInput batch failure protocol
  let protocol ← protocol.retainChangeSuffix key retention
  .ok (failure, protocol)

def recordProjectionFailure (crates : Crates) (batch : ProjectionFailureBatch)
    : Txn InMemoryRepository ProjectionProtocolError ProjectionFailure :=
  Txn.staged fun repository => do
    let input := batch.input
    let key : PartitionKey := .fromInput input.cursor
    let protocol := repository.projectionProtocol
    batch.validate crates
    protocol.requireRegisteredTopology input.cursor.topology
    protocol.validateKnownInputIdentity input
    match ← checkFailurePartition protocol batch with
    | some existing => .ok (existing, repository)
    | none => do
        if protocol.failures.contains batch.failureId then
          .error (.invalidBatch
            (s!"projection failure ID `{batch.failureId}` is already bound "
              ++ "to another failure"))
        protocol.validatePartition key input batch.changeEpoch
        match ← protocol.classifyInput input with
        | .new => protocol.validatePendingRetry key input
        | .duplicate _ | .stale _ =>
            .error (.invalidBatch
              "cannot record terminal failure for an already processed input")
        requireFreshReceipt crates repository.inboxStore input
        let (failure, protocol) ← stageProjectionFailure
          repository.projectionChangeRetention protocol batch
        .ok (failure, {
          repository with
          projectionProtocol := protocol
          inboxStore := insert (input.inboxReceipt crates).key repository.inboxStore
        })

/-- The stopped partition and the failure that stopped it, checked for consistency. -/
def requireRepairable (protocol : InMemoryProjectionProtocolState) (key : PartitionKey)
    (failureId : String) : Except ProjectionProtocolError PartitionState := do
  let some state := protocol.partitions.lookup key
    | .error (.invalidBatch "cannot repair an unknown projection partition")
  match state.stoppedFailureId with
  | some stopped => if stopped ≠ failureId then .error (.partitionStopped stopped)
  | none => .error (.invalidBatch "projection partition is not stopped")
  let some failure := protocol.failures.lookup failureId
    | .error (.invalidBatch s!"stopped projection failure `{failureId}` is missing")
  if failure.input.topology ≠ key.topology
      ∨ failure.input.projectionPartition ≠ key.partition then
    .error (.scopeMismatch "projection repair failure")
  if failure.generation ≠ state.activeGeneration then
    .error (.invalidBatch
      (s!"stopped failure generation {failure.generation.value} differs from active "
        ++ s!"generation {state.activeGeneration.value}"))
  let some fence := protocol.failureInputs.lookup failureId
    | .error (.invalidBatch
        s!"stopped projection failure `{failureId}` has no exact input fence")
  if fence.generation ≠ state.activeGeneration ∨ fence.cursor ≠ failure.input
      ∨ fence.fingerprint ≠ failure.inputFingerprint
      ∨ fence.messageId ≠ failure.messageId
      ∨ fence.causationId ≠ failure.causationId then
    .error (.invalidBatch
      s!"stopped projection failure `{failureId}` input fence is corrupt")
  .ok state

/-- The inputs of the current generation, under their keys in the next one. -/
def copiedInputs (protocol : InMemoryProjectionProtocolState) (key : PartitionKey)
    (current next : ProjectionGeneration) : List (InputKey × StoredInput) :=
  (protocol.inputs.toList.filter fun entry =>
    entry.1.partition = key ∧ entry.1.generation = current).map fun entry =>
      ({ entry.1 with generation := next }, entry.2)

def stageRepair (protocol : InMemoryProjectionProtocolState) (key : PartitionKey)
    (failureId : String)
    : Except ProjectionProtocolError
        (ProjectionGeneration × InMemoryProjectionProtocolState) := do
  let state ← requireRepairable protocol key failureId
  let next ← state.activeGeneration.checkedNext
  if protocol.generations.contains ⟨key, next⟩ then
    .error (.invalidBatch s!"projection repair generation {next.value} already exists")
  if protocol.generations.toList.any fun entry =>
      entry.1.partition = key && entry.2.retryOfFailureId = some failureId then
    .error (.invalidBatch
      s!"stopped failure `{failureId}` already has a repair generation")
  .ok (next, {
    protocol with
    inputs := protocol.inputs.insertAll (copiedInputs protocol key state.activeGeneration next)
    generations := protocol.generations.insert ⟨key, next⟩
      ⟨some state.activeGeneration, some failureId⟩
    partitions := protocol.partitions.insert key {
      state with
      activeGeneration := next
      stoppedFailureId := none
      pendingRetryFailureId := some failureId
    }
  })

def repairProjection (topology : ProjectorTopologyId) (partition : ProjectionPartition)
    (failureId : String)
    : Txn InMemoryRepository ProjectionProtocolError ProjectionGeneration :=
  Txn.staged fun repository => do
    let (next, protocol) ← stageRepair repository.projectionProtocol ⟨topology, partition⟩
      failureId
    .ok (next, { repository with projectionProtocol := protocol })

inductive ProjectionChangeRead where
  | changes (head : Option ProjectionChangeCursor) (compactedThrough : Nat)
      (changes : List ProjectionChange)
  | resetRequired (head : Option ProjectionChangeCursor) (compactedThrough : Nat)

/-- The cursor of the newest change, absent while the log is empty. -/
def PartitionState.headCursor (state : PartitionState) (key : PartitionKey)
    : Except ProjectionProtocolError (Option ProjectionChangeCursor) :=
  if state.changeHead = 0 then .ok none
  else do
    let cursor ← liftValidation
      (ProjectionChangeCursor.new key.topology key.partition state.changeEpoch
        state.changeHead)
    .ok (some cursor)

/-- The position a read resumes after, absent when the reader must reset. A cursor at the
compaction watermark itself is still safe. -/
def PartitionState.resumePosition (state : PartitionState) (key : PartitionKey)
    : Option ProjectionChangeCursor → Option Nat
  | none => if 0 < state.compactedThrough then none else some 0
  | some cursor =>
      if cursor.topology ≠ key.topology ∨ cursor.projectionPartition ≠ key.partition
          ∨ cursor.epoch ≠ state.changeEpoch ∨ state.changeHead < cursor.position
          ∨ cursor.position < state.compactedThrough then
        none
      else some cursor.position

/-- The first `limit` retained changes after a position. -/
def PartitionState.changesAfter (state : PartitionState) (position limit : Nat)
    : List ProjectionChange :=
  ((state.changes.entries.filter fun entry => position < entry.1).take limit).map Prod.snd

def projectionChanges (protocol : InMemoryProjectionProtocolState)
    (topology : ProjectorTopologyId) (partition : ProjectionPartition)
    (after : Option ProjectionChangeCursor) (limit : Nat)
    : Except ProjectionProtocolError ProjectionChangeRead :=
  let key : PartitionKey := ⟨topology, partition⟩
  match protocol.partitions.lookup key with
  | none =>
      match after with
      | some _ => .ok (.resetRequired none 0)
      | none => .ok (.changes none 0 [])
  | some state => do
      let head ← state.headCursor key
      match state.resumePosition key after with
      | none => .ok (.resetRequired head state.compactedThrough)
      | some position =>
          .ok (.changes head state.compactedThrough (state.changesAfter position limit))

def compactProjectionChanges (through : ProjectionChangeCursor)
    : Txn InMemoryRepository ProjectionProtocolError Nat :=
  Txn.staged fun repository => do
    let protocol := repository.projectionProtocol
    let key : PartitionKey := ⟨through.topology, through.projectionPartition⟩
    let some partition := protocol.partitions.lookup key
      | .error (.invalidBatch "cannot compact an unknown projection partition")
    if through.epoch ≠ partition.changeEpoch then
      .error (.scopeMismatch "projection compaction epoch")
    if partition.changeHead < through.position then
      .error (.invalidBatch "cannot compact beyond the projection change head")
    let (compacted, protocol) ← protocol.compactChangesThrough key through.position
    .ok (compacted, { repository with projectionProtocol := protocol })

end Distributed.InMemoryRepo
