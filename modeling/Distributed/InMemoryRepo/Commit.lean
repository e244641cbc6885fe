import Distributed.InMemoryRepo.ProjectionStore

/-! The commit of the in-memory repository.
-/

namespace Distributed.InMemoryRepo

open Distributed.CommandLedger Distributed.Entities Distributed.Foundation

open Distributed.Outbox Distributed.Platform Distributed.ProjectionProtocol

open Distributed.Repository Distributed.Table

inductive InMemoryCommitError where
  | repository (error : RepositoryError)
  | ledger (error : CommandLedgerError)
  | projection (error : ProjectionProtocolError)

/-- The clock readings one commit takes: one for each failed outbox message it validates,
one at the attempt preflight and one at the completion. -/
structure CommitClock where
  outbox : Nat → SystemTime
  preflight : SystemTime
  completion : SystemTime

/-- `?` on a repository result. -/
def ofRepository {α : Type} (result : Except RepositoryError α)
    : Except InMemoryCommitError α :=
  result.mapError .repository

/-- `?` on a table result. -/
def ofTable {α : Type} (result : Except TableStoreError α) : Except InMemoryCommitError α :=
  result.mapError fun error => .repository (.ofTable error)

/-- `?` on a ledger result. -/
def ofLedger {α : Type} (result : Except CommandLedgerError α)
    : Except InMemoryCommitError α :=
  result.mapError .ledger

/-- `?` on a projection result. -/
def ofProjection {α : Type} (result : Except ProjectionProtocolError α)
    : Except InMemoryCommitError α :=
  result.mapError .projection

/-- A direct projection needs the completion whose causation it carries. -/
def validateDirectProjection (completion : Option CommandCompletion)
    (direct : SameTransactionProjectionBatch) : Except CommandLedgerError Unit :=
  match completion with
  | none =>
      .error (.invalid "same-transaction direct projection requires a command completion")
  | some completion =>
      if direct.causationId ≠ completion.attempt.causationId.value then
        .error (.invalid "direct projection causation differs from its command attempt")
      else .ok ()

def rejectCausalOwnedPlans (causalTables : Finset String) (plans : List TableWritePlan)
    : Except TableStoreError Unit :=
  match (plans.flatten.map TableMutation.tableName).find? fun table =>
      table ∈ causalTables with
  | some table => .error (.causalWriteRequired table)
  | none => .ok ()

def requireCausalTables (causalTables : Finset String)
    (direct : SameTransactionProjectionBatch) : Except ProjectionProtocolError Unit :=
  match (direct.mutations.map fun mutation => mutation.mutation.tableName).find? fun table =>
      table ∉ causalTables with
  | some unregistered =>
      .error (.invalidBatch
        s!"direct projection table `{unregistered}` is not registered as causal-owned")
  | none => .ok ()

/-- The ledger row of the completion's attempt; an absent one fences the attempt. -/
def attemptRecord (ledger : Map CommandLedgerKey CommandLedgerRecord)
    (completion : CommandCompletion) : Except CommandLedgerError CommandLedgerRecord :=
  match ledger.lookup completion.attempt.key with
  | some record => .ok record
  | none => .error (.attemptFenced completion.attempt.key.commandId)

/-- `stored_stream_version`: a missing stream has version zero. -/
def storedStreamVersion (events : Option (List EventRecord)) : Nat :=
  (events.map List.length).getD 0

def checkExpectedVersion (storage : Map String (List EventRecord))
    (append : PreparedEventAppend) : Except RepositoryError Unit :=
  let stored := storedStreamVersion (storage.lookup append.identity.storageKey)
  if stored ≠ append.expectedVersion then
    .error (.concurrentWrite append.identity.text append.expectedVersion stored)
  else .ok ()

def checkOutboxMessage (storage : Map String OutboxMessage) (message : OutboxMessage)
    : Except RepositoryError Unit :=
  if storage.contains message.id then .error (.duplicateOutboxMessageInBatch message.id)
  else .ok ()

/-- `seen` are the receipts of the batch met so far. -/
def checkInboxReceipts (storage : Finset (String × String))
    : List (String × String) → List InboxReceipt → Except RepositoryError Unit
  | _, [] => .ok ()
  | seen, receipt :: rest => do
      receipt.validate
      if receipt.key ∈ storage ∨ receipt.key ∈ seen then
        .error (.duplicateInboxReceipt receipt.consumer receipt.messageId)
      checkInboxReceipts storage (receipt.key :: seen) rest

abbrev CommitTxn : Type → Type := Txn InMemoryRepository InMemoryCommitError

/-- `entry(key).or_insert_with(Vec::new).extend_from_slice(events)`. -/
def appendEvents (storage : Map String (List EventRecord)) (append : PreparedEventAppend)
    : Map String (List EventRecord) :=
  let key := append.identity.storageKey
  storage.insert key ((storage.lookup key).getD [] ++ append.events)

def appendStream (append : PreparedEventAppend) : CommitTxn Unit :=
  Txn.updatePart InMemoryRepository.events fun storage => appendEvents storage append

def saveSnapshot (write : SnapshotWrite) : CommitTxn Unit :=
  Txn.updatePart InMemoryRepository.snapshots fun storage =>
    storage.insert write.identity.storageKey write.record

def storeOutboxMessage (message : OutboxMessage) : CommitTxn Unit :=
  Txn.updatePart InMemoryRepository.outbox fun storage =>
    storage.insert message.id message

def recordReceipt (receipt : InboxReceipt) : CommitTxn Unit :=
  Txn.updatePart InMemoryRepository.inbox fun storage => insert receipt.key storage

/-- Everything the checks staged for publication. -/
structure StagedBatch where
  prepared : List PreparedEventAppend
  touchedRows : List String
  stagedRows : RelationalRows
  stagedProtocol : Option InMemoryProjectionProtocolState
  stagedRecord : Option CommandLedgerRecord

/-- The infallible tail of `commit_batch_inner`. -/
def publishBatch (batch : CommitBatch) (staged : StagedBatch) : CommitTxn Unit := do
  Txn.forEach appendStream staged.prepared
  Txn.updatePart InMemoryRepository.rows fun rows =>
    mergeRows rows staged.stagedRows staged.touchedRows
  Txn.forEach saveSnapshot batch.snapshots
  Txn.forEach storeOutboxMessage batch.outboxMessages
  Txn.forEach recordReceipt batch.inboxReceipts
  match staged.stagedProtocol with
  | some protocol => Txn.updatePart InMemoryRepository.protocol fun _ => protocol
  | none => pure ()
  match staged.stagedRecord with
  | some record =>
      Txn.updatePart InMemoryRepository.ledger fun ledger => ledger.insert record.key record
  | none => pure ()

/-- The lock keys of every row the batch can touch. -/
def touchedRows (crates : Crates) (batch : CommitBatch)
    (direct : Option SameTransactionProjectionBatch) : List String :=
  batch.readModelPlans.flatten.map (TableMutation.lockKey crates)
    ++ (direct.toList.flatMap SameTransactionProjectionBatch.mutations).map
      fun mutation => mutation.mutation.lockKey crates

/-- Attach the evidence to the completion, if there is one. -/
def attachEvidence (crates : Crates) (evidence : SameTransactionProjectionEvidence)
    : Option CommandCompletion → Except InMemoryCommitError (Option CommandCompletion)
  | none => .ok none
  | some completion => do
      let attached ← ofLedger (completion.attachDirectProjection crates evidence)
      .ok (some attached)

/-- Stage the direct projection on the staged rows and a copy of the protocol. -/
def stageDirectProjection (crates : Crates) (repository : InMemoryRepository)
    (rows : RelationalRows) (completion : Option CommandCompletion)
    : Option SameTransactionProjectionBatch →
      Except InMemoryCommitError
        (RelationalRows × Option InMemoryProjectionProtocolState
          × Option CommandCompletion)
  | none => .ok (rows, none, completion)
  | some direct => do
      let (evidence, protocol, rows) ← ofProjection
        (stageSameTransactionProjection crates repository.projectionProtocol rows direct
          repository.projectionChangeRetention)
      let completion ← attachEvidence crates evidence completion
      .ok (rows, some protocol, completion)

/-- Stage the terminal ledger row. -/
def stageCompletion (repository : InMemoryRepository) (now : SystemTime)
    : Option CommandCompletion → Except InMemoryCommitError (Option CommandLedgerRecord)
  | none => .ok none
  | some completion => do
      let record ← ofLedger (attemptRecord repository.commandLedger completion)
      let staged ← ofLedger (record.complete completion now)
      .ok (some staged)

/-- The checks of a commit that do not depend on the stores. -/
def validateBatch (clock : CommitClock) (batch : CommitBatch)
    (completion : Option CommandCompletion)
    (direct : Option SameTransactionProjectionBatch)
    : Except InMemoryCommitError (List PreparedEventAppend) := do
  let prepared ← ofRepository (validateCommitBatch clock.outbox batch)
  match direct with
  | some direct => do
      ofProjection direct.validate
      ofLedger (validateDirectProjection completion direct)
  | none => .ok ()
  .ok prepared

/-- The attempt of a completion must hold its row and its lease. -/
def checkAttempt (ledger : Map CommandLedgerKey CommandLedgerRecord) (now : SystemTime)
    : Option CommandCompletion → Except CommandLedgerError Unit
  | none => .ok ()
  | some completion => do
      let record ← attemptRecord ledger completion
      record.validateLiveAttempt completion.attempt now

/-- The store checks before anything is staged: table ownership, the attempt fence and
the stream versions. -/
def checkStores (repository : InMemoryRepository) (clock : CommitClock)
    (batch : CommitBatch) (completion : Option CommandCompletion)
    (direct : Option SameTransactionProjectionBatch) (prepared : List PreparedEventAppend)
    : Except InMemoryCommitError Unit := do
  ofTable (rejectCausalOwnedPlans repository.causalTables batch.readModelPlans)
  match direct with
  | some direct => ofProjection (requireCausalTables repository.causalTables direct)
  | none => .ok ()
  ofLedger (checkAttempt repository.commandLedger clock.preflight completion)
  ofRepository (prepared.forM (checkExpectedVersion repository.eventStore))

/-- The checks of `commit_batch_inner`, in order, with what they stage. -/
def stageBatch (crates : Crates) (clock : CommitClock) (batch : CommitBatch)
    (completion : Option CommandCompletion)
    (direct : Option SameTransactionProjectionBatch) : CommitTxn StagedBatch := do
  let prepared ← Txn.lift (validateBatch clock batch completion direct)
  let repository ← Txn.current
  Txn.lift (checkStores repository clock batch completion direct prepared)
  let touched := touchedRows crates batch direct
  let rows ← Txn.lift (ofTable (applyPlans crates batch.readModelPlans
    (stageRows repository.relationalRows touched)))
  let (rows, protocol, completion) ←
    Txn.lift (stageDirectProjection crates repository rows completion direct)
  Txn.lift (ofRepository
    (batch.outboxMessages.forM (checkOutboxMessage repository.outboxStore)))
  Txn.lift (ofRepository
    (checkInboxReceipts repository.inboxStore [] batch.inboxReceipts))
  let record ← Txn.lift (stageCompletion repository clock.completion completion)
  pure ⟨prepared, touched, rows, protocol, record⟩

/-- `commit_batch_inner`. The answer is the batch with its entities marked committed. -/
def commitBatchInner (crates : Crates) (clock : CommitClock) (batch : CommitBatch)
    (completion : Option CommandCompletion)
    (direct : Option SameTransactionProjectionBatch) : CommitTxn (List StreamWrite) := do
  let staged ← stageBatch crates clock batch completion direct
  publishBatch batch staged
  pure (batch.streams.map fun stream =>
    { stream with entity := stream.entity.markCommitted })

/-- How `commit_batch` reports the errors of the common commit. -/
def InMemoryCommitError.toRepositoryError : InMemoryCommitError → RepositoryError
  | .repository error => error
  | .ledger error =>
      .model ("unexpected command ledger error in ordinary commit: " ++ error.text)
  | .projection error =>
      .model ("unexpected projection protocol error in ordinary commit: " ++ error.text)

/-- How `commit_causal_batch` reports the errors of the common commit. -/
def InMemoryCommitError.toLedgerError : InMemoryCommitError → CommandLedgerError
  | .repository error => .storage error
  | .ledger error => error
  | .projection error => .storage (.model error.text)

def commitBatch (crates : Crates) (clock : CommitClock) (batch : CommitBatch)
    : Txn InMemoryRepository RepositoryError (List StreamWrite) :=
  (commitBatchInner crates clock batch none none).mapError
    InMemoryCommitError.toRepositoryError

def commitCausalBatch (crates : Crates) (clock : CommitClock) (batch : CausalCommitBatch)
    : Txn InMemoryRepository CommandLedgerError (List StreamWrite) :=
  (commitBatchInner crates clock batch.domain (some batch.completion)
    batch.directProjection).mapError InMemoryCommitError.toLedgerError

end Distributed.InMemoryRepo
