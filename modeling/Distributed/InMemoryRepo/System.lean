import Distributed.Foundation.Runs
import Distributed.InMemoryRepo.Commit
import Distributed.InMemoryRepo.ProjectionControl
import Distributed.OutboxWorker.Store
import Mathlib.Data.Finset.Card
import Mathlib.Data.List.Sort

/-! The in-memory repository as a system that callers drive operation by operation.
-/

namespace Distributed.InMemoryRepo

open Distributed.CommandLedger Distributed.Foundation Distributed.Outbox

open Distributed.OutboxWorker Distributed.Platform Distributed.ProjectionProtocol

open Distributed.Repository Distributed.Snapshot Distributed.Table

abbrev LedgerTxn : Type → Type := Txn InMemoryRepository CommandLedgerError

def putRecord (key : CommandLedgerKey) (record : CommandLedgerRecord) : LedgerTxn Unit :=
  Txn.updatePart InMemoryRepository.ledger fun ledger => ledger.insert key record

/-- The row of an occupied entry, after the reservation was classified. -/
def reserveOccupied (crates : Crates) (reservation : CommandReservation) (now : SystemTime)
    (record : CommandLedgerRecord) : LedgerTxn ReservationOutcome := do
  let decision ← Txn.lift (record.classifyReservation reservation now)
  match decision with
  | .expire => do
      putRecord reservation.key (record.expire now)
      pure .expired
  | .reclaim => do
      let reclaimed ← Txn.lift (record.reclaim reservation now)
      putRecord reservation.key reclaimed
      Txn.lift (reclaimed.reservationOutcome crates decision)
  | other => Txn.lift (record.reservationOutcome crates other)

def reserveCommand (crates : Crates) (reservation : CommandReservation) (now : SystemTime)
    : LedgerTxn ReservationOutcome := do
  let repository ← Txn.current
  match repository.commandLedger.lookup reservation.key with
  | none => do
      let record ← Txn.lift (CommandLedgerRecord.initial reservation now)
      let attempt ← Txn.lift record.acquiredAttempt
      putRecord reservation.key record
      pure (.acquired attempt)
  | some record => reserveOccupied crates reservation now record

def lookupCommand (crates : Crates) (key : CommandLedgerKey) (scope : CommandLookupScope)
    (now : SystemTime) : LedgerTxn CommandLookup := do
  let repository ← Txn.current
  match repository.commandLedger.lookup key with
  | none => pure .unknown
  | some record =>
      if !record.matchesLookupScope scope then pure .unknown
      else if record.state ≠ .expired ∧ record.retentionExpiresAt ≤ now then do
        putRecord key (record.expire now)
        Txn.lift ((record.expire now).lookup crates)
      else Txn.lift (record.lookup crates)

def markRetryableUnknown (attempt : AttemptFence) (now : SystemTime) : LedgerTxn Unit := do
  let repository ← Txn.current
  match repository.commandLedger.lookup attempt.key with
  | none => Txn.lift (.error (.attemptFenced attempt.key.commandId))
  | some record => do
      let marked ← Txn.lift (record.markRetryableUnknown attempt now)
      putRecord attempt.key marked

/-- The row is past its retention and not compacted yet. -/
def isCompactable (now : SystemTime) (record : CommandLedgerRecord) : Bool :=
  record.state ≠ .expired && record.retentionExpiresAt ≤ now

/-- Oldest retention first, then by service, principal and command. -/
def compactsBefore (left right : SystemTime × CommandLedgerKey) : Bool :=
  ((compare left.1 right.1).then
    ((compare left.2.serviceId right.2.serviceId).then
      ((compare left.2.principalPartition.value right.2.principalPartition.value).then
        (compare left.2.commandId right.2.commandId)))) ≠ .gt

/-- The keys to compact, in order. -/
def compactionCandidates (ledger : Map CommandLedgerKey CommandLedgerRecord)
    (now : SystemTime) (limit : Nat) : List CommandLedgerKey :=
  let candidates := (ledger.toList.filter fun entry => isCompactable now entry.2).map
    fun entry => (entry.2.retentionExpiresAt, entry.1)
  ((candidates.insertionSort fun left right => compactsBefore left right).take limit).map
    Prod.snd

/-- Expire the row under a key, if there is one. -/
def expireRecord (now : SystemTime) (ledger : Map CommandLedgerKey CommandLedgerRecord)
    (key : CommandLedgerKey) : Map CommandLedgerKey CommandLedgerRecord :=
  match ledger.lookup key with
  | some record => ledger.insert key (record.expire now)
  | none => ledger

/-- Every candidate is a key of the ledger, so each counts. -/
def compactExpiredCommands (limit : Nat) (now : SystemTime) : LedgerTxn Nat := do
  if limit = 0 then pure 0
  else
    let repository ← Txn.current
    let keys := compactionCandidates repository.commandLedger now limit
    Txn.updatePart InMemoryRepository.ledger fun ledger =>
      keys.foldl (expireRecord now) ledger
    pure keys.length

/-- What a dispatcher commits at the end of an attempt. -/
structure CausalCommitRequest where
  completion : CompletionRequest
  domain : CommitBatch
  directProjection : Option SameTransactionProjectionBatch := none

/-- Complete the attempt, seal the causation into the batch and commit it. -/
def commitCommand (crates : Crates) (clock : CommitClock) (request : CausalCommitRequest)
    : LedgerTxn (List StreamWrite) := do
  let completion ← Txn.lift (request.completion.complete crates)
  commitCausalBatch crates clock
    (.build request.domain completion request.directProjection)

/-- `commit_write_plan` of the embedded read-model store. -/
def commitWritePlan (crates : Crates) (plan : TableWritePlan)
    : Txn InMemoryRepository TableStoreError Unit :=
  Txn.staged fun repository => do
    rejectCausalOwnedPlans repository.causalTables [plan]
    let rows ← applyReadModelWritePlan crates plan repository.relationalRows
    .ok ((), { repository with relationalRows := rows })

/-- `save_snapshot`. -/
def putSnapshot (identity : StreamIdentity) (record : SnapshotRecord)
    : Txn InMemoryRepository RepositoryError Unit :=
  Txn.staged fun repository => do
    record.validateForIdentity identity
    .ok ((), {
      repository with
      snapshotStore := repository.snapshotStore.insert identity.storageKey record
    })

/-- `delete_snapshot`. -/
def deleteSnapshot (identity : StreamIdentity)
    : Txn InMemoryRepository RepositoryError Bool :=
  fun repository =>
    (.ok (repository.snapshotStore.contains identity.storageKey),
      { repository with
        snapshotStore := repository.snapshotStore.erase identity.storageKey })

/-- Run an outbox operation on the repository's outbox table. -/
def onOutbox {α : Type} (operation : OutboxTxn α)
    : Txn InMemoryRepository RepositoryError α :=
  Txn.onPart InMemoryRepository.outbox operation

/-- One call of one caller, with every clock reading it takes. The functions that put a restored
store in place of the present one (`replace_events`, `replace_outbox`, `replace_snapshots`)
check nothing and are left out: every run here is one between two restores. -/
inductive RepositoryOp where
  | commitBatch (clock : CommitClock) (batch : CommitBatch)
  | commitCommand (clock : CommitClock) (request : CausalCommitRequest)
  | reserveCommand (reservation : CommandReservation) (now : SystemTime)
  | lookupCommand (key : CommandLedgerKey) (scope : CommandLookupScope) (now : SystemTime)
  | markRetryableUnknown (attempt : AttemptFence) (now : SystemTime)
  | compactExpiredCommands (limit : Nat) (now : SystemTime)
  | claimOutbox (request : ClaimOutboxMessages) (now : SystemTime)
      (checked : Nat → SystemTime)
  | settleOutbox (settlement : Settlement) (claim : OutboxClaimRef) (now : SystemTime)
  | completeManyOutbox (claims : List OutboxClaimRef) (now : SystemTime)
  | registerProjectionModels (topology : ProjectorTopologyId)
      (ownership : List ProjectionModelOwnership)
  | commitProjection (batch : ProjectionCommitBatch)
  | recordProjectionFailure (batch : ProjectionFailureBatch)
  | repairProjection (topology : ProjectorTopologyId) (partition : ProjectionPartition)
      (failureId : String)
  | compactProjectionChanges (through : ProjectionChangeCursor)
  | commitWritePlan (plan : TableWritePlan)
  | putSnapshot (identity : StreamIdentity) (record : SnapshotRecord)
  | deleteSnapshot (identity : StreamIdentity)
  | clearInbox

inductive RepositoryAnswer where
  | batchCommitted (result : Except RepositoryError (List StreamWrite))
  | commandCommitted (result : Except CommandLedgerError (List StreamWrite))
  | reserved (result : Except CommandLedgerError ReservationOutcome)
  | lookedUp (result : Except CommandLedgerError CommandLookup)
  | marked (result : Except CommandLedgerError Unit)
  | commandsCompacted (result : Except CommandLedgerError Nat)
  | claimed (result : Except RepositoryError (List OutboxMessage))
  | settled (result : Except RepositoryError Unit)
  | modelsRegistered (result : Except ProjectionProtocolError Unit)
  | projected (result : Except ProjectionProtocolError ProjectionCommitResult)
  | failureRecorded (result : Except ProjectionProtocolError ProjectionFailure)
  | repaired (result : Except ProjectionProtocolError ProjectionGeneration)
  | changesCompacted (result : Except ProjectionProtocolError Nat)
  | planCommitted (result : Except TableStoreError Unit)
  | snapshotSaved (result : Except RepositoryError Unit)
  | snapshotDeleted (result : Except RepositoryError Bool)
  | inboxCleared (removed : Nat)

/-- Run an operation and wrap what it answered. -/
def report {Error α : Type} (wrap : Except Error α → RepositoryAnswer)
    (operation : Txn InMemoryRepository Error α) (repository : InMemoryRepository)
    : RepositoryAnswer × InMemoryRepository :=
  (wrap (operation repository).1, (operation repository).2)

def step (crates : Crates)
    : RepositoryOp → InMemoryRepository → RepositoryAnswer × InMemoryRepository
  | .commitBatch clock batch => report .batchCommitted (commitBatch crates clock batch)
  | .commitCommand clock request =>
      report .commandCommitted (commitCommand crates clock request)
  | .reserveCommand reservation now =>
      report .reserved (reserveCommand crates reservation now)
  | .lookupCommand key scope now => report .lookedUp (lookupCommand crates key scope now)
  | .markRetryableUnknown attempt now => report .marked (markRetryableUnknown attempt now)
  | .compactExpiredCommands limit now =>
      report .commandsCompacted (compactExpiredCommands limit now)
  | .claimOutbox request now checked =>
      report .claimed (onOutbox (claim request now checked))
  | .settleOutbox settlement claim now =>
      report .settled (onOutbox (settle crates settlement claim now))
  | .completeManyOutbox claims now =>
      report .settled (onOutbox (completeMany crates now claims))
  | .registerProjectionModels topology ownership =>
      report .modelsRegistered (registerProjectionModels topology ownership)
  | .commitProjection batch => report .projected (commitProjection crates batch)
  | .recordProjectionFailure batch =>
      report .failureRecorded (recordProjectionFailure crates batch)
  | .repairProjection topology partition failureId =>
      report .repaired (repairProjection topology partition failureId)
  | .compactProjectionChanges through =>
      report .changesCompacted (compactProjectionChanges through)
  | .commitWritePlan plan => report .planCommitted (commitWritePlan crates plan)
  | .putSnapshot identity record => report .snapshotSaved (putSnapshot identity record)
  | .deleteSnapshot identity => report .snapshotDeleted (deleteSnapshot identity)
  | .clearInbox => fun repository =>
      (.inboxCleared repository.inboxStore.card, { repository with inboxStore := ∅ })

/-- A new repository. -/
def InMemoryRepository.new (retention : ProjectionChangeRetention) : InMemoryRepository :=
  { projectionChangeRetention := retention }

end Distributed.InMemoryRepo
