import Distributed.InMemoryRepo.Commit

/-! What a commit does: the checks it passed and the stores it publishes.
-/

namespace Distributed.InMemoryRepo

open Distributed.CommandLedger Distributed.Entities Distributed.Foundation

open Distributed.Outbox Distributed.Platform Distributed.ProjectionProtocol

open Distributed.Repository Distributed.Table

/-- The stores after a staged batch was published. -/
def StagedBatch.publish (batch : CommitBatch) (staged : StagedBatch)
    (repository : InMemoryRepository) : InMemoryRepository :=
  { repository with
    eventStore := staged.prepared.foldl appendEvents repository.eventStore
    relationalRows :=
      mergeRows repository.relationalRows staged.stagedRows staged.touchedRows
    snapshotStore := repository.snapshotStore.insertAll
      (batch.snapshots.map fun write => (write.identity.storageKey, write.record))
    outboxStore := repository.outboxStore.insertAll
      (batch.outboxMessages.map fun message => (message.id, message))
    inboxStore := batch.inboxReceipts.foldl
      (fun inbox receipt => insert receipt.key inbox) repository.inboxStore
    projectionProtocol := staged.stagedProtocol.getD repository.projectionProtocol
    commandLedger := staged.stagedRecord.elim repository.commandLedger
      fun record => repository.commandLedger.insert record.key record }

theorem publishBatch_apply (batch : CommitBatch) (staged : StagedBatch)
    (repository : InMemoryRepository)
    : publishBatch batch staged repository = (.ok (), staged.publish batch repository) := by
  obtain ⟨prepared, touched, rows, protocol, record⟩ := staged
  refine (Txn.bind_ok (Txn.forEach_updatePart InMemoryRepository.events appendEvents
    prepared repository)).trans ?_
  refine (Txn.bind_ok rfl).trans ?_
  refine (Txn.bind_ok (Txn.forEach_updatePart InMemoryRepository.snapshots _
    batch.snapshots _)).trans ?_
  refine (Txn.bind_ok (Txn.forEach_updatePart InMemoryRepository.outbox _
    batch.outboxMessages _)).trans ?_
  refine (Txn.bind_ok (Txn.forEach_updatePart InMemoryRepository.inbox _
    batch.inboxReceipts _)).trans ?_
  simp only [StagedBatch.publish, Map.insertAll, List.foldl_map]
  cases protocol with
  | none => cases record <;> rfl
  | some protocol => cases record <;> rfl

/-- What the checks of a commit established about the batch they staged. -/
structure StagedFrom (crates : Crates) (clock : CommitClock) (batch : CommitBatch)
    (completion : Option CommandCompletion)
    (direct : Option SameTransactionProjectionBatch) (repository : InMemoryRepository)
    (staged : StagedBatch) : Prop where
  validated : validateBatch clock batch completion direct = .ok staged.prepared
  checked : checkStores repository clock batch completion direct staged.prepared = .ok ()
  touched : staged.touchedRows = touchedRows crates batch direct
  staging : ∃ planned completed,
    applyPlans crates batch.readModelPlans
        (stageRows repository.relationalRows staged.touchedRows) = .ok planned
      ∧ stageDirectProjection crates repository planned completion direct
        = .ok (staged.stagedRows, staged.stagedProtocol, completed)
      ∧ stageCompletion repository clock.completion completed = .ok staged.stagedRecord
  outbox : batch.outboxMessages.forM (checkOutboxMessage repository.outboxStore) = .ok ()
  inbox : checkInboxReceipts repository.inboxStore [] batch.inboxReceipts = .ok ()

section Staging

variable {crates : Crates} {clock : CommitClock} {batch : CommitBatch}
  {completion : Option CommandCompletion} {direct : Option SameTransactionProjectionBatch}
  {repository next : InMemoryRepository}

theorem stageBatch_ok {staged : StagedBatch}
    (h : stageBatch crates clock batch completion direct repository = (.ok staged, next))
    : StagedFrom crates clock batch completion direct repository staged
      ∧ next = repository := by
  simp only [stageBatch, Txn.lift_bind_eq_ok, Txn.current_bind_apply, ofTable, ofRepository,
    Result.mapError_eq_ok_iff] at h
  obtain ⟨prepared, hvalidated, _, hchecked, planned, hplanned, ⟨rows, protocol, completed⟩,
    hdirect, _, houtbox, _, hinbox, record, hrecord, hfinal⟩ := h
  cases hfinal
  exact ⟨⟨hvalidated, hchecked, rfl, ⟨planned, completed, hplanned, hdirect, hrecord⟩,
    houtbox, hinbox⟩, rfl⟩

/-- Without a direct projection the commit stages its plans and no protocol. -/
theorem StagedFrom.direct_none {staged : StagedBatch}
    (h : StagedFrom crates clock batch completion none repository staged)
    : applyPlans crates batch.readModelPlans
          (stageRows repository.relationalRows staged.touchedRows) = .ok staged.stagedRows
      ∧ staged.stagedProtocol = none := by
  obtain ⟨planned, completed, hplanned, hdirect, -⟩ := h.staging
  simp only [stageDirectProjection, Except.ok.injEq, Prod.mk.injEq] at hdirect
  obtain ⟨hrows, hprotocol, -⟩ := hdirect
  exact ⟨hrows ▸ hplanned, hprotocol.symm⟩

/-- A direct projection is staged on the rows the plans left. -/
theorem StagedFrom.direct_some {projection : SameTransactionProjectionBatch}
    {staged : StagedBatch}
    (h : StagedFrom crates clock batch completion (some projection) repository staged)
    : ∃ planned evidence protocol,
      applyPlans crates batch.readModelPlans
          (stageRows repository.relationalRows staged.touchedRows) = .ok planned
      ∧ stageSameTransactionProjection crates repository.projectionProtocol planned projection
          repository.projectionChangeRetention = .ok (evidence, protocol, staged.stagedRows)
      ∧ staged.stagedProtocol = some protocol := by
  obtain ⟨planned, completed, hplanned, hdirect, -⟩ := h.staging
  simp only [stageDirectProjection, Result.bind_eq_ok_iff, ofProjection,
    Result.mapError_eq_ok_iff] at hdirect
  obtain ⟨⟨evidence, protocol, rows⟩, hstage, attached, -, hdirect⟩ := hdirect
  simp only [Except.ok.injEq, Prod.mk.injEq] at hdirect
  obtain ⟨hrows, hprotocol, -⟩ := hdirect
  exact ⟨planned, evidence, protocol, hplanned, hrows ▸ hstage, hprotocol.symm⟩

theorem stageBatch_readOnly
    : Txn.ReadOnly (stageBatch crates clock batch completion direct) := by
  refine (Txn.readOnly_lift _).bind fun prepared => ?_
  refine Txn.readOnly_current.bind fun repository => ?_
  refine (Txn.readOnly_lift _).bind fun _ => ?_
  refine (Txn.readOnly_lift _).bind fun planned => ?_
  refine (Txn.readOnly_lift _).bind fun staged => ?_
  refine (Txn.readOnly_lift _).bind fun _ => ?_
  refine (Txn.readOnly_lift _).bind fun _ => ?_
  refine (Txn.readOnly_lift _).bind fun record => ?_
  exact Txn.readOnly_pure _

theorem commitBatchInner_ok {streams : List StreamWrite}
    (h : commitBatchInner crates clock batch completion direct repository
      = (.ok streams, next))
    : ∃ staged, StagedFrom crates clock batch completion direct repository staged
      ∧ next = staged.publish batch repository
      ∧ streams = batch.streams.map fun stream =>
          { stream with entity := stream.entity.markCommitted } := by
  rw [commitBatchInner, Txn.bind_eq_ok] at h
  obtain ⟨staged, middle, hstaged, h⟩ := h
  obtain ⟨hfrom, rfl⟩ := stageBatch_ok hstaged
  rw [Txn.bind_ok (publishBatch_apply batch staged middle)] at h
  cases h
  exact ⟨staged, hfrom, rfl, rfl⟩

/-- Every check comes before every write, and no write can fail. -/
theorem commitBatchInner_allOrNothing
    : Txn.AllOrNothing (commitBatchInner crates clock batch completion direct) := by
  refine stageBatch_readOnly.bind_allOrNothing fun staged => ?_
  refine Txn.Infallible.allOrNothing (Txn.Infallible.bind ?_ fun _ => Txn.infallible_pure _)
  intro repository
  exact ⟨(), congrArg Prod.fst (publishBatch_apply batch staged repository)⟩

end Staging

end Distributed.InMemoryRepo
