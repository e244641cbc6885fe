import Distributed.Foundation.Result
import Distributed.InMemoryRepo.ProjectionControl

/-! What a successful projection operation checked and wrote.
-/

namespace Distributed.InMemoryRepo

open Distributed.Foundation Distributed.Platform Distributed.ProjectionProtocol

open Distributed.Repository Distributed.Table

variable {crates : Crates} {repository next : InMemoryRepository}

/-- The state a commit of a new input publishes. -/
def publishCommit (crates : Crates) (batch : ProjectionCommitBatch)
    (repository : InMemoryRepository) (touched : List String) (rows : RelationalRows)
    (protocol : InMemoryProjectionProtocolState) : InMemoryRepository :=
  { repository with
    relationalRows := mergeRows repository.relationalRows rows touched
    projectionProtocol := protocol
    inboxStore := insert (batch.input.inboxReceipt crates).key repository.inboxStore }

/-- What a successful commit answers: the checkpoint of a processed input, or the result of
staging a new one. -/
theorem commitProjection_answer {batch : ProjectionCommitBatch}
    {result : ProjectionCommitResult}
    (h : commitProjection crates batch repository = (.ok result, next))
    : batch.validate crates = .ok ()
      ∧ repository.projectionProtocol.validatePartition (.fromInput batch.input.cursor)
          batch.input batch.changeEpoch = .ok ()
      ∧ ((∃ checkpoint, repository.projectionProtocol.classifyInput batch.input
              = .ok (.duplicate checkpoint)
            ∧ result = ⟨.duplicate, some checkpoint, [], []⟩ ∧ next = repository)
        ∨ (∃ checkpoint, repository.projectionProtocol.classifyInput batch.input
              = .ok (.stale checkpoint)
            ∧ result = ⟨.staleInput, some checkpoint, [], []⟩ ∧ next = repository)
        ∨ (repository.projectionProtocol.classifyInput batch.input = .ok .new
          ∧ repository.projectionProtocol.validatePendingRetry
              (.fromInput batch.input.cursor) batch.input = .ok ()
          ∧ requireFreshReceipt crates repository.inboxStore batch.input = .ok ()
          ∧ ∃ touched rows protocol,
            stageProjectionCommit crates repository.projectionChangeRetention
                repository.relationalRows repository.projectionProtocol batch
              = .ok (result, touched, rows, protocol)
            ∧ next = publishCommit crates batch repository touched rows protocol)) := by
  rw [commitProjection, Txn.staged_eq_ok] at h
  simp only [Result.bind_eq_ok_iff] at h
  obtain ⟨_, hvalid, _, hpartition, disposition, hclassify, h⟩ := h
  refine ⟨hvalid, hpartition, ?_⟩
  cases disposition with
  | duplicate checkpoint =>
      cases h
      exact .inl ⟨checkpoint, hclassify, rfl, rfl⟩
  | stale checkpoint =>
      cases h
      exact .inr (.inl ⟨checkpoint, hclassify, rfl, rfl⟩)
  | new =>
      simp only [Result.bind_eq_ok_iff] at h
      obtain ⟨_, hretry, _, hfresh, ⟨answer, touched, rows, protocol⟩, hstage, h⟩ := h
      cases h
      exact .inr (.inr ⟨hclassify, hretry, hfresh, touched, rows, protocol, hstage, rfl⟩)

/-- A successful commit either found its input processed and changed nothing, or staged and
published a new one. -/
theorem commitProjection_ok {batch : ProjectionCommitBatch} {result : ProjectionCommitResult}
    (h : commitProjection crates batch repository = (.ok result, next))
    : batch.validate crates = .ok ()
      ∧ repository.projectionProtocol.validatePartition (.fromInput batch.input.cursor)
          batch.input batch.changeEpoch = .ok ()
      ∧ ((result.outcome ≠ .applied ∧ next = repository)
        ∨ (repository.projectionProtocol.classifyInput batch.input = .ok .new
          ∧ repository.projectionProtocol.validatePendingRetry
              (.fromInput batch.input.cursor) batch.input = .ok ()
          ∧ requireFreshReceipt crates repository.inboxStore batch.input = .ok ()
          ∧ ∃ touched rows protocol,
            stageProjectionCommit crates repository.projectionChangeRetention
                repository.relationalRows repository.projectionProtocol batch
              = .ok (result, touched, rows, protocol)
            ∧ next = publishCommit crates batch repository touched rows protocol)) := by
  obtain ⟨hvalid, hpartition, hanswer⟩ := commitProjection_answer h
  refine ⟨hvalid, hpartition, ?_⟩
  obtain ⟨checkpoint, -, rfl, hsame⟩ | ⟨checkpoint, -, rfl, hsame⟩ | hnew := hanswer
  · exact .inl ⟨by simp, hsame⟩
  · exact .inl ⟨by simp, hsame⟩
  · exact .inr hnew

/-- A successful failure record either answered the failure that already stopped the
partition, or stopped it. -/
theorem recordProjectionFailure_ok {batch : ProjectionFailureBatch}
    {failure : ProjectionFailure}
    (h : recordProjectionFailure crates batch repository = (.ok failure, next))
    : (checkFailurePartition repository.projectionProtocol batch = .ok (some failure)
        ∧ next = repository)
      ∨ (checkFailurePartition repository.projectionProtocol batch = .ok none
        ∧ repository.projectionProtocol.failures.contains batch.failureId = false
        ∧ repository.projectionProtocol.validatePartition (.fromInput batch.input.cursor)
            batch.input batch.changeEpoch = .ok ()
        ∧ repository.projectionProtocol.classifyInput batch.input = .ok .new
        ∧ repository.projectionProtocol.validatePendingRetry
            (.fromInput batch.input.cursor) batch.input = .ok ()
        ∧ requireFreshReceipt crates repository.inboxStore batch.input = .ok ()
        ∧ ∃ protocol,
          stageProjectionFailure repository.projectionChangeRetention
              repository.projectionProtocol batch = .ok (failure, protocol)
          ∧ next = {
            repository with
            projectionProtocol := protocol
            inboxStore :=
              insert (batch.input.inboxReceipt crates).key repository.inboxStore }) := by
  rw [recordProjectionFailure, Txn.staged_eq_ok] at h
  simp only [Result.bind_eq_ok_iff] at h
  obtain ⟨_, -, _, -, _, -, existing, hexisting, h⟩ := h
  cases existing with
  | some existing =>
      cases h
      exact .inl ⟨hexisting, rfl⟩
  | none =>
      right
      dsimp only at h
      split at h
      · simp at h
      · rename_i hfresh
        simp only [Result.bind_eq_ok_iff] at h
        obtain ⟨_, hpartition, disposition, hclassify, h⟩ := h
        cases disposition with
        | duplicate checkpoint => simp at h
        | stale checkpoint => simp at h
        | new =>
            simp only [Result.bind_eq_ok_iff] at h
            obtain ⟨_, hretry, _, hreceipt, ⟨recorded, protocol⟩, hstage, h⟩ := h
            cases h
            exact ⟨hexisting, by simpa using hfresh, hpartition, hclassify, hretry,
              hreceipt, protocol, hstage, rfl⟩

theorem repairProjection_ok {topology : ProjectorTopologyId}
    {partition : ProjectionPartition} {failureId : String}
    {generation : ProjectionGeneration}
    (h : repairProjection topology partition failureId repository = (.ok generation, next))
    : ∃ protocol,
      stageRepair repository.projectionProtocol ⟨topology, partition⟩ failureId
          = .ok (generation, protocol)
        ∧ next = { repository with projectionProtocol := protocol } := by
  rw [repairProjection, Txn.staged_eq_ok, Result.bind_eq_ok_iff] at h
  obtain ⟨⟨generation, protocol⟩, hstage, h⟩ := h
  cases h
  exact ⟨protocol, hstage, rfl⟩

theorem compactProjectionChanges_ok {through : ProjectionChangeCursor} {compacted : Nat}
    (h : compactProjectionChanges through repository = (.ok compacted, next))
    : ∃ protocol,
      repository.projectionProtocol.compactChangesThrough
          ⟨through.topology, through.projectionPartition⟩ through.position
          = .ok (compacted, protocol)
        ∧ next = { repository with projectionProtocol := protocol } := by
  rw [compactProjectionChanges, Txn.staged_eq_ok] at h
  dsimp only at h
  split at h
  · simp only [Result.error_bind, Result.guard_eq_ok_iff, Result.bind_eq_ok_iff] at h
    obtain ⟨-, -, ⟨position, protocol⟩, hcompact, h⟩ := h
    cases h
    exact ⟨protocol, hcompact, rfl⟩
  · cases h

theorem registerProjectionModels_ok {topology : ProjectorTopologyId}
    {ownership : List ProjectionModelOwnership}
    (h : registerProjectionModels topology ownership repository = (.ok (), next))
    : ∃ protocol,
      ownership.foldlM (registerModel repository.relationalRows topology)
          { repository.projectionProtocol with
            registeredTopologies :=
              insert topology repository.projectionProtocol.registeredTopologies }
          = .ok protocol
        ∧ next = {
          repository with
          projectionProtocol := protocol
          causalTables := repository.causalTables
            ∪ (ownership.map ProjectionModelOwnership.table).toFinset } := by
  rw [registerProjectionModels, Txn.staged_eq_ok] at h
  simp only [Result.error_bind, Result.guard_eq_ok_iff, Result.bind_eq_ok_iff] at h
  obtain ⟨-, _, -, protocol, hfold, h⟩ := h
  cases h
  exact ⟨protocol, hfold, rfl⟩

end Distributed.InMemoryRepo
