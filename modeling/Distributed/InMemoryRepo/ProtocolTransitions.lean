import Distributed.InMemoryRepo.Admission
import Distributed.InMemoryRepo.Frames
import Distributed.InMemoryRepo.LedgerSteps
import Distributed.InMemoryRepo.ProtocolSteps

/-! What one operation of the repository does to the projection protocol.
-/

namespace Distributed.InMemoryRepo

open Distributed.CommandLedger Distributed.Foundation Distributed.Platform

open Distributed.ProjectionProtocol Distributed.Repository Distributed.Table

open InMemoryProjectionProtocolState

/-- The answer reports no applied input, no recorded failure and no repair. -/
def RepositoryAnswer.Quiet : RepositoryAnswer → Prop
  | .projected (.ok result) => result.outcome ≠ .applied
  | .failureRecorded (.ok _) => False
  | .repaired (.ok _) => False
  | _ => True

/-- Every way an operation can change the projection protocol. -/
inductive ProtocolStep (before after : InMemoryProjectionProtocolState)
    : RepositoryOp → RepositoryAnswer → Prop
  | unchanged {op : RepositoryOp} {answer : RepositoryAnswer} :
      after = before → answer.Quiet → ProtocolStep before after op answer
  | registered {topology : ProjectorTopologyId} {ownership : List ProjectionModelOwnership}
      {topologies : Finset ProjectorTopologyId} {models : Map RegisteredModelKey String}
      {owners : Map String RegisteredModelKey} {answer : RepositoryAnswer} :
      after = { before with
        registeredTopologies := topologies
        registeredModels := models
        authoritativeTableOwners := owners } →
      before.registeredTopologies ⊆ topologies → answer.Quiet →
      ProtocolStep before after (.registerProjectionModels topology ownership) answer
  | applied {batch : ProjectionCommitBatch} {result : ProjectionCommitResult} :
      Admitted before batch.input → AppliedEffect batch before after result →
      result.outcome = .applied →
      ProtocolStep before after (.commitProjection batch) (.projected (.ok result))
  | redelivered {batch : ProjectionFailureBatch} {failure : ProjectionFailure}
      {state : PartitionState} :
      before.partitions.lookup (.fromInput batch.input.cursor) = some state →
      state.stoppedFailureId = some batch.failureId → after = before →
      ProtocolStep before after (.recordProjectionFailure batch)
        (.failureRecorded (.ok failure))
  | failed {batch : ProjectionFailureBatch} {change : ProjectionChange}
      {failure : ProjectionFailure} :
      Admitted before batch.input → before.failures.contains batch.failureId = false →
      FailedEffect batch before after change failure →
      ProtocolStep before after (.recordProjectionFailure batch)
        (.failureRecorded (.ok failure))
  | repaired {topology : ProjectorTopologyId} {partition : ProjectionPartition}
      {failureId : String} {state : PartitionState} {generation : ProjectionGeneration} :
      RepairEffect ⟨topology, partition⟩ failureId before after state generation →
      ProtocolStep before after (.repairProjection topology partition failureId)
        (.repaired (.ok generation))
  | compacted {through : ProjectionChangeCursor} {state : PartitionState}
      {answer : RepositoryAnswer} :
      before.partitions.lookup ⟨through.topology, through.projectionPartition⟩ = some state →
      Compacts ⟨through.topology, through.projectionPartition⟩ before state after →
      answer.Quiet →
      ProtocolStep before after (.compactProjectionChanges through) answer
  | direct {clock : CommitClock} {request : CausalCommitRequest}
      {batch : SameTransactionProjectionBatch} {mutation : SameTransactionProjectionMutation}
      {change : ProjectionChange} {metadata : ProjectionRecordMetadata}
      {answer : RepositoryAnswer} :
      request.directProjection = some batch →
      DirectEffect batch mutation before after change metadata → answer.Quiet →
      ProtocolStep before after (.commitCommand clock request) answer

section Operations

variable {crates : Crates} {repository : InMemoryRepository}

/-- An operation that fails keeps the protocol, so only its successes matter. -/
theorem report_protocolStep {Error α : Type} {op : RepositoryOp}
    {wrap : Except Error α → RepositoryAnswer}
    {operation : Txn InMemoryRepository Error α} (hatomic : operation.AllOrNothing)
    (hquiet : ∀ error, (wrap (.error error)).Quiet)
    (hok : ∀ value next, operation repository = (.ok value, next) →
      ProtocolStep repository.projectionProtocol next.projectionProtocol op
        (wrap (.ok value)))
    : ProtocolStep repository.projectionProtocol
        (report wrap operation repository).2.projectionProtocol op
        (report wrap operation repository).1 := by
  unfold report
  rcases hrun : operation repository with ⟨error | value, next⟩
  · have hsame := hatomic repository error (by rw [hrun])
    rw [hrun] at hsame
    exact .unchanged (congrArg _ hsame) (hquiet error)
  · exact hok value next hrun

/-- An operation on another store keeps the protocol. -/
theorem report_within_protocolStep {Error α Part : Type} {op : RepositoryOp}
    {wrap : Except Error α → RepositoryAnswer}
    {operation : Txn InMemoryRepository Error α} {lens : Lens InMemoryRepository Part}
    (hwithin : operation.Within lens)
    (hother : ∀ part, (lens.set part repository).projectionProtocol
      = repository.projectionProtocol)
    (hquiet : ∀ result, (wrap result).Quiet)
    : ProtocolStep repository.projectionProtocol
        (report wrap operation repository).2.projectionProtocol op
        (report wrap operation repository).1 := by
  obtain ⟨part, hpart⟩ := hwithin repository
  refine .unchanged ?_ (hquiet _)
  rw [report, hpart]
  exact hother part

/-- A successful commit found its input processed and changed nothing, or admitted and
applied it. -/
theorem commitProjection_effect {batch : ProjectionCommitBatch}
    {result : ProjectionCommitResult} {next : InMemoryRepository}
    (h : commitProjection crates batch repository = (.ok result, next))
    : result.outcome ≠ .applied ∧ next = repository
      ∨ result.outcome = .applied ∧ Admitted repository.projectionProtocol batch.input
        ∧ AppliedEffect batch repository.projectionProtocol next.projectionProtocol
          result := by
  obtain ⟨hvalid, hpartition, hprocessed | ⟨hclassify, hretry, -, touched, rows, protocol,
    hstage, rfl⟩⟩ := commitProjection_ok h
  · exact .inl hprocessed
  · have hadmitted : Admitted repository.projectionProtocol batch.input :=
      .of_checks hpartition hclassify hretry
    obtain ⟨opened, bound, staged, final, checkpoint, hstaged⟩ :=
      stageProjectionCommit_ok hstage
    refine .inr ⟨hstaged.answers ▸ rfl, hadmitted, ?_⟩
    exact hstaged.effect (ProjectionCommitBatch.validate_ok hvalid)
      fun state hstate => (hadmitted.running state hstate).2

theorem commitProjection_protocolStep (batch : ProjectionCommitBatch)
    : ProtocolStep repository.projectionProtocol
        (step crates (.commitProjection batch) repository).2.projectionProtocol
        (.commitProjection batch) (step crates (.commitProjection batch) repository).1 := by
  refine report_protocolStep (Txn.staged_allOrNothing _) (fun _ => trivial) ?_
  intro result next hrun
  obtain ⟨hprocessed, rfl⟩ | ⟨happlied, hadmitted, heffect⟩ := commitProjection_effect hrun
  · exact .unchanged rfl hprocessed
  · exact .applied hadmitted heffect happlied

theorem checkFailurePartition_some {protocol : InMemoryProjectionProtocolState}
    {batch : ProjectionFailureBatch} {failure : ProjectionFailure}
    (h : checkFailurePartition protocol batch = .ok (some failure))
    : ∃ state, protocol.partitions.lookup (.fromInput batch.input.cursor) = some state
      ∧ state.stoppedFailureId = some batch.failureId := by
  unfold checkFailurePartition at h
  cases hstate : protocol.partitions.lookup (.fromInput batch.input.cursor) with
  | none => simp [hstate] at h
  | some state =>
      simp only [hstate, Result.bind_eq_ok_iff, Result.error_bind,
        Result.guard_eq_ok_iff] at h
      obtain ⟨-, _, -, _, -, h⟩ := h
      cases hstopped : state.stoppedFailureId with
      | none => simp [hstopped] at h
      | some stopped =>
          simp only [hstopped] at h
          split at h
          · rename_i existing hexisting
            refine ⟨state, rfl, ?_⟩
            by_cases hid : stopped = batch.failureId
            · exact hid ▸ hstopped
            · simp [existingFailure, hid] at hexisting
          · cases h

theorem recordProjectionFailure_protocolStep (batch : ProjectionFailureBatch)
    : ProtocolStep repository.projectionProtocol
        (step crates (.recordProjectionFailure batch) repository).2.projectionProtocol
        (.recordProjectionFailure batch)
        (step crates (.recordProjectionFailure batch) repository).1 := by
  refine report_protocolStep (Txn.staged_allOrNothing _) (fun _ => trivial) ?_
  intro failure next hrun
  obtain ⟨hexisting, rfl⟩ | ⟨-, hfresh, hpartition, hclassify, hretry, -, protocol, hstage,
    rfl⟩ := recordProjectionFailure_ok hrun
  · obtain ⟨state, hstate, hstopped⟩ := checkFailurePartition_some hexisting
    exact .redelivered hstate hstopped rfl
  · obtain ⟨change, heffect⟩ := stageProjectionFailure_ok hstage
    exact .failed (.of_checks hpartition hclassify hretry) hfresh heffect

theorem repairProjection_protocolStep (topology : ProjectorTopologyId)
    (partition : ProjectionPartition) (failureId : String)
    : ProtocolStep repository.projectionProtocol
        (step crates (.repairProjection topology partition failureId)
          repository).2.projectionProtocol
        (.repairProjection topology partition failureId)
        (step crates (.repairProjection topology partition failureId) repository).1 := by
  refine report_protocolStep (Txn.staged_allOrNothing _) (fun _ => trivial) ?_
  intro generation next hrun
  obtain ⟨protocol, hstage, rfl⟩ := repairProjection_ok hrun
  obtain ⟨state, heffect⟩ := stageRepair_ok hstage
  exact .repaired heffect

theorem compactProjectionChanges_protocolStep (through : ProjectionChangeCursor)
    : ProtocolStep repository.projectionProtocol
        (step crates (.compactProjectionChanges through) repository).2.projectionProtocol
        (.compactProjectionChanges through)
        (step crates (.compactProjectionChanges through) repository).1 := by
  refine report_protocolStep (Txn.staged_allOrNothing _) (fun _ => trivial) ?_
  intro compacted next hrun
  obtain ⟨protocol, hcompact, rfl⟩ := compactProjectionChanges_ok hrun
  obtain ⟨state, hstate, hcompacts⟩ := compactChangesThrough_ok hcompact
  exact .compacted hstate hcompacts trivial

/-- Registering a model adds its table and its owner. A table without an owner must have
no rows yet. -/
theorem registerModel_ok {rows : RelationalRows} {topology : ProjectorTopologyId}
    {protocol next : InMemoryProjectionProtocolState} {declaration : ProjectionModelOwnership}
    (h : registerModel rows topology protocol declaration = .ok next)
    : (protocol.authoritativeTableOwners.lookup declaration.table
          = some ⟨topology, declaration.model⟩
        ∨ ∀ storageKey ∈ rows.keys,
          storageKeyBelongsToTable storageKey declaration.table = false)
      ∧ next = { protocol with
        registeredModels :=
          protocol.registeredModels.insert ⟨topology, declaration.model⟩ declaration.table
        authoritativeTableOwners := protocol.authoritativeTableOwners.insert
          declaration.table ⟨topology, declaration.model⟩ } := by
  unfold registerModel at h
  dsimp only at h
  cases howner : protocol.authoritativeTableOwners.lookup declaration.table
  case' some owner =>
    simp only [howner, Result.error_bind, Result.guard_eq_ok_iff, not_not] at h
    obtain ⟨rfl, h⟩ := h
    refine ⟨.inl rfl, ?_⟩
  case' none =>
    simp only [howner, Result.error_bind, Result.guard_eq_ok_iff, List.any_eq_true, not_exists,
      not_and, Bool.not_eq_true] at h
    obtain ⟨hrows, h⟩ := h
    refine ⟨.inr hrows, ?_⟩
  all_goals
    split at h
    · simp only [Result.guard_eq_ok_iff] at h
      split at h
      · cases h.2
      · cases h.2
        rfl
    · rw [Result.ok_bind] at h
      split at h
      · cases h
      · cases h
        rfl

theorem registerProjectionModels_protocolStep (topology : ProjectorTopologyId)
    (ownership : List ProjectionModelOwnership)
    : ProtocolStep repository.projectionProtocol
        (step crates (.registerProjectionModels topology ownership)
          repository).2.projectionProtocol
        (.registerProjectionModels topology ownership)
        (step crates (.registerProjectionModels topology ownership) repository).1 := by
  refine report_protocolStep (Txn.staged_allOrNothing _) (fun _ => trivial) ?_
  intro _ next hrun
  obtain ⟨protocol, hfold, rfl⟩ := registerProjectionModels_ok hrun
  have hregisters : ∃ models owners, protocol = { repository.projectionProtocol with
      registeredTopologies := insert topology
        repository.projectionProtocol.registeredTopologies
      registeredModels := models
      authoritativeTableOwners := owners } := by
    refine Result.foldlM_invariant (fun protocol => ∃ models owners, protocol = {
      repository.projectionProtocol with
      registeredTopologies := insert topology
        repository.projectionProtocol.registeredTopologies
      registeredModels := models
      authoritativeTableOwners := owners }) ⟨_, _, rfl⟩ ?_ hfold
    rintro _ declaration next - ⟨models, owners, rfl⟩ hnext
    exact ⟨_, _, (registerModel_ok hnext).2⟩
  obtain ⟨models, owners, hprotocol⟩ := hregisters
  exact .registered hprotocol (Finset.subset_insert _ _) trivial

theorem commitBatch_protocolStep (clock : CommitClock) (batch : CommitBatch)
    : ProtocolStep repository.projectionProtocol
        (step crates (.commitBatch clock batch) repository).2.projectionProtocol
        (.commitBatch clock batch) (step crates (.commitBatch clock batch) repository).1 := by
  refine report_protocolStep (commitBatchInner_allOrNothing.mapError _) (fun _ => trivial) ?_
  intro streams next hrun
  obtain ⟨staged, hstaged, rfl, -⟩ := commitBatchInner_ok (Txn.mapError_eq_ok.mp hrun)
  refine .unchanged ?_ trivial
  rw [StagedBatch.publish, hstaged.direct_none.2]
  rfl

theorem commitCommand_protocolStep (clock : CommitClock) (request : CausalCommitRequest)
    : ProtocolStep repository.projectionProtocol
        (step crates (.commitCommand clock request) repository).2.projectionProtocol
        (.commitCommand clock request)
        (step crates (.commitCommand clock request) repository).1 := by
  refine report_protocolStep (commitCommand_allOrNothing request) (fun _ => trivial) ?_
  intro streams next hrun
  rw [commitCommand, Txn.lift_bind_eq_ok] at hrun
  obtain ⟨completion, -, hcommit⟩ := hrun
  obtain ⟨staged, hstaged, rfl, -⟩ := commitBatchInner_ok (Txn.mapError_eq_ok.mp hcommit)
  cases hdirect : request.directProjection with
  | none =>
      refine .unchanged ?_ trivial
      rw [hdirect] at hstaged
      rw [StagedBatch.publish, hstaged.direct_none.2]
      rfl
  | some projection =>
      rw [hdirect] at hstaged
      obtain ⟨planned, evidence, protocol, -, hstage, hprotocol⟩ := hstaged.direct_some
      obtain ⟨opened, bound, logged, declaration, mutation, row, revision, change, hparts⟩ :=
        stageSameTransactionProjection_ok hstage
      rw [StagedBatch.publish, hprotocol]
      exact .direct hdirect hparts.effect trivial

end Operations

theorem step_protocolStep (crates : Crates) (repository : InMemoryRepository)
    (op : RepositoryOp)
    : ProtocolStep repository.projectionProtocol
        (step crates op repository).2.projectionProtocol op (step crates op repository).1 := by
  cases op with
  | commitBatch clock batch => exact commitBatch_protocolStep clock batch
  | commitCommand clock request => exact commitCommand_protocolStep clock request
  | reserveCommand reservation now =>
      exact report_within_protocolStep (reserveCommand_within reservation now)
        (fun _ => rfl) (fun _ => trivial)
  | lookupCommand key scope now =>
      exact report_within_protocolStep (lookupCommand_within key scope now)
        (fun _ => rfl) (fun _ => trivial)
  | markRetryableUnknown attempt now =>
      exact report_within_protocolStep (markRetryableUnknown_within attempt now)
        (fun _ => rfl) (fun _ => trivial)
  | compactExpiredCommands limit now =>
      exact report_within_protocolStep (compactExpiredCommands_within limit now)
        (fun _ => rfl) (fun _ => trivial)
  | registerProjectionModels topology ownership =>
      exact registerProjectionModels_protocolStep topology ownership
  | commitProjection batch => exact commitProjection_protocolStep batch
  | recordProjectionFailure batch => exact recordProjectionFailure_protocolStep batch
  | repairProjection topology partition failureId =>
      exact repairProjection_protocolStep topology partition failureId
  | compactProjectionChanges through => exact compactProjectionChanges_protocolStep through
  | commitWritePlan plan =>
      refine report_protocolStep (Txn.staged_allOrNothing _) (fun _ => trivial) ?_
      intro _ next hrun
      obtain ⟨-, rows, -, rfl⟩ := commitWritePlan_ok hrun
      exact .unchanged rfl trivial
  | putSnapshot identity record =>
      refine report_protocolStep (Txn.staged_allOrNothing _) (fun _ => trivial) ?_
      intro _ next hrun
      obtain ⟨-, rfl⟩ := putSnapshot_ok hrun
      exact .unchanged rfl trivial
  | claimOutbox | settleOutbox | completeManyOutbox | deleteSnapshot | clearInbox =>
      exact .unchanged rfl trivial

end Distributed.InMemoryRepo
