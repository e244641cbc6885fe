import Distributed.InMemoryRepo.Admission
import Distributed.InMemoryRepo.ProjectionSpec

/-! What a projector is told of an input before it runs, and how the commit agrees.
-/

namespace Distributed.InMemoryRepo

open Distributed.Foundation Distributed.Platform Distributed.ProjectionProtocol

open InMemoryProjectionProtocolState

inductive ProjectionInputDisposition where
  | pending
  | duplicate (checkpoint : ProjectionCheckpoint)
  | stale (checkpoint : ProjectionCheckpoint)
deriving DecidableEq

def projectionInputDisposition (protocol : InMemoryProjectionProtocolState)
    (input : TrustedProjectionInput)
    : Except ProjectionProtocolError ProjectionInputDisposition := do
  protocol.requireRegisteredTopology input.cursor.topology
  protocol.validateKnownInputIdentity input
  let key : PartitionKey := .fromInput input.cursor
  match protocol.partitions.lookup key with
  | none => do
      if input.generation ≠ .initial then
        .error (.generationFenced ProjectionGeneration.initial.value
          input.generation.value)
      protocol.validateGapFree input.cursor input.gapFree
      protocol.validateInputIdentity input
      .ok .pending
  | some partition => do
      if input.generation ≠ partition.activeGeneration then
        .error (.generationFenced partition.activeGeneration.value input.generation.value)
      if !protocol.generations.contains ⟨key, input.generation⟩ then
        .error (.invalidBatch
          s!"active projection generation {input.generation.value} has no durable lineage")
      protocol.validateGapFree input.cursor input.gapFree
      protocol.validateInputIdentity input
      match partition.stoppedFailureId with
      | some failureId => .error (.partitionStopped failureId)
      | none => .ok ()
      match ← protocol.classifyInput input with
      | .duplicate checkpoint => .ok (.duplicate checkpoint)
      | .stale checkpoint => .ok (.stale checkpoint)
      | .new => do
          protocol.validatePendingRetry key input
          .ok .pending

/-- The disposition of an input whose partition lets it through. -/
def dispositionOf (protocol : InMemoryProjectionProtocolState)
    (input : TrustedProjectionInput) : InputDisposition →
      Except ProjectionProtocolError ProjectionInputDisposition
  | .duplicate checkpoint => .ok (.duplicate checkpoint)
  | .stale checkpoint => .ok (.stale checkpoint)
  | .new => do
      protocol.validatePendingRetry (.fromInput input.cursor) input
      .ok .pending

section Gate

variable {protocol : InMemoryProjectionProtocolState} {input : TrustedProjectionInput}
  {epoch : ProjectionEpoch}

/-- Nothing is stored of the inputs of a partition that is not known. -/
structure Unvisited (protocol : InMemoryProjectionProtocolState)
    (input : TrustedProjectionInput) : Prop where
  unreceived : protocol.appliedReceipts.lookup (.new input.cursor input.generation) = none
  unstored : protocol.inputs.lookup (.new input.cursor input.generation) = none

theorem Unvisited.classifyInput (h : Unvisited protocol input)
    (hgapFree : protocol.validateGapFree input.cursor input.gapFree = .ok ())
    (hidentity : protocol.validateInputIdentity input = .ok ())
    : protocol.classifyInput input = .ok .new := by
  have hmessage : protocol.rejectReusedMessage input = .ok () := by
    simp only [validateInputIdentity, Result.error_bind, Result.guard_eq_ok_iff] at hidentity
    exact hidentity.2
  simp [InMemoryProjectionProtocolState.classifyInput, hgapFree, hidentity, h.unreceived,
    h.unstored, hmessage]

/-- The disposition makes the checks of the commit, in the order of the commit. -/
theorem projectionInputDisposition_eq
    (hunknown : protocol.partitions.lookup (.fromInput input.cursor) = none →
      Unvisited protocol input)
    (hepoch : ∀ state, protocol.partitions.lookup (.fromInput input.cursor) = some state →
      epoch = state.changeEpoch)
    : projectionInputDisposition protocol input
      = (do
        protocol.validatePartition (.fromInput input.cursor) input epoch
        let disposition ← protocol.classifyInput input
        dispositionOf protocol input disposition) := by
  simp only [projectionInputDisposition, validatePartition, bind_assoc]
  congr 1
  funext _
  congr 1
  funext _
  cases hstate : protocol.partitions.lookup (.fromInput input.cursor) with
  | none =>
      simp only [Result.error_bind, Result.guard_bind, bind_assoc]
      cases hgapFree : protocol.validateGapFree input.cursor input.gapFree with
      | error error => rfl
      | ok _ =>
          cases hidentity : protocol.validateInputIdentity input with
          | error error => rfl
          | ok _ =>
              simp [(hunknown hstate).classifyInput hgapFree hidentity, dispositionOf,
                validatePendingRetry, hstate]
  | some state =>
      have hsame : ¬ state.changeEpoch ≠ epoch := by simp [hepoch state hstate]
      simp only [Result.error_bind, Result.guard_bind, bind_assoc, if_neg hsame]
      cases hstopped : state.stoppedFailureId with
      | some failureId => rfl
      | none => rfl

/-- The checks a pending input has passed. -/
theorem checks_of_pending
    (hunknown : protocol.partitions.lookup (.fromInput input.cursor) = none →
      Unvisited protocol input)
    (hepoch : ∀ state, protocol.partitions.lookup (.fromInput input.cursor) = some state →
      epoch = state.changeEpoch)
    (hpending : projectionInputDisposition protocol input = .ok .pending)
    : protocol.validatePartition (.fromInput input.cursor) input epoch = .ok ()
      ∧ protocol.classifyInput input = .ok .new
      ∧ protocol.validatePendingRetry (.fromInput input.cursor) input = .ok () := by
  rw [projectionInputDisposition_eq hunknown hepoch] at hpending
  simp only [Result.bind_eq_ok_iff] at hpending
  obtain ⟨_, hpartition, disposition, hclassify, hdisposition⟩ := hpending
  cases disposition with
  | duplicate checkpoint => cases hdisposition
  | stale checkpoint => cases hdisposition
  | new =>
      simp only [dispositionOf, Result.bind_eq_ok_iff] at hdisposition
      obtain ⟨_, hretry, -⟩ := hdisposition
      exact ⟨hpartition, hclassify, hretry⟩

end Gate

/-- What is left of a commit once its input is found to be new. -/
def applyNewInput (crates : Crates) (batch : ProjectionCommitBatch)
    : Txn InMemoryRepository ProjectionProtocolError ProjectionCommitResult :=
  Txn.staged fun repository => do
    let (result, touched, rows, protocol) ← stageProjectionCommit crates
      repository.projectionChangeRetention repository.relationalRows
      repository.projectionProtocol batch
    .ok (result, publishCommit crates batch repository touched rows protocol)

/-- The commit the disposition of its input announces. -/
def announcedCommit (crates : Crates) (batch : ProjectionCommitBatch)
    (repository : InMemoryRepository)
    : Except ProjectionProtocolError ProjectionInputDisposition →
      Except ProjectionProtocolError ProjectionCommitResult × InMemoryRepository
  | .error error => (.error error, repository)
  | .ok (.duplicate checkpoint) => (.ok ⟨.duplicate, some checkpoint, [], []⟩, repository)
  | .ok (.stale checkpoint) => (.ok ⟨.staleInput, some checkpoint, [], []⟩, repository)
  | .ok .pending => applyNewInput crates batch repository

section Commit

variable {crates : Crates} {batch : ProjectionCommitBatch} {repository : InMemoryRepository}

theorem requireFreshReceipt_eq_ok {inbox : Finset (String × String)}
    {input : TrustedProjectionInput} (hvalid : (input.inboxReceipt crates).validate = .ok ())
    (hfresh : (input.inboxReceipt crates).key ∉ inbox)
    : requireFreshReceipt crates inbox input = .ok () := by
  simp [requireFreshReceipt, liftRepository, hvalid, hfresh, Except.mapError]

theorem requireFreshReceipt_eq_error {inbox : Finset (String × String)}
    {input : TrustedProjectionInput} (hvalid : (input.inboxReceipt crates).validate = .ok ())
    (hreceived : (input.inboxReceipt crates).key ∈ inbox)
    : requireFreshReceipt crates inbox input = .error (.messageIdReuse input.messageId) := by
  simp [requireFreshReceipt, liftRepository, hvalid, hreceived, Except.mapError]

theorem ProjectionCommitBatch.validate_receipt (hvalid : batch.validate crates = .ok ())
    : (batch.input.inboxReceipt crates).validate = .ok () := by
  simp only [ProjectionCommitBatch.validate, Result.bind_eq_ok_iff, liftRepository,
    Result.mapError_eq_ok_iff] at hvalid
  obtain ⟨_, hreceipt, -⟩ := hvalid
  exact hreceipt

/-- A receipt under the name of a pending input makes its commit fail. -/
theorem commitProjection_received (hvalid : batch.validate crates = .ok ())
    (hunknown : repository.projectionProtocol.partitions.lookup (.fromInput batch.input.cursor)
      = none → Unvisited repository.projectionProtocol batch.input)
    (hepoch : ∀ state, repository.projectionProtocol.partitions.lookup
      (.fromInput batch.input.cursor) = some state → batch.changeEpoch = state.changeEpoch)
    (hpending : projectionInputDisposition repository.projectionProtocol batch.input
      = .ok .pending)
    (hreceived : (batch.input.inboxReceipt crates).key ∈ repository.inboxStore)
    : commitProjection crates batch repository
      = (.error (.messageIdReuse batch.input.messageId), repository) := by
  obtain ⟨hpartition, hclassify, hretry⟩ := checks_of_pending hunknown hepoch hpending
  have hreused := requireFreshReceipt_eq_error
    (ProjectionCommitBatch.validate_receipt hvalid) hreceived
  simp [commitProjection, Txn.staged, hvalid, hpartition, hclassify, hretry, hreused]

theorem commitProjection_eq_announced (hvalid : batch.validate crates = .ok ())
    (hunknown : repository.projectionProtocol.partitions.lookup (.fromInput batch.input.cursor)
      = none → Unvisited repository.projectionProtocol batch.input)
    (hepoch : ∀ state, repository.projectionProtocol.partitions.lookup
      (.fromInput batch.input.cursor) = some state → batch.changeEpoch = state.changeEpoch)
    (hfresh : projectionInputDisposition repository.projectionProtocol batch.input
      = .ok .pending → (batch.input.inboxReceipt crates).key ∉ repository.inboxStore)
    : commitProjection crates batch repository
      = announcedCommit crates batch repository
        (projectionInputDisposition repository.projectionProtocol batch.input) := by
  have hreceipt := ProjectionCommitBatch.validate_receipt hvalid
  rw [projectionInputDisposition_eq hunknown hepoch] at hfresh ⊢
  unfold commitProjection Txn.staged
  simp only [hvalid, Result.ok_bind]
  cases hpartition : repository.projectionProtocol.validatePartition
      (.fromInput batch.input.cursor) batch.input batch.changeEpoch with
  | error error => rfl
  | ok _ =>
      cases hclassify : repository.projectionProtocol.classifyInput batch.input with
      | error error => rfl
      | ok disposition =>
          cases disposition with
          | duplicate checkpoint => rfl
          | stale checkpoint => rfl
          | new =>
              cases hretry : repository.projectionProtocol.validatePendingRetry
                  (.fromInput batch.input.cursor) batch.input with
              | error error => simp [dispositionOf, hretry, announcedCommit]
              | ok _ =>
                  have hpending := hfresh (by simp [hpartition, hclassify, dispositionOf, hretry])
                  simp [dispositionOf, hretry, announcedCommit, applyNewInput,
                    requireFreshReceipt_eq_ok hreceipt hpending]
                  rfl

end Commit

end Distributed.InMemoryRepo
