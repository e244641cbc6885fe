import Distributed.InMemoryRepo.ProjectionStore

/-! Which errors staging a new input can end in.
-/

namespace Distributed.InMemoryRepo

open Distributed.Foundation Distributed.Foundation.Result Distributed.Platform

open Distributed.ProjectionProtocol Distributed.Table

open InMemoryProjectionProtocolState

/-- The errors that turn an input away: for its identity, its generation, its place in the
source, a stopped partition, a retry that comes first or a reused message. -/
def refusesInput : ProjectionProtocolError → Bool
  | .inputCorruption | .incomparableInput | .messageIdReuse _ | .generationFenced _ _
  | .partitionStopped _ => true
  | _ => false

/-- The computation never turns an input away. -/
abbrev Unrefused {α : Type} (result : Except ProjectionProtocolError α) : Prop :=
  FailsWith (fun error => refusesInput error = false) result

section Parts

variable {protocol : InMemoryProjectionProtocolState} {key : PartitionKey}

theorem checkedNext_unrefused (value : Nat) (domain : String)
    : Unrefused (checkedNext value domain) := by
  unfold checkedNext
  split
  · simp
  · simp [refusesInput]

theorem liftValidation_unrefused {α : Type} (result : Except ValidationError α)
    : Unrefused (liftValidation result) :=
  failsWith_mapError result fun _ => rfl

theorem liftTable_unrefused {α : Type} (result : Except TableStoreError α)
    : Unrefused (liftTable result) :=
  failsWith_mapError result fun _ => rfl

theorem ensurePartition_unrefused (epoch : ProjectionEpoch)
    : Unrefused (protocol.ensurePartition key epoch) := by
  unfold ensurePartition
  split
  · exact failsWith_guard rfl (failsWith_ok _)
  · exact failsWith_ok _

theorem appendChange_unrefused (pending : PendingChange)
    : Unrefused (protocol.appendChange key pending) := by
  unfold appendChange
  split
  · exact failsWith_guard rfl ((liftValidation_unrefused _).bind fun _ => failsWith_ok _)
  · exact failsWith_error.mpr rfl

theorem compactChangesThrough_unrefused (through : Nat)
    : Unrefused (protocol.compactChangesThrough key through) := by
  unfold compactChangesThrough
  split
  · refine failsWith_guard rfl ?_
    split
    · exact failsWith_ok _
    · exact failsWith_guard rfl (failsWith_ok _)
  · exact failsWith_error.mpr rfl

theorem retainChangeSuffix_unrefused (retention : ProjectionChangeRetention)
    : Unrefused (protocol.retainChangeSuffix key retention) := by
  unfold retainChangeSuffix
  split
  · exact (compactChangesThrough_unrefused _).bind fun _ => failsWith_ok _
  · exact failsWith_error.mpr rfl

theorem requireRegisteredOwner_unrefused (traffic : String)
    (declaration : ProjectionModelOwnership)
    : Unrefused (protocol.requireRegisteredOwner key traffic declaration) := by
  unfold requireRegisteredOwner
  dsimp only
  split
  · exact failsWith_guard rfl (failsWith_guard rfl (failsWith_ok _))
  · exact failsWith_error.mpr rfl

theorem validateOwnershipBatchFrom_unrefused (declared ownership : List ProjectionModelOwnership)
    : Unrefused (validateOwnershipBatchFrom declared ownership) := by
  induction ownership generalizing declared with
  | nil => exact failsWith_ok _
  | cons declaration rest ih =>
      unfold validateOwnershipBatchFrom
      simp only [error_bind]
      split
      · refine failsWith_guard rfl ?_
        split
        · exact failsWith_guard rfl (ih _)
        · exact ih _
      · rw [ok_bind]
        split
        · exact failsWith_guard rfl (ih _)
        · exact ih _

theorem bindOwnership_unrefused (declaration : ProjectionModelOwnership)
    : Unrefused (bindOwnership key protocol declaration) := by
  unfold bindOwnership
  dsimp only
  split
  · refine failsWith_guard rfl ?_
    split
    · exact failsWith_error.mpr rfl
    · exact failsWith_ok _
  · rw [ok_bind]
    split
    · exact failsWith_error.mpr rfl
    · exact failsWith_ok _

theorem ownedTable_unrefused (scope : ProjectionRecordScope)
    : Unrefused (protocol.ownedTable key scope) := by
  unfold ownedTable
  split
  · exact failsWith_ok _
  · exact failsWith_error.mpr rfl

theorem requireMutationOwner_unrefused (mutation : ProjectionRecordMutation)
    : Unrefused (protocol.requireMutationOwner key mutation) :=
  (ownedTable_unrefused _).bind fun _ =>
    failsWith_guard rfl (failsWith_guard rfl (failsWith_ok _))

theorem registerOwnership_unrefused (batch : ProjectionCommitBatch)
    : Unrefused (protocol.registerOwnership key batch) := by
  refine (failsWith_forM fun _ => requireRegisteredOwner_unrefused _ _).bind fun _ => ?_
  refine (validateOwnershipBatchFrom_unrefused _ _).bind fun _ => ?_
  refine (failsWith_foldlM (fun _ _ => bindOwnership_unrefused _) _).bind fun bound => ?_
  refine (failsWith_forM fun _ => requireMutationOwner_unrefused _).bind fun _ => ?_
  refine (failsWith_forM fun _ => ?_).bind fun _ => failsWith_ok _
  exact (ownedTable_unrefused _).bind fun _ => failsWith_ok _

theorem nextOfExact_unrefused (scope : ProjectionRecordScope)
    (metadata : ProjectionRecordMetadata) (kind : ProjectionMutationKind)
    : Unrefused (nextOfExact scope metadata kind) := by
  unfold nextOfExact
  split
  all_goals first
    | exact failsWith_error.mpr rfl
    | exact (checkedNext_unrefused _ _).bind fun _ =>
        (liftValidation_unrefused _).bind fun _ => failsWith_ok _

theorem nextRecord_unrefused (scope : ProjectionRecordScope)
    (expectation : ProjectionRecordExpectation) (kind : ProjectionMutationKind)
    : Unrefused (protocol.nextRecord scope expectation kind) := by
  unfold nextRecord
  split
  · split
    · exact (liftValidation_unrefused _).bind fun _ => failsWith_ok _
    · exact failsWith_error.mpr rfl
  · split
    · exact failsWith_error.mpr rfl
    · exact failsWith_error.mpr rfl
  · exact failsWith_error.mpr rfl
  · exact failsWith_guard rfl (nextOfExact_unrefused _ _ _)

theorem validatePhysicalRecord_unrefused (scope : ProjectionRecordScope)
    (expectation : ProjectionRecordExpectation) (kind : ProjectionMutationKind)
    (rowExists : Bool)
    : Unrefused (validatePhysicalRecord scope expectation kind rowExists) := by
  unfold validatePhysicalRecord
  split
  · exact failsWith_error.mpr rfl
  · split
    · exact failsWith_ok _
    · exact failsWith_error.mpr rfl

theorem ensureLiveRecordIdentityAvailable_unrefused (crates : Crates)
    (metadata : ProjectionRecordMetadata)
    : Unrefused (protocol.ensureLiveRecordIdentityAvailable crates metadata) := by
  unfold ensureLiveRecordIdentityAvailable
  dsimp only
  split
  · exact failsWith_ok _
  · split
    · exact failsWith_ok _
    · exact failsWith_guard rfl (failsWith_error.mpr rfl)

theorem append_unrefused (staged : StagedCommit) (pending : PendingChange)
    : Unrefused (staged.append key pending) :=
  (appendChange_unrefused _).bind fun _ => failsWith_ok _

theorem stageMutation_unrefused (crates : Crates) (input : TrustedProjectionInput)
    (rows : RelationalRows) (staged : StagedCommit) (mutation : ProjectionRecordMutation)
    : Unrefused (stageMutation crates input rows staged mutation) := by
  refine (nextRecord_unrefused _ _ _).bind fun _ => ?_
  refine (validatePhysicalRecord_unrefused _ _ _ _).bind fun _ => ?_
  refine (append_unrefused _ _).bind fun _ => ?_
  exact (ensureLiveRecordIdentityAvailable_unrefused _ _).bind fun _ => failsWith_ok _

theorem collectLockKeys_unrefused (crates : Crates) (seen : List String)
    (mutations : List ProjectionRecordMutation)
    : Unrefused (collectLockKeys crates seen mutations) := by
  induction mutations generalizing seen with
  | nil => exact failsWith_ok _
  | cons mutation rest ih => exact failsWith_guard rfl (ih _)

theorem requireRowAfter_unrefused (crates : Crates) (rows : RelationalRows)
    (mutation : ProjectionRecordMutation)
    : Unrefused (requireRowAfter crates rows mutation) :=
  failsWith_guard rfl (failsWith_ok _)

theorem stageObservation_unrefused (input : TrustedProjectionInput) (staged : StagedCommit)
    (request : ProjectionObservationRequest)
    : Unrefused (stageObservation input staged request) := by
  have hobserved : Unrefused (observedRevision staged.protocol request) := by
    unfold observedRevision
    split
    · split
      · exact failsWith_ok _
      · exact failsWith_error.mpr rfl
    · split
      · exact failsWith_error.mpr rfl
      · exact failsWith_guard rfl (failsWith_ok _)
    · exact failsWith_ok _
  refine hobserved.bind fun (revision, change) => ?_
  dsimp only
  split
  · exact failsWith_ok _
  · refine FailsWith.bind ?_ fun _ => failsWith_ok _
    cases change with
    | some cursor => exact failsWith_ok _
    | none => exact (append_unrefused _ _).bind fun _ => failsWith_ok _

theorem stageCheckpointChange_unrefused (input : TrustedProjectionInput)
    (staged : StagedCommit)
    : Unrefused (stageCheckpointChange input staged) := by
  unfold stageCheckpointChange
  split
  · exact (append_unrefused _ _).bind fun _ => failsWith_ok _
  · exact failsWith_ok _

end Parts

/-- Staging a new input never turns it away. -/
theorem stageProjectionCommit_unrefused (crates : Crates)
    (retention : ProjectionChangeRetention) (rows : RelationalRows)
    (protocol : InMemoryProjectionProtocolState) (batch : ProjectionCommitBatch)
    : Unrefused (stageProjectionCommit crates retention rows protocol batch) := by
  refine (ensurePartition_unrefused _).bind fun _ => ?_
  refine (registerOwnership_unrefused _).bind fun _ => ?_
  refine (collectLockKeys_unrefused _ _ _).bind fun _ => ?_
  refine (failsWith_foldlM (fun _ _ => stageMutation_unrefused _ _ _ _ _) _).bind fun _ => ?_
  refine (liftTable_unrefused _).bind fun _ => ?_
  refine (failsWith_forM fun _ => requireRowAfter_unrefused _ _ _).bind fun _ => ?_
  refine (failsWith_foldlM (fun _ _ => stageObservation_unrefused _ _ _) _).bind fun _ => ?_
  refine (stageCheckpointChange_unrefused _ _).bind fun _ => ?_
  split
  · refine (liftValidation_unrefused _).bind fun _ => ?_
    exact (retainChangeSuffix_unrefused _).bind fun _ => failsWith_ok _
  · exact failsWith_error.mpr rfl

end Distributed.InMemoryRepo
