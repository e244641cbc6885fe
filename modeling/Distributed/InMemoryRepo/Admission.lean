import Distributed.Foundation.Result
import Distributed.InMemoryRepo.ProjectionState

/-! What the checks before a new projection input establish.
-/

namespace Distributed.InMemoryRepo

open Distributed.Foundation Distributed.Platform Distributed.ProjectionProtocol

open InMemoryProjectionProtocolState

variable {protocol : InMemoryProjectionProtocolState} {input : TrustedProjectionInput}

/-- A newer input of the same source and epoch; from a gap-free source it is the next one. -/
structure Succeeds (gapFree : Bool) (cursor previous : ProjectionInputCursor) : Prop where
  epoch : cursor.epoch = previous.epoch
  newer : previous.position < cursor.position
  next : gapFree = true → cursor.position = previous.position + 1

theorem comparePosition_newer {cursor previous : ProjectionInputCursor}
    (h : cursor.comparePosition previous = .newer)
    : cursor.epoch = previous.epoch ∧ previous.position < cursor.position := by
  unfold ProjectionInputCursor.comparePosition at h
  split at h
  · cases h
  · rename_i hscope
    simp only [not_or, not_not] at hscope
    refine ⟨hscope.2.2.2, ?_⟩
    cases hcompare : compare cursor.position previous.position with
    | lt => simp [hcompare, compareOrdering] at h
    | eq => simp [hcompare, compareOrdering] at h
    | gt => exact Nat.compare_eq_gt.mp hcompare

theorem checkedNext_ok {value next : Nat} {domain : String}
    (h : checkedNext value domain = .ok next)
    : next = value + 1 := by
  unfold checkedNext at h
  split at h
  · cases h
    rfl
  · cases h

theorem validateGapFree_ok {cursor : ProjectionInputCursor} {gapFree registered : Bool}
    (h : protocol.validateGapFree cursor gapFree = .ok ())
    (hregistered : protocol.gapFreeCapabilities.lookup (.new cursor) = some registered)
    : registered = gapFree := by
  unfold validateGapFree at h
  simpa [hregistered] using h

theorem classifyAfter_new {previous : StoredInput}
    (h : protocol.classifyAfter input previous = .ok .new)
    : Succeeds input.gapFree input.cursor previous.cursor := by
  unfold classifyAfter at h
  split at h
  · split at h <;> cases h
  · simp [Result.bind_eq_ok_iff] at h
  · cases h
  · rename_i hcompare
    obtain ⟨hepoch, hnewer⟩ := comparePosition_newer hcompare
    refine ⟨hepoch, hnewer, fun hgapFree => ?_⟩
    simp only [Result.bind_eq_ok_iff, hgapFree, if_true, Result.error_bind,
      Result.guard_eq_ok_iff, not_not] at h
    obtain ⟨_, -, next, hnext, hposition, -⟩ := h
    rw [hposition, checkedNext_ok hnext]

theorem classifyInput_new {previous : StoredInput}
    (h : protocol.classifyInput input = .ok .new)
    (hprevious : protocol.inputs.lookup (.new input.cursor input.generation) = some previous)
    : Succeeds input.gapFree input.cursor previous.cursor := by
  simp only [classifyInput, Result.bind_eq_ok_iff] at h
  obtain ⟨_, -, _, -, h⟩ := h
  split at h
  · split at h <;> cases h
  · simp only [hprevious] at h
    exact classifyAfter_new h

/-- What is remembered of an input under its cursor. -/
def InputIdentity.ofInput (input : TrustedProjectionInput) : InputIdentity where
  fingerprint := input.fingerprint
  messageId := input.messageId
  causationId := input.causationId
  gapFree := input.gapFree

/-- What is remembered of an input under its message id. -/
def MessageIdentity.ofInput (input : TrustedProjectionInput) : MessageIdentity where
  cursor := input.cursor
  fingerprint := input.fingerprint
  causationId := input.causationId
  gapFree := input.gapFree

theorem rejectReusedMessage_ok {known : MessageIdentity}
    (h : protocol.rejectReusedMessage input = .ok ())
    (hknown : protocol.messages.lookup (.new input.cursor input.messageId) = some known)
    : known = .ofInput input := by
  obtain ⟨cursor, fingerprint, causationId, gapFree⟩ := known
  simp only [rejectReusedMessage, hknown] at h
  split at h
  · cases h
  · rename_i hsame
    simp only [not_or, not_not] at hsame
    obtain ⟨rfl, rfl, rfl, rfl⟩ := hsame
    rfl

theorem validateInputIdentity_ok (h : protocol.validateInputIdentity input = .ok ())
    : (∀ known, protocol.inputIdentities.lookup (.new input.cursor) = some known →
        known = .ofInput input)
      ∧ ∀ known, protocol.messages.lookup (.new input.cursor input.messageId) = some known →
        known = .ofInput input := by
  simp only [validateInputIdentity, Result.error_bind, Result.guard_eq_ok_iff] at h
  obtain ⟨hsame, hmessage⟩ := h
  refine ⟨fun known hknown => ?_, fun known => rejectReusedMessage_ok hmessage⟩
  obtain ⟨fingerprint, messageId, causationId, gapFree⟩ := known
  simp only [hknown, Option.any_some, decide_eq_true_eq, not_or, not_not] at hsame
  obtain ⟨rfl, rfl, rfl, rfl⟩ := hsame
  rfl

/-- An input that passed the checks of a commit or of a failure record. -/
structure Admitted (protocol : InMemoryProjectionProtocolState)
    (input : TrustedProjectionInput) : Prop where
  running : ∀ state, protocol.partitions.lookup (.fromInput input.cursor) = some state →
    input.generation = state.activeGeneration ∧ state.stoppedFailureId = none
  first : protocol.partitions.lookup (.fromInput input.cursor) = none →
    input.generation = .initial
  topology : input.cursor.topology ∈ protocol.registeredTopologies
  lineage : ∀ state, protocol.partitions.lookup (.fromInput input.cursor) = some state →
    protocol.generations.contains ⟨.fromInput input.cursor, input.generation⟩ = true
  identity : ∀ known, protocol.inputIdentities.lookup (.new input.cursor) = some known →
    known = .ofInput input
  message : ∀ known,
    protocol.messages.lookup (.new input.cursor input.messageId) = some known →
      known = .ofInput input
  unreceived : protocol.appliedReceipts.lookup (.new input.cursor input.generation) = none
  capability : ∀ registered,
    protocol.gapFreeCapabilities.lookup (.new input.cursor) = some registered →
      registered = input.gapFree
  succeeds : ∀ previous : StoredInput,
    protocol.inputs.lookup (.new input.cursor input.generation) = some previous →
      Succeeds input.gapFree input.cursor previous.cursor
  retry : ∀ state failureId,
    protocol.partitions.lookup (.fromInput input.cursor) = some state →
      state.pendingRetryFailureId = some failureId →
        ∃ fence, protocol.failureInputs.lookup failureId = some fence
          ∧ fence.matchesRetry input = true

theorem validatePartition_running {key : PartitionKey} {changeEpoch : ProjectionEpoch}
    {state : PartitionState} (h : protocol.validatePartition key input changeEpoch = .ok ())
    (hstate : protocol.partitions.lookup key = some state)
    : input.generation = state.activeGeneration ∧ state.stoppedFailureId = none := by
  simp only [validatePartition, hstate, Result.bind_eq_ok_iff, Result.error_bind,
    Result.guard_eq_ok_iff, not_not] at h
  obtain ⟨_, -, _, -, -, hgeneration, -, _, -, _, -, h⟩ := h
  cases hstopped : state.stoppedFailureId with
  | none => exact ⟨hgeneration, rfl⟩
  | some failureId => simp [hstopped] at h

theorem validatePartition_topology {key : PartitionKey} {changeEpoch : ProjectionEpoch}
    (h : protocol.validatePartition key input changeEpoch = .ok ())
    : input.cursor.topology ∈ protocol.registeredTopologies := by
  rw [validatePartition, Result.bind_eq_ok_iff] at h
  obtain ⟨_, htopology, -⟩ := h
  unfold requireRegisteredTopology at htopology
  split at htopology
  · assumption
  · cases htopology

theorem validatePartition_lineage {key : PartitionKey} {changeEpoch : ProjectionEpoch}
    {state : PartitionState} (h : protocol.validatePartition key input changeEpoch = .ok ())
    (hstate : protocol.partitions.lookup key = some state)
    : protocol.generations.contains ⟨key, input.generation⟩ = true := by
  simp only [validatePartition, hstate, Result.bind_eq_ok_iff, Result.error_bind,
    Result.guard_eq_ok_iff, not_not] at h
  obtain ⟨_, -, _, -, -, -, hlineage, -⟩ := h
  simpa using hlineage

theorem validatePartition_first {key : PartitionKey} {changeEpoch : ProjectionEpoch}
    (h : protocol.validatePartition key input changeEpoch = .ok ())
    (hunknown : protocol.partitions.lookup key = none)
    : input.generation = .initial := by
  simp only [validatePartition, hunknown, Result.bind_eq_ok_iff, Result.error_bind,
    Result.guard_eq_ok_iff, not_not] at h
  obtain ⟨_, -, _, -, hgeneration, -⟩ := h
  exact hgeneration

theorem validatePendingRetry_ok {key : PartitionKey} {state : PartitionState}
    {failureId : String} (h : protocol.validatePendingRetry key input = .ok ())
    (hstate : protocol.partitions.lookup key = some state)
    (hpending : state.pendingRetryFailureId = some failureId)
    : ∃ fence, protocol.failureInputs.lookup failureId = some fence
      ∧ fence.matchesRetry input = true := by
  simp only [validatePendingRetry, hstate, Option.bind_some, hpending] at h
  cases hfence : protocol.failureInputs.lookup failureId with
  | none => simp [hfence] at h
  | some fence =>
      simp only [hfence, Result.guard_eq_ok_iff] at h
      obtain ⟨-, h⟩ := h
      split at h
      · exact ⟨fence, rfl, ‹_›⟩
      · cases h

theorem classifyInput_capability {disposition : InputDisposition} {registered : Bool}
    (h : protocol.classifyInput input = .ok disposition)
    (hregistered : protocol.gapFreeCapabilities.lookup (.new input.cursor) = some registered)
    : registered = input.gapFree := by
  simp only [classifyInput, Result.bind_eq_ok_iff] at h
  obtain ⟨_, hgapFree, -⟩ := h
  exact validateGapFree_ok hgapFree hregistered

theorem classifyInput_identity {disposition : InputDisposition}
    (h : protocol.classifyInput input = .ok disposition)
    : protocol.validateInputIdentity input = .ok () := by
  simp only [classifyInput, Result.bind_eq_ok_iff] at h
  obtain ⟨_, -, _, hidentity, -⟩ := h
  exact hidentity

theorem classifyInput_unreceived (h : protocol.classifyInput input = .ok .new)
    : protocol.appliedReceipts.lookup (.new input.cursor input.generation) = none := by
  simp only [classifyInput, Result.bind_eq_ok_iff] at h
  obtain ⟨_, -, _, -, h⟩ := h
  split at h
  · split at h <;> cases h
  · assumption

theorem Admitted.of_checks {changeEpoch : ProjectionEpoch}
    (hpartition : protocol.validatePartition (.fromInput input.cursor) input changeEpoch
      = .ok ())
    (hclassify : protocol.classifyInput input = .ok .new)
    (hretry : protocol.validatePendingRetry (.fromInput input.cursor) input = .ok ())
    : Admitted protocol input where
  running _ := validatePartition_running hpartition
  first := validatePartition_first hpartition
  topology := validatePartition_topology hpartition
  lineage _ := validatePartition_lineage hpartition
  identity := (validateInputIdentity_ok (classifyInput_identity hclassify)).1
  message := (validateInputIdentity_ok (classifyInput_identity hclassify)).2
  unreceived := classifyInput_unreceived hclassify
  capability _ := classifyInput_capability hclassify
  succeeds _ := classifyInput_new hclassify
  retry _ _ := validatePendingRetry_ok hretry

end Distributed.InMemoryRepo
