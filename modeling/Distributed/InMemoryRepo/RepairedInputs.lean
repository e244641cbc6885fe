import Distributed.InMemoryRepo.AnnouncedCommits
import Distributed.InMemoryRepo.RecordHistory

/-! A repair unblocks exactly the input that failed.
-/

namespace Distributed.InMemoryRepo

open Distributed.Foundation Distributed.Platform Distributed.ProjectionProtocol

open InMemoryProjectionProtocolState

/-- The failure is about the input. -/
structure IsFailureOf (input : TrustedProjectionInput) (failure : ProjectionFailure) : Prop where
  cursor : failure.input = input.cursor
  fingerprint : failure.inputFingerprint = input.fingerprint
  message : failure.messageId = input.messageId
  causation : failure.causationId = input.causationId
  gapFree : failure.gapFree = input.gapFree
  generation : failure.generation = input.generation

/-- The protocol remembers that the input failed, and it is the next one of its source. -/
structure FailedInput (protocol : InMemoryProjectionProtocolState) (failureId : String)
    (input : TrustedProjectionInput) : Prop where
  topology : input.cursor.topology ∈ protocol.registeredTopologies
  failure : ∃ failure, protocol.failures.lookup failureId = some failure
    ∧ IsFailureOf input failure
  fence : protocol.failureInputs.lookup failureId = some (.fromInput input)
  identity : protocol.inputIdentities.lookup (.new input.cursor) = some (.ofInput input)
  message : protocol.messages.lookup (.new input.cursor input.messageId)
    = some (.ofInput input)
  capability : protocol.gapFreeCapabilities.lookup (.new input.cursor) = some input.gapFree
  succeeds : ∀ previous : StoredInput,
    protocol.inputs.lookup (.new input.cursor input.generation) = some previous →
      Succeeds input.gapFree input.cursor previous.cursor

/-- A partition is stopped by an input of the generation it runs in. -/
def FailuresKept (protocol : InMemoryProjectionProtocolState) : Prop :=
  ∀ key generation failureId,
    partitionFlags? protocol key = some (generation, some failureId) →
      ∃ input, FailedInput protocol failureId input
        ∧ PartitionKey.fromInput input.cursor = key ∧ input.generation = generation

/-- An input is stored under the partition and the source of its cursor. -/
def InputsPlaced (protocol : InMemoryProjectionProtocolState) : Prop :=
  ∀ (key : InputKey) (stored : StoredInput), protocol.inputs.lookup key = some stored →
    PartitionKey.fromInput stored.cursor = key.partition ∧ stored.cursor.source = key.source

section Steps

variable {before after : InMemoryProjectionProtocolState} {failureId : String}
  {input : TrustedProjectionInput} {op : RepositoryOp} {answer : RepositoryAnswer}

theorem ProtocolStep.inputsPlaced (h : ProtocolStep before after op answer)
    (hkept : InputsKept before) (hplaced : InputsPlaced before)
    : InputsPlaced after := by
  cases h with
  | unchanged hsame _ => exact hsame ▸ hplaced
  | registered hafter _ _ => rw [hafter]; exact hplaced
  | applied _ heffect _ =>
      obtain ⟨stored, hcursor, -, hinputs⟩ := heffect.inputs
      intro key found hfound
      rw [hinputs, Map.lookup_insert_eq] at hfound
      split at hfound
      · rename_i hkey
        cases hfound
        rw [hkey, hcursor]
        exact ⟨rfl, rfl⟩
      · exact hplaced key found hfound
  | redelivered _ _ hsame => exact hsame ▸ hplaced
  | failed _ _ heffect => rw [InputsPlaced, heffect.inputs]; exact hplaced
  | repaired heffect =>
      intro key found hfound
      rw [heffect.lookup_inputs hkept] at hfound
      split at hfound
      · have hsource := hplaced _ found hfound
        exact hsource
      · exact hplaced key found hfound
  | compacted hstate hcompacts _ =>
      obtain ⟨-, -, -, hafter⟩ := hcompacts.writes hstate
      rw [hafter]
      exact hplaced
  | direct _ heffect _ => rw [InputsPlaced, heffect.inputs]; exact hplaced

/-- A recorded failure is kept with the fence of its input. -/
theorem ProtocolStep.failure_kept (h : ProtocolStep before after op answer)
    {failure : ProjectionFailure} (hfailure : before.failures.lookup failureId = some failure)
    : after.failures.lookup failureId = some failure
      ∧ after.failureInputs.lookup failureId = before.failureInputs.lookup failureId := by
  cases h with
  | unchanged hsame _ => rw [hsame]; exact ⟨hfailure, rfl⟩
  | registered hafter _ _ => rw [hafter]; exact ⟨hfailure, rfl⟩
  | applied _ heffect _ =>
      rw [heffect.failures, heffect.failureInputs]
      exact ⟨hfailure, rfl⟩
  | redelivered _ _ hsame => rw [hsame]; exact ⟨hfailure, rfl⟩
  | @failed batch _ _ _ hfresh heffect =>
      have hother : failureId ≠ batch.failureId := by
        rintro rfl
        simp [Map.contains, hfailure] at hfresh
      rw [heffect.failures, heffect.failureInputs, Map.lookup_insert_eq, if_neg hother,
        Map.lookup_insert_eq, if_neg hother]
      exact ⟨hfailure, rfl⟩
  | repaired heffect => rw [heffect.after_eq]; exact ⟨hfailure, rfl⟩
  | compacted hstate hcompacts _ =>
      obtain ⟨-, -, -, hafter⟩ := hcompacts.writes hstate
      rw [hafter]
      exact ⟨hfailure, rfl⟩
  | direct _ heffect _ =>
      rw [heffect.failures, heffect.failureInputs]
      exact ⟨hfailure, rfl⟩

/-- A failed input is remembered while the inputs of its source stay the same. -/
theorem FailedInput.step (h : FailedInput before failureId input)
    (hstep : ProtocolStep before after op answer)
    (hinputs : after.inputs.lookup (.new input.cursor input.generation)
      = before.inputs.lookup (.new input.cursor input.generation))
    : FailedInput after failureId input := by
  obtain ⟨failure, hfailure, hof⟩ := h.failure
  obtain ⟨hkept, hfence⟩ := hstep.failure_kept hfailure
  exact {
    topology := hstep.extends.topologies h.topology
    failure := ⟨failure, hkept, hof⟩
    fence := hfence.trans h.fence
    identity := hstep.extends.identities _ _ h.identity
    message := hstep.extends.messages _ _ h.message
    capability := hstep.extends.capabilities _ _ h.capability
    succeeds := hinputs ▸ h.succeeds }

theorem FailedEffect.failedInput {batch : ProjectionFailureBatch} {change : ProjectionChange}
    {failure : ProjectionFailure} (hadmitted : Admitted before batch.input)
    (h : FailedEffect batch before after change failure)
    (hof : IsFailureOf batch.input failure)
    : FailedInput after batch.failureId batch.input where
  topology := h.log.topologies ▸ hadmitted.topology
  failure := ⟨failure, by rw [h.failures, AList.lookup_insert], hof⟩
  fence := by rw [h.failureInputs, AList.lookup_insert]
  identity := by
    rw [h.identities, persistInputIdentity]
    exact Map.lookup_insert_if_new_self hadmitted.identity
  message := by
    rw [h.messages, persistInputIdentity]
    exact Map.lookup_insert_if_new_self hadmitted.message
  capability := by
    rw [h.capabilities]
    exact hadmitted.registered
  succeeds := by
    rw [h.inputs]
    exact hadmitted.succeeds

/-- The failure that is stored is about the input of its batch. -/
theorem TracedStep.isFailureOf {batch : ProjectionFailureBatch} {change : ProjectionChange}
    {failure : ProjectionFailure} {changes : List ProjectionChange}
    (htraced : TracedStep before after (.recordProjectionFailure batch) answer changes)
    (hfresh : before.failures.contains batch.failureId = false)
    (heffect : FailedEffect batch before after change failure)
    : IsFailureOf batch.input failure := by
  have hstored : after.failures.lookup batch.failureId = some failure := by
    rw [heffect.failures, AList.lookup_insert]
  cases htraced with
  | quiet _ _ hfailures _ =>
      rw [hfailures] at hstored
      simp [Map.contains, hstored] at hfresh
  | failed _ _ _ _ _ _ hfailures =>
      rw [hfailures, AList.lookup_insert] at hstored
      cases hstored
      exact ⟨rfl, rfl, rfl, rfl, rfl, rfl⟩

theorem FailuresKept.step (h : FailuresKept before) (hkept : InputsKept before)
    (hstep : ProtocolStep before after op answer) {changes : List ProjectionChange}
    (htraced : TracedStep before after op answer changes)
    : FailuresKept after := by
  intro key generation failureId hflags
  -- A partition the step did not touch was stopped before, with the same inputs.
  have hold : partitionFlags? before key = some (generation, some failureId) →
      (∀ source, after.inputs.lookup ⟨key, source, generation⟩
        = before.inputs.lookup ⟨key, source, generation⟩) →
      ∃ input, FailedInput after failureId input
        ∧ PartitionKey.fromInput input.cursor = key ∧ input.generation = generation := by
    intro hbefore hinputs
    obtain ⟨input, hfailed, rfl, rfl⟩ := h key generation failureId hbefore
    exact ⟨input, hfailed.step hstep (hinputs input.cursor.source), rfl, rfl⟩
  cases hstep with
  | unchanged hsame _ => exact hsame ▸ h key generation failureId (hsame ▸ hflags)
  | registered hafter _ _ => 
      refine hold ?_ fun source => by rw [hafter]
      rw [hafter] at hflags
      exact hflags
  | @applied batch result hadmitted heffect _ =>
      rw [heffect.log.partitionFlags] at hflags
      split at hflags
      · cases hflags
      · rename_i hother
        refine hold hflags fun source => ?_
        obtain ⟨stored, -, -, hinputs⟩ := heffect.inputs
        rw [hinputs, Map.lookup_insert_eq, if_neg]
        exact fun hkey => hother (congrArg InputKey.partition hkey)
  | redelivered _ _ hsame => exact hsame ▸ h key generation failureId (hsame ▸ hflags)
  | @failed batch change failure hadmitted hfresh heffect =>
      rw [heffect.log.partitionFlags] at hflags
      split at hflags
      · rename_i hkey
        rw [hadmitted.activeGeneration] at hflags
        cases hflags
        exact ⟨batch.input, heffect.failedInput hadmitted (htraced.isFailureOf hfresh heffect),
          hkey.symm, rfl⟩
      · exact hold hflags fun source => by rw [heffect.inputs]
  | repaired heffect =>
      rw [heffect.writes.partitionFlags] at hflags
      split at hflags
      · cases hflags
      · rename_i hother
        refine hold hflags fun source => ?_
        rw [heffect.lookup_inputs hkept, if_neg]
        exact fun hcopied => hother hcopied.1
  | compacted hstate hcompacts _ =>
      rw [hcompacts.partitionFlags hstate] at hflags
      obtain ⟨-, -, -, hafter⟩ := hcompacts.writes hstate
      exact hold hflags fun source => by rw [hafter]
  | direct _ heffect _ =>
      rw [heffect.log.partitionFlags] at hflags
      split at hflags
      · cases hflags
      · exact hold hflags fun source => by rw [heffect.inputs]

end Steps

/-- What a repair relies on. -/
structure RepairInv (crates : Crates) (repository : InMemoryRepository) : Prop where
  receipts : ReceiptsInv crates repository
  placed : InputsPlaced repository.projectionProtocol
  failures : FailuresKept repository.projectionProtocol

theorem repairInv_of_reachable {crates : Crates} {retention : ProjectionChangeRetention}
    {repository : InMemoryRepository}
    (hreach : Reachable (step crates) (OwnReceipts crates) (.new retention) repository)
    : RepairInv crates repository := by
  refine hreach.invariant ⟨receiptsInv_of_reachable .start, ?_, ?_⟩ fun state op h hown => ?_
  · intro _ _ hstored
    cases hstored
  · intro _ _ _ hflags
    cases hflags
  · have hstep := step_protocolStep crates state op
    obtain ⟨changes, htraced⟩ := step_tracedStep crates state op
    exact ⟨h.receipts.step hown, hstep.inputsPlaced h.receipts.inputs h.placed,
      h.failures.step h.receipts.inputs hstep htraced⟩

section Repair

variable {before after : InMemoryProjectionProtocolState} {key : PartitionKey}
  {failureId : String} {state : PartitionState} {generation : ProjectionGeneration}
  {input : TrustedProjectionInput}

theorem stageRepair_lineage
    (h : stageRepair before key failureId = .ok (generation, after))
    : after.generations.contains ⟨key, generation⟩ = true := by
  simp only [stageRepair, Result.bind_eq_ok_iff, Result.error_bind,
    Result.guard_eq_ok_iff] at h
  obtain ⟨state, -, following, -, -, -, h⟩ := h
  cases h
  simp [Map.contains]

/-- A stored input of the same source that an input succeeds is older than it. -/
theorem Succeeds.comparePosition {gapFree : Bool} {cursor previous : ProjectionInputCursor}
    (h : Succeeds gapFree cursor previous)
    (hpartition : PartitionKey.fromInput previous = .fromInput cursor)
    (hsource : previous.source = cursor.source)
    : cursor.comparePosition previous = .newer := by
  obtain ⟨htopology, hpartition⟩ := PartitionKey.mk.inj hpartition
  have hcompare : compare cursor.position previous.position = .gt :=
    Nat.compare_eq_gt.mpr h.newer
  simp [ProjectionInputCursor.comparePosition, htopology, hpartition, hsource, h.epoch,
    hcompare, compareOrdering]

/-- The failed input in the generation that retries it. -/
def carriedOver (input : TrustedProjectionInput) (generation : ProjectionGeneration)
    : TrustedProjectionInput :=
  { input with generation }

theorem FailedInput.validateInputIdentity (h : FailedInput before failureId input)
    : before.validateInputIdentity (carriedOver input generation) = .ok () := by
  simp [InMemoryProjectionProtocolState.validateInputIdentity, rejectReusedMessage,
    carriedOver, h.identity, h.message, InputIdentity.ofInput, MessageIdentity.ofInput]

theorem FailedInput.validateGapFree (h : FailedInput before failureId input)
    : before.validateGapFree input.cursor input.gapFree = .ok () := by
  simp [InMemoryProjectionProtocolState.validateGapFree, h.capability]

theorem FailedInput.classifyInput (h : FailedInput before failureId input)
    (hunreceived : before.appliedReceipts.lookup (.new input.cursor generation) = none)
    (hnext : ∀ previous, before.inputs.lookup (.new input.cursor generation) = some previous →
      input.cursor.comparePosition previous.cursor = .newer
        ∧ Succeeds input.gapFree input.cursor previous.cursor)
    : before.classifyInput (carriedOver input generation) = .ok .new := by
  have hidentity : before.validateInputIdentity (carriedOver input generation) = .ok () :=
    h.validateInputIdentity
  have hmessage : before.rejectReusedMessage (carriedOver input generation) = .ok () := by
    simp [rejectReusedMessage, carriedOver, h.message, MessageIdentity.ofInput]
  have hgapFree : before.validateGapFree (carriedOver input generation).cursor
      (carriedOver input generation).gapFree = .ok () := h.validateGapFree
  have hreceipt : before.appliedReceipts.lookup
      (.new (carriedOver input generation).cursor (carriedOver input generation).generation)
      = none := hunreceived
  simp only [InMemoryProjectionProtocolState.classifyInput, hgapFree, hidentity, hreceipt,
    Result.ok_bind]
  split
  · simp [hmessage]
  · rename_i previous hprevious
    obtain ⟨hnewer, hsucceeds⟩ := hnext previous hprevious
    have hcompare : (carriedOver input generation).cursor.comparePosition previous.cursor
        = .newer := hnewer
    simp only [classifyAfter, hcompare, hmessage, Result.ok_bind]
    split
    · rename_i hgap
      have hposition := hsucceeds.next hgap
      have hbound : previous.cursor.position < maxProjectionPosition := by
        have := input.cursor.position_valid
        omega
      simp [checkedNext, hbound, carriedOver, hposition]
    · rfl

/-- After the repair nothing stands before the failed input in the new generation. -/
theorem RepairEffect.pending
    (h : RepairEffect key failureId before after state generation)
    (hkept : InputsKept before) (hreceipts : ReceiptsKept before) (hplaced : InputsPlaced before)
    (hlineage : after.generations.contains ⟨key, generation⟩ = true)
    (hfailed : FailedInput before failureId input)
    (hkey : PartitionKey.fromInput input.cursor = key)
    (hgeneration : input.generation = state.activeGeneration)
    : projectionInputDisposition after (carriedOver input generation) = .ok .pending := by
  subst hkey
  have hgrows := h.generation_eq
  have hnow : FailedInput after failureId input := by
    refine hfailed.step (.repaired h) ?_
    rw [h.lookup_inputs hkept, if_neg]
    rintro ⟨-, hsame⟩
    change input.generation = generation at hsame
    rw [← hsame, hgeneration] at hgrows
    omega
  have hunreceived : after.appliedReceipts.lookup (.new input.cursor generation) = none := by
    rw [h.after_eq]
    cases hreceipt : before.appliedReceipts.lookup (.new input.cursor generation) with
    | none => rfl
    | some receipt =>
        obtain ⟨active, stopped, hflags, hle⟩ := hreceipts _ receipt hreceipt
        change partitionFlags? before (.fromInput input.cursor) = _ at hflags
        rw [partitionFlags?, h.known] at hflags
        cases hflags
        change generation.value ≤ _ at hle
        omega
  have hclassify : after.classifyInput (carriedOver input generation) = .ok .new := by
    refine hnow.classifyInput hunreceived fun previous hprevious => ?_
    rw [h.lookup_inputs hkept, if_pos ⟨rfl, rfl⟩, ← hgeneration] at hprevious
    obtain ⟨hpartition, hsource⟩ := hplaced _ previous hprevious
    have hsucceeds := hfailed.succeeds previous hprevious
    exact ⟨hsucceeds.comparePosition hpartition hsource, hsucceeds⟩
  have hstate : after.partitions.lookup (.fromInput (carriedOver input generation).cursor)
      = some { state with
          activeGeneration := generation
          stoppedFailureId := none
          pendingRetryFailureId := some failureId } :=
    h.writes.lookup_self
  have hretry : after.validatePendingRetry
      (.fromInput (carriedOver input generation).cursor) (carriedOver input generation)
      = .ok () := by
    simp only [validatePendingRetry, hstate, Option.bind_some, hnow.fence]
    simp [FailedInputFence.fromInput, FailedInputFence.matchesRetry, carriedOver]
  have htopology : after.requireRegisteredTopology
      (carriedOver input generation).cursor.topology = .ok () :=
    if_pos hnow.topology
  have hidentity : after.validateInputIdentity (carriedOver input generation) = .ok () :=
    hnow.validateInputIdentity
  have hgapFree : after.validateGapFree (carriedOver input generation).cursor
      (carriedOver input generation).gapFree = .ok () :=
    hnow.validateGapFree
  have hknown : after.validateKnownInputIdentity (carriedOver input generation) = .ok () := by
    simp [validateKnownInputIdentity, hidentity, hgapFree]
  have hreached : after.generations.contains
      ⟨.fromInput (carriedOver input generation).cursor, generation⟩ = true := hlineage
  have hactive : (carriedOver input generation).generation = generation := rfl
  simp [projectionInputDisposition, htopology, hknown, hstate, hactive, hreached, hgapFree,
    hidentity, hclassify, hretry]

/-- In every reachable state a repair leaves the failed input pending. -/
theorem RepairInv.pending {crates : Crates} {repository next : InMemoryRepository}
    {topology : ProjectorTopologyId} {partition : ProjectionPartition}
    (h : RepairInv crates repository)
    (hrepair : repairProjection topology partition failureId repository
      = (.ok generation, next))
    : ∃ failure input, repository.projectionProtocol.failures.lookup failureId = some failure
      ∧ IsFailureOf input failure
      ∧ PartitionKey.fromInput input.cursor = ⟨topology, partition⟩
      ∧ projectionInputDisposition next.projectionProtocol (carriedOver input generation)
        = .ok .pending := by
  obtain ⟨protocol, hstage, rfl⟩ := repairProjection_ok hrepair
  obtain ⟨state, heffect⟩ := stageRepair_ok hstage
  have hflags : partitionFlags? repository.projectionProtocol ⟨topology, partition⟩
      = some (state.activeGeneration, some failureId) := by
    rw [partitionFlags?, heffect.known, ← heffect.stopped]
    rfl
  obtain ⟨input, hfailed, hkey, hgeneration⟩ := h.failures _ _ _ hflags
  obtain ⟨failure, hfailure, hof⟩ := hfailed.failure
  exact ⟨failure, input, hfailure, hof, hkey,
    heffect.pending h.receipts.inputs h.receipts.receipts h.placed (stageRepair_lineage hstage)
      hfailed hkey hgeneration⟩

end Repair

/-- A repair unblocks the input that failed: in the new generation it is pending, and the
commit of a valid batch for it is never turned away. -/
theorem repair_unblocks_failed_input (crates : Crates)
    {retention : ProjectionChangeRetention} {repository next : InMemoryRepository}
    (hreach : Reachable (step crates) (OwnReceipts crates) (.new retention) repository)
    (hdigests : DistinctDigests repository.projectionProtocol)
    {topology : ProjectorTopologyId} {partition : ProjectionPartition} {failureId : String}
    {generation : ProjectionGeneration}
    (hrepair : repairProjection topology partition failureId repository
      = (.ok generation, next))
    : ∃ failure input, repository.projectionProtocol.failures.lookup failureId = some failure
      ∧ IsFailureOf input failure
      ∧ projectionInputDisposition next.projectionProtocol (carriedOver input generation)
        = .ok .pending
      ∧ ∀ batch : ProjectionCommitBatch, batch.input = carriedOver input generation →
        batch.validate crates = .ok () →
        (∀ result, (commitProjection crates batch next).1 = .ok result →
          result.outcome = .applied)
        ∧ ∀ error, (commitProjection crates batch next).1 = .error error →
          refusesInput error = false := by
  obtain ⟨failure, input, hfailure, hof, hkey, hpending⟩ :=
    (repairInv_of_reachable hreach).pending hrepair
  refine ⟨failure, input, hfailure, hof, hpending, fun batch hinput hvalid => ?_⟩
  have hnext : ReceiptsInv crates next := by
    have hstep : (step crates (.repairProjection topology partition failureId) repository).2
        = next := congrArg Prod.snd hrepair
    rw [← hstep]
    refine (receiptsInv_of_reachable hreach).step fun _ hreceipt => ?_
    cases hreceipt
  have hsame : DistinctDigests next.projectionProtocol := by
    obtain ⟨protocol, hstage, rfl⟩ := repairProjection_ok hrepair
    obtain ⟨state, heffect⟩ := stageRepair_ok hstage
    change DistinctDigests protocol
    rw [heffect.after_eq]
    exact hdigests
  rw [← hinput] at hpending
  exact hnext.unrefused hsame hvalid hpending

/-- A todo whose projection failed. -/
def todoFailure : ProjectionFailureBatch where
  input := firstTodo
  changeEpoch := todoEpoch
  failureId := "failure-1"
  failureCode := "handler"
  failureBytes := [1]
  failureDigest := ProjectionFailureBatch.fingerprintBytes nullOutcomeCrates [1]

def todoStopped : InMemoryRepository :=
  afterTodo (.recordProjectionFailure todoFailure) todoRegistered

theorem firstTodo_unblocked
    : ∃ generation next failure input,
      repairProjection todoTopology todoPartition "failure-1" todoStopped
          = (.ok generation, next)
        ∧ generation.value = 2
        ∧ IsFailureOf input failure
        ∧ projectionInputDisposition next.projectionProtocol (carriedOver input generation)
          = .ok .pending := by
  have hrepair : ∃ generation next,
      repairProjection todoTopology todoPartition "failure-1" todoStopped
          = (.ok generation, next)
        ∧ generation.value = 2 := ⟨_, _, rfl, rfl⟩
  obtain ⟨generation, next, hrepair, hvalue⟩ := hrepair
  have hreach : Reachable (step nullOutcomeCrates) (OwnReceipts nullOutcomeCrates)
      (.new defaultProjectionChangeRetention) todoStopped := by
    have hrun : todoStopped = finalState (step nullOutcomeCrates)
        (.new defaultProjectionChangeRetention)
        [.registerProjectionModels todoTopology [todoOwner],
          .recordProjectionFailure todoFailure] := rfl
    rw [hrun]
    exact reachable_of_no_receipts (by simp [receivedBy])
  have hdigests : DistinctDigests todoStopped.projectionProtocol := by
    have hone : todoStopped.projectionProtocol.registeredTopologies = {todoTopology} := rfl
    intro left hleft right hright _
    rw [hone, Finset.mem_singleton] at hleft hright
    rw [hleft, hright]
  obtain ⟨failure, input, -, hof, hpending, -⟩ :=
    repair_unblocks_failed_input nullOutcomeCrates hreach hdigests hrepair
  exact ⟨generation, next, failure, input, hrepair, hvalue, hof, hpending⟩

def secondGeneration : ProjectionGeneration := ⟨2, by decide⟩

/-- The second message, as the first input of the twin. -/
def twinSecond : TrustedProjectionInput :=
  { secondTodo with
    cursor := ⟨twinTopology, todoPartition, todoSource, todoEpoch, 1, twinPosition_valid⟩ }

def twinFailure : ProjectionFailureBatch :=
  { todoFailure with input := twinSecond, failureId := "failure-2" }

/-- The todos are repaired and go on; then the second message fails in the twin and is
repaired. -/
def twinRepairs : List RepositoryOp :=
  [.registerProjectionModels todoTopology [todoOwner],
    .registerProjectionModels twinTopology [twinOwner],
    .recordProjectionFailure todoFailure,
    .repairProjection todoTopology todoPartition "failure-1",
    .commitProjection (checkpointCommit (carriedOver firstTodo secondGeneration)),
    .commitProjection (checkpointCommit (carriedOver secondTodo secondGeneration)),
    .recordProjectionFailure twinFailure]

@[irreducible] def beforeTwinRepair : InMemoryRepository :=
  finalState (step nullOutcomeCrates) (.new defaultProjectionChangeRetention) twinRepairs

@[irreducible] def afterTwinRepair : InMemoryRepository :=
  (repairProjection twinTopology todoPartition "failure-2" beforeTwinRepair).2

def twinRetry : ProjectionCommitBatch :=
  { checkpointCommit (carriedOver twinSecond secondGeneration) with
    ownership := [twinOwner] }

theorem twinRetry_pending
    : projectionInputDisposition afterTwinRepair.projectionProtocol twinRetry.input
      = .ok .pending := by
  have hpending : (projectionInputDisposition afterTwinRepair.projectionProtocol
      twinRetry.input).toOption = some .pending := by decide +kernel
  exact Result.toOption_eq_some_iff.mp hpending

theorem twinRetry_received
    : (twinRetry.input.inboxReceipt nullOutcomeCrates).key ∈ afterTwinRepair.inboxStore := by
  decide +kernel

theorem twinRetry_epoch {state : PartitionState}
    (hstate : afterTwinRepair.projectionProtocol.partitions.lookup
      (.fromInput twinRetry.input.cursor) = some state)
    : twinRetry.changeEpoch = state.changeEpoch := by
  have hepoch : (afterTwinRepair.projectionProtocol.partitions.lookup
      (.fromInput twinRetry.input.cursor)).map PartitionState.changeEpoch
      = some twinRetry.changeEpoch := by decide +kernel
  rw [hstate, Option.map_some, Option.some_inj] at hepoch
  exact hepoch.symm

/-- The retry finds the receipt of the todo and can never be committed, and nothing else may
go before it. -/
theorem shared_digest_blocks_repaired_input
    : Reachable (step nullOutcomeCrates) (OwnReceipts nullOutcomeCrates)
        (.new defaultProjectionChangeRetention) beforeTwinRepair
      ∧ (repairProjection twinTopology todoPartition "failure-2" beforeTwinRepair).1.toOption
        = some secondGeneration
      ∧ twinRetry.validate nullOutcomeCrates = .ok ()
      ∧ projectionInputDisposition afterTwinRepair.projectionProtocol twinRetry.input
        = .ok .pending
      ∧ commitProjection nullOutcomeCrates twinRetry afterTwinRepair
        = (.error (.messageIdReuse twinRetry.input.messageId), afterTwinRepair) := by
  have hreach : Reachable (step nullOutcomeCrates) (OwnReceipts nullOutcomeCrates)
      (.new defaultProjectionChangeRetention) beforeTwinRepair := by
    unfold beforeTwinRepair
    exact reachable_of_no_receipts (by simp [twinRepairs, receivedBy])
  have hnext : Reachable (step nullOutcomeCrates) (OwnReceipts nullOutcomeCrates)
      (.new defaultProjectionChangeRetention) afterTwinRepair := by
    have hstep : ∀ repository : InMemoryRepository,
        (repairProjection twinTopology todoPartition "failure-2" repository).2
          = (step nullOutcomeCrates
            (.repairProjection twinTopology todoPartition "failure-2") repository).2 :=
      fun _ => rfl
    rw [afterTwinRepair, hstep]
    exact .next _ hreach fun _ hreceipt => by cases hreceipt
  have hvalid : twinRetry.validate nullOutcomeCrates = .ok () := rfl
  refine ⟨hreach, ?_, hvalid, twinRetry_pending, ?_⟩
  · decide +kernel
  · exact commitProjection_received hvalid (receiptsInv_of_reachable hnext).unvisited
      (fun _ => twinRetry_epoch) twinRetry_pending twinRetry_received

end Distributed.InMemoryRepo
