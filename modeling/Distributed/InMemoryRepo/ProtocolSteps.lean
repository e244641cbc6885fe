import Distributed.InMemoryRepo.ProjectionSpec
import Distributed.InMemoryRepo.StagedLog

/-! How each projection operation changes the protocol state.
-/

namespace Distributed.InMemoryRepo

open Distributed.Foundation Distributed.Platform Distributed.ProjectionProtocol

open Distributed.Table InMemoryProjectionProtocolState

--------------------
-- One partition
--------------------

/-- The partition an operation starts from: the stored one, or a new one. -/
def Opens (protocol : InMemoryProjectionProtocolState) (key : PartitionKey)
    (base : PartitionState) : Prop :=
  protocol.partitions.lookup key = some base
    ∨ protocol.partitions.lookup key = none ∧ base = .new base.changeEpoch

/-- A partition after automatic retention. -/
def Retains (state final : PartitionState) : Prop :=
  final = state
    ∨ ∃ through, state.compactedThrough < through ∧ through ≤ state.changeHead
      ∧ final = state.compacted through

theorem InMemoryProjectionProtocolState.Compacts.writes {key : PartitionKey}
    {protocol next : InMemoryProjectionProtocolState} {state : PartitionState}
    (hstate : protocol.partitions.lookup key = some state)
    (h : Compacts key protocol state next)
    : ∃ final, Retains state final ∧ WritesPartition protocol next key final
      ∧ next = { protocol with partitions := next.partitions } := by
  cases h with
  | already => exact ⟨state, .inl rfl, .self hstate, rfl⟩
  | dropped hnew hhead =>
      exact ⟨_, .inr ⟨_, hnew, hhead, rfl⟩, fun other => Map.lookup_insert_eq _ _ _ _, rfl⟩

/-- Lineages are only added, and a partition that is opened gets its first. -/
structure KeepsLineage (key : PartitionKey) (before after : InMemoryProjectionProtocolState)
    : Prop where
  kept : ∀ lineage, before.generations.contains lineage = true →
    after.generations.contains lineage = true
  opened : before.partitions.lookup key = none →
    after.generations.contains ⟨key, .initial⟩ = true

theorem KeepsLineage.of_opens {key : PartitionKey} {changeEpoch : ProjectionEpoch}
    {protocol opened next : InMemoryProjectionProtocolState}
    (h : protocol.ensurePartition key changeEpoch = .ok opened)
    (hsame : next.generations = opened.generations)
    : KeepsLineage key protocol next := by
  obtain ⟨base, -, -, ⟨hknown, rfl⟩ | ⟨-, -, rfl⟩⟩ := ensurePartition_ok h
  · exact ⟨fun _ hkept => hsame ▸ hkept, fun hunknown => by cases hknown.symm.trans hunknown⟩
  · constructor
    · intro lineage hkept
      rw [hsame]
      exact Map.contains_insert hkept
    · intro _
      rw [hsame]
      simp [Map.contains]

theorem ensurePartition_writes {key : PartitionKey} {changeEpoch : ProjectionEpoch}
    {protocol next : InMemoryProjectionProtocolState}
    (h : protocol.ensurePartition key changeEpoch = .ok next)
    : ∃ base, Opens protocol key base ∧ base.changeEpoch = changeEpoch
      ∧ WritesPartition protocol next key base
      ∧ next = { protocol with
        partitions := next.partitions
        generations := next.generations } := by
  obtain ⟨base, hepoch, hlookup, ⟨hknown, rfl⟩ | ⟨hunknown, hnew, rfl⟩⟩ := ensurePartition_ok h
  · exact ⟨base, .inl hknown, hepoch, .self hknown, rfl⟩
  · refine ⟨base, .inr ⟨hunknown, ?_⟩, hepoch, fun other => Map.lookup_insert_eq _ _ _ _, rfl⟩
    rw [hepoch, hnew]

/-- The operation appended `changes` to the partition, left it stopped or not, and touched
no record or observation of another partition. -/
structure LogEffect (key : PartitionKey) (changeEpoch : ProjectionEpoch)
    (before after : InMemoryProjectionProtocolState) (changes : List ProjectionChange)
    (stopped : Option String) : Prop where
  partition : ∃ base final, Opens before key base ∧ base.changeEpoch = changeEpoch
    ∧ Follows key base changes
    ∧ Retains { base.extended changes with
        stoppedFailureId := stopped
        pendingRetryFailureId := none } final
    ∧ WritesPartition before after key final
  records : ∀ scope, PartitionKey.ofScope scope ≠ key →
    after.records.lookup scope = before.records.lookup scope
  observations : ∀ observed : ObservationKey, PartitionKey.ofScope observed.scope ≠ key →
    after.observations.lookup observed = before.observations.lookup observed
  lineage : KeepsLineage key before after
  topologies : after.registeredTopologies = before.registeredTopologies
  models : after.registeredModels = before.registeredModels
  owners : after.authoritativeTableOwners = before.authoritativeTableOwners

theorem PartitionState.extended_flags (state : PartitionState)
    (changes : List ProjectionChange)
    : (state.extended changes).stoppedFailureId = state.stoppedFailureId
      ∧ (state.extended changes).pendingRetryFailureId = state.pendingRetryFailureId
      ∧ (state.extended changes).activeGeneration = state.activeGeneration
      ∧ (state.extended changes).changeEpoch = state.changeEpoch
      ∧ (state.extended changes).compactedThrough = state.compactedThrough := by
  induction changes generalizing state with
  | nil => simp [extended]
  | cons change changes ih => exact ih (state.appended change)

theorem PartitionState.running_eq {state : PartitionState}
    (hstopped : state.stoppedFailureId = none) (hpending : state.pendingRetryFailureId = none)
    : { state with stoppedFailureId := none, pendingRetryFailureId := none } = state := by
  cases state
  cases hstopped
  cases hpending
  rfl

--------------------
-- Asynchronous commit
--------------------

section Commit

variable {crates : Crates} {retention : ProjectionChangeRetention} {rows : RelationalRows}
  {protocol next : InMemoryProjectionProtocolState} {batch : ProjectionCommitBatch}

/-- The parts of a staged commit. -/
structure CommitStaged (crates : Crates) (retention : ProjectionChangeRetention)
    (rows : RelationalRows) (protocol : InMemoryProjectionProtocolState)
    (batch : ProjectionCommitBatch) (result : ProjectionCommitResult)
    (touched : List String) (stagedRows : RelationalRows)
    (next opened bound : InMemoryProjectionProtocolState) (staged final : StagedCommit)
    (checkpoint : ProjectionCheckpoint) : Prop where
  opens : protocol.ensurePartition (.fromInput batch.input.cursor) batch.changeEpoch
    = .ok opened
  binds : (opened.registerGapFree batch.input).registerOwnership
    (.fromInput batch.input.cursor) batch = .ok bound
  touches : collectLockKeys crates [] batch.mutations = .ok touched
  stages : batch.mutations.foldlM
    (stageMutation crates batch.input (stageRows rows touched)) { protocol := bound }
      = .ok staged
  writes : applyReadModelWritePlan crates
    (batch.mutations.map ProjectionRecordMutation.mutation) (stageRows rows touched)
      = .ok stagedRows
  present : ∀ mutation ∈ batch.mutations, requireRowAfter crates stagedRows mutation = .ok ()
  observes : ∃ observed,
    batch.observations.foldlM (stageObservation batch.input) staged = .ok observed
      ∧ stageCheckpointChange batch.input observed = .ok final
  checkpointed : ∃ last, final.changes.getLast? = some last
    ∧ ProjectionCheckpoint.new batch.input.cursor last.cursor batch.input.gapFree
      = .ok checkpoint
  answers : result = ⟨.applied, some checkpoint, final.records, final.changes⟩
  retains : (recordAppliedInput batch.input checkpoint final.protocol).retainChangeSuffix
    (.fromInput batch.input.cursor) retention = .ok next

theorem stageProjectionCommit_ok {result : ProjectionCommitResult} {touched : List String}
    {stagedRows : RelationalRows}
    (h : stageProjectionCommit crates retention rows protocol batch
      = .ok (result, touched, stagedRows, next))
    : ∃ opened bound staged final checkpoint,
      CommitStaged crates retention rows protocol batch result touched stagedRows next opened
        bound staged final checkpoint := by
  simp only [stageProjectionCommit, Result.bind_eq_ok_iff, liftTable, liftValidation,
    Result.mapError_eq_ok_iff] at h
  obtain ⟨opened, hopened, bound, hbound, keys, hkeys, staged, hstaged, written, hwritten, _,
    hpresent, observed, hobserved, final, hfinal, h⟩ := h
  split at h
  · rename_i last hlast
    simp only [Result.bind_eq_ok_iff, Result.mapError_eq_ok_iff] at h
    obtain ⟨checkpoint, hcheckpoint, retained, hretained, h⟩ := h
    cases h
    exact ⟨opened, bound, staged, final, checkpoint, hopened, hbound, hkeys, hstaged, hwritten,
      Result.forM_eq_ok_iff.mp hpresent, ⟨observed, hobserved, hfinal⟩,
      ⟨last, hlast, hcheckpoint⟩, rfl, hretained⟩
  · cases h

/-- A commit's mutations, observations and checkpoint only extend its partition. -/
theorem CommitStaged.collected {result : ProjectionCommitResult} {touched : List String}
    {stagedRows : RelationalRows} {opened bound : InMemoryProjectionProtocolState}
    {staged final : StagedCommit} {checkpoint : ProjectionCheckpoint}
    (h : CommitStaged crates retention rows protocol batch result touched stagedRows next opened
      bound staged final checkpoint)
    (hvalid : batch.Valid) {base : PartitionState}
    (hbase : bound.partitions.lookup (.fromInput batch.input.cursor) = some base)
    : Collected (.fromInput batch.input.cursor) { protocol := bound } final := by
  have hscope : ∀ scope, InPartition batch.input.cursor.topology
      batch.input.cursor.projectionPartition scope →
      PartitionKey.ofScope scope = .fromInput batch.input.cursor := by
    rintro scope ⟨htopology, hpartition⟩
    rw [PartitionKey.ofScope, PartitionKey.fromInput, htopology, hpartition]
  have hmutations := foldlM_collected ⟨base, hbase⟩
    (fun _ mutation _ hmem _ hrun =>
      stageMutation_collected (hscope _ (hvalid.mutations mutation hmem)) hrun) h.stages
  obtain ⟨observed, hobserved, hfinal⟩ := h.observes
  have hobservations := foldlM_collected hmutations.hasPartition
    (fun _ request _ hmem hpartition hrun =>
      stageObservation_collected hpartition
        (hscope _ (hvalid.observations request hmem)) hrun) hobserved
  have hcollected := hmutations.trans hobservations
  exact hcollected.trans (stageCheckpointChange_collected hcollected.hasPartition hfinal)

/-- The receipt of an applied input. -/
def AppliedInputReceipt.ofInput (input : TrustedProjectionInput)
    (checkpoint : ProjectionCheckpoint) : AppliedInputReceipt where
  fingerprint := input.fingerprint
  messageId := input.messageId
  causationId := input.causationId
  gapFree := input.gapFree
  checkpoint

/-- What a commit that applied its input changed. -/
structure AppliedEffect (batch : ProjectionCommitBatch)
    (before after : InMemoryProjectionProtocolState) (result : ProjectionCommitResult)
    : Prop where
  log : LogEffect (.fromInput batch.input.cursor) batch.changeEpoch before after
    result.changes none
  inputs : ∃ stored : StoredInput, stored.cursor = batch.input.cursor
    ∧ stored.gapFree = batch.input.gapFree
    ∧ after.inputs = before.inputs.insert (.new batch.input.cursor batch.input.generation) stored
  receipts : ∃ checkpoint, result.checkpoint = some checkpoint
    ∧ after.appliedReceipts = before.appliedReceipts.insert
      (.new batch.input.cursor batch.input.generation) (.ofInput batch.input checkpoint)
  identities : after.inputIdentities = (before.persistInputIdentity batch.input).inputIdentities
  messages : after.messages = (before.persistInputIdentity batch.input).messages
  capabilities : after.gapFreeCapabilities
    = (before.registerGapFree batch.input).gapFreeCapabilities
  failures : after.failures = before.failures
  failureInputs : after.failureInputs = before.failureInputs

theorem recordAppliedInput_writes {input : TrustedProjectionInput}
    {checkpoint : ProjectionCheckpoint} {state : PartitionState}
    (hstate : protocol.partitions.lookup (.fromInput input.cursor) = some state)
    : WritesPartition protocol (recordAppliedInput input checkpoint protocol)
        (.fromInput input.cursor) { state with pendingRetryFailureId := none } := by
  intro other
  simp only [recordAppliedInput, persistInputIdentity, hstate]
  exact Map.lookup_insert_eq _ _ _ _

theorem CommitStaged.effect {result : ProjectionCommitResult} {touched : List String}
    {stagedRows : RelationalRows} {opened bound : InMemoryProjectionProtocolState}
    {staged final : StagedCommit} {checkpoint : ProjectionCheckpoint}
    (h : CommitStaged crates retention rows protocol batch result touched stagedRows next opened
      bound staged final checkpoint)
    (hvalid : batch.Valid)
    (hrunning : ∀ state, protocol.partitions.lookup (.fromInput batch.input.cursor)
      = some state → state.stoppedFailureId = none)
    : AppliedEffect batch protocol next result := by
  obtain ⟨base, hopens, hepoch, hopened, hopenedRest⟩ := ensurePartition_writes h.opens
  obtain ⟨-, -, ownership, hbound⟩ := registerOwnership_ok h.binds
  have hpartitions : bound.partitions = opened.partitions := by rw [hbound]; rfl
  have hbase : bound.partitions.lookup (.fromInput batch.input.cursor) = some base := by
    rw [hpartitions]
    exact hopened.lookup_self
  obtain ⟨changes, hchanges, hstages⟩ := h.collected hvalid hbase
  obtain ⟨state, hstate, hfollows, hextended⟩ := hstages.log
  cases hstate.symm.trans hbase
  obtain ⟨marked, hmarked, hcompacts⟩ := retainChangeSuffix_ok h.retains
  have hrecorded : WritesPartition final.protocol
      (recordAppliedInput batch.input checkpoint final.protocol) _ _ :=
    recordAppliedInput_writes hextended.lookup_self
  cases hmarked.symm.trans hrecorded.lookup_self
  obtain ⟨retained, hretains, hwrites, hnext⟩ := hcompacts.writes hmarked
  have hstopped : (base.extended changes).stoppedFailureId = none := by
    rw [(base.extended_flags changes).1]
    rcases hopens with hknown | ⟨-, hnew⟩
    · exact hrunning base hknown
    · rw [hnew]
      rfl
  have hlog : WritesPartition opened final.protocol _ _ := fun other => by
    rw [hextended other, hpartitions]
  have hresult : result.changes = changes := by rw [h.answers]; exact hchanges
  have hlineage : KeepsLineage (.fromInput batch.input.cursor) protocol next := by
    refine .of_opens h.opens ?_
    rw [hnext, recordAppliedInput, persistInputIdentity, hstages.rest, hbound]
    rfl
  -- Every field a commit leaves alone is carried through the four stages in turn.
  have hunchanged : final.protocol = { protocol with
      partitions := final.protocol.partitions
      generations := final.protocol.generations
      gapFreeCapabilities := (protocol.registerGapFree batch.input).gapFreeCapabilities
      ownership := final.protocol.ownership
      records := final.protocol.records
      observations := final.protocol.observations } := by
    rw [hstages.rest, hbound, hopenedRest]
    rfl
  refine ⟨⟨⟨base, retained, hopens, hepoch, hresult.symm ▸ hfollows, ?_,
    ((hopened.trans hlog).trans hrecorded).trans hwrites⟩, fun scope hscope => ?_,
    fun observed hobserved => ?_, hlineage, ?_, ?_, ?_⟩, ⟨{
      cursor := batch.input.cursor
      fingerprint := batch.input.fingerprint
      messageId := batch.input.messageId
      causationId := batch.input.causationId
      checkpoint
      gapFree := batch.input.gapFree }, rfl, rfl, ?_⟩,
    ⟨checkpoint, by rw [h.answers], ?_⟩, ?_, ?_, ?_, ?_, ?_⟩
  · rw [hstopped] at hretains
    rw [hresult]
    exact hretains
  · rw [hnext]
    refine (hstages.records scope hscope).trans ?_
    rw [hbound, hopenedRest]
    rfl
  · rw [hnext]
    refine (hstages.observations observed hobserved).trans ?_
    rw [hbound, hopenedRest]
    rfl
  all_goals
    rw [hnext, hunchanged]
    rfl

end Commit

--------------------
-- Failures
--------------------

section Failure

variable {retention : ProjectionChangeRetention}
  {protocol next : InMemoryProjectionProtocolState} {batch : ProjectionFailureBatch}

/-- What a newly recorded failure changed. -/
structure FailedEffect (batch : ProjectionFailureBatch)
    (before after : InMemoryProjectionProtocolState) (change : ProjectionChange)
    (failure : ProjectionFailure) : Prop where
  log : LogEffect (.fromInput batch.input.cursor) batch.changeEpoch before after [change]
    (some batch.failureId)
  records : after.records = before.records
  observations : after.observations = before.observations
  inputs : after.inputs = before.inputs
  receipts : after.appliedReceipts = before.appliedReceipts
  identities : after.inputIdentities = (before.persistInputIdentity batch.input).inputIdentities
  messages : after.messages = (before.persistInputIdentity batch.input).messages
  capabilities : after.gapFreeCapabilities
    = (before.registerGapFree batch.input).gapFreeCapabilities
  failures : after.failures = before.failures.insert batch.failureId failure
  failureInputs : after.failureInputs
    = before.failureInputs.insert batch.failureId (.fromInput batch.input)

theorem recordFailedInput_writes (failure : ProjectionFailure) {state : PartitionState}
    (hstate : protocol.partitions.lookup (.fromInput batch.input.cursor) = some state)
    : WritesPartition protocol (recordFailedInput batch failure protocol)
        (.fromInput batch.input.cursor)
        { state with
          stoppedFailureId := some batch.failureId
          pendingRetryFailureId := none } := by
  intro other
  simp only [recordFailedInput, persistInputIdentity, hstate]
  exact Map.lookup_insert_eq _ _ _ _

/-- The failure a batch stores, announced by the change under the cursor. -/
def failureAt (batch : ProjectionFailureBatch)
    (change : ProjectionChangeCursor) : ProjectionFailure where
  failureId := batch.failureId
  input := batch.input.cursor
  inputFingerprint := batch.input.fingerprint
  messageId := batch.input.messageId
  causationId := batch.input.causationId
  generation := batch.input.generation
  gapFree := batch.input.gapFree
  failureCode := batch.failureCode
  failureBytes := batch.failureBytes
  failureDigest := batch.failureDigest
  change

/-- The parts of a staged failure. -/
structure FailureStaged (retention : ProjectionChangeRetention)
    (protocol : InMemoryProjectionProtocolState) (batch : ProjectionFailureBatch)
    (failure : ProjectionFailure) (next opened logged : InMemoryProjectionProtocolState)
    (change : ProjectionChange) : Prop where
  opens : protocol.ensurePartition (.fromInput batch.input.cursor) batch.changeEpoch
    = .ok opened
  appends : (opened.registerGapFree batch.input).appendChange (.fromInput batch.input.cursor) {
    kind := .failure
    causationId := batch.input.causationId
    failureId := some batch.failureId } = .ok (change, logged)
  answers : failure = failureAt batch change.cursor
  retains : (recordFailedInput batch failure logged).retainChangeSuffix
    (.fromInput batch.input.cursor) retention = .ok next

theorem stageProjectionFailure_parts {failure : ProjectionFailure}
    (h : stageProjectionFailure retention protocol batch = .ok (failure, next))
    : ∃ opened logged change,
      FailureStaged retention protocol batch failure next opened logged change := by
  simp only [stageProjectionFailure, Result.bind_eq_ok_iff] at h
  obtain ⟨opened, hopen, ⟨change, logged⟩, happend, retained, hretain, h⟩ := h
  cases h
  exact ⟨opened, logged, change, hopen, happend, rfl, hretain⟩

theorem FailureStaged.effect {failure : ProjectionFailure}
    {opened logged : InMemoryProjectionProtocolState} {change : ProjectionChange}
    (h : FailureStaged retention protocol batch failure next opened logged change)
    : FailedEffect batch protocol next change failure := by
  obtain ⟨hopen, happend, -, hretain⟩ := h
  obtain ⟨base, hopens, hepoch, hopened, hopenedRest⟩ := ensurePartition_writes hopen
  have hstages := appendChange_stages happend
  obtain ⟨state, hstate, hfollows, hextended⟩ := hstages.log
  cases hstate.symm.trans hopened.lookup_self
  obtain ⟨marked, hmarked, hcompacts⟩ := retainChangeSuffix_ok hretain
  cases hmarked.symm.trans (recordFailedInput_writes _ hextended.lookup_self).lookup_self
  obtain ⟨final, hretains, hwrites, hnext⟩ := hcompacts.writes hmarked
  have hlog : WritesPartition opened logged _ _ := hextended
  have hunchanged : logged = { protocol with
      partitions := logged.partitions
      generations := logged.generations
      gapFreeCapabilities :=
        (protocol.registerGapFree batch.input).gapFreeCapabilities } := by
    obtain ⟨_, -, -, -, hlogged⟩ := appendChange_ok happend
    rw [hlogged, hopenedRest]
    rfl
  have hlineage : KeepsLineage (.fromInput batch.input.cursor) protocol next := by
    refine .of_opens hopen ?_
    obtain ⟨_, -, -, -, hlogged⟩ := appendChange_ok happend
    rw [hnext, recordFailedInput, persistInputIdentity, hlogged]
    rfl
  refine ⟨⟨⟨base, final, hopens, hepoch, hfollows, hretains,
    ((hopened.trans hlog).trans (recordFailedInput_writes _ hextended.lookup_self)).trans
      hwrites⟩, fun scope _ => ?_, fun observed _ => ?_, hlineage, ?_, ?_, ?_⟩,
    ?_, ?_, ?_, ?_, ?_, ?_, ?_, ?_, ?_⟩
  all_goals
    rw [hnext, hunchanged]
    rfl

theorem stageProjectionFailure_ok {failure : ProjectionFailure}
    (h : stageProjectionFailure retention protocol batch = .ok (failure, next))
    : ∃ change, FailedEffect batch protocol next change failure := by
  obtain ⟨opened, logged, change, hstaged⟩ := stageProjectionFailure_parts h
  exact ⟨change, hstaged.effect⟩

end Failure

--------------------
-- Repair
--------------------

section Repair

variable {protocol next : InMemoryProjectionProtocolState} {key : PartitionKey}
  {failureId : String}

theorem requireRepairable_ok {state : PartitionState}
    (h : requireRepairable protocol key failureId = .ok state)
    : protocol.partitions.lookup key = some state ∧ state.stoppedFailureId = some failureId
      ∧ ∃ fence, protocol.failureInputs.lookup failureId = some fence := by
  unfold requireRepairable at h
  cases hstate : protocol.partitions.lookup key with
  | none => simp [hstate] at h
  | some stored =>
      cases hstopped : stored.stoppedFailureId with
      | none => simp [hstate, hstopped] at h
      | some stopped =>
          simp only [hstate, hstopped, Result.error_bind, Result.guard_eq_ok_iff, not_not] at h
          obtain ⟨rfl, h⟩ := h
          cases hfailure : protocol.failures.lookup stopped with
          | none => simp [hfailure] at h
          | some failure =>
              simp only [hfailure, Result.guard_eq_ok_iff] at h
              obtain ⟨-, -, h⟩ := h
              cases hfence : protocol.failureInputs.lookup stopped with
              | none => simp [hfence] at h
              | some fence =>
                  simp only [hfence, Result.guard_eq_ok_iff] at h
                  obtain ⟨-, h⟩ := h
                  cases h
                  exact ⟨rfl, hstopped, fence, rfl⟩

/-- What a repair changed: the partition goes on in its next generation, with the inputs of
the last one, and waits for the failed input. -/
structure RepairEffect (key : PartitionKey) (failureId : String)
    (before after : InMemoryProjectionProtocolState) (state : PartitionState)
    (generation : ProjectionGeneration) : Prop where
  known : before.partitions.lookup key = some state
  stopped : state.stoppedFailureId = some failureId
  fenced : ∃ fence, before.failureInputs.lookup failureId = some fence
  generation_eq : generation.value = state.activeGeneration.value + 1
  lineage : KeepsLineage key before after
  after_eq : after = { before with
    inputs := before.inputs.insertAll
      (copiedInputs before key state.activeGeneration generation)
    generations := after.generations
    partitions := before.partitions.insert key {
      state with
      activeGeneration := generation
      stoppedFailureId := none
      pendingRetryFailureId := some failureId } }

theorem RepairEffect.writes {before after : InMemoryProjectionProtocolState}
    {state : PartitionState} {generation : ProjectionGeneration}
    (h : RepairEffect key failureId before after state generation)
    : WritesPartition before after key {
        state with
        activeGeneration := generation
        stoppedFailureId := none
        pendingRetryFailureId := some failureId } := by
  intro other
  rw [h.after_eq]
  exact Map.lookup_insert_eq _ _ _ _

theorem stageRepair_ok {generation : ProjectionGeneration}
    (h : stageRepair protocol key failureId = .ok (generation, next))
    : ∃ state, RepairEffect key failureId protocol next state generation := by
  simp only [stageRepair, Result.bind_eq_ok_iff, Result.error_bind,
    Result.guard_eq_ok_iff] at h
  obtain ⟨state, hrepairable, following, hfollowing, -, -, h⟩ := h
  cases h
  obtain ⟨hknown, hstopped, hfence⟩ := requireRepairable_ok hrepairable
  exact ⟨state, hknown, hstopped, hfence, ProjectionGeneration.checkedNext_ok hfollowing,
    ⟨fun _ => Map.contains_insert, fun hunknown => by cases hknown.symm.trans hunknown⟩, rfl⟩

end Repair

--------------------
-- Same-transaction projection
--------------------

section Direct

variable {crates : Crates} {retention : ProjectionChangeRetention}
  {rows stagedRows : RelationalRows} {protocol next : InMemoryProjectionProtocolState}
  {batch : SameTransactionProjectionBatch}

/-- The partition a direct projection writes. -/
def directKey (batch : SameTransactionProjectionBatch) : PartitionKey :=
  ⟨batch.topology, batch.partition⟩

/-- The observation a direct projection records. -/
def directObservation (causationId : String) (metadata : ProjectionRecordMetadata)
    : ProjectionObservation :=
  ⟨causationId, .record, some metadata.revision, metadata.revision.scope, metadata.change⟩

/-- The parts of a staged direct projection. -/
structure DirectStaged (crates : Crates) (retention : ProjectionChangeRetention)
    (rows : RelationalRows) (protocol : InMemoryProjectionProtocolState)
    (batch : SameTransactionProjectionBatch) (stagedRows : RelationalRows)
    (next opened bound logged : InMemoryProjectionProtocolState)
    (declaration : ProjectionModelOwnership) (mutation : SameTransactionProjectionMutation)
    (row : TableRowMutation) (revision : RecordRevision) (change : ProjectionChange)
    : Prop where
  valid : batch.Valid declaration mutation row
  opens : protocol.ensurePartition (directKey batch) batch.changeEpoch = .ok opened
  unfenced : requireUnfencedPartition opened (directKey batch) = .ok ()
  binds : opened.registerSameTransactionOwnership (directKey batch) declaration mutation
    = .ok bound
  revises : nextDirectRevision mutation.scope (bound.records.lookup mutation.scope)
    (rows.contains (mutation.mutation.lockKey crates)) = .ok revision
  appends : bound.appendChange (directKey batch) {
    kind := .recordUpsert
    causationId := batch.causationId
    scope := some mutation.scope
    revision := some revision } = .ok (change, logged)
  available : logged.ensureLiveRecordIdentityAvailable crates ⟨revision, false, change.cursor⟩
    = .ok ()
  writes : applyReadModelWritePlan crates [mutation.mutation] rows = .ok stagedRows
  present : stagedRows.contains (mutation.mutation.lockKey crates) = true
  retains : retainChangeSuffix {
    logged with
    records := logged.records.insert mutation.scope ⟨revision, false, change.cursor⟩
    observations := logged.observations.insert ⟨batch.causationId, revision.scope, .record⟩
      (directObservation batch.causationId ⟨revision, false, change.cursor⟩) }
    (directKey batch) retention = .ok next

theorem stageDirectRecord_ok {key : PartitionKey} {causationId : String}
    {scope : ProjectionRecordScope} {rowExists : Bool} {metadata : ProjectionRecordMetadata}
    {change : ProjectionChange}
    (h : stageDirectRecord crates protocol key causationId scope rowExists
      = .ok (metadata, change, next))
    : ∃ revision logged,
      nextDirectRevision scope (protocol.records.lookup scope) rowExists = .ok revision
      ∧ protocol.appendChange key {
          kind := .recordUpsert
          causationId
          scope := some scope
          revision := some revision } = .ok (change, logged)
      ∧ metadata = ⟨revision, false, change.cursor⟩
      ∧ logged.ensureLiveRecordIdentityAvailable crates metadata = .ok ()
      ∧ next = { logged with records := logged.records.insert scope metadata } := by
  simp only [stageDirectRecord, Result.bind_eq_ok_iff] at h
  obtain ⟨revision, hrevision, ⟨appended, logged⟩, happend, _, havailable, h⟩ := h
  cases h
  exact ⟨revision, logged, hrevision, happend, rfl, havailable, rfl⟩

/-- The parts of a direct projection, the observation it was the first to make and the
evidence it answers with. -/
theorem stageSameTransactionProjection_parts {evidence : SameTransactionProjectionEvidence}
    (h : stageSameTransactionProjection crates protocol rows batch retention
      = .ok (evidence, next, stagedRows))
    : ∃ opened bound logged declaration mutation row revision change,
      DirectStaged crates retention rows protocol batch stagedRows next opened bound logged
        declaration mutation row revision change
      ∧ logged.observations.contains ⟨batch.causationId, revision.scope, .record⟩ = false
      ∧ evidence = ⟨[⟨revision, false, change.cursor⟩], [change],
        [directObservation batch.causationId ⟨revision, false, change.cursor⟩]⟩ := by
  simp only [stageSameTransactionProjection, Result.bind_eq_ok_iff, liftTable] at h
  obtain ⟨_, hvalid, _, -, opened, hopened, _, hunfenced, h⟩ := h
  obtain ⟨declaration, mutation, row, hbatch⟩ := SameTransactionProjectionBatch.validate_ok hvalid
  simp only [hbatch.ownership, hbatch.mutations, Result.bind_eq_ok_iff, Result.error_bind,
    Result.guard_eq_ok_iff, Result.mapError_eq_ok_iff] at h
  obtain ⟨bound, hbound, ⟨metadata, change, recorded⟩, hrecord, written, hwritten, hpresent,
    ⟨observation, observed⟩, hobserve, retained, hretained, h⟩ := h
  cases h
  obtain ⟨revision, logged, hrevision, happend, rfl, havailable, rfl⟩ :=
    stageDirectRecord_ok hrecord
  simp only [stageDirectObservation, Result.error_bind, Result.guard_eq_ok_iff] at hobserve
  obtain ⟨hfresh, hobserve⟩ := hobserve
  cases hobserve
  exact ⟨opened, bound, logged, declaration, mutation, row, revision, change,
    ⟨hbatch, hopened, hunfenced, hbound, hrevision, happend, havailable, hwritten,
      by simpa using hpresent, hretained⟩, by simpa using hfresh, rfl⟩

theorem stageSameTransactionProjection_ok {evidence : SameTransactionProjectionEvidence}
    (h : stageSameTransactionProjection crates protocol rows batch retention
      = .ok (evidence, next, stagedRows))
    : ∃ opened bound logged declaration mutation row revision change,
      DirectStaged crates retention rows protocol batch stagedRows next opened bound logged
        declaration mutation row revision change := by
  obtain ⟨opened, bound, logged, declaration, mutation, row, revision, change, hstaged, -⟩ :=
    stageSameTransactionProjection_parts h
  exact ⟨opened, bound, logged, declaration, mutation, row, revision, change, hstaged⟩

theorem requireUnfencedPartition_ok {key : PartitionKey} {state : PartitionState}
    (h : requireUnfencedPartition protocol key = .ok ())
    (hstate : protocol.partitions.lookup key = some state)
    : state.stoppedFailureId = none ∧ state.pendingRetryFailureId = none := by
  unfold requireUnfencedPartition at h
  cases hstopped : state.stoppedFailureId with
  | some failureId => simp [hstate, hstopped] at h
  | none => simpa [hstate, hstopped] using h

theorem nextDirectRevision_scope {scope : ProjectionRecordScope}
    {current : Option ProjectionRecordMetadata} {rowExists : Bool} {revision : RecordRevision}
    (h : nextDirectRevision scope current rowExists = .ok revision)
    : revision.scope = scope := by
  cases current with
  | none =>
      simp only [nextDirectRevision, Result.guard_eq_ok_iff, liftValidation,
        Result.mapError_eq_ok_iff] at h
      exact (RecordRevision.new_ok h.2).1
  | some metadata =>
      simp only [nextDirectRevision, Result.guard_eq_ok_iff, Result.bind_eq_ok_iff,
        liftValidation, Result.mapError_eq_ok_iff] at h
      obtain ⟨-, -, following, -, h⟩ := h
      exact (RecordRevision.new_ok h).1

/-- What a direct projection changed. -/
structure DirectEffect (batch : SameTransactionProjectionBatch)
    (mutation : SameTransactionProjectionMutation)
    (before after : InMemoryProjectionProtocolState) (change : ProjectionChange)
    (metadata : ProjectionRecordMetadata) : Prop where
  log : LogEffect (directKey batch) batch.changeEpoch before after [change] none
  unfenced : ∀ state, before.partitions.lookup (directKey batch) = some state →
    state.stoppedFailureId = none ∧ state.pendingRetryFailureId = none
  scope : metadata.revision.scope = mutation.scope
  live : metadata.tombstone = false
  records : after.records = before.records.insert mutation.scope metadata
  observations : after.observations = before.observations.insert
    ⟨batch.causationId, mutation.scope, .record⟩
    (directObservation batch.causationId metadata)
  inputs : after.inputs = before.inputs
  receipts : after.appliedReceipts = before.appliedReceipts
  identities : after.inputIdentities = before.inputIdentities
  messages : after.messages = before.messages
  capabilities : after.gapFreeCapabilities = before.gapFreeCapabilities
  failures : after.failures = before.failures
  failureInputs : after.failureInputs = before.failureInputs

theorem DirectStaged.effect {opened bound logged : InMemoryProjectionProtocolState}
    {declaration : ProjectionModelOwnership} {mutation : SameTransactionProjectionMutation}
    {row : TableRowMutation} {revision : RecordRevision} {change : ProjectionChange}
    (h : DirectStaged crates retention rows protocol batch stagedRows next opened bound logged
      declaration mutation row revision change)
    : DirectEffect batch mutation protocol next change ⟨revision, false, change.cursor⟩ := by
  obtain ⟨base, hopens, hepoch, hopened, hopenedRest⟩ := ensurePartition_writes h.opens
  obtain ⟨hstopped, hpending⟩ := requireUnfencedPartition_ok h.unfenced hopened.lookup_self
  obtain ⟨-, hbound⟩ := registerSameTransactionOwnership_ok h.binds
  have hstages := appendChange_stages h.appends
  obtain ⟨state, hstate, hfollows, hextended⟩ := hstages.log
  have hpartitions : bound.partitions = opened.partitions := by rw [hbound]
  cases (hpartitions ▸ hstate).symm.trans hopened.lookup_self
  obtain ⟨marked, hmarked, hcompacts⟩ := retainChangeSuffix_ok h.retains
  cases hmarked.symm.trans hextended.lookup_self
  obtain ⟨final, hretains, hwrites, hnext⟩ := hcompacts.writes hmarked
  have hlog : WritesPartition opened logged _ _ := fun other => by
    rw [hextended other, hpartitions]
  have hscope := nextDirectRevision_scope h.revises
  have hkey : PartitionKey.ofScope mutation.scope = directKey batch := by
    obtain ⟨htopology, hpartition⟩ := h.valid.scope
    rw [PartitionKey.ofScope, directKey, htopology, hpartition]
  have hunchanged : logged = { protocol with
      partitions := logged.partitions
      generations := logged.generations
      ownership := logged.ownership } := by
    obtain ⟨_, -, -, -, hlogged⟩ := appendChange_ok h.appends
    rw [hlogged, hbound, hopenedRest]
  have hrecords : next.records
      = protocol.records.insert mutation.scope ⟨revision, false, change.cursor⟩ := by
    rw [hnext, hunchanged]
  have hobservations : next.observations = protocol.observations.insert
      ⟨batch.causationId, mutation.scope, .record⟩
      (directObservation batch.causationId ⟨revision, false, change.cursor⟩) := by
    rw [hnext, hunchanged, hscope]
  have hflags := base.extended_flags [change]
  have hrunning := PartitionState.running_eq (hflags.1.trans hstopped)
    (hflags.2.1.trans hpending)
  have hlineage : KeepsLineage (directKey batch) protocol next := by
    refine .of_opens h.opens ?_
    obtain ⟨_, -, -, -, hlogged⟩ := appendChange_ok h.appends
    rw [hnext, hlogged, hbound]
  refine ⟨⟨⟨base, final, hopens, hepoch, hfollows, hrunning.symm ▸ hretains,
    (hopened.trans hlog).trans hwrites⟩, fun scope hother => ?_, fun observed hother => ?_,
    hlineage, ?_, ?_, ?_⟩,
    fun state hknown => ?_, hscope, rfl, hrecords, hobservations, ?_, ?_, ?_, ?_, ?_, ?_, ?_⟩
  · rw [hrecords, Map.lookup_insert_eq, if_neg]
    rintro rfl
    exact hother hkey
  · rw [hobservations, Map.lookup_insert_eq, if_neg]
    rintro rfl
    exact hother hkey
  · rw [hnext, hunchanged]
  · rw [hnext, hunchanged]
  · rw [hnext, hunchanged]
  · rcases hopens with hbase | ⟨hunknown, -⟩
    · cases hknown.symm.trans hbase
      exact ⟨hstopped, hpending⟩
    · cases hknown.symm.trans hunknown
  all_goals rw [hnext, hunchanged]

end Direct

end Distributed.InMemoryRepo
