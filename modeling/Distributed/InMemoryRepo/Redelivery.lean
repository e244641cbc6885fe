import Distributed.InMemoryRepo.ExactlyOnce

/-! A projection input that was applied is recognised whenever it is delivered again.
-/

namespace Distributed.InMemoryRepo

open Distributed.Foundation Distributed.Platform Distributed.ProjectionProtocol

open InMemoryProjectionProtocolState

/-- Everything known of the inputs, sources and partitions of one state is known in the
other. -/
structure Extends (before after : InMemoryProjectionProtocolState) : Prop where
  topologies : before.registeredTopologies ⊆ after.registeredTopologies
  identities : ∀ key known, before.inputIdentities.lookup key = some known →
    after.inputIdentities.lookup key = some known
  messages : ∀ key known, before.messages.lookup key = some known →
    after.messages.lookup key = some known
  capabilities : ∀ key known, before.gapFreeCapabilities.lookup key = some known →
    after.gapFreeCapabilities.lookup key = some known
  receipts : ∀ key known, before.appliedReceipts.lookup key = some known →
    after.appliedReceipts.lookup key = some known
  lineages : ∀ lineage, before.generations.contains lineage = true →
    after.generations.contains lineage = true
  epochs : ∀ key state, before.partitions.lookup key = some state →
    ∃ next, after.partitions.lookup key = some next ∧ next.changeEpoch = state.changeEpoch

section Steps

variable {before after : InMemoryProjectionProtocolState} {key : PartitionKey}

theorem Extends.refl (protocol : InMemoryProjectionProtocolState)
    : Extends protocol protocol :=
  ⟨subset_refl _, fun _ _ h => h, fun _ _ h => h, fun _ _ h => h, fun _ _ h => h,
    fun _ h => h, fun _ state h => ⟨state, h, rfl⟩⟩

theorem Retains.changeEpoch {state final : PartitionState} (h : Retains state final)
    : final.changeEpoch = state.changeEpoch := by
  obtain rfl | ⟨through, -, -, rfl⟩ := h
  · rfl
  · rfl

/-- A write of one partition that keeps its epoch keeps all of them. -/
theorem WritesPartition.epochs {base final : PartitionState}
    (h : WritesPartition before after key final) (hopens : Opens before key base)
    (hepoch : final.changeEpoch = base.changeEpoch)
    : ∀ other state, before.partitions.lookup other = some state →
      ∃ next, after.partitions.lookup other = some next
        ∧ next.changeEpoch = state.changeEpoch := by
  intro other state hstate
  rw [h other]
  split
  · rename_i hother
    subst hother
    obtain hknown | ⟨hunknown, -⟩ := hopens
    · cases hstate.symm.trans hknown
      exact ⟨final, rfl, hepoch⟩
    · cases hstate.symm.trans hunknown
  · exact ⟨state, hstate, rfl⟩

theorem LogEffect.epochs {epoch : ProjectionEpoch} {changes : List ProjectionChange}
    {stopped : Option String} (h : LogEffect key epoch before after changes stopped)
    : ∀ other state, before.partitions.lookup other = some state →
      ∃ next, after.partitions.lookup other = some next
        ∧ next.changeEpoch = state.changeEpoch := by
  obtain ⟨base, final, hopens, -, -, hretains, hwrites⟩ := h.partition
  refine hwrites.epochs hopens ?_
  rw [hretains.changeEpoch]
  exact (base.extended_flags changes).2.2.2.1

/-- The partition an operation wrote has the epoch of the operation's batch. -/
theorem LogEffect.changeEpoch {epoch : ProjectionEpoch} {changes : List ProjectionChange}
    {stopped : Option String} (h : LogEffect key epoch before after changes stopped)
    : ∃ state, after.partitions.lookup key = some state ∧ state.changeEpoch = epoch := by
  obtain ⟨base, final, -, hepoch, -, hretains, hwrites⟩ := h.partition
  refine ⟨final, hwrites.lookup_self, ?_⟩
  rw [hretains.changeEpoch, ← hepoch]
  exact (base.extended_flags changes).2.2.2.1

theorem persistInputIdentity_keeps {input : TrustedProjectionInput}
    : (∀ key known, before.inputIdentities.lookup key = some known →
        (before.persistInputIdentity input).inputIdentities.lookup key = some known)
      ∧ ∀ key known, before.messages.lookup key = some known →
        (before.persistInputIdentity input).messages.lookup key = some known := by
  rw [persistInputIdentity]
  exact ⟨fun _ _ => Map.lookup_insert_if_new, fun _ _ => Map.lookup_insert_if_new⟩

theorem AppliedEffect.extends {batch : ProjectionCommitBatch} {result : ProjectionCommitResult}
    (hadmitted : Admitted before batch.input) (h : AppliedEffect batch before after result)
    : Extends before after where
  topologies := h.log.topologies ▸ subset_refl _
  identities := h.identities ▸ persistInputIdentity_keeps.1
  messages := h.messages ▸ persistInputIdentity_keeps.2
  capabilities := h.capabilities ▸ fun _ _ => registerGapFree_lookup
  receipts := by
    obtain ⟨checkpoint, -, hreceipts⟩ := h.receipts
    intro key known hknown
    rw [hreceipts, Map.lookup_insert_eq, if_neg]
    · exact hknown
    · rintro rfl
      cases hknown.symm.trans hadmitted.unreceived
  lineages := h.log.lineage.kept
  epochs := h.log.epochs

theorem FailedEffect.extends {batch : ProjectionFailureBatch} {change : ProjectionChange}
    {failure : ProjectionFailure} (h : FailedEffect batch before after change failure)
    : Extends before after where
  topologies := h.log.topologies ▸ subset_refl _
  identities := h.identities ▸ persistInputIdentity_keeps.1
  messages := h.messages ▸ persistInputIdentity_keeps.2
  capabilities := h.capabilities ▸ fun _ _ => registerGapFree_lookup
  receipts := h.receipts ▸ fun _ _ hknown => hknown
  lineages := h.log.lineage.kept
  epochs := h.log.epochs

theorem DirectEffect.extends {batch : SameTransactionProjectionBatch}
    {mutation : SameTransactionProjectionMutation} {change : ProjectionChange}
    {metadata : ProjectionRecordMetadata}
    (h : DirectEffect batch mutation before after change metadata)
    : Extends before after where
  topologies := h.log.topologies ▸ subset_refl _
  identities := h.identities ▸ fun _ _ hknown => hknown
  messages := h.messages ▸ fun _ _ hknown => hknown
  capabilities := h.capabilities ▸ fun _ _ hknown => hknown
  receipts := h.receipts ▸ fun _ _ hknown => hknown
  lineages := h.log.lineage.kept
  epochs := h.log.epochs

theorem RepairEffect.extends {failureId : String} {state : PartitionState}
    {generation : ProjectionGeneration}
    (h : RepairEffect key failureId before after state generation)
    : Extends before after where
  topologies := by rw [h.after_eq]
  identities := by rw [h.after_eq]; exact fun _ _ hknown => hknown
  messages := by rw [h.after_eq]; exact fun _ _ hknown => hknown
  capabilities := by rw [h.after_eq]; exact fun _ _ hknown => hknown
  receipts := by rw [h.after_eq]; exact fun _ _ hknown => hknown
  lineages := h.lineage.kept
  epochs := h.writes.epochs (.inl h.known) rfl

/-- No operation forgets an input, a source or a partition. -/
theorem ProtocolStep.extends {op : RepositoryOp} {answer : RepositoryAnswer}
    (h : ProtocolStep before after op answer)
    : Extends before after := by
  cases h with
  | unchanged hsame _ => exact hsame ▸ .refl before
  | registered hafter htopologies _ =>
      rw [hafter]
      exact { Extends.refl before with topologies := htopologies }
  | applied hadmitted heffect _ => exact heffect.extends hadmitted
  | redelivered _ _ hsame => exact hsame ▸ .refl before
  | failed _ _ heffect => exact heffect.extends
  | repaired heffect => exact heffect.extends
  | compacted hstate hcompacts _ =>
      obtain ⟨final, hretains, hwrites, hafter⟩ := hcompacts.writes hstate
      have hepochs := hwrites.epochs (.inl hstate) hretains.changeEpoch
      rw [hafter] at hepochs ⊢
      exact { Extends.refl before with epochs := hepochs }
  | direct _ heffect _ => exact heffect.extends

end Steps

/-- The protocol knows that the input was applied with the checkpoint. -/
structure Remembers (protocol : InMemoryProjectionProtocolState)
    (input : TrustedProjectionInput) (epoch : ProjectionEpoch)
    (checkpoint : ProjectionCheckpoint) : Prop where
  topology : input.cursor.topology ∈ protocol.registeredTopologies
  identity : protocol.inputIdentities.lookup (.new input.cursor) = some (.ofInput input)
  message : protocol.messages.lookup (.new input.cursor input.messageId)
    = some (.ofInput input)
  capability : protocol.gapFreeCapabilities.lookup (.new input.cursor) = some input.gapFree
  receipt : protocol.appliedReceipts.lookup (.new input.cursor input.generation)
    = some (.ofInput input checkpoint)
  lineage : protocol.generations.contains ⟨.fromInput input.cursor, input.generation⟩ = true
  partition : ∃ state, protocol.partitions.lookup (.fromInput input.cursor) = some state
    ∧ state.changeEpoch = epoch

/-- A later input of the source, or this one, was the last to be applied. -/
def Passed (input : TrustedProjectionInput) (protocol : InMemoryProjectionProtocolState)
    : Prop :=
  InputsKept protocol
    ∧ ∃ last, lastInput (.fromInput input.cursor) input.cursor.source protocol = some last
      ∧ input.cursor.position ≤ last.1.position

section Applied

variable {before after protocol : InMemoryProjectionProtocolState}
  {input : TrustedProjectionInput} {epoch : ProjectionEpoch}
  {checkpoint : ProjectionCheckpoint}

theorem Remembers.extends (h : Remembers before input epoch checkpoint)
    (hextends : Extends before after)
    : Remembers after input epoch checkpoint where
  topology := hextends.topologies h.topology
  identity := hextends.identities _ _ h.identity
  message := hextends.messages _ _ h.message
  capability := hextends.capabilities _ _ h.capability
  receipt := hextends.receipts _ _ h.receipt
  lineage := hextends.lineages _ h.lineage
  partition := by
    obtain ⟨state, hstate, rfl⟩ := h.partition
    exact hextends.epochs _ state hstate

theorem AppliedEffect.remembers {batch : ProjectionCommitBatch}
    {result : ProjectionCommitResult} (hadmitted : Admitted before batch.input)
    (h : AppliedEffect batch before after result)
    : ∃ checkpoint, result.checkpoint = some checkpoint
      ∧ Remembers after batch.input batch.changeEpoch checkpoint := by
  obtain ⟨checkpoint, hcheckpoint, hreceipts⟩ := h.receipts
  refine ⟨checkpoint, hcheckpoint, ?_, ?_, ?_, ?_, ?_, ?_, h.log.changeEpoch⟩
  · rw [h.log.topologies]
    exact hadmitted.topology
  · rw [h.identities, persistInputIdentity]
    exact Map.lookup_insert_if_new_self hadmitted.identity
  · rw [h.messages, persistInputIdentity]
    exact Map.lookup_insert_if_new_self hadmitted.message
  · rw [h.capabilities]
    exact hadmitted.registered
  · rw [hreceipts, AList.lookup_insert]
  · cases hstate : before.partitions.lookup (.fromInput batch.input.cursor) with
    | some state => exact h.log.lineage.kept _ (hadmitted.lineage state hstate)
    | none =>
        rw [hadmitted.first hstate]
        exact h.log.lineage.opened hstate

theorem Passed.step {op : RepositoryOp} {answer : RepositoryAnswer}
    (h : Passed input before) (hstep : ProtocolStep before after op answer)
    : Passed input after := by
  obtain ⟨hkept, last, hlast, hposition⟩ := h
  refine ⟨hstep.inputsKept hkept, ?_⟩
  rcases hstep.lastInput hkept with ⟨-, hsame⟩ | ⟨next, -, hnext, hfollows⟩
  · exact ⟨last, hsame.trans hlast, hposition⟩
  · have hnewer := (hfollows last hlast).1.newer
    exact ⟨next, hnext, by omega⟩

/-- An input that was passed is not admitted again, in any generation. -/
theorem Passed.not_admitted {again : TrustedProjectionInput} (h : Passed input protocol)
    (hcursor : again.cursor = input.cursor)
    : ¬ Admitted protocol again := by
  intro hadmitted
  obtain ⟨hkept, last, hlast, hposition⟩ := h
  rw [← hcursor] at hlast hposition
  have hnewer := (hadmitted.follows hkept hlast).1.newer
  omega

theorem Remembers.validateInputIdentity (h : Remembers protocol input epoch checkpoint)
    : protocol.validateInputIdentity input = .ok () := by
  simp [InMemoryProjectionProtocolState.validateInputIdentity, rejectReusedMessage,
    h.identity, h.message, InputIdentity.ofInput, MessageIdentity.ofInput]

theorem Remembers.validateGapFree (h : Remembers protocol input epoch checkpoint)
    : protocol.validateGapFree input.cursor input.gapFree = .ok () := by
  simp [InMemoryProjectionProtocolState.validateGapFree, h.capability]

theorem Remembers.validatePartition (h : Remembers protocol input epoch checkpoint)
    {state : PartitionState}
    (hstate : protocol.partitions.lookup (.fromInput input.cursor) = some state)
    (hactive : state.activeGeneration = input.generation)
    : protocol.validatePartition (.fromInput input.cursor) input epoch
      = match state.stoppedFailureId with
        | some failureId => .error (.partitionStopped failureId)
        | none => .ok () := by
  obtain ⟨known, hknown, hepoch⟩ := h.partition
  cases hknown.symm.trans hstate
  have htopology : protocol.requireRegisteredTopology input.cursor.topology = .ok () :=
    if_pos h.topology
  have hidentity : protocol.validateKnownInputIdentity input = .ok () := by
    simp [validateKnownInputIdentity, h.validateInputIdentity, h.validateGapFree]
  cases hstopped : state.stoppedFailureId with
  | none =>
      simp [InMemoryProjectionProtocolState.validatePartition, htopology, hidentity, hstate,
        hepoch, hactive, h.lineage, h.validateInputIdentity, h.validateGapFree, hstopped]
  | some failureId =>
      simp [InMemoryProjectionProtocolState.validatePartition, htopology, hidentity, hstate,
        hepoch, hactive, h.lineage, h.validateInputIdentity, h.validateGapFree, hstopped]

/-- The receipt of an applied input is enough to recognise it. -/
theorem Remembers.classifyInput (h : Remembers protocol input epoch checkpoint)
    : protocol.classifyInput input = .ok (.duplicate checkpoint) := by
  simp [InMemoryProjectionProtocolState.classifyInput, h.validateGapFree,
    h.validateInputIdentity, h.receipt, AppliedInputReceipt.ofInput]

end Applied

/-- What the commit of an applied input answers when it is delivered again. -/
def redeliveryAnswer (checkpoint : ProjectionCheckpoint) (state : PartitionState)
    : Except ProjectionProtocolError ProjectionCommitResult :=
  match state.stoppedFailureId with
  | some failureId => .error (.partitionStopped failureId)
  | none => .ok ⟨.duplicate, some checkpoint, [], []⟩

section Redelivery

variable {crates : Crates} {repository : InMemoryRepository} {batch : ProjectionCommitBatch}
  {checkpoint : ProjectionCheckpoint}

theorem Remembers.commitProjection
    (h : Remembers repository.projectionProtocol batch.input batch.changeEpoch checkpoint)
    (hvalid : batch.validate crates = .ok ()) {state : PartitionState}
    (hstate : repository.projectionProtocol.partitions.lookup
      (.fromInput batch.input.cursor) = some state)
    (hactive : state.activeGeneration = batch.input.generation)
    : commitProjection crates batch repository
      = (redeliveryAnswer checkpoint state, repository) := by
  have hpartition := h.validatePartition hstate hactive
  cases hstopped : state.stoppedFailureId with
  | none =>
      rw [hstopped] at hpartition
      simp [InMemoryRepo.commitProjection, Txn.staged, hvalid, hpartition, h.classifyInput,
        redeliveryAnswer, hstopped]
  | some failureId =>
      rw [hstopped] at hpartition
      simp [InMemoryRepo.commitProjection, Txn.staged, hvalid, hpartition,
        redeliveryAnswer, hstopped]

/-- Whatever the commit of a passed input answers, it changes nothing. -/
theorem Passed.commitProjection {input : TrustedProjectionInput}
    (h : Passed input repository.projectionProtocol)
    (hcursor : batch.input.cursor = input.cursor)
    : (InMemoryRepo.commitProjection crates batch repository).2 = repository
      ∧ ∀ result, (InMemoryRepo.commitProjection crates batch repository).1 = .ok result →
        result.outcome ≠ .applied := by
  rcases hrun : InMemoryRepo.commitProjection crates batch repository with
    ⟨error | result, next⟩
  · rw [InMemoryRepo.commitProjection, Txn.staged_eq_error] at hrun
    exact ⟨hrun.2, fun _ hok => by cases hok⟩
  · obtain ⟨hprocessed, hsame⟩ | ⟨-, hadmitted, -⟩ := commitProjection_effect hrun
    · refine ⟨hsame, fun answer hanswer => ?_⟩
      cases hanswer
      exact hprocessed
    · exact absurd hadmitted (h.not_admitted hcursor)

theorem inputsKept_of_reachable {retention : ProjectionChangeRetention}
    (hreach : Reachable (step crates) (fun _ => True) (.new retention) repository)
    : InputsKept repository.projectionProtocol := by
  induction hreach with
  | start =>
      intro _ _ h
      cases h
  | next op _ _ ih => exact (step_protocolStep crates _ op).inputsKept ih

end Redelivery

/-- An applied input that is delivered again changes nothing. In its own generation the
answer is the first checkpoint, or the failure that stopped the partition; in any other it
is not applied. -/
theorem redelivered_input_changes_nothing (crates : Crates)
    {retention : ProjectionChangeRetention} {start applied repository : InMemoryRepository}
    (hstart : Reachable (step crates) (fun _ => True) (.new retention) start)
    {first : ProjectionCommitBatch} {result : ProjectionCommitResult}
    (hfirst : commitProjection crates first start = (.ok result, applied))
    (happlied : result.outcome = .applied)
    (hlater : Reachable (step crates) (fun _ => True) applied repository)
    : ∃ checkpoint state, result.checkpoint = some checkpoint
      ∧ repository.projectionProtocol.partitions.lookup (.fromInput first.input.cursor)
        = some state
      ∧ ∀ batch : ProjectionCommitBatch,
        (batch.input = first.input → batch.changeEpoch = first.changeEpoch →
          batch.validate crates = .ok () →
          state.activeGeneration = first.input.generation →
          commitProjection crates batch repository
            = (redeliveryAnswer checkpoint state, repository))
        ∧ ∀ generation, batch.input = { first.input with generation } →
          (commitProjection crates batch repository).2 = repository
          ∧ ∀ answer, (commitProjection crates batch repository).1 = .ok answer →
            answer.outcome ≠ .applied := by
  obtain ⟨hprocessed, -⟩ | ⟨-, hadmitted, heffect⟩ := commitProjection_effect hfirst
  · exact absurd happlied hprocessed
  obtain ⟨checkpoint, hcheckpoint, hremembers⟩ := heffect.remembers hadmitted
  have hkept := inputsKept_of_reachable hstart
  have hpassed : Passed first.input applied.projectionProtocol := by
    refine ⟨heffect.inputsKept hkept hadmitted,
      (first.input.cursor, first.input.gapFree), ?_, le_refl _⟩
    rw [heffect.lastInput hkept hadmitted, if_pos ⟨rfl, rfl⟩]
  have hknown : Remembers repository.projectionProtocol first.input first.changeEpoch checkpoint
      ∧ Passed first.input repository.projectionProtocol := by
    clear hstart hfirst
    induction hlater with
    | start => exact ⟨hremembers, hpassed⟩
    | @next current op _ _ ih =>
        have hstep := step_protocolStep crates current op
        exact ⟨ih.1.extends hstep.extends, ih.2.step hstep⟩
  obtain ⟨state, hstate, -⟩ := hknown.1.partition
  refine ⟨checkpoint, state, hcheckpoint, hstate, fun batch => ⟨?_, ?_⟩⟩
  · intro hinput hepoch hvalid hactive
    rw [← hinput, ← hepoch] at hknown
    rw [← hinput] at hstate hactive
    exact hknown.1.commitProjection hvalid hstate hactive
  · intro generation hinput
    exact hknown.2.commitProjection (by rw [hinput])

/-- The repository after one more todo operation. -/
def afterTodo (op : RepositoryOp) (repository : InMemoryRepository) : InMemoryRepository :=
  (step nullOutcomeCrates op repository).2

theorem afterTodo_reachable (op : RepositoryOp) (repository : InMemoryRepository)
    : Reachable (step nullOutcomeCrates) (fun _ => True) repository
        (afterTodo op repository) :=
  .next op .start trivial

def todoRegistered : InMemoryRepository :=
  afterTodo (.registerProjectionModels todoTopology [todoOwner])
    (.new defaultProjectionChangeRetention)

def firstTodoApplied : InMemoryRepository :=
  afterTodo (.commitProjection (checkpointCommit firstTodo)) todoRegistered

def secondTodoApplied : InMemoryRepository :=
  afterTodo (.commitProjection (checkpointCommit secondTodo)) firstTodoApplied

theorem firstTodo_again_changes_nothing
    : ∃ checkpoint,
      commitProjection nullOutcomeCrates (checkpointCommit firstTodo) secondTodoApplied
        = (.ok ⟨.duplicate, some checkpoint, [], []⟩, secondTodoApplied) := by
  have hrun : ∃ result, commitProjection nullOutcomeCrates (checkpointCommit firstTodo)
      todoRegistered = (.ok result, firstTodoApplied) ∧ result.outcome = .applied :=
    ⟨_, rfl, rfl⟩
  obtain ⟨result, hfirst, happlied⟩ := hrun
  have hstart : Reachable (step nullOutcomeCrates) (fun _ => True)
      (.new defaultProjectionChangeRetention) todoRegistered :=
    afterTodo_reachable _ _
  have hlater : Reachable (step nullOutcomeCrates) (fun _ => True) firstTodoApplied
      secondTodoApplied :=
    afterTodo_reachable _ _
  obtain ⟨checkpoint, state, -, hstate, hagain⟩ :=
    redelivered_input_changes_nothing nullOutcomeCrates hstart hfirst happlied hlater
  have hrunning : state.activeGeneration = .initial ∧ state.stoppedFailureId = none := by
    have hflags : (secondTodoApplied.projectionProtocol.partitions.lookup
        (.fromInput (checkpointCommit firstTodo).input.cursor)).map
          (fun known => (known.activeGeneration, known.stoppedFailureId))
        = some (.initial, none) := by
      decide +kernel
    rw [hstate] at hflags
    simpa using hflags
  refine ⟨checkpoint, ?_⟩
  have hanswer := (hagain (checkpointCommit firstTodo)).1 rfl rfl rfl hrunning.1
  rw [redeliveryAnswer, hrunning.2] at hanswer
  exact hanswer

end Distributed.InMemoryRepo
