import Distributed.Foundation.NumberedNames
import Distributed.InMemoryRepo.InputDisposition
import Distributed.InMemoryRepo.Redelivery
import Distributed.InMemoryRepo.StagingErrors
import Distributed.ProjectionProtocol.ReplayRoundTrip

/-! Every receipt of a projector in the inbox belongs to an input that is settled in its
generation.
-/

namespace Distributed.ProjectionProtocol

open Distributed.Foundation Distributed.Platform

theorem length_toList_bytesHex (bytes : Bytes)
    : (bytesHex bytes).toList.length = 2 * bytes.length := by
  rw [bytesHex, String.toList_ofList]
  induction bytes with
  | nil => rfl
  | cons byte bytes ih =>
      rw [List.flatMap_cons, List.length_append, ih, List.length_cons]
      simp only [List.length_cons, List.length_nil]
      omega

/-- A digest at the head of a name is determined by the name. -/
theorem bytesHex_append_inj {left right : Digest} {rest rest' : String}
    (h : bytesHex left.bytes ++ rest = bytesHex right.bytes ++ rest')
    : left = right ∧ rest = rest' := by
  have hlists := congrArg String.toList h
  rw [String.toList_append, String.toList_append] at hlists
  have hlength : (bytesHex left.bytes).toList.length = (bytesHex right.bytes).toList.length := by
    rw [length_toList_bytesHex, length_toList_bytesHex, left.length_eq, right.length_eq]
  obtain ⟨hhex, hrest⟩ := List.append_inj hlists hlength
  refine ⟨?_, String.toList_inj.mp hrest⟩
  have hbytes := bytesHex_injective (String.toList_inj.mp hhex)
  cases left
  cases right
  cases hbytes
  rfl

theorem TrustedProjectionInput.consumerName_eq (crates : Crates)
    (input : TrustedProjectionInput)
    : input.consumerName crates
      = "projection:v1:" ++ (bytesHex input.cursor.topology.digest.bytes
        ++ (":" ++ (bytesHex (input.cursor.projectionPartition.digest crates).bytes
          ++ (":" ++ toString input.generation.value)))) := by
  rw [← String.append_assoc, ← String.append_assoc, ← String.append_assoc,
    ← String.append_assoc]
  rfl

theorem append_left_cancel {word left right : String} (h : word ++ left = word ++ right)
    : left = right := by
  have hlists := congrArg String.toList h
  rw [String.toList_append, String.toList_append] at hlists
  exact String.toList_inj.mp (List.append_cancel_left hlists)

/-- The name tells the digest of the topology and the generation. -/
theorem TrustedProjectionInput.consumerName_inj {crates : Crates}
    {left right : TrustedProjectionInput}
    (h : left.consumerName crates = right.consumerName crates)
    : left.cursor.topology.digest = right.cursor.topology.digest
      ∧ left.generation = right.generation := by
  rw [consumerName_eq, consumerName_eq] at h
  obtain ⟨htopology, h⟩ := bytesHex_append_inj (append_left_cancel h)
  obtain ⟨-, h⟩ := bytesHex_append_inj (append_left_cancel h)
  obtain ⟨-, hvalue⟩ := numbered_inj (digitFree (by decide)) (digitFree (by decide)) h
  refine ⟨htopology, ?_⟩
  cases hleft : left.generation
  cases hright : right.generation
  simp_all

end Distributed.ProjectionProtocol

namespace Distributed.InMemoryRepo

open Distributed.CommandLedger Distributed.Foundation Distributed.Platform

open Distributed.ProjectionProtocol Distributed.Repository

open InMemoryProjectionProtocolState

/-- The generation a partition runs in and the failure that stopped it. -/
def partitionFlags? (protocol : InMemoryProjectionProtocolState) (key : PartitionKey)
    : Option (ProjectionGeneration × Option String) :=
  (protocol.partitions.lookup key).map fun state =>
    (state.activeGeneration, state.stoppedFailureId)

section Flags

variable {before after : InMemoryProjectionProtocolState} {key other : PartitionKey}

theorem Retains.stoppedFailureId {state final : PartitionState} (h : Retains state final)
    : final.stoppedFailureId = state.stoppedFailureId := by
  obtain rfl | ⟨through, -, -, rfl⟩ := h
  · rfl
  · rfl

theorem WritesPartition.partitionFlags {final : PartitionState}
    (h : WritesPartition before after key final)
    : partitionFlags? after other
      = if other = key then some (final.activeGeneration, final.stoppedFailureId)
        else partitionFlags? before other := by
  rw [partitionFlags?, h other]
  split
  · rfl
  · rfl

theorem LogEffect.partitionFlags {epoch : ProjectionEpoch} {changes : List ProjectionChange}
    {stopped : Option String} (h : LogEffect key epoch before after changes stopped)
    : partitionFlags? after other
      = if other = key then some ((activeGeneration? before key).getD .initial, stopped)
        else partitionFlags? before other := by
  obtain ⟨base, final, hopens, -, -, hretains, hwrites⟩ := h.partition
  rw [hwrites.partitionFlags, hretains.activeGeneration, hretains.stoppedFailureId,
    ← hopens.activeGeneration]
  simp only [(base.extended_flags changes).2.2.1]

theorem InMemoryProjectionProtocolState.Compacts.partitionFlags {state : PartitionState}
    (hstate : before.partitions.lookup key = some state)
    (h : Compacts key before state after)
    : partitionFlags? after other = partitionFlags? before other := by
  obtain ⟨final, hretains, hwrites, -⟩ := h.writes hstate
  rw [hwrites.partitionFlags, hretains.activeGeneration, hretains.stoppedFailureId]
  split
  · rename_i hother
    rw [partitionFlags?, hother, hstate]
    rfl
  · rfl

theorem activeGeneration?_of_flags {generation : ProjectionGeneration}
    {stopped : Option String} (h : partitionFlags? before key = some (generation, stopped))
    : activeGeneration? before key = some generation := by
  obtain ⟨state, hstate, hflags⟩ := Option.map_eq_some_iff.mp h
  cases hflags
  rw [activeGeneration?, hstate]
  rfl

/-- An input is admitted only where nothing has stopped the partition. -/
theorem Admitted.partitionFlags {input : TrustedProjectionInput} (h : Admitted before input)
    {generation : ProjectionGeneration} {stopped : Option String}
    (hflags : partitionFlags? before (.fromInput input.cursor) = some (generation, stopped))
    : generation = input.generation ∧ stopped = none := by
  obtain ⟨state, hstate, hstateFlags⟩ := Option.map_eq_some_iff.mp hflags
  cases hstateFlags
  obtain ⟨hgeneration, hstopped⟩ := h.running state hstate
  exact ⟨hgeneration.symm, hstopped⟩

/-- A partition that was running is in the same generation after its log has grown. -/
theorem LogEffect.goes_on {epoch : ProjectionEpoch} {changes : List ProjectionChange}
    {stopped earlier : Option String} (h : LogEffect key epoch before after changes stopped)
    {generation : ProjectionGeneration}
    (hflags : partitionFlags? before other = some (generation, earlier))
    (hrunning : other = key → earlier = none)
    : ∃ later, partitionFlags? after other = some (generation, later)
      ∧ (earlier.isSome → later = earlier) := by
  rw [h.partitionFlags]
  split
  · rename_i hother
    subst hother
    rw [activeGeneration?_of_flags hflags]
    exact ⟨stopped, rfl, by simp [hrunning rfl]⟩
  · exact ⟨earlier, hflags, fun _ => rfl⟩

/-- A stopped partition stays stopped until it is repaired, and generations only grow. -/
theorem ProtocolStep.partitionFlags {op : RepositoryOp} {answer : RepositoryAnswer}
    (h : ProtocolStep before after op answer) {generation : ProjectionGeneration}
    {stopped : Option String}
    (hflags : partitionFlags? before key = some (generation, stopped))
    : ∃ next later, partitionFlags? after key = some (next, later)
      ∧ (generation.value < next.value
        ∨ next = generation ∧ (stopped.isSome → later = stopped)) := by
  have hsame : partitionFlags? after key = partitionFlags? before key →
      ∃ next later, partitionFlags? after key = some (next, later)
        ∧ (generation.value < next.value
          ∨ next = generation ∧ (stopped.isSome → later = stopped)) :=
    fun heq => ⟨generation, stopped, heq.trans hflags, .inr ⟨rfl, fun _ => rfl⟩⟩
  cases h with
  | unchanged heq _ => exact hsame (heq ▸ rfl)
  | registered hafter _ _ => exact hsame (by rw [hafter]; rfl)
  | applied hadmitted heffect _ =>
      obtain ⟨later, hlater, hkept⟩ := heffect.log.goes_on hflags fun hkey =>
        (hadmitted.partitionFlags (hkey ▸ hflags)).2
      exact ⟨generation, later, hlater, .inr ⟨rfl, hkept⟩⟩
  | redelivered _ _ heq => exact hsame (heq ▸ rfl)
  | failed hadmitted _ heffect =>
      obtain ⟨later, hlater, hkept⟩ := heffect.log.goes_on hflags fun hkey =>
        (hadmitted.partitionFlags (hkey ▸ hflags)).2
      exact ⟨generation, later, hlater, .inr ⟨rfl, hkept⟩⟩
  | @repaired topology partition failureId state next heffect =>
      by_cases hkey : key = ⟨topology, partition⟩
      · subst hkey
        rw [partitionFlags?, heffect.known] at hflags
        cases hflags
        refine ⟨next, none, ?_, .inl (by rw [heffect.generation_eq]; omega)⟩
        rw [heffect.writes.partitionFlags, if_pos rfl]
      · exact hsame (by rw [heffect.writes.partitionFlags, if_neg hkey])
  | compacted hstate hcompacts _ => exact hsame (hcompacts.partitionFlags hstate)
  | @direct _ _ batch _ _ _ _ _ heffect _ =>
      obtain ⟨later, hlater, hkept⟩ := heffect.log.goes_on hflags fun hkey => by
        obtain ⟨state, hstate, hstateFlags⟩ := Option.map_eq_some_iff.mp hflags
        cases hstateFlags
        exact (heffect.unfenced state (hkey ▸ hstate)).1
      exact ⟨generation, later, hlater, .inr ⟨rfl, hkept⟩⟩

end Flags

/-- The input was applied in its generation, or it failed there: the partition is stopped or
has gone on to a later generation. -/
structure InputSettled (protocol : InMemoryProjectionProtocolState)
    (input : TrustedProjectionInput) : Prop where
  topology : input.cursor.topology ∈ protocol.registeredTopologies
  message : protocol.messages.lookup (.new input.cursor input.messageId)
    = some (.ofInput input)
  done : (∃ receipt, protocol.appliedReceipts.lookup (.new input.cursor input.generation)
      = some receipt)
    ∨ ∃ generation stopped,
      partitionFlags? protocol (.fromInput input.cursor) = some (generation, stopped)
        ∧ (input.generation.value < generation.value
          ∨ generation = input.generation ∧ stopped.isSome)

section Settled

variable {before after protocol : InMemoryProjectionProtocolState}
  {input : TrustedProjectionInput}

theorem InputSettled.step {op : RepositoryOp} {answer : RepositoryAnswer}
    (h : InputSettled before input) (hstep : ProtocolStep before after op answer)
    : InputSettled after input where
  topology := hstep.extends.topologies h.topology
  message := hstep.extends.messages _ _ h.message
  done := by
    obtain ⟨receipt, hreceipt⟩ | ⟨generation, stopped, hflags, hdone⟩ := h.done
    · exact .inl ⟨receipt, hstep.extends.receipts _ _ hreceipt⟩
    · obtain ⟨next, later, hnext, hgrows | ⟨rfl, hkept⟩⟩ := hstep.partitionFlags hflags
      · refine .inr ⟨next, later, hnext, .inl ?_⟩
        rcases hdone with hless | ⟨rfl, -⟩
        · omega
        · exact hgrows
      · refine .inr ⟨next, later, hnext, hdone.imp_right fun ⟨hsame, hstopped⟩ => ?_⟩
        exact ⟨hsame, (hkept hstopped).symm ▸ hstopped⟩

/-- A settled input is not admitted again in its generation. -/
theorem InputSettled.not_admitted {again : TrustedProjectionInput} (h : InputSettled protocol input)
    (hcursor : again.cursor = input.cursor) (hgeneration : again.generation = input.generation)
    : ¬ Admitted protocol again := by
  intro hadmitted
  rcases h.done with ⟨receipt, hreceipt⟩ | ⟨generation, stopped, hflags, hdone⟩
  · rw [← hcursor, ← hgeneration, hadmitted.unreceived] at hreceipt
    cases hreceipt
  · rw [← hcursor] at hflags
    obtain ⟨rfl, rfl⟩ := hadmitted.partitionFlags hflags
    rcases hdone with hless | ⟨-, hstopped⟩
    · rw [hgeneration] at hless
      omega
    · cases hstopped

theorem AppliedEffect.settled {batch : ProjectionCommitBatch}
    {result : ProjectionCommitResult} (hadmitted : Admitted before batch.input)
    (h : AppliedEffect batch before after result)
    : InputSettled after batch.input := by
  obtain ⟨checkpoint, -, hremembers⟩ := h.remembers hadmitted
  exact ⟨hremembers.topology, hremembers.message, .inl ⟨_, hremembers.receipt⟩⟩

theorem FailedEffect.settled {batch : ProjectionFailureBatch} {change : ProjectionChange}
    {failure : ProjectionFailure} (hadmitted : Admitted before batch.input)
    (h : FailedEffect batch before after change failure)
    : InputSettled after batch.input where
  topology := h.log.topologies ▸ hadmitted.topology
  message := by
    rw [h.messages, persistInputIdentity]
    exact Map.lookup_insert_if_new_self hadmitted.message
  done := by
    refine .inr ⟨batch.input.generation, some batch.failureId, ?_, .inr ⟨rfl, rfl⟩⟩
    rw [h.log.partitionFlags, if_pos rfl, hadmitted.activeGeneration]

end Settled

/-- The receipts a caller hands to an operation. -/
def receivedBy : RepositoryOp → List InboxReceipt
  | .commitBatch _ batch => batch.inboxReceipts
  | .commitCommand _ request => request.domain.inboxReceipts
  | _ => []

/-- Every way an operation can change the inbox. -/
inductive InboxStep (crates : Crates) (before after : InMemoryRepository)
    (op : RepositoryOp) : Prop
  | kept : after.inboxStore ⊆ before.inboxStore → InboxStep crates before after op
  | received :
      (∀ key ∈ after.inboxStore,
        key ∈ before.inboxStore ∨ ∃ receipt ∈ receivedBy op, receipt.key = key) →
      InboxStep crates before after op
  | settled {input : TrustedProjectionInput} :
      InputSettled after.projectionProtocol input →
      after.inboxStore = insert (input.inboxReceipt crates).key before.inboxStore →
      InboxStep crates before after op

section Inbox

variable {crates : Crates} {repository : InMemoryRepository}

theorem report_inboxStep {Error α : Type} {op : RepositoryOp}
    {wrap : Except Error α → RepositoryAnswer}
    {operation : Txn InMemoryRepository Error α} (hatomic : operation.AllOrNothing)
    (hok : ∀ value next, operation repository = (.ok value, next) →
      InboxStep crates repository next op)
    : InboxStep crates repository (report wrap operation repository).2 op :=
  hatomic.preserves (fun next => InboxStep crates repository next op) (.kept subset_rfl) hok

theorem report_within_inboxStep {Error α Part : Type} {op : RepositoryOp}
    {wrap : Except Error α → RepositoryAnswer}
    {operation : Txn InMemoryRepository Error α} {lens : Lens InMemoryRepository Part}
    (hwithin : operation.Within lens)
    (hother : ∀ part, (lens.set part repository).inboxStore = repository.inboxStore)
    : InboxStep crates repository (report wrap operation repository).2 op := by
  obtain ⟨part, hpart⟩ := hwithin repository
  refine .kept ?_
  rw [report, hpart]
  exact (hother part).subset

theorem mem_publish_inboxStore {batch : CommitBatch} {staged : StagedBatch}
    {key : String × String} (h : key ∈ (staged.publish batch repository).inboxStore)
    : key ∈ repository.inboxStore ∨ ∃ receipt ∈ batch.inboxReceipts, receipt.key = key := by
  have hfold : ∀ (receipts : List InboxReceipt) (inbox : Finset (String × String)),
      key ∈ receipts.foldl (fun inbox receipt => insert receipt.key inbox) inbox →
        key ∈ inbox ∨ ∃ receipt ∈ receipts, receipt.key = key := by
    intro receipts
    induction receipts with
    | nil => exact fun _ hmem => .inl hmem
    | cons receipt receipts ih =>
        intro inbox hmem
        rcases ih _ hmem with hmem | ⟨other, hother, hkey⟩
        · rcases Finset.mem_insert.mp hmem with rfl | hmem
          · exact .inr ⟨receipt, List.mem_cons_self, rfl⟩
          · exact .inl hmem
        · exact .inr ⟨other, List.mem_cons_of_mem _ hother, hkey⟩
  exact hfold _ _ h

theorem commitProjection_inboxStep (batch : ProjectionCommitBatch)
    : InboxStep crates repository (step crates (.commitProjection batch) repository).2
        (.commitProjection batch) := by
  refine report_inboxStep (Txn.staged_allOrNothing _) fun result next hrun => ?_
  have heffect := commitProjection_effect hrun
  obtain ⟨-, -, ⟨-, rfl⟩ | ⟨-, -, -, touched, rows, protocol, -, rfl⟩⟩ :=
    commitProjection_ok hrun
  · exact .kept subset_rfl
  · rcases heffect with ⟨-, hsame⟩ | ⟨-, hadmitted, happlied⟩
    · exact .kept (by rw [hsame])
    · exact .settled (happlied.settled hadmitted) rfl

theorem recordProjectionFailure_inboxStep (batch : ProjectionFailureBatch)
    : InboxStep crates repository
        (step crates (.recordProjectionFailure batch) repository).2
        (.recordProjectionFailure batch) := by
  refine report_inboxStep (Txn.staged_allOrNothing _) fun failure next hrun => ?_
  obtain ⟨-, rfl⟩ | ⟨-, -, hpartition, hclassify, hretry, -, protocol, hstage, rfl⟩ :=
    recordProjectionFailure_ok hrun
  · exact .kept subset_rfl
  · obtain ⟨change, heffect⟩ := stageProjectionFailure_ok hstage
    exact .settled (heffect.settled (.of_checks hpartition hclassify hretry)) rfl

theorem commitCommand_inboxStep (clock : CommitClock) (request : CausalCommitRequest)
    : InboxStep crates repository (step crates (.commitCommand clock request) repository).2
        (.commitCommand clock request) := by
  refine report_inboxStep (commitCommand_allOrNothing request) fun streams next hrun => ?_
  rw [commitCommand, Txn.lift_bind_eq_ok] at hrun
  obtain ⟨completion, -, hcommit⟩ := hrun
  obtain ⟨staged, -, rfl, -⟩ := commitBatchInner_ok (Txn.mapError_eq_ok.mp hcommit)
  exact .received fun key => mem_publish_inboxStore

theorem step_inboxStep (crates : Crates) (repository : InMemoryRepository)
    (op : RepositoryOp)
    : InboxStep crates repository (step crates op repository).2 op := by
  cases op with
  | commitBatch clock batch =>
      refine report_inboxStep (commitBatchInner_allOrNothing.mapError _)
        fun streams next hrun => ?_
      obtain ⟨staged, -, rfl, -⟩ := commitBatchInner_ok (Txn.mapError_eq_ok.mp hrun)
      exact .received fun key => mem_publish_inboxStore
  | commitCommand clock request => exact commitCommand_inboxStep clock request
  | reserveCommand reservation now =>
      exact report_within_inboxStep (reserveCommand_within reservation now) fun _ => rfl
  | lookupCommand key scope now =>
      exact report_within_inboxStep (lookupCommand_within key scope now) fun _ => rfl
  | markRetryableUnknown attempt now =>
      exact report_within_inboxStep (markRetryableUnknown_within attempt now) fun _ => rfl
  | compactExpiredCommands limit now =>
      exact report_within_inboxStep (compactExpiredCommands_within limit now) fun _ => rfl
  | registerProjectionModels topology ownership =>
      refine report_inboxStep (Txn.staged_allOrNothing _) fun _ next hrun => ?_
      obtain ⟨protocol, -, rfl⟩ := registerProjectionModels_ok hrun
      exact .kept subset_rfl
  | commitProjection batch => exact commitProjection_inboxStep batch
  | recordProjectionFailure batch => exact recordProjectionFailure_inboxStep batch
  | repairProjection topology partition failureId =>
      refine report_inboxStep (Txn.staged_allOrNothing _) fun generation next hrun => ?_
      obtain ⟨protocol, -, rfl⟩ := repairProjection_ok hrun
      exact .kept subset_rfl
  | compactProjectionChanges through =>
      refine report_inboxStep (Txn.staged_allOrNothing _) fun compacted next hrun => ?_
      obtain ⟨protocol, -, rfl⟩ := compactProjectionChanges_ok hrun
      exact .kept subset_rfl
  | commitWritePlan plan =>
      refine report_inboxStep (Txn.staged_allOrNothing _) fun _ next hrun => ?_
      obtain ⟨-, rows, -, rfl⟩ := commitWritePlan_ok hrun
      exact .kept subset_rfl
  | putSnapshot identity record =>
      refine report_inboxStep (Txn.staged_allOrNothing _) fun _ next hrun => ?_
      obtain ⟨-, rfl⟩ := putSnapshot_ok hrun
      exact .kept subset_rfl
  | claimOutbox | settleOutbox | completeManyOutbox | deleteSnapshot =>
      exact .kept subset_rfl
  | clearInbox => exact .kept (Finset.empty_subset _)

end Inbox

/-- Receipts are kept of generations a partition has reached. -/
def ReceiptsKept (protocol : InMemoryProjectionProtocolState) : Prop :=
  ∀ (key : CursorReceiptKey) (receipt : AppliedInputReceipt),
    protocol.appliedReceipts.lookup key = some receipt →
      ∃ generation stopped,
        partitionFlags? protocol key.cursor.partition = some (generation, stopped)
          ∧ key.generation.value ≤ generation.value

/-- The callers leave the receipts of the projectors to the store. -/
def OwnReceipts (crates : Crates)
    (event : Event InMemoryRepository RepositoryOp RepositoryAnswer) : Prop :=
  ∀ receipt ∈ receivedBy event.op, ∀ input : TrustedProjectionInput,
    receipt.consumer ≠ input.consumerName crates

/-- What holds of the inputs, their receipts and the inbox. -/
structure ReceiptsInv (crates : Crates) (repository : InMemoryRepository) : Prop where
  inputs : InputsKept repository.projectionProtocol
  receipts : ReceiptsKept repository.projectionProtocol
  inbox : ∀ input : TrustedProjectionInput,
    (input.inboxReceipt crates).key ∈ repository.inboxStore →
      ∃ settled : TrustedProjectionInput,
        (settled.inboxReceipt crates).key = (input.inboxReceipt crates).key
          ∧ InputSettled repository.projectionProtocol settled

section Runs

variable {crates : Crates} {repository : InMemoryRepository}
  {before after : InMemoryProjectionProtocolState}

/-- Only a commit that applied its input adds a receipt, and it adds its own. -/
theorem ProtocolStep.appliedReceipts {op : RepositoryOp} {answer : RepositoryAnswer}
    (h : ProtocolStep before after op answer)
    : after.appliedReceipts = before.appliedReceipts
      ∨ ∃ batch result receipt, Admitted before batch.input
        ∧ AppliedEffect batch before after result
        ∧ after.appliedReceipts = before.appliedReceipts.insert
          (.new batch.input.cursor batch.input.generation) receipt := by
  cases h with
  | unchanged hsame _ => exact .inl (hsame ▸ rfl)
  | registered hafter _ _ => exact .inl (by rw [hafter])
  | @applied batch result hadmitted heffect _ =>
      obtain ⟨checkpoint, -, hreceipts⟩ := heffect.receipts
      exact .inr ⟨batch, result, _, hadmitted, heffect, hreceipts⟩
  | redelivered _ _ hsame => exact .inl (hsame ▸ rfl)
  | failed _ _ heffect => exact .inl heffect.receipts
  | repaired heffect => exact .inl (by rw [heffect.after_eq])
  | compacted hstate hcompacts _ =>
      obtain ⟨-, -, -, hafter⟩ := hcompacts.writes hstate
      exact .inl (by rw [hafter])
  | direct _ heffect _ => exact .inl heffect.receipts

theorem ReceiptsKept.step {op : RepositoryOp} {answer : RepositoryAnswer}
    (h : ReceiptsKept before) (hstep : ProtocolStep before after op answer)
    : ReceiptsKept after := by
  have hold : ∀ (key : CursorReceiptKey) (receipt : AppliedInputReceipt),
      before.appliedReceipts.lookup key = some receipt →
        ∃ generation stopped,
          partitionFlags? after key.cursor.partition = some (generation, stopped)
            ∧ key.generation.value ≤ generation.value := by
    intro key receipt hreceipt
    obtain ⟨generation, stopped, hflags, hle⟩ := h key receipt hreceipt
    obtain ⟨next, later, hnext, hgrows | ⟨rfl, -⟩⟩ := hstep.partitionFlags hflags
    · exact ⟨next, later, hnext, by omega⟩
    · exact ⟨next, later, hnext, hle⟩
  intro key receipt hreceipt
  obtain hsame | ⟨batch, result, stored, hadmitted, heffect, hreceipts⟩ := hstep.appliedReceipts
  · exact hold key receipt (hsame ▸ hreceipt)
  · rw [hreceipts, Map.lookup_insert_eq] at hreceipt
    split at hreceipt
    · rename_i hkey
      subst hkey
      refine ⟨batch.input.generation, none, ?_, le_refl _⟩
      change partitionFlags? after (.fromInput batch.input.cursor) = _
      rw [heffect.log.partitionFlags, if_pos rfl, hadmitted.activeGeneration]
    · exact hold key receipt hreceipt

theorem ReceiptsInv.step (h : ReceiptsInv crates repository) {op : RepositoryOp}
    (hown : OwnReceipts crates (.ofStep (InMemoryRepo.step crates) repository op))
    : ReceiptsInv crates (InMemoryRepo.step crates op repository).2 := by
  have hstep := step_protocolStep crates repository op
  refine ⟨hstep.inputsKept h.inputs, h.receipts.step hstep, fun input hmem => ?_⟩
  have hold : (input.inboxReceipt crates).key ∈ repository.inboxStore →
      ∃ settled : TrustedProjectionInput,
        (settled.inboxReceipt crates).key = (input.inboxReceipt crates).key
          ∧ InputSettled (InMemoryRepo.step crates op repository).2.projectionProtocol
            settled := by
    intro hbefore
    obtain ⟨settled, hkey, hsettled⟩ := h.inbox input hbefore
    exact ⟨settled, hkey, hsettled.step hstep⟩
  cases step_inboxStep crates repository op with
  | kept hsubset => exact hold (hsubset hmem)
  | received hnew =>
      rcases hnew _ hmem with hbefore | ⟨receipt, hreceipt, hkey⟩
      · exact hold hbefore
      · exact absurd (congrArg Prod.fst hkey) (hown receipt hreceipt input)
  | @settled applied hsettled hinbox =>
      rw [hinbox, Finset.mem_insert] at hmem
      rcases hmem with hkey | hbefore
      · exact ⟨applied, hkey.symm, hsettled⟩
      · exact hold hbefore

theorem receiptsInv_of_reachable {retention : ProjectionChangeRetention}
    (hreach : Reachable (step crates) (OwnReceipts crates) (.new retention) repository)
    : ReceiptsInv crates repository := by
  refine hreach.invariant ⟨?_, ?_, ?_⟩ fun _ op h hown => h.step hown
  · intro _ _ h
    cases h
  · intro _ _ h
    cases h
  · intro _ h
    simp [InMemoryRepository.new] at h

/-- A run whose callers hand in no receipts. -/
theorem reachable_of_no_receipts {ops : List RepositoryOp}
    (h : ∀ op ∈ ops, receivedBy op = [])
    : Reachable (step crates) (OwnReceipts crates) repository
        (finalState (step crates) repository ops) := by
  induction ops generalizing repository with
  | nil => exact .start
  | cons op ops ih =>
      have hown : OwnReceipts crates (.ofStep (step crates) repository op) := by
        intro receipt hreceipt
        change receipt ∈ receivedBy op at hreceipt
        rw [h op List.mem_cons_self] at hreceipt
        cases hreceipt
      exact Reachable.trans (.next op .start hown)
        (ih fun later hlater => h later (List.mem_cons_of_mem _ hlater))

end Runs

end Distributed.InMemoryRepo
