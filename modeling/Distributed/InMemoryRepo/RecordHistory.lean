import Distributed.InMemoryRepo.ChangeLog
import Distributed.InMemoryRepo.StagedEvidence

/-! The change log as the history of the records.
-/

namespace Distributed.InMemoryRepo

open Distributed.CommandLedger Distributed.Foundation Distributed.Platform

open Distributed.ProjectionProtocol Distributed.Repository Distributed.Table

open InMemoryProjectionProtocolState

/-- The partition whose log holds the change. -/
def changeKey (change : ProjectionChange) : PartitionKey :=
  ⟨change.cursor.topology, change.cursor.projectionPartition⟩

/-- The last position of a partition's log; an unknown partition has none. -/
def headOf (key : PartitionKey) (protocol : InMemoryProjectionProtocolState) : Nat :=
  ((protocol.partitions.lookup key).map PartitionState.changeHead).getD 0

/-- The retained changes of a partition that were not in its log before. -/
def newChanges (key : PartitionKey) (before after : InMemoryProjectionProtocolState)
    : List ProjectionChange :=
  match after.partitions.lookup key with
  | none => []
  | some state =>
      state.changesAfter (headOf key before) (state.changeHead - headOf key before)

/-- The changes an event appended. A commit answers with all of its changes. A failure and a
direct projection append at most one, which their own retention never drops. -/
def appendedChanges (event : Event InMemoryRepository RepositoryOp RepositoryAnswer)
    : List ProjectionChange :=
  match event.op with
  | .commitProjection _ =>
      match event.answer with
      | .projected (.ok result) => result.changes
      | _ => []
  | .recordProjectionFailure batch =>
      newChanges (.fromInput batch.input.cursor) event.before.projectionProtocol
        event.after.projectionProtocol
  | .commitCommand _ request =>
      match request.directProjection with
      | none => []
      | some batch =>
          newChanges (directKey batch) event.before.projectionProtocol
            event.after.projectionProtocol
  | _ => []

/-- Every change appended in a run, in order. -/
def appendedLog (events : List (Event InMemoryRepository RepositoryOp RepositoryAnswer))
    : List ProjectionChange :=
  events.flatMap appendedChanges

/-- The changes of one partition. -/
def partitionLog (key : PartitionKey) (log : List ProjectionChange) : List ProjectionChange :=
  log.filter fun change => changeKey change = key

/-- Automatic retention keeps the newest change. -/
def KeepsNewest (key : PartitionKey) (before after : InMemoryProjectionProtocolState) : Prop :=
  ∀ base final, Opens before key base → after.partitions.lookup key = some final →
    final.compactedThrough = base.compactedThrough
      ∨ final.compactedThrough < final.changeHead

/-- Every way an operation can change the logs, the records, the observations and the
failures, with the changes it appends. -/
inductive TracedStep (before after : InMemoryProjectionProtocolState)
    : RepositoryOp → RepositoryAnswer → List ProjectionChange → Prop
  | quiet {op : RepositoryOp} {answer : RepositoryAnswer} :
      (∀ key log, HasLog key log before → HasLog key log after) →
      after.evidence = before.evidence → after.failures = before.failures →
      (∀ batch result, op = .commitProjection batch → answer = .projected (.ok result) →
        result.changes = []) →
      TracedStep before after op answer []
  | committed {batch : ProjectionCommitBatch} {result : ProjectionCommitResult} :
      LogEffect (.fromInput batch.input.cursor) batch.changeEpoch before after result.changes
        none →
      Traced (.fromInput batch.input.cursor) before.evidence after.evidence result.changes →
      after.failures = before.failures →
      TracedStep before after (.commitProjection batch) (.projected (.ok result))
        result.changes
  | failed {batch : ProjectionFailureBatch} {change : ProjectionChange}
      {answer : RepositoryAnswer} :
      LogEffect (.fromInput batch.input.cursor) batch.changeEpoch before after [change]
        (some batch.failureId) →
      KeepsNewest (.fromInput batch.input.cursor) before after →
      after.evidence = before.evidence → change.kind = .failure →
      change.failureId = some batch.failureId →
      before.failures.contains batch.failureId = false →
      after.failures
        = before.failures.insert batch.failureId (failureAt batch change.cursor) →
      TracedStep before after (.recordProjectionFailure batch) answer [change]
  | direct {clock : CommitClock} {request : CausalCommitRequest}
      {batch : SameTransactionProjectionBatch} {change : ProjectionChange}
      {answer : RepositoryAnswer} :
      request.directProjection = some batch →
      LogEffect (directKey batch) batch.changeEpoch before after [change] none →
      KeepsNewest (directKey batch) before after →
      Traced (directKey batch) before.evidence after.evidence [change] →
      after.failures = before.failures →
      TracedStep before after (.commitCommand clock request) answer [change]

section Steps

variable {crates : Crates} {repository : InMemoryRepository}

/-- Every step but a commit, a failure and a command appends nothing. -/
theorem ProtocolStep.traced {before after : InMemoryProjectionProtocolState}
    {op : RepositoryOp} {answer : RepositoryAnswer} (h : ProtocolStep before after op answer)
    (hcommit : ∀ batch, op ≠ .commitProjection batch)
    (hfailure : ∀ batch, op ≠ .recordProjectionFailure batch)
    (hcommand : ∀ clock request, op ≠ .commitCommand clock request)
    : TracedStep before after op answer [] := by
  have hnot : ∀ batch result, op = .commitProjection batch →
      answer = .projected (.ok result) → result.changes = [] :=
    fun batch _ hop => absurd hop (hcommit batch)
  cases h with
  | unchanged hsame _ => exact .quiet (fun _ _ => hsame ▸ id) (hsame ▸ rfl) (hsame ▸ rfl) hnot
  | registered hafter _ _ =>
      refine .quiet (fun key log hlog => ?_) (hafter ▸ rfl) (hafter ▸ rfl) hnot
      exact (HasLog.congr (by rw [hafter])).mpr hlog
  | applied _ _ _ => exact absurd rfl (hcommit _)
  | redelivered _ _ _ => exact absurd rfl (hfailure _)
  | failed _ _ _ => exact absurd rfl (hfailure _)
  | repaired heffect =>
      refine .quiet (fun key log hlog => ?_) ?_ ?_ hnot
      · exact heffect.writes.hasLog hlog heffect.known fun log hok => hok.refence _ _ _
      · rw [heffect.after_eq]
        rfl
      · rw [heffect.after_eq]
  | compacted hstate hcompacts _ =>
      obtain ⟨final, hretains, hwrites, hafter⟩ := hcompacts.writes hstate
      refine .quiet (fun key log hlog => ?_) (hafter ▸ rfl) (hafter ▸ rfl) hnot
      exact hwrites.hasLog hlog hstate fun log hok => hok.retains hretains
  | direct _ _ _ => exact absurd rfl (hcommand _ _)

/-- What automatic retention drops ends before the newest change. -/
theorem retainChangeSuffix_newest {protocol next : InMemoryProjectionProtocolState}
    {key : PartitionKey} {retention : ProjectionChangeRetention} {state final : PartitionState}
    (hstate : protocol.partitions.lookup key = some state) (hhead : 0 < state.changeHead)
    (h : protocol.retainChangeSuffix key retention = .ok next)
    (hfinal : next.partitions.lookup key = some final)
    : final.compactedThrough = state.compactedThrough
      ∨ final.compactedThrough < final.changeHead := by
  simp only [retainChangeSuffix, compactChangesThrough, hstate, Result.bind_eq_ok_iff,
    Result.error_bind, Result.guard_eq_ok_iff] at h
  obtain ⟨⟨compacted, following⟩, ⟨-, hcompact⟩, h⟩ := h
  cases h
  split at hcompact
  · cases hcompact
    cases hstate.symm.trans hfinal
    exact .inl rfl
  · simp only [Result.guard_eq_ok_iff] at hcompact
    obtain ⟨-, hcompact⟩ := hcompact
    cases hcompact
    rw [Map.lookup_insert_eq, if_pos rfl] at hfinal
    cases hfinal
    exact .inr (Nat.sub_lt hhead retention.valid.1)

/-- One appended change is still retained after the operation. -/
theorem KeepsNewest.of_retains {before opened staged next : InMemoryProjectionProtocolState}
    {key : PartitionKey} {changeEpoch : ProjectionEpoch} {retention : ProjectionChangeRetention}
    (hopens : before.ensurePartition key changeEpoch = .ok opened)
    (hstaged : ∀ base, opened.partitions.lookup key = some base →
      ∃ state, staged.partitions.lookup key = some state
        ∧ state.compactedThrough = base.compactedThrough
        ∧ state.changeHead = base.changeHead + 1)
    (hretains : staged.retainChangeSuffix key retention = .ok next)
    : KeepsNewest key before next := by
  intro base final hbase hfinal
  obtain ⟨stored, -, hlookup, ⟨hknown, -⟩ | ⟨hunknown, hnew, -⟩⟩ := ensurePartition_ok hopens
  all_goals
    obtain ⟨state, hstate, hthrough, hhead⟩ := hstaged stored hlookup
    refine (retainChangeSuffix_newest hstate (hhead ▸ Nat.succ_pos _) hretains hfinal).imp_left
      fun hkept => hkept.trans (hthrough.trans ?_)
  · obtain hbase | ⟨hbase, -⟩ := hbase
    · cases hknown.symm.trans hbase
      rfl
    · cases hknown.symm.trans hbase
  · obtain hbase | ⟨-, hbase⟩ := hbase
    · cases hunknown.symm.trans hbase
    · rw [hnew, hbase]
      rfl

theorem report_tracedStep {Error α : Type} {op : RepositoryOp}
    {wrap : Except Error α → RepositoryAnswer}
    {operation : Txn InMemoryRepository Error α} (hatomic : operation.AllOrNothing)
    (hwrap : ∀ error result, wrap (.error error) ≠ .projected (.ok result))
    (hok : ∀ value next, operation repository = (.ok value, next) →
      ∃ changes, TracedStep repository.projectionProtocol next.projectionProtocol op
        (wrap (.ok value)) changes)
    : ∃ changes, TracedStep repository.projectionProtocol
        (report wrap operation repository).2.projectionProtocol op
        (report wrap operation repository).1 changes := by
  unfold report
  rcases hrun : operation repository with ⟨error | value, next⟩
  · have hsame := hatomic repository error (by rw [hrun])
    rw [hrun] at hsame
    cases hsame
    exact ⟨[], .quiet (fun _ _ => id) rfl rfl fun _ result _ hanswer =>
      absurd hanswer (hwrap error result)⟩
  · exact hok value next hrun

theorem commitProjection_tracedStep (batch : ProjectionCommitBatch)
    : ∃ changes, TracedStep repository.projectionProtocol
        (step crates (.commitProjection batch) repository).2.projectionProtocol
        (.commitProjection batch) (step crates (.commitProjection batch) repository).1
        changes := by
  refine report_tracedStep (Txn.staged_allOrNothing _) (fun _ _ => nofun) ?_
  intro result next hrun
  obtain ⟨hvalid, hpartition, ⟨checkpoint, -, rfl, rfl⟩ | ⟨checkpoint, -, rfl, rfl⟩
    | ⟨hclassify, hretry, -, touched, rows, protocol, hstage, rfl⟩⟩ :=
      commitProjection_answer hrun
  · exact ⟨[], .quiet (fun _ _ => id) rfl rfl (by rintro _ _ - ⟨⟩; rfl)⟩
  · exact ⟨[], .quiet (fun _ _ => id) rfl rfl (by rintro _ _ - ⟨⟩; rfl)⟩
  · have hadmitted : Admitted repository.projectionProtocol batch.input :=
      .of_checks hpartition hclassify hretry
    obtain ⟨opened, bound, staged, final, checkpoint, hstaged⟩ :=
      stageProjectionCommit_ok hstage
    have heffect := hstaged.effect (ProjectionCommitBatch.validate_ok hvalid)
      fun state hstate => (hadmitted.running state hstate).2
    exact ⟨_, .committed heffect.log (hstaged.traced hvalid) heffect.failures⟩

theorem FailureStaged.keepsNewest {retention : ProjectionChangeRetention}
    {protocol next opened logged : InMemoryProjectionProtocolState}
    {batch : ProjectionFailureBatch} {failure : ProjectionFailure} {change : ProjectionChange}
    (h : FailureStaged retention protocol batch failure next opened logged change)
    : KeepsNewest (.fromInput batch.input.cursor) protocol next := by
  refine .of_retains h.opens (fun base hbase => ?_) h.retains
  obtain ⟨state, hstate, -, -, hlogged⟩ := appendChange_ok h.appends
  cases hbase.symm.trans hstate
  have hfound : logged.partitions.lookup (.fromInput batch.input.cursor)
      = some (base.appended change) := by
    rw [hlogged]
    exact AList.lookup_insert _
  exact ⟨_, (recordFailedInput_writes failure hfound).lookup_self, rfl, rfl⟩

theorem recordProjectionFailure_tracedStep (batch : ProjectionFailureBatch)
    : ∃ changes, TracedStep repository.projectionProtocol
        (step crates (.recordProjectionFailure batch) repository).2.projectionProtocol
        (.recordProjectionFailure batch)
        (step crates (.recordProjectionFailure batch) repository).1 changes := by
  refine report_tracedStep (Txn.staged_allOrNothing _) (fun _ _ => nofun) ?_
  intro failure next hrun
  obtain ⟨-, rfl⟩ | ⟨-, hfresh, -, -, -, -, protocol, hstage, rfl⟩ :=
    recordProjectionFailure_ok hrun
  · exact ⟨[], .quiet (fun _ _ => id) rfl rfl fun _ _ => nofun⟩
  · obtain ⟨opened, logged, change, hstaged⟩ := stageProjectionFailure_parts hstage
    obtain ⟨-, hkind, -, -, hid, -⟩ := appendChange_evidence hstaged.appends
    have heffect := hstaged.effect
    refine ⟨_, .failed heffect.log hstaged.keepsNewest ?_ hkind hid hfresh ?_⟩
    · rw [InMemoryProjectionProtocolState.evidence, heffect.records, heffect.observations]
      rfl
    · rw [heffect.failures, hstaged.answers]

theorem DirectStaged.keepsNewest {retention : ProjectionChangeRetention}
    {rows stagedRows : RelationalRows}
    {protocol next opened bound logged : InMemoryProjectionProtocolState}
    {batch : SameTransactionProjectionBatch} {declaration : ProjectionModelOwnership}
    {mutation : SameTransactionProjectionMutation} {row : TableRowMutation}
    {revision : RecordRevision} {change : ProjectionChange}
    (h : DirectStaged crates retention rows protocol batch stagedRows next opened bound logged
      declaration mutation row revision change)
    : KeepsNewest (directKey batch) protocol next := by
  refine .of_retains h.opens (fun base hbase => ?_) h.retains
  obtain ⟨-, hbound⟩ := registerSameTransactionOwnership_ok h.binds
  obtain ⟨state, hstate, -, -, hlogged⟩ := appendChange_ok h.appends
  rw [hbound] at hstate
  cases hbase.symm.trans hstate
  refine ⟨base.appended change, ?_, rfl, rfl⟩
  rw [hlogged]
  exact AList.lookup_insert _

theorem commitCommand_tracedStep (clock : CommitClock) (request : CausalCommitRequest)
    : ∃ changes, TracedStep repository.projectionProtocol
        (step crates (.commitCommand clock request) repository).2.projectionProtocol
        (.commitCommand clock request)
        (step crates (.commitCommand clock request) repository).1 changes := by
  refine report_tracedStep (commitCommand_allOrNothing request) (fun _ _ h => by cases h) ?_
  intro streams next hrun
  rw [commitCommand, Txn.lift_bind_eq_ok] at hrun
  obtain ⟨completion, -, hcommit⟩ := hrun
  obtain ⟨staged, hstaged, rfl, -⟩ := commitBatchInner_ok (Txn.mapError_eq_ok.mp hcommit)
  cases hdirect : request.directProjection with
  | none =>
      rw [hdirect] at hstaged
      rw [StagedBatch.publish, hstaged.direct_none.2]
      exact ⟨[], .quiet (fun _ _ => id) rfl rfl fun _ _ h => by cases h⟩
  | some projection =>
      rw [hdirect] at hstaged
      obtain ⟨planned, evidence, protocol, -, hstage, hprotocol⟩ := hstaged.direct_some
      obtain ⟨opened, bound, logged, declaration, mutation, row, revision, change, hparts,
        hfresh, -⟩ := stageSameTransactionProjection_parts hstage
      have heffect := hparts.effect
      rw [StagedBatch.publish, hprotocol]
      exact ⟨_, .direct hdirect heffect.log hparts.keepsNewest (hparts.traced hfresh)
        heffect.failures⟩

theorem step_tracedStep (crates : Crates) (repository : InMemoryRepository)
    (op : RepositoryOp)
    : ∃ changes, TracedStep repository.projectionProtocol
        (step crates op repository).2.projectionProtocol op (step crates op repository).1
        changes := by
  have hstep := step_protocolStep crates repository op
  cases op with
  | commitProjection batch => exact commitProjection_tracedStep batch
  | recordProjectionFailure batch => exact recordProjectionFailure_tracedStep batch
  | commitCommand clock request => exact commitCommand_tracedStep clock request
  | _ => exact ⟨[], hstep.traced (fun _ => nofun) (fun _ => nofun) (fun _ _ => nofun)⟩

end Steps

/-- The log holds exactly the changes each partition has appended. -/
def HasLogs (log : List ProjectionChange) (protocol : InMemoryProjectionProtocolState) : Prop :=
  ∀ key, HasLog key (partitionLog key log) protocol

section Logs

variable {before after : InMemoryProjectionProtocolState} {log : List ProjectionChange}
  {key : PartitionKey}

theorem HasLog.head (h : HasLog key log before) : headOf key before = log.length := by
  unfold headOf
  cases hstate : before.partitions.lookup key with
  | none =>
      rw [HasLog, hstate] at h
      cases (show log = [] from h)
      rfl
  | some state => exact ((HasLog.of_known hstate).mp h).head

/-- What the log gained is what is read after its old head, as long as it is retained. -/
theorem HasLog.newChanges_eq {more : List ProjectionChange} (hbefore : HasLog key log before)
    (hafter : HasLog key (log ++ more) after)
    (hkept : ∀ state, after.partitions.lookup key = some state →
      state.compactedThrough ≤ log.length)
    : newChanges key before after = more := by
  unfold newChanges
  cases hstate : after.partitions.lookup key with
  | none =>
      rw [HasLog, hstate] at hafter
      exact (List.append_eq_nil_iff.mp (show log ++ more = [] from hafter)).2.symm
  | some state =>
      have hok := (HasLog.of_known hstate).mp hafter
      dsimp only
      rw [hbefore.head, hok.changesAfter (hkept state hstate), hok.head, List.length_append,
        Nat.add_sub_cancel_left, List.drop_left, List.take_length]

theorem HasLog.newChanges_nil (hbefore : HasLog key log before) (hafter : HasLog key log after)
    : newChanges key before after = [] := by
  refine hbefore.newChanges_eq (by rwa [List.append_nil]) fun state hstate => ?_
  exact ((HasLog.of_known hstate).mp hafter).floor

/-- The one change of an operation that keeps its newest change. -/
theorem KeepsNewest.newChanges_eq {change : ProjectionChange}
    (h : KeepsNewest key before after) (hbefore : HasLog key log before)
    (hafter : HasLog key (log ++ [change]) after)
    : newChanges key before after = [change] := by
  refine hbefore.newChanges_eq hafter fun state hstate => ?_
  have hhead := ((HasLog.of_known hstate).mp hafter).head
  rw [List.length_append, List.length_singleton] at hhead
  obtain ⟨base, hopens⟩ : ∃ base, Opens before key base := by
    cases hbase : before.partitions.lookup key with
    | some base => exact ⟨base, .inl hbase⟩
    | none => exact ⟨.new state.changeEpoch, .inr ⟨hbase, rfl⟩⟩
  rcases h base state hopens hstate with hkept | hkept
  · rw [hkept]
    exact (hopens.logOk hbefore).floor
  · omega

theorem Follows.changeKey {state : PartitionState} {changes : List ProjectionChange}
    (h : Follows key state changes)
    : ∀ change ∈ changes, changeKey change = key := by
  induction changes generalizing state with
  | nil => simp
  | cons first rest ih =>
      intro change hchange
      rcases List.mem_cons.mp hchange with rfl | hchange
      · rw [InMemoryRepo.changeKey, h.1.topology, h.1.partition]
      · exact ih h.2 change hchange

theorem LogEffect.changeKey {epoch : ProjectionEpoch} {changes : List ProjectionChange}
    {stopped : Option String} (h : LogEffect key epoch before after changes stopped)
    : ∀ change ∈ changes, changeKey change = key := by
  obtain ⟨base, final, -, -, hfollows, -⟩ := h.partition
  exact hfollows.changeKey

theorem partitionLog_append {changes : List ProjectionChange} {written : PartitionKey}
    (h : ∀ change ∈ changes, changeKey change = written)
    : partitionLog key (log ++ changes)
      = if key = written then partitionLog key log ++ changes else partitionLog key log := by
  unfold partitionLog
  rw [List.filter_append]
  split
  · rename_i hkey
    have hall : changes.filter (fun change => changeKey change = key) = changes := by
      refine List.filter_eq_self.mpr fun change hchange => ?_
      simp [h change hchange, hkey]
    rw [hall]
  · rename_i hkey
    have hnone : changes.filter (fun change => changeKey change = key) = [] := by
      refine List.filter_eq_nil_iff.mpr fun change hchange => ?_
      simp [h change hchange, Ne.symm hkey]
    rw [hnone, List.append_nil]

theorem LogEffect.hasLogs {epoch : ProjectionEpoch} {changes : List ProjectionChange}
    {stopped : Option String} (hlogs : HasLogs log before)
    (h : LogEffect key epoch before after changes stopped)
    : HasLogs (log ++ changes) after := by
  intro other
  rw [partitionLog_append h.changeKey]
  exact h.extendsLog (hlogs other)

theorem TracedStep.hasLogs {op : RepositoryOp} {answer : RepositoryAnswer}
    {changes : List ProjectionChange} (hlogs : HasLogs log before)
    (h : TracedStep before after op answer changes)
    : HasLogs (log ++ changes) after := by
  cases h with
  | quiet hkept _ _ _ =>
      rw [List.append_nil]
      exact fun key => hkept key _ (hlogs key)
  | committed hlog _ _ => exact hlog.hasLogs hlogs
  | failed hlog _ _ _ _ _ _ => exact hlog.hasLogs hlogs
  | direct _ hlog _ _ _ => exact hlog.hasLogs hlogs

end Logs

/-- The traced changes are the ones that can be read off the event. -/
theorem TracedStep.appendedChanges_eq {before after : InMemoryRepository} {op : RepositoryOp}
    {answer : RepositoryAnswer} {log changes : List ProjectionChange}
    (hlogs : HasLogs log before.projectionProtocol)
    (h : TracedStep before.projectionProtocol after.projectionProtocol op answer changes)
    : appendedChanges ⟨before, op, answer, after⟩ = changes := by
  have hafter := h.hasLogs hlogs
  cases h with
  | quiet hkept _ _ hresult =>
      have hnone : ∀ key, newChanges key before.projectionProtocol after.projectionProtocol
          = [] := fun key => (hlogs key).newChanges_nil (hkept key _ (hlogs key))
      unfold appendedChanges
      cases op with
      | commitProjection batch =>
          dsimp only
          split
          · exact hresult batch _ rfl rfl
          · rfl
      | recordProjectionFailure batch => exact hnone _
      | commitCommand clock request =>
          dsimp only
          split
          · rfl
          · exact hnone _
      | _ => rfl
  | committed _ _ _ => rfl
  | @failed batch change _ hlog hnewest _ _ _ _ _ =>
      have hgrown := hafter (.fromInput batch.input.cursor)
      rw [partitionLog_append hlog.changeKey, if_pos rfl] at hgrown
      exact hnewest.newChanges_eq (hlogs _) hgrown
  | @direct clock request batch change _ hdirect hlog hnewest _ _ =>
      have hgrown := hafter (directKey batch)
      rw [partitionLog_append hlog.changeKey, if_pos rfl] at hgrown
      simp only [appendedChanges, hdirect]
      exact hnewest.newChanges_eq (hlogs _) hgrown

/-- The record changes of one scope. -/
def recordChanges (scope : ProjectionRecordScope) (log : List ProjectionChange)
    : List ProjectionChange :=
  log.filter fun change => writesRecord change.kind && change.scope = some scope

/-- The metadata a record change stands for. -/
def changedRecord (change : ProjectionChange) : Option ProjectionRecordMetadata :=
  change.revision.map (recordLeft change)

/-- The change writes the next revision over the metadata. -/
def Continues (current : Option ProjectionRecordMetadata) (change : ProjectionChange) : Prop :=
  ∃ revision, change.revision = some revision ∧ NextRevision revision current change.kind

/-- The changes of a record are its history up to the stored metadata: the first creates it,
each next one continues the one before, and the last is what is stored. -/
structure ExactHistory (changes : List ProjectionChange)
    (stored : Option ProjectionRecordMetadata) : Prop where
  first : ∀ change, changes.head? = some change → Continues none change
  chain : changes.IsChain fun previous next => Continues (changedRecord previous) next
  last : stored = changes.getLast?.bind changedRecord

theorem ExactHistory.nil : ExactHistory [] none := ⟨fun _ h => by simp at h, .nil, rfl⟩

theorem ExactHistory.append {changes : List ProjectionChange} {change : ProjectionChange}
    {stored : Option ProjectionRecordMetadata} {revision : RecordRevision}
    (h : ExactHistory changes stored) (hrevision : change.revision = some revision)
    (hnext : NextRevision revision stored change.kind)
    : ExactHistory (changes ++ [change]) (some (recordLeft change revision)) where
  first other hother := by
    cases changes with
    | nil =>
        cases hother
        cases (show stored = none from h.last)
        exact ⟨revision, hrevision, hnext⟩
    | cons head tail => exact h.first other hother
  chain := by
    refine List.IsChain.append h.chain (.singleton _) fun previous hprevious next hchange => ?_
    cases hchange
    refine ⟨revision, hrevision, ?_⟩
    rw [h.last, show changes.getLast? = some previous from hprevious] at hnext
    exact hnext
  last := by simp [changedRecord, hrevision]

/-- Every record is stored as the log says. -/
def Recorded (log : List ProjectionChange)
    (records : Map ProjectionRecordScope ProjectionRecordMetadata) : Prop :=
  ∀ scope, ExactHistory (recordChanges scope log) (records.lookup scope)

theorem recordChanges_append (scope : ProjectionRecordScope)
    (log changes : List ProjectionChange)
    : recordChanges scope (log ++ changes)
      = recordChanges scope log ++ recordChanges scope changes :=
  List.filter_append ..

theorem Traced.recorded {key : PartitionKey} {start stored : StoredEvidence}
    {log changes : List ProjectionChange} (hlog : Recorded log start.records)
    (h : Traced key start stored changes)
    : Recorded (log ++ changes) stored.records := by
  induction h with
  | nil => rwa [List.append_nil]
  | @record stored changes change scope revision _ _ hscope hrevision _ hnext ih =>
      intro other
      rw [← List.append_assoc, recordChanges_append, Map.lookup_insert_eq]
      split
      · rename_i hother
        have hwrites : recordChanges other [change] = [change] := by
          simp [recordChanges, hnext.writesRecord, hscope, hother]
        rw [hwrites]
        exact (ih other).append hrevision (hother ▸ hnext)
      · rename_i hother
        have hskips : recordChanges other [change] = [] := by
          simp [recordChanges, hscope, Ne.symm hother]
        rw [hskips, List.append_nil]
        exact ih other
  | @note stored changes change _ hkind ih =>
      intro other
      have hskips : recordChanges other [change] = [] := by simp [recordChanges, hkind]
      rw [← List.append_assoc, recordChanges_append, hskips, List.append_nil]
      exact ih other
  | observe _ _ _ _ _ _ ih => exact ih

theorem TracedStep.recorded {before after : InMemoryProjectionProtocolState}
    {op : RepositoryOp} {answer : RepositoryAnswer} {log changes : List ProjectionChange}
    (hlog : Recorded log before.records) (h : TracedStep before after op answer changes)
    : Recorded (log ++ changes) after.records := by
  cases h with
  | quiet _ hevidence _ _ =>
      rw [List.append_nil, show after.records = before.records from
        congrArg StoredEvidence.records hevidence]
      exact hlog
  | committed _ htraced _ => exact htraced.recorded hlog
  | @failed _ change _ _ _ hevidence hkind _ _ _ =>
      have hnote : Traced ⟨change.cursor.topology, change.cursor.projectionPartition⟩
          before.evidence after.evidence ([] ++ [change]) :=
        hevidence ▸ .note .nil (by rw [hkind]; rfl)
      exact hnote.recorded hlog
  | direct _ _ _ htraced _ => exact htraced.recorded hlog

/-- In every run the changes that were ever appended are the log of every partition and the
exact history of every record. -/
theorem change_log_is_record_history (crates : Crates) (retention : ProjectionChangeRetention)
    (ops : List RepositoryOp)
    : HasLogs (appendedLog (history (step crates) (.new retention) ops))
        (finalState (step crates) (.new retention) ops).projectionProtocol
      ∧ ∀ scope, ExactHistory
        (recordChanges scope (appendedLog (history (step crates) (.new retention) ops)))
        ((finalState (step crates) (.new retention) ops).projectionProtocol.records.lookup
          scope) := by
  have hstart : HasLogs [] (InMemoryRepository.new retention).projectionProtocol
      ∧ Recorded [] (InMemoryRepository.new retention).projectionProtocol.records :=
    ⟨fun _ => rfl, fun _ => .nil⟩
  refine history_emitted (step crates) (fun log repository =>
    HasLogs log repository.projectionProtocol
      ∧ Recorded log repository.projectionProtocol.records) appendedChanges ?_ hstart ops
  rintro log repository op ⟨hlogs, hrecorded⟩
  obtain ⟨changes, hstep⟩ := step_tracedStep crates repository op
  have happended : appendedChanges (.ofStep (step crates) repository op) = changes :=
    hstep.appendedChanges_eq hlogs
  rw [happended]
  exact ⟨hstep.hasLogs hlogs, hstep.recorded hrecorded⟩

end Distributed.InMemoryRepo
