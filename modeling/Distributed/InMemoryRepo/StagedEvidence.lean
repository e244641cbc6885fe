import Distributed.InMemoryRepo.ProtocolTransitions

/-! The records and observations an operation writes, change by change.
-/

namespace Distributed.InMemoryRepo

open Distributed.Foundation Distributed.Platform Distributed.ProjectionProtocol

open Distributed.Table InMemoryProjectionProtocolState

/-- The change writes a record. -/
def writesRecord : ProjectionChangeKind → Bool
  | .recordUpsert | .recordDelete | .recordRecreate => true
  | .checkpoint | .observation | .failure => false

/-- What a record change leaves in the record map. -/
def recordLeft (change : ProjectionChange) (revision : RecordRevision)
    : ProjectionRecordMetadata :=
  ⟨revision, change.kind = .recordDelete, change.cursor⟩

/-- The revision a change of a kind may write over the current metadata of its record. -/
inductive NextRevision (next : RecordRevision)
    : Option ProjectionRecordMetadata → ProjectionChangeKind → Prop
  | first : next.incarnation = 1 → next.revision = 1 → NextRevision next none .recordUpsert
  | upsert {current : ProjectionRecordMetadata} : current.tombstone = false →
      next.incarnation = current.revision.incarnation →
      next.revision = current.revision.revision + 1 →
      NextRevision next (some current) .recordUpsert
  | delete {current : ProjectionRecordMetadata} : current.tombstone = false →
      next.incarnation = current.revision.incarnation →
      next.revision = current.revision.revision + 1 →
      NextRevision next (some current) .recordDelete
  | recreate {current : ProjectionRecordMetadata} : current.tombstone = true →
      next.incarnation = current.revision.incarnation + 1 → next.revision = 1 →
      NextRevision next (some current) .recordRecreate

theorem NextRevision.writesRecord {next : RecordRevision}
    {current : Option ProjectionRecordMetadata} {kind : ProjectionChangeKind}
    (h : NextRevision next current kind)
    : writesRecord kind = true := by
  cases h <;> rfl

/-- A mutation of a record whose exact revision was presented. -/
theorem nextOfExact_ok {scope : ProjectionRecordScope} {metadata : ProjectionRecordMetadata}
    {kind : ProjectionMutationKind} {revision : RecordRevision} {tombstone : Bool}
    (h : nextOfExact scope metadata kind = .ok (revision, tombstone))
    : revision.scope = scope ∧ tombstone = decide (kind = .delete)
      ∧ NextRevision revision (some metadata) (changeKindForMutation kind) := by
  cases kind <;> cases htombstone : metadata.tombstone <;>
    simp only [nextOfExact, htombstone, Result.bind_eq_ok_iff, liftValidation,
      Result.mapError_eq_ok_iff, reduceCtorEq] at h
  all_goals
    obtain ⟨next, hnext, _, hrevision, h⟩ := h
    cases h
    cases checkedNext_ok hnext
    obtain ⟨hscope, hincarnation, hnumber⟩ := RecordRevision.new_ok hrevision
    refine ⟨hscope, rfl, ?_⟩
  · exact .upsert htombstone hincarnation hnumber
  · exact .delete htombstone hincarnation hnumber
  · exact .recreate htombstone hincarnation hnumber

/-- What the revision of an asynchronous mutation is. -/
theorem nextRecord_ok {protocol : InMemoryProjectionProtocolState}
    {scope : ProjectionRecordScope} {expectation : ProjectionRecordExpectation}
    {kind : ProjectionMutationKind} {revision : RecordRevision} {tombstone : Bool}
    (h : protocol.nextRecord scope expectation kind = .ok (revision, tombstone))
    : revision.scope = scope ∧ tombstone = decide (kind = .delete)
      ∧ NextRevision revision (protocol.records.lookup scope) (changeKindForMutation kind) := by
  unfold nextRecord at h
  cases hcurrent : protocol.records.lookup scope with
  | none =>
      cases expectation with
      | exact expected => simp [hcurrent] at h
      | missing =>
          simp only [hcurrent] at h
          split at h
          · rename_i hkind
            simp only [Result.bind_eq_ok_iff, liftValidation, Result.mapError_eq_ok_iff] at h
            obtain ⟨_, hrevision, h⟩ := h
            cases h
            obtain ⟨hscope, hincarnation, hnumber⟩ := RecordRevision.new_ok hrevision
            subst hkind
            exact ⟨hscope, rfl, .first hincarnation hnumber⟩
          · cases h
  | some metadata =>
      cases expectation with
      | missing =>
          simp only [hcurrent] at h
          split at h <;> cases h
      | exact expected =>
          simp only [hcurrent, Result.guard_eq_ok_iff] at h
          exact nextOfExact_ok h.2

/-- What the revision of a direct upsert is. -/
theorem nextDirectRevision_ok {scope : ProjectionRecordScope}
    {current : Option ProjectionRecordMetadata} {rowExists : Bool} {revision : RecordRevision}
    (h : nextDirectRevision scope current rowExists = .ok revision)
    : revision.scope = scope ∧ NextRevision revision current .recordUpsert := by
  cases current with
  | none =>
      simp only [nextDirectRevision, Result.guard_eq_ok_iff, liftValidation,
        Result.mapError_eq_ok_iff] at h
      obtain ⟨hscope, hincarnation, hnumber⟩ := RecordRevision.new_ok h.2
      exact ⟨hscope, .first hincarnation hnumber⟩
  | some metadata =>
      simp only [nextDirectRevision, Result.guard_eq_ok_iff, Result.bind_eq_ok_iff,
        liftValidation, Result.mapError_eq_ok_iff] at h
      obtain ⟨hlive, -, next, hnext, h⟩ := h
      cases checkedNext_ok hnext
      obtain ⟨hscope, hincarnation, hnumber⟩ := RecordRevision.new_ok h
      exact ⟨hscope, .upsert (by simpa using hlive) hincarnation hnumber⟩

/-- The records and observations of a protocol state. -/
structure StoredEvidence where
  records : Map ProjectionRecordScope ProjectionRecordMetadata
  observations : Map ObservationKey ProjectionObservation

def InMemoryProjectionProtocolState.evidence (protocol : InMemoryProjectionProtocolState)
    : StoredEvidence :=
  ⟨protocol.records, protocol.observations⟩

/-- An observation under its key: a record observation saw the stored revision, a dependency
none. -/
structure Observes (records : Map ProjectionRecordScope ProjectionRecordMetadata)
    (observed : ObservationKey) (observation : ProjectionObservation) : Prop where
  causation : observation.causationId = observed.causationId
  kind : observation.kind = observed.kind
  scope : observation.scope = observed.scope
  revision : observed.kind = .dependency ∧ observation.revision = none
    ∨ observed.kind = .record ∧ ∃ metadata, records.lookup observed.scope = some metadata
      ∧ observation.revision = some metadata.revision

/-- Staging in one partition wrote these changes, with the records and observations they
stand for. -/
inductive Traced (key : PartitionKey) (start : StoredEvidence)
    : StoredEvidence → List ProjectionChange → Prop
  | nil : Traced key start start []
  | record {stored : StoredEvidence} {changes : List ProjectionChange}
      {change : ProjectionChange} {scope : ProjectionRecordScope} {revision : RecordRevision} :
      Traced key start stored changes → PartitionKey.ofScope scope = key →
      change.scope = some scope → change.revision = some revision → revision.scope = scope →
      NextRevision revision (stored.records.lookup scope) change.kind →
      Traced key start
        { stored with records := stored.records.insert scope (recordLeft change revision) }
        (changes ++ [change])
  | note {stored : StoredEvidence} {changes : List ProjectionChange}
      {change : ProjectionChange} :
      Traced key start stored changes → writesRecord change.kind = false →
      Traced key start stored (changes ++ [change])
  | observe {stored : StoredEvidence} {changes : List ProjectionChange}
      (observed : ObservationKey) {observation : ProjectionObservation} :
      Traced key start stored changes → PartitionKey.ofScope observed.scope = key →
      stored.observations.contains observed = false →
      Observes stored.records observed observation →
      ((∃ metadata, stored.records.lookup observed.scope = some metadata
          ∧ observation.change = metadata.change)
        ∨ ∃ change ∈ changes, observation.change = change.cursor) →
      Traced key start
        { stored with observations := stored.observations.insert observed observation } changes

section Commit

variable {crates : Crates} {input : TrustedProjectionInput} {rows : RelationalRows}
  {start : StoredEvidence} {staged next : StagedCommit}

/-- A commit's staging so far has been traced. -/
def TracedCommit (key : PartitionKey) (start : StoredEvidence) (staged : StagedCommit) : Prop :=
  Traced key start staged.protocol.evidence staged.changes

theorem appendChange_evidence {protocol following : InMemoryProjectionProtocolState}
    {key : PartitionKey} {pending : PendingChange} {change : ProjectionChange}
    (h : protocol.appendChange key pending = .ok (change, following))
    : following.evidence = protocol.evidence ∧ change.kind = pending.kind
      ∧ change.scope = pending.scope ∧ change.revision = pending.revision
      ∧ change.failureId = pending.failureId ∧ change.causationId = pending.causationId := by
  obtain ⟨state, -, -, hchange, rfl⟩ := appendChange_ok h
  refine ⟨rfl, ?_, ?_, ?_, ?_, ?_⟩
  all_goals rw [hchange]

theorem stageMutation_traced {mutation : ProjectionRecordMutation}
    (hscope : PartitionKey.ofScope mutation.scope = .fromInput input.cursor)
    (htraced : TracedCommit (.fromInput input.cursor) start staged)
    (h : stageMutation crates input rows staged mutation = .ok next)
    : TracedCommit (.fromInput input.cursor) start next := by
  obtain ⟨revision, tombstone, change, protocol, hrecord, -, happend, -, rfl⟩ :=
    stageMutation_ok h
  obtain ⟨hevidence, hkind, hchangeScope, hrevision, -, -⟩ := appendChange_evidence happend
  obtain ⟨hrevisionScope, htombstone, hnext⟩ := nextRecord_ok hrecord
  have hwrite := Traced.record htraced hscope hchangeScope hrevision hrevisionScope
    (hkind ▸ hnext)
  have hleft : recordLeft change revision = ⟨revision, tombstone, change.cursor⟩ := by
    rw [recordLeft, hkind, htombstone]
    cases mutation.kind <;> rfl
  have hrecords : protocol.records = staged.protocol.records :=
    congrArg StoredEvidence.records hevidence
  have hobservations : protocol.observations = staged.protocol.observations :=
    congrArg StoredEvidence.observations hevidence
  rw [hleft] at hwrite
  simpa [TracedCommit, InMemoryProjectionProtocolState.evidence, hrecords, hobservations]
    using hwrite

theorem append_traced {key : PartitionKey} {pending : PendingChange}
    {change : ProjectionChange} (hnote : writesRecord pending.kind = false)
    (htraced : TracedCommit key start staged)
    (h : staged.append key pending = .ok (change, next))
    : TracedCommit key start next ∧ change ∈ next.changes
      ∧ next.protocol.evidence = staged.protocol.evidence := by
  obtain ⟨protocol, happend, rfl⟩ := StagedCommit.append_ok h
  obtain ⟨hevidence, hkind, -⟩ := appendChange_evidence happend
  refine ⟨?_, by simp, hevidence⟩
  have hwrite := Traced.note htraced (hkind ▸ hnote)
  rw [TracedCommit]
  exact hevidence ▸ hwrite

/-- What a well-formed observation request saw: no revision, or the one that is stored. -/
theorem observedRevision_ok {protocol : InMemoryProjectionProtocolState}
    {request : ProjectionObservationRequest} {scopes : List ProjectionRecordScope}
    {revision : Option RecordRevision} {cursor : Option ProjectionChangeCursor}
    (htarget : validateObservationTarget scopes request = .ok ())
    (h : observedRevision protocol request = .ok (revision, cursor))
    : request.kind = .dependency ∧ revision = none ∧ cursor = none
      ∨ request.kind = .record ∧ ∃ metadata,
        protocol.records.lookup request.scope = some metadata
        ∧ revision = some metadata.revision ∧ ∀ change, cursor = some change →
          change = metadata.change := by
  obtain ⟨kind, target⟩ := request
  cases target with
  | stagedRecord scope =>
      cases kind with
      | dependency => simp [validateObservationTarget] at htarget
      | record =>
          simp only [observedRevision] at h
          split at h
          · rename_i metadata hmetadata
            cases h
            exact .inr ⟨rfl, metadata, hmetadata, rfl, fun _ h => (Option.some.inj h).symm⟩
          · cases h
  | existingRecord expected =>
      cases kind with
      | dependency => simp [validateObservationTarget] at htarget
      | record =>
          simp only [observedRevision] at h
          split at h
          · cases h
          · rename_i metadata hmetadata
            simp only [Result.guard_eq_ok_iff, not_not] at h
            obtain ⟨rfl, h⟩ := h
            cases h
            exact .inr ⟨rfl, metadata, hmetadata, rfl, nofun⟩
  | dependency scope =>
      cases h
      cases kind with
      | dependency => exact .inl ⟨rfl, rfl, rfl⟩
      | record => simp [validateObservationTarget] at htarget

theorem observationChange_traced {request : ProjectionObservationRequest}
    {revision : Option RecordRevision} {cursor : Option ProjectionChangeCursor}
    {change : ProjectionChangeCursor}
    (htraced : TracedCommit (.fromInput input.cursor) start staged)
    (h : observationChange input staged request revision cursor = .ok (change, next))
    : TracedCommit (.fromInput input.cursor) start next
      ∧ next.protocol.evidence = staged.protocol.evidence
      ∧ (cursor = some change ∨ ∃ appended ∈ next.changes, change = appended.cursor) := by
  cases cursor with
  | some cursor =>
      cases h
      exact ⟨htraced, rfl, .inl rfl⟩
  | none =>
      simp only [observationChange, Result.bind_eq_ok_iff] at h
      obtain ⟨⟨appended, following⟩, happend, h⟩ := h
      cases h
      obtain ⟨hafter, hmem, hevidence⟩ := append_traced rfl htraced happend
      exact ⟨hafter, hevidence, .inr ⟨appended, hmem, rfl⟩⟩

theorem stageObservation_traced {request : ProjectionObservationRequest}
    {scopes : List ProjectionRecordScope}
    (hscope : PartitionKey.ofScope request.scope = .fromInput input.cursor)
    (htarget : validateObservationTarget scopes request = .ok ())
    (htraced : TracedCommit (.fromInput input.cursor) start staged)
    (h : stageObservation input staged request = .ok next)
    : TracedCommit (.fromInput input.cursor) start next := by
  simp only [stageObservation, Result.bind_eq_ok_iff] at h
  obtain ⟨⟨revision, cursor⟩, hrevision, h⟩ := h
  split at h
  · cases h
    exact htraced
  · rename_i hfresh
    simp only [Result.bind_eq_ok_iff] at h
    obtain ⟨⟨change, following⟩, hchange, h⟩ := h
    cases h
    obtain ⟨hafter, hevidence, hcursor⟩ := observationChange_traced htraced hchange
    have hrecords : following.protocol.records = staged.protocol.records :=
      congrArg StoredEvidence.records hevidence
    have hobservations : following.protocol.observations = staged.protocol.observations :=
      congrArg StoredEvidence.observations hevidence
    have hsaw := observedRevision_ok htarget hrevision
    rw [← hrecords] at hsaw
    refine Traced.observe ⟨input.causationId, request.scope, request.kind⟩ hafter hscope ?_
      ⟨rfl, rfl, rfl, ?_⟩ ?_
    · simpa [InMemoryProjectionProtocolState.evidence, hobservations] using hfresh
    · obtain ⟨hkind, rfl, -⟩ | ⟨hkind, metadata, hmetadata, rfl, -⟩ := hsaw
      · exact .inl ⟨hkind, rfl⟩
      · exact .inr ⟨hkind, metadata, hmetadata, rfl⟩
    · obtain hcursor | happended := hcursor
      · obtain ⟨-, -, rfl⟩ | ⟨-, metadata, hmetadata, -, hstored⟩ := hsaw
        · cases hcursor
        · exact .inl ⟨metadata, hmetadata, hstored change hcursor⟩
      · exact .inr happended

theorem stageCheckpointChange_traced
    (htraced : TracedCommit (.fromInput input.cursor) start staged)
    (h : stageCheckpointChange input staged = .ok next)
    : TracedCommit (.fromInput input.cursor) start next := by
  unfold stageCheckpointChange at h
  split at h
  · obtain ⟨⟨change, following⟩, happend, h⟩ := Result.bind_eq_ok_iff.mp h
    cases h
    exact (append_traced rfl htraced happend).1
  · cases h
    exact htraced

theorem CommitStaged.traced {retention : ProjectionChangeRetention}
    {protocol following opened bound : InMemoryProjectionProtocolState}
    {batch : ProjectionCommitBatch} {result : ProjectionCommitResult} {touched : List String}
    {stagedRows : RelationalRows} {final : StagedCommit} {checkpoint : ProjectionCheckpoint}
    (h : CommitStaged crates retention rows protocol batch result touched stagedRows following
      opened bound staged final checkpoint)
    (hvalid : batch.validate crates = .ok ())
    : Traced (.fromInput batch.input.cursor) protocol.evidence following.evidence
        result.changes := by
  have hbatch := ProjectionCommitBatch.validate_ok hvalid
  have hscope : ∀ scope, InPartition batch.input.cursor.topology
      batch.input.cursor.projectionPartition scope →
      PartitionKey.ofScope scope = .fromInput batch.input.cursor := by
    rintro scope ⟨htopology, hpartition⟩
    rw [PartitionKey.ofScope, PartitionKey.fromInput, htopology, hpartition]
  have hstart : bound.evidence = protocol.evidence := by
    obtain ⟨-, -, -, -, hopened⟩ := ensurePartition_writes h.opens
    obtain ⟨-, -, ownership, hbound⟩ := registerOwnership_ok h.binds
    rw [hbound, hopened]
    rfl
  have hend : following.evidence = final.protocol.evidence := by
    obtain ⟨state, hstate, hcompacts⟩ := retainChangeSuffix_ok h.retains
    obtain ⟨-, -, -, hfollowing⟩ := hcompacts.writes hstate
    rw [hfollowing]
    rfl
  have hbegin : TracedCommit (.fromInput batch.input.cursor) protocol.evidence
      { protocol := bound } := by
    show Traced _ _ bound.evidence []
    rw [hstart]
    exact .nil
  have hmutations : TracedCommit (.fromInput batch.input.cursor) protocol.evidence staged :=
    Result.foldlM_invariant (TracedCommit _ protocol.evidence) hbegin
      (fun _ mutation _ hmem htraced hrun =>
        stageMutation_traced (hscope _ (hbatch.mutations mutation hmem)) htraced hrun)
      h.stages
  obtain ⟨observed, hobserved, hfinal⟩ := h.observes
  have hobservations := Result.foldlM_invariant (TracedCommit _ protocol.evidence) hmutations
    (fun _ request _ hmem htraced hrun =>
      stageObservation_traced (hscope _ (hbatch.observations request hmem))
        (ProjectionCommitBatch.validate_targets hvalid request hmem) htraced hrun) hobserved
  have hcommit := stageCheckpointChange_traced hobservations hfinal
  rw [hend, h.answers]
  exact hcommit

end Commit

theorem DirectStaged.traced {crates : Crates} {retention : ProjectionChangeRetention}
    {rows stagedRows : RelationalRows}
    {protocol next opened bound logged : InMemoryProjectionProtocolState}
    {batch : SameTransactionProjectionBatch} {declaration : ProjectionModelOwnership}
    {mutation : SameTransactionProjectionMutation} {row : TableRowMutation}
    {revision : RecordRevision} {change : ProjectionChange}
    (h : DirectStaged crates retention rows protocol batch stagedRows next opened bound logged
      declaration mutation row revision change)
    (hfresh : logged.observations.contains ⟨batch.causationId, revision.scope, .record⟩ = false)
    : Traced (directKey batch) protocol.evidence next.evidence [change] := by
  obtain ⟨hlogged, hkind, hchangeScope, hrevision, -, -⟩ := appendChange_evidence h.appends
  have hbound : bound.evidence = protocol.evidence := by
    obtain ⟨-, -, -, -, hopened⟩ := ensurePartition_writes h.opens
    obtain ⟨-, hbound⟩ := registerSameTransactionOwnership_ok h.binds
    rw [hbound, hopened]
    rfl
  have hstored := hlogged.trans hbound
  have hrecords : logged.records = protocol.records := congrArg StoredEvidence.records hstored
  have hobservations : logged.observations = protocol.observations :=
    congrArg StoredEvidence.observations hstored
  obtain ⟨hscope, hnext⟩ := nextDirectRevision_ok h.revises
  rw [show bound.records = protocol.records from congrArg StoredEvidence.records hbound]
    at hnext
  have hkey : PartitionKey.ofScope mutation.scope = directKey batch := by
    obtain ⟨htopology, hpartition⟩ := h.valid.scope
    rw [PartitionKey.ofScope, directKey, htopology, hpartition]
  obtain ⟨state, hstate, hcompacts⟩ := retainChangeSuffix_ok h.retains
  obtain ⟨-, -, -, hafter⟩ := hcompacts.writes hstate
  have hleft : recordLeft change revision = ⟨revision, false, change.cursor⟩ := by
    rw [recordLeft, hkind]
    rfl
  have hwrite : Traced (directKey batch) protocol.evidence _ ([] ++ [change]) :=
    .record .nil hkey hchangeScope hrevision hscope (hkind ▸ hnext)
  rw [hleft] at hwrite
  have hfound : AList.lookup mutation.scope (protocol.records.insert mutation.scope
      ⟨revision, false, change.cursor⟩) = some ⟨revision, false, change.cursor⟩ :=
    AList.lookup_insert _
  have hunseen : protocol.observations.contains ⟨batch.causationId, mutation.scope, .record⟩
      = false := by
    rw [← hscope, ← hobservations]
    exact hfresh
  have hobserves : Observes (protocol.records.insert mutation.scope
      ⟨revision, false, change.cursor⟩) ⟨batch.causationId, mutation.scope, .record⟩
      (directObservation batch.causationId ⟨revision, false, change.cursor⟩) :=
    ⟨rfl, rfl, hscope, .inr ⟨rfl, _, hfound, rfl⟩⟩
  have hobserve := hwrite.observe ⟨batch.causationId, mutation.scope, .record⟩ hkey hunseen
    hobserves (.inl ⟨_, hfound, rfl⟩)
  have hevidence : next.evidence = ⟨protocol.records.insert mutation.scope
      ⟨revision, false, change.cursor⟩, protocol.observations.insert
        ⟨batch.causationId, mutation.scope, .record⟩
        (directObservation batch.causationId ⟨revision, false, change.cursor⟩)⟩ := by
    rw [hafter, InMemoryProjectionProtocolState.evidence]
    simp only [hrecords, hobservations, hscope]
  rw [hevidence]
  exact hobserve

end Distributed.InMemoryRepo
