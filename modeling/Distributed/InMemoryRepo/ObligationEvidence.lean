import Distributed.InMemoryRepo.ExactlyOnce
import Distributed.InMemoryRepo.RecordHistory
import Mathlib.Data.List.MinMax

/-! The evidence of a command's projection obligation, and how it moves along a run.
-/

namespace Distributed.InMemoryRepo

open Distributed.CommandLedger Distributed.Foundation Distributed.Platform

open Distributed.ProjectionProtocol Distributed.Repository Distributed.Table

open InMemoryProjectionProtocolState

structure ProjectionObligationEvidenceRequest where
  causationId : String
  scope : ProjectionRecordScope
  kind : ProjectionObservationKind

inductive ProjectionObligationEvidence where
  | pending
  | observed (observation : ProjectionObservation)
  | terminalFailure (failure : ProjectionFailure)

def ProjectionObligationEvidenceRequest.validate
    (request : ProjectionObligationEvidenceRequest) : Except ProjectionProtocolError Unit := do
  let _ ← boundedOpaque "projection causation ID" request.causationId maxCausationIdBytes
  .ok ()

/-- The key of the observation a request asks for. -/
def ProjectionObligationEvidenceRequest.observed
    (request : ProjectionObligationEvidenceRequest) : ObservationKey :=
  ⟨request.causationId, request.scope, request.kind⟩

def validateObservationFromState (protocol : InMemoryProjectionProtocolState)
    (request : ProjectionObligationEvidenceRequest) (observation : ProjectionObservation)
    : Except ProjectionProtocolError Unit := do
  if observation.causationId ≠ request.causationId ∨ observation.kind ≠ request.kind
      ∨ observation.scope ≠ request.scope
      ∨ (observation.revision.any fun revision => revision.scope ≠ request.scope)
      ∨ decide (request.kind = .record) ≠ observation.revision.isSome then
    .error (.invalidBatch "stored projection observation does not match its exact evidence key")
  let some partition := protocol.partitions.lookup (.ofScope request.scope)
    | .error (.invalidBatch "stored projection observation has no partition state")
  if observation.change.topology ≠ request.scope.topology
      ∨ observation.change.projectionPartition ≠ request.scope.projectionPartition
      ∨ observation.change.epoch ≠ partition.changeEpoch
      ∨ partition.changeHead < observation.change.position then
    .error (.invalidBatch "stored projection observation change lies outside its partition")

def validateFailureFromState (protocol : InMemoryProjectionProtocolState)
    (request : ProjectionObligationEvidenceRequest) (failure : ProjectionFailure)
    : Except ProjectionProtocolError Unit := do
  if failure.causationId ≠ request.causationId
      ∨ failure.input.topology ≠ request.scope.topology
      ∨ failure.input.projectionPartition ≠ request.scope.projectionPartition
      ∨ failure.change.topology ≠ request.scope.topology
      ∨ failure.change.projectionPartition ≠ request.scope.projectionPartition then
    .error (.invalidBatch "stored projection failure does not match its evidence scope")
  let some partition := protocol.partitions.lookup (.ofScope request.scope)
    | .error (.invalidBatch "stored projection failure has no partition state")
  if failure.change.epoch ≠ partition.changeEpoch
      ∨ partition.changeHead < failure.change.position then
    .error (.invalidBatch "stored projection failure change lies outside its partition")

/-- The failure belongs to the causation and the partition of a request. -/
def Concerns (request : ProjectionObligationEvidenceRequest) (failure : ProjectionFailure)
    : Prop :=
  failure.causationId = request.causationId
    ∧ failure.input.topology = request.scope.topology
    ∧ failure.input.projectionPartition = request.scope.projectionPartition

instance (request : ProjectionObligationEvidenceRequest) (failure : ProjectionFailure)
    : Decidable (Concerns request failure) :=
  inferInstanceAs (Decidable (_ ∧ _ ∧ _))

/-- The failures of a request. -/
def concerningFailures (protocol : InMemoryProjectionProtocolState)
    (request : ProjectionObligationEvidenceRequest) : List ProjectionFailure :=
  (protocol.failures.toList.map Prod.snd).filter fun failure => Concerns request failure

/-- The failure with the earliest change. -/
def earliestFailure (protocol : InMemoryProjectionProtocolState)
    (request : ProjectionObligationEvidenceRequest) : Option ProjectionFailure :=
  (concerningFailures protocol request).argmin fun failure => failure.change.position

def readProjectionObligationEvidence (protocol : InMemoryProjectionProtocolState)
    (request : ProjectionObligationEvidenceRequest)
    : Except ProjectionProtocolError ProjectionObligationEvidence := do
  request.validate
  match earliestFailure protocol request with
  | some failure => do
      validateFailureFromState protocol request failure
      .ok (.terminalFailure failure)
  | none =>
      match protocol.observations.lookup request.observed with
      | some observation => do
          validateObservationFromState protocol request observation
          .ok (.observed observation)
      | none => .ok .pending

/-- Evidence only moves from pending to one observation to one failure. -/
inductive Advances : ProjectionObligationEvidence → ProjectionObligationEvidence → Prop
  | pending (later : ProjectionObligationEvidence) : Advances .pending later
  | observed (observation : ProjectionObservation) :
      Advances (.observed observation) (.observed observation)
  | failed (observation : ProjectionObservation) (failure : ProjectionFailure) :
      Advances (.observed observation) (.terminalFailure failure)
  | terminal (failure : ProjectionFailure) :
      Advances (.terminalFailure failure) (.terminalFailure failure)

theorem Advances.refl (evidence : ProjectionObligationEvidence)
    : Advances evidence evidence := by
  cases evidence with
  | pending => exact .pending _
  | observed observation => exact .observed observation
  | terminalFailure failure => exact .terminal failure

theorem Advances.trans {first second third : ProjectionObligationEvidence}
    (hfirst : Advances first second) (hsecond : Advances second third)
    : Advances first third := by
  cases hfirst with
  | pending => exact .pending third
  | observed observation => exact hsecond
  | failed observation failure =>
      cases hsecond
      exact .failed observation failure
  | terminal failure => exact hsecond

/-- A cursor of the log, in the log of a partition. -/
def InLog (log : List ProjectionChange) (key : PartitionKey) (cursor : ProjectionChangeCursor)
    : Prop :=
  ∃ change ∈ log, changeKey change = key ∧ change.cursor = cursor

/-- Stored records and observations are filed under their own keys and refer to changes of
the log. -/
structure StoredOk (log : List ProjectionChange) (stored : StoredEvidence) : Prop where
  records : ∀ scope metadata, stored.records.lookup scope = some metadata →
    metadata.revision.scope = scope ∧ InLog log (.ofScope scope) metadata.change
  observations : ∀ observed observation,
    stored.observations.lookup observed = some observation →
    observation.causationId = observed.causationId ∧ observation.kind = observed.kind
      ∧ observation.scope = observed.scope
      ∧ (observed.kind = .dependency ∧ observation.revision = none
        ∨ observed.kind = .record ∧ ∃ revision, observation.revision = some revision
          ∧ revision.scope = observed.scope)
      ∧ InLog log (.ofScope observed.scope) observation.change

/-- Every stored failure was announced by a change of the log that names it. -/
def FailuresOk (log : List ProjectionChange) (failures : Map String ProjectionFailure) : Prop :=
  ∀ failureId failure, failures.lookup failureId = some failure →
    ∃ change ∈ log, changeKey change
        = ⟨failure.input.topology, failure.input.projectionPartition⟩
      ∧ change.cursor = failure.change ∧ change.failureId = some failureId

section Log

variable {log more : List ProjectionChange} {key : PartitionKey}
  {cursor : ProjectionChangeCursor}

theorem InLog.append (h : InLog log key cursor) (more : List ProjectionChange)
    : InLog (log ++ more) key cursor := by
  obtain ⟨change, hmem, hchange⟩ := h
  exact ⟨change, List.mem_append_left _ hmem, hchange⟩

theorem StoredOk.append {stored : StoredEvidence} (h : StoredOk log stored)
    (more : List ProjectionChange)
    : StoredOk (log ++ more) stored where
  records scope metadata hmetadata :=
    (h.records scope metadata hmetadata).imp_right fun hlog => hlog.append more
  observations observed observation hobservation := by
    obtain ⟨hcausation, hkind, hscope, hrevision, hlog⟩ :=
      h.observations observed observation hobservation
    exact ⟨hcausation, hkind, hscope, hrevision, hlog.append more⟩

theorem FailuresOk.append {failures : Map String ProjectionFailure}
    (h : FailuresOk log failures) (more : List ProjectionChange)
    : FailuresOk (log ++ more) failures := by
  intro failureId failure hfailure
  obtain ⟨change, hmem, hchange⟩ := h failureId failure hfailure
  exact ⟨change, List.mem_append_left _ hmem, hchange⟩

/-- A cursor of the log lies within its partition. -/
theorem HasLogs.partition_of_inLog {protocol : InMemoryProjectionProtocolState}
    (hlogs : HasLogs log protocol) (h : InLog log key cursor)
    : ∃ state, protocol.partitions.lookup key = some state
      ∧ cursor.topology = key.topology ∧ cursor.projectionPartition = key.partition
      ∧ cursor.epoch = state.changeEpoch ∧ cursor.position ≤ state.changeHead := by
  obtain ⟨change, hmem, hkey, rfl⟩ := h
  have hentry : change ∈ partitionLog key log := by
    simp [partitionLog, hmem, hkey]
  have hlog := hlogs key
  cases hstate : protocol.partitions.lookup key with
  | none =>
      rw [HasLog, hstate] at hlog
      rw [show partitionLog key log = [] from hlog] at hentry
      cases hentry
  | some state =>
      have hok := (HasLog.of_known hstate).mp hlog
      obtain ⟨htopology, hpartition, hepoch⟩ := hok.cursors change hentry
      have hplace := (hok.numbered.of_mem_drop
        (show change ∈ (partitionLog key log).drop 0 from hentry)).2
      rw [← hok.head] at hplace
      exact ⟨state, rfl, htopology, hpartition, hepoch, hplace⟩

/-- Staging keeps the stored evidence in the log. -/
theorem Traced.storedOk {start stored : StoredEvidence} {changes : List ProjectionChange}
    (hstart : StoredOk log start) (h : Traced key start stored changes)
    (hkeys : ∀ change ∈ changes, changeKey change = key)
    : StoredOk (log ++ changes) stored := by
  induction h with
  | nil => exact hstart.append []
  | @record stored changes change scope revision _ hscope _ _ hrevision _ ih =>
      have hbefore := ih fun other hother => hkeys other (List.mem_append_left _ hother)
      rw [← List.append_assoc]
      have hafter := hbefore.append [change]
      refine ⟨fun other metadata hmetadata => ?_, hafter.observations⟩
      rw [Map.lookup_insert_eq] at hmetadata
      split at hmetadata
      · rename_i hother
        cases hmetadata
        exact ⟨hrevision.trans hother.symm, change, by simp,
          (hkeys change (by simp)).trans (hother ▸ hscope.symm), rfl⟩
      · exact hafter.records other metadata hmetadata
  | @note stored changes change _ _ ih =>
      rw [← List.append_assoc]
      exact (ih fun other hother => hkeys other (List.mem_append_left _ hother)).append _
  | @observe stored changes observed observation _ hscope _ hobserves hchange ih =>
      have hbefore := ih hkeys
      refine ⟨hbefore.records, fun other found hfound => ?_⟩
      rw [Map.lookup_insert_eq] at hfound
      split at hfound
      · rename_i hother
        cases hfound
        subst hother
        refine ⟨hobserves.causation, hobserves.kind, hobserves.scope,
          hobserves.revision.imp_right ?_, ?_⟩
        · rintro ⟨hkind, metadata, hmetadata, hseen⟩
          exact ⟨hkind, metadata.revision, hseen, (hbefore.records _ _ hmetadata).1⟩
        · obtain ⟨metadata, hmetadata, hcursor⟩ | ⟨change, hmem, hcursor⟩ := hchange
          · rw [hcursor]
            exact (hbefore.records _ _ hmetadata).2
          · exact ⟨change, List.mem_append_right _ hmem, (hkeys change hmem).trans hscope.symm,
              hcursor.symm⟩
      · exact hbefore.observations other found hfound

/-- Observations are never replaced. -/
theorem Traced.observation_kept {start stored : StoredEvidence}
    {changes : List ProjectionChange} (h : Traced key start stored changes)
    {observed : ObservationKey} {observation : ProjectionObservation}
    (hstored : start.observations.lookup observed = some observation)
    : stored.observations.lookup observed = some observation := by
  induction h with
  | nil => exact hstored
  | record _ _ _ _ _ _ ih => exact ih
  | note _ _ ih => exact ih
  | observe other _ _ hfresh _ _ ih =>
      rw [Map.lookup_insert_eq, if_neg]
      · exact ih
      · rintro rfl
        simp [Map.contains, ih] at hfresh

end Log

/-- The log and the evidence stored with it. -/
structure EvidenceInv (log : List ProjectionChange) (protocol : InMemoryProjectionProtocolState)
    : Prop where
  logs : HasLogs log protocol
  stored : StoredOk log protocol.evidence
  failures : FailuresOk log protocol.failures

section Steps

variable {before after : InMemoryProjectionProtocolState} {op : RepositoryOp}
  {answer : RepositoryAnswer} {log changes : List ProjectionChange}

theorem TracedStep.evidenceInv (h : TracedStep before after op answer changes)
    (hinv : EvidenceInv log before)
    : EvidenceInv (log ++ changes) after := by
  refine ⟨h.hasLogs hinv.logs, ?_, ?_⟩
  · cases h with
    | quiet _ hevidence _ _ => exact hevidence ▸ hinv.stored.append []
    | committed hlog htraced _ => exact htraced.storedOk hinv.stored hlog.changeKey
    | failed _ _ hevidence _ _ _ _ => exact hevidence ▸ hinv.stored.append _
    | direct _ hlog _ htraced _ => exact htraced.storedOk hinv.stored hlog.changeKey
  · cases h with
    | quiet _ _ hfailures _ => exact hfailures ▸ hinv.failures.append []
    | committed _ _ hfailures => exact hfailures ▸ hinv.failures.append _
    | @failed batch change _ hlog _ _ _ hid _ hfailures =>
        rw [hfailures]
        intro failureId failure hfailure
        rw [Map.lookup_insert_eq] at hfailure
        split at hfailure
        · rename_i hname
          cases hfailure
          exact ⟨change, by simp, hlog.changeKey change (by simp), rfl, hname ▸ hid⟩
        · exact hinv.failures.append [change] failureId failure hfailure
    | direct _ _ _ _ hfailures => exact hfailures ▸ hinv.failures.append _

theorem TracedStep.observation_kept (h : TracedStep before after op answer changes)
    {observed : ObservationKey} {observation : ProjectionObservation}
    (hstored : before.observations.lookup observed = some observation)
    : after.observations.lookup observed = some observation := by
  cases h with
  | quiet _ hevidence _ _ =>
      rw [show after.observations = before.observations from
        congrArg StoredEvidence.observations hevidence]
      exact hstored
  | committed _ htraced _ => exact htraced.observation_kept hstored
  | failed _ _ hevidence _ _ _ _ =>
      rw [show after.observations = before.observations from
        congrArg StoredEvidence.observations hevidence]
      exact hstored
  | direct _ _ _ htraced _ => exact htraced.observation_kept hstored

theorem mem_concerningFailures {protocol : InMemoryProjectionProtocolState}
    {request : ProjectionObligationEvidenceRequest} {failure : ProjectionFailure}
    : failure ∈ concerningFailures protocol request
      ↔ (∃ failureId, protocol.failures.lookup failureId = some failure)
        ∧ Concerns request failure := by
  simp only [concerningFailures, List.mem_filter, List.mem_map, decide_eq_true_eq]
  refine and_congr_left fun _ => ⟨?_, ?_⟩
  · rintro ⟨⟨failureId, _⟩, hmem, rfl⟩
    exact ⟨failureId, Map.mem_toList.mp hmem⟩
  · rintro ⟨failureId, hlookup⟩
    exact ⟨(failureId, failure), Map.mem_toList.mpr hlookup, rfl⟩

theorem earliestFailure_le {protocol : InMemoryProjectionProtocolState}
    {request : ProjectionObligationEvidenceRequest} {failure other : ProjectionFailure}
    (h : earliestFailure protocol request = some failure)
    (hother : other ∈ concerningFailures protocol request)
    : failure.change.position ≤ other.change.position :=
  List.le_of_mem_argmin (f := fun failure : ProjectionFailure => failure.change.position)
    hother h

/-- Failures of one request are told apart by the positions of their changes. -/
theorem EvidenceInv.failure_eq (hinv : EvidenceInv log before)
    {request : ProjectionObligationEvidenceRequest} {failure other : ProjectionFailure}
    (hfailure : failure ∈ concerningFailures before request)
    (hother : other ∈ concerningFailures before request)
    (hposition : failure.change.position = other.change.position)
    : failure = other := by
  obtain ⟨⟨failureId, hlookup⟩, -, htopology, hpartition⟩ := mem_concerningFailures.mp hfailure
  obtain ⟨⟨otherId, hlookup'⟩, -, htopology', hpartition'⟩ := mem_concerningFailures.mp hother
  obtain ⟨change, hmem, hkey, hcursor, hid⟩ := hinv.failures failureId failure hlookup
  obtain ⟨change', hmem', hkey', hcursor', hid'⟩ := hinv.failures otherId other hlookup'
  rw [htopology, hpartition] at hkey
  rw [htopology', hpartition'] at hkey'
  have hsame : change = change' := by
    refine (hinv.logs (.ofScope request.scope)).numbered.1.eq_of_number_eq
      (List.mem_filter.mpr ⟨hmem, ?_⟩) (List.mem_filter.mpr ⟨hmem', ?_⟩) ?_
    · exact decide_eq_true hkey
    · exact decide_eq_true hkey'
    · rw [changePlace, changePlace, hcursor, hcursor', hposition]
  subst hsame
  cases hid.symm.trans hid'
  exact Option.some.inj (hlookup.symm.trans hlookup')

/-- The change of a stored failure is before every later change of its partition. -/
theorem EvidenceInv.failure_position_lt (hinv : EvidenceInv log before)
    {failureId : String} {failure : ProjectionFailure}
    (hlookup : before.failures.lookup failureId = some failure) {change : ProjectionChange}
    {epoch : ProjectionEpoch} {stopped : Option String}
    (hlog : LogEffect ⟨failure.input.topology, failure.input.projectionPartition⟩ epoch before
      after [change] stopped)
    : failure.change.position < change.cursor.position := by
  obtain ⟨announced, hmem, hkey, hcursor, -⟩ := hinv.failures failureId failure hlookup
  obtain ⟨state, hstate, -, -, -, hposition⟩ :=
    hinv.logs.partition_of_inLog ⟨announced, hmem, hkey, hcursor⟩
  obtain ⟨base, final, hopens, -, hfollows, -⟩ := hlog.partition
  obtain hbase | ⟨hunknown, -⟩ := hopens
  · cases hstate.symm.trans hbase
    rw [hfollows.1.position]
    omega
  · cases hstate.symm.trans hunknown

/-- The earliest failure of a request stays the earliest. -/
theorem TracedStep.earliestFailure_kept (h : TracedStep before after op answer changes)
    (hinv : EvidenceInv log before) {request : ProjectionObligationEvidenceRequest}
    {failure : ProjectionFailure} (hearliest : earliestFailure before request = some failure)
    : earliestFailure after request = some failure := by
  have hsame : after.failures = before.failures → earliestFailure after request = some failure :=
    fun hfailures => by rw [earliestFailure, concerningFailures, hfailures]; exact hearliest
  cases h with
  | quiet _ _ hfailures _ => exact hsame hfailures
  | committed _ _ hfailures => exact hsame hfailures
  | direct _ _ _ _ hfailures => exact hsame hfailures
  | @failed batch change _ hlog _ _ _ hid hfresh hfailures =>
      have hmem := List.argmin_mem hearliest
      obtain ⟨⟨failureId, hlookup⟩, hconcerns⟩ := mem_concerningFailures.mp hmem
      have hkept : failure ∈ concerningFailures after request := by
        refine mem_concerningFailures.mpr ⟨⟨failureId, ?_⟩, hconcerns⟩
        rw [hfailures, Map.lookup_insert_eq, if_neg]
        · exact hlookup
        · rintro rfl
          simp [Map.contains, hlookup] at hfresh
      cases hfirst : earliestFailure after request with
      | none =>
          rw [List.argmin_eq_none.mp hfirst] at hkept
          cases hkept
      | some first =>
          have hle := earliestFailure_le hfirst hkept
          obtain ⟨⟨firstId, hfound⟩, hfirstConcerns⟩ :=
            mem_concerningFailures.mp (List.argmin_mem hfirst)
          rw [hfailures, Map.lookup_insert_eq] at hfound
          split at hfound
          · -- The new failure comes after the earliest one.
            cases hfound
            obtain ⟨-, htopology, hpartition⟩ := hconcerns
            obtain ⟨-, htopology', hpartition'⟩ := hfirstConcerns
            have hkey : PartitionKey.fromInput batch.input.cursor
                = ⟨failure.input.topology, failure.input.projectionPartition⟩ := by
              rw [htopology, hpartition, ← htopology', ← hpartition']
              rfl
            have hlt := hinv.failure_position_lt hlookup (hkey ▸ hlog)
            exact absurd hle (Nat.not_le.mpr hlt)
          · have hbefore := mem_concerningFailures.mpr ⟨⟨firstId, hfound⟩, hfirstConcerns⟩
            have hge := earliestFailure_le hearliest hbefore
            rw [hinv.failure_eq hmem hbefore (Nat.le_antisymm hge hle)]

/-- The evidence of a request without the checks of the read. -/
def evidenceFor (protocol : InMemoryProjectionProtocolState)
    (request : ProjectionObligationEvidenceRequest) : ProjectionObligationEvidence :=
  match earliestFailure protocol request with
  | some failure => .terminalFailure failure
  | none =>
      match protocol.observations.lookup request.observed with
      | some observation => .observed observation
      | none => .pending

theorem EvidenceInv.validateFailure (hinv : EvidenceInv log before)
    {request : ProjectionObligationEvidenceRequest} {failure : ProjectionFailure}
    (hfailure : failure ∈ concerningFailures before request)
    : validateFailureFromState before request failure = .ok () := by
  obtain ⟨⟨failureId, hlookup⟩, hcausation, htopology, hpartition⟩ :=
    mem_concerningFailures.mp hfailure
  obtain ⟨change, hmem, hkey, hcursor, -⟩ := hinv.failures failureId failure hlookup
  rw [htopology, hpartition] at hkey
  obtain ⟨state, hstate, htopology', hpartition', hepoch, hposition⟩ :=
    hinv.logs.partition_of_inLog ⟨change, hmem, hkey, hcursor⟩
  simp only [validateFailureFromState, PartitionKey.ofScope, hcausation, htopology, hpartition,
    htopology', hpartition', hstate, hepoch, ne_eq, not_true_eq_false, or_self, if_false,
    Nat.not_lt.mpr hposition]
  rfl

theorem EvidenceInv.validateObservation (hinv : EvidenceInv log before)
    {request : ProjectionObligationEvidenceRequest} {observation : ProjectionObservation}
    (hobservation : before.observations.lookup request.observed = some observation)
    : validateObservationFromState before request observation = .ok () := by
  obtain ⟨hcausation, hkind, hscope, hrevision, hlog⟩ :=
    hinv.stored.observations request.observed observation hobservation
  obtain ⟨state, hstate, htopology, hpartition, hepoch, hposition⟩ :=
    hinv.logs.partition_of_inLog hlog
  have hseen : (observation.revision.any fun revision => revision.scope ≠ request.scope) = false
      ∧ decide (request.kind = .record) = observation.revision.isSome := by
    obtain ⟨hdependency, hnone⟩ | ⟨hrecord, revision, hsome, hin⟩ := hrevision
    · rw [show request.kind = .dependency from hdependency, hnone]
      exact ⟨rfl, rfl⟩
    · rw [show request.kind = .record from hrecord, hsome]
      exact ⟨by simpa using (show revision.scope = request.scope from hin), rfl⟩
  replace htopology : observation.change.topology = request.scope.topology := htopology
  replace hpartition : observation.change.projectionPartition
      = request.scope.projectionPartition := hpartition
  simp only [ProjectionObligationEvidenceRequest.observed] at hcausation hkind hscope hstate
  simp only [validateObservationFromState, hcausation, hkind, hscope, hseen.1, hseen.2, hstate,
    htopology, hpartition, hepoch, ne_eq, not_true_eq_false, or_self, if_false,
    Nat.not_lt.mpr hposition, Bool.false_eq_true]
  rfl

/-- The read never finds stored evidence corrupt. -/
theorem EvidenceInv.read_eq (hinv : EvidenceInv log before)
    {request : ProjectionObligationEvidenceRequest} (hvalid : request.validate = .ok ())
    : readProjectionObligationEvidence before request = .ok (evidenceFor before request) := by
  unfold readProjectionObligationEvidence evidenceFor
  cases hearliest : earliestFailure before request with
  | some failure => simp [hvalid, hinv.validateFailure (List.argmin_mem hearliest)]
  | none =>
      cases hobservation : before.observations.lookup request.observed with
      | some observation => simp [hvalid, hinv.validateObservation hobservation]
      | none => simp [hvalid]

theorem TracedStep.advances (h : TracedStep before after op answer changes)
    (hinv : EvidenceInv log before) (request : ProjectionObligationEvidenceRequest)
    : Advances (evidenceFor before request) (evidenceFor after request) := by
  unfold evidenceFor
  cases hearliest : earliestFailure before request with
  | some failure =>
      rw [h.earliestFailure_kept hinv hearliest]
      exact .terminal failure
  | none =>
      cases hobservation : before.observations.lookup request.observed with
      | none => exact .pending _
      | some observation =>
          rw [h.observation_kept hobservation]
          cases earliestFailure after request with
          | some failure => exact .failed observation failure
          | none => exact .observed observation

end Steps

theorem step_evidenceInv (crates : Crates) {log : List ProjectionChange}
    {repository : InMemoryRepository} (op : RepositoryOp)
    (hinv : EvidenceInv log repository.projectionProtocol)
    : EvidenceInv (log ++ appendedChanges (.ofStep (step crates) repository op))
        (step crates op repository).2.projectionProtocol := by
  obtain ⟨changes, hstep⟩ := step_tracedStep crates repository op
  have happended : appendedChanges (.ofStep (step crates) repository op) = changes :=
    hstep.appendedChanges_eq hinv.logs
  rw [happended]
  exact hstep.evidenceInv hinv

theorem evidenceInv_of_run (crates : Crates) (retention : ProjectionChangeRetention)
    (ops : List RepositoryOp)
    : EvidenceInv (appendedLog (history (step crates) (.new retention) ops))
        (finalState (step crates) (.new retention) ops).projectionProtocol := by
  have hstart : EvidenceInv [] (InMemoryRepository.new retention).projectionProtocol :=
    ⟨fun _ => rfl, ⟨fun _ _ h => by simp [InMemoryRepository.new, evidence] at h,
      fun _ _ h => by simp [InMemoryRepository.new, evidence] at h⟩,
      fun _ _ h => by simp [InMemoryRepository.new] at h⟩
  exact history_emitted (step crates)
    (fun log repository => EvidenceInv log repository.projectionProtocol) appendedChanges
    (fun log repository op hinv => step_evidenceInv crates op hinv) hstart ops

/-- The read of a request succeeds at every moment of a run, and what it answers only moves
from pending to one observation to one failure. -/
theorem obligation_evidence_only_advances (crates : Crates)
    (retention : ProjectionChangeRetention) (ops more : List RepositoryOp)
    {request : ProjectionObligationEvidenceRequest} (hvalid : request.validate = .ok ())
    : ∃ earlier later,
      readProjectionObligationEvidence
          (finalState (step crates) (.new retention) ops).projectionProtocol request
        = .ok earlier
      ∧ readProjectionObligationEvidence
          (finalState (step crates) (.new retention) (ops ++ more)).projectionProtocol request
        = .ok later
      ∧ Advances earlier later := by
  have hfirst := evidenceInv_of_run crates retention ops
  have hlast := evidenceInv_of_run crates retention (ops ++ more)
  refine ⟨_, _, hfirst.read_eq hvalid, hlast.read_eq hvalid, ?_⟩
  -- Along the later operations the evidence advances step by step.
  rw [finalState_append]
  refine (history_emitted (step crates) (fun log repository =>
    EvidenceInv log repository.projectionProtocol
      ∧ Advances
        (evidenceFor (finalState (step crates) (.new retention) ops).projectionProtocol request)
        (evidenceFor repository.projectionProtocol request)) appendedChanges ?_
    ⟨hfirst, .refl _⟩ more).2
  rintro log repository op ⟨hinv, hadvances⟩
  obtain ⟨changes, hstep⟩ := step_tracedStep crates repository op
  exact ⟨step_evidenceInv crates op hinv, hadvances.trans (hstep.advances hinv request)⟩

/-- The obligation that the todo is looked at on behalf of `cause`. -/
def todoObligation : ProjectionObligationEvidenceRequest := ⟨"cause", todoRecord, .dependency⟩

/-- A commit that observes the todo as a dependency. -/
def observingCommit (input : TrustedProjectionInput) : ProjectionCommitBatch :=
  { checkpointCommit input with observations := [⟨.dependency, .dependency todoRecord⟩] }

/-- The obligation is pending before the first input and observed after it. -/
theorem todoObligation_observed
    : ∃ observation,
      readProjectionObligationEvidence
          (finalState (step nullOutcomeCrates) (.new defaultProjectionChangeRetention)
            [.registerProjectionModels todoTopology [todoOwner]]).projectionProtocol
          todoObligation = .ok .pending
      ∧ readProjectionObligationEvidence
          (finalState (step nullOutcomeCrates) (.new defaultProjectionChangeRetention)
            [.registerProjectionModels todoTopology [todoOwner],
              .commitProjection (observingCommit firstTodo)]).projectionProtocol
          todoObligation = .ok (.observed observation)
      ∧ Advances .pending (.observed observation) := by
  have hvalid : todoObligation.validate = .ok () := rfl
  obtain ⟨earlier, later, hearlier, hlater, hadvances⟩ :=
    obligation_evidence_only_advances nullOutcomeCrates defaultProjectionChangeRetention
      [.registerProjectionModels todoTopology [todoOwner]]
      [.commitProjection (observingCommit firstTodo)] hvalid
  cases hearlier
  cases hlater
  exact ⟨_, rfl, rfl, hadvances⟩

end Distributed.InMemoryRepo
