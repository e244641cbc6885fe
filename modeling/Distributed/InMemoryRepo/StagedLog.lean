import Distributed.InMemoryRepo.ProjectionStore
import Distributed.InMemoryRepo.StagingSpec
import Distributed.ProjectionProtocol.BatchSpec

/-! How the staging of a projection extends one partition.
-/

namespace Distributed.InMemoryRepo

open Distributed.Foundation Distributed.Platform Distributed.ProjectionProtocol

open Distributed.Table InMemoryProjectionProtocolState

/-- The partition with a list of changes appended. -/
def PartitionState.extended (state : PartitionState) (changes : List ProjectionChange)
    : PartitionState :=
  changes.foldl PartitionState.appended state

theorem PartitionState.extended_append (state : PartitionState)
    (first second : List ProjectionChange)
    : state.extended (first ++ second) = (state.extended first).extended second :=
  List.foldl_append

/-- The changes take the next positions of the partition's log, one after the other. -/
def Follows (key : PartitionKey) : PartitionState → List ProjectionChange → Prop
  | _, [] => True
  | state, change :: rest => IsNext key state change ∧ Follows key (state.appended change) rest

theorem Follows.append {key : PartitionKey} {state : PartitionState}
    {first second : List ProjectionChange} (hfirst : Follows key state first)
    (hsecond : Follows key (state.extended first) second)
    : Follows key state (first ++ second) := by
  induction first generalizing state with
  | nil => exact hsecond
  | cons change rest ih => exact ⟨hfirst.1, ih hfirst.2 hsecond⟩

/-- Only the partition under `key` was written. -/
def WritesPartition (before after : InMemoryProjectionProtocolState) (key : PartitionKey)
    (final : PartitionState) : Prop :=
  ∀ other, after.partitions.lookup other
    = if other = key then some final else before.partitions.lookup other

section WritesPartition

variable {before middle after : InMemoryProjectionProtocolState} {key : PartitionKey}
  {state final : PartitionState}

theorem WritesPartition.self (hstate : before.partitions.lookup key = some state)
    : WritesPartition before before key state := by
  intro other
  split
  · rename_i hother
    exact hother ▸ hstate
  · rfl

theorem WritesPartition.lookup_self (h : WritesPartition before after key final)
    : after.partitions.lookup key = some final :=
  (h key).trans (if_pos rfl)

theorem WritesPartition.trans (hfirst : WritesPartition before middle key state)
    (hsecond : WritesPartition middle after key final)
    : WritesPartition before after key final := by
  intro other
  rw [hsecond other]
  split
  · rfl
  · rename_i hother
    rw [hfirst other, if_neg hother]

end WritesPartition

/-- Staging appended `changes` to the partition and touched nothing outside it but what is
named here. -/
structure Stages (key : PartitionKey) (before after : InMemoryProjectionProtocolState)
    (changes : List ProjectionChange) : Prop where
  log : ∃ state, before.partitions.lookup key = some state ∧ Follows key state changes
    ∧ WritesPartition before after key (state.extended changes)
  records : ∀ scope, PartitionKey.ofScope scope ≠ key →
    after.records.lookup scope = before.records.lookup scope
  observations : ∀ observed : ObservationKey, PartitionKey.ofScope observed.scope ≠ key →
    after.observations.lookup observed = before.observations.lookup observed
  rest : after = { before with
    partitions := after.partitions
    records := after.records
    observations := after.observations }

theorem Stages.trans {key : PartitionKey}
    {first second third : InMemoryProjectionProtocolState}
    {changes more : List ProjectionChange} (hfirst : Stages key first second changes)
    (hsecond : Stages key second third more)
    : Stages key first third (changes ++ more) := by
  obtain ⟨state, hstate, hfollows, hwrites⟩ := hfirst.log
  obtain ⟨middle, hmiddle, hfollows', hwrites'⟩ := hsecond.log
  cases hmiddle.symm.trans hwrites.lookup_self
  refine ⟨⟨state, hstate, hfollows.append hfollows', ?_⟩, fun scope hscope => ?_,
    fun observed hobserved => ?_, ?_⟩
  · rw [PartitionState.extended_append]
    exact hwrites.trans hwrites'
  · rw [hsecond.records scope hscope, hfirst.records scope hscope]
  · rw [hsecond.observations observed hobserved, hfirst.observations observed hobserved]
  · rw [hsecond.rest]
    conv_lhs => rw [hfirst.rest]

section Primitives

variable {key : PartitionKey} {protocol next : InMemoryProjectionProtocolState}
  {state : PartitionState}

theorem Stages.refl (hstate : protocol.partitions.lookup key = some state)
    : Stages key protocol protocol [] :=
  ⟨⟨state, hstate, trivial, .self hstate⟩, fun _ _ => rfl, fun _ _ => rfl, rfl⟩

theorem appendChange_stages {pending : PendingChange} {change : ProjectionChange}
    (h : protocol.appendChange key pending = .ok (change, next))
    : Stages key protocol next [change] := by
  obtain ⟨state, hstate, hnext, -, rfl⟩ := appendChange_ok h
  exact ⟨⟨state, hstate, ⟨hnext, trivial⟩, fun other => Map.lookup_insert_eq _ _ _ _⟩,
    fun _ _ => rfl, fun _ _ => rfl, rfl⟩

theorem insertRecord_stages (hstate : protocol.partitions.lookup key = some state)
    {scope : ProjectionRecordScope} (hscope : PartitionKey.ofScope scope = key)
    (metadata : ProjectionRecordMetadata)
    : Stages key protocol
        { protocol with records := protocol.records.insert scope metadata } [] := by
  refine ⟨(Stages.refl hstate).log, fun other hother => ?_, fun _ _ => rfl, rfl⟩
  rw [Map.lookup_insert_eq, if_neg]
  rintro rfl
  exact hother hscope

theorem insertObservation_stages (hstate : protocol.partitions.lookup key = some state)
    {observed : ObservationKey} (hscope : PartitionKey.ofScope observed.scope = key)
    (observation : ProjectionObservation)
    : Stages key protocol
        { protocol with
          observations := protocol.observations.insert observed observation } [] := by
  refine ⟨(Stages.refl hstate).log, fun _ _ => rfl, fun other hother => ?_, rfl⟩
  rw [Map.lookup_insert_eq, if_neg]
  rintro rfl
  exact hother hscope

/-- The partition is there after staging. -/
theorem Stages.lookup_after {changes : List ProjectionChange}
    (h : Stages key protocol next changes)
    : ∃ state, next.partitions.lookup key = some state := by
  obtain ⟨state, -, -, hwrites⟩ := h.log
  exact ⟨_, hwrites.lookup_self⟩

end Primitives

section Loops

variable {crates : Crates} {input : TrustedProjectionInput} {rows : RelationalRows}
  {staged next : StagedCommit}

theorem StagedCommit.append_ok {key : PartitionKey} {pending : PendingChange}
    {change : ProjectionChange} (h : staged.append key pending = .ok (change, next))
    : ∃ protocol, staged.protocol.appendChange key pending = .ok (change, protocol)
      ∧ next = { staged with protocol, changes := staged.changes ++ [change] } := by
  obtain ⟨⟨change, protocol⟩, happend, h⟩ := Result.bind_eq_ok_iff.mp h
  cases h
  exact ⟨protocol, happend, rfl⟩

/-- What one mutation checks and stages. -/
theorem stageMutation_ok {mutation : ProjectionRecordMutation}
    (h : stageMutation crates input rows staged mutation = .ok next)
    : ∃ revision tombstone change protocol,
      staged.protocol.nextRecord mutation.scope mutation.expectation mutation.kind
        = .ok (revision, tombstone)
      ∧ validatePhysicalRecord mutation.scope mutation.expectation mutation.kind
          (rows.contains (mutation.mutation.lockKey crates)) = .ok ()
      ∧ staged.protocol.appendChange (.fromInput input.cursor) {
          kind := changeKindForMutation mutation.kind
          causationId := input.causationId
          scope := some mutation.scope
          revision := some revision } = .ok (change, protocol)
      ∧ protocol.ensureLiveRecordIdentityAvailable crates
          ⟨revision, tombstone, change.cursor⟩ = .ok ()
      ∧ next = {
        protocol := { protocol with
          records := protocol.records.insert mutation.scope
            ⟨revision, tombstone, change.cursor⟩ }
        records := staged.records ++ [⟨revision, tombstone, change.cursor⟩]
        changes := staged.changes ++ [change] } := by
  simp only [stageMutation, Result.bind_eq_ok_iff] at h
  obtain ⟨⟨revision, tombstone⟩, hrecord, _, hphysical, ⟨change, appended⟩, happend, _, hlive,
    h⟩ := h
  obtain ⟨protocol, hchange, rfl⟩ := StagedCommit.append_ok happend
  cases h
  exact ⟨revision, tombstone, change, protocol, hrecord, hphysical, hchange, hlive, rfl⟩

/-- A commit's staging so far: the changes it collected extend the partition. -/
def Collected (key : PartitionKey) (staged next : StagedCommit) : Prop :=
  ∃ changes, next.changes = staged.changes ++ changes
    ∧ Stages key staged.protocol next.protocol changes

theorem Collected.trans {key : PartitionKey} {first second third : StagedCommit}
    (hfirst : Collected key first second) (hsecond : Collected key second third)
    : Collected key first third := by
  obtain ⟨changes, hchanges, hstages⟩ := hfirst
  obtain ⟨more, hmore, hstages'⟩ := hsecond
  exact ⟨changes ++ more, by rw [hmore, hchanges, List.append_assoc], hstages.trans hstages'⟩

theorem stageMutation_collected {mutation : ProjectionRecordMutation}
    (hscope : PartitionKey.ofScope mutation.scope = .fromInput input.cursor)
    (h : stageMutation crates input rows staged mutation = .ok next)
    : Collected (.fromInput input.cursor) staged next := by
  obtain ⟨revision, tombstone, change, protocol, -, -, happend, -, rfl⟩ := stageMutation_ok h
  have hlog := appendChange_stages happend
  obtain ⟨state, hstate⟩ := hlog.lookup_after
  exact ⟨[change], rfl, hlog.trans (insertRecord_stages hstate hscope _)⟩

/-- The state of the partition that a commit stages in. -/
def StagedCommit.HasPartition (staged : StagedCommit) (key : PartitionKey) : Prop :=
  ∃ state, staged.protocol.partitions.lookup key = some state

theorem StagedCommit.HasPartition.collected_refl {key : PartitionKey}
    (h : staged.HasPartition key)
    : Collected key staged staged := by
  obtain ⟨state, hstate⟩ := h
  exact ⟨[], (List.append_nil _).symm, .refl hstate⟩

theorem Collected.hasPartition {key : PartitionKey} (h : Collected key staged next)
    : next.HasPartition key := by
  obtain ⟨changes, -, hstages⟩ := h
  exact hstages.lookup_after

theorem append_collected {key : PartitionKey} {pending : PendingChange}
    {change : ProjectionChange} (h : staged.append key pending = .ok (change, next))
    : Collected key staged next := by
  obtain ⟨protocol, happend, rfl⟩ := StagedCommit.append_ok h
  exact ⟨[change], rfl, appendChange_stages happend⟩

theorem observationChange_collected {request : ProjectionObservationRequest}
    {revision : Option RecordRevision} {cursor : Option ProjectionChangeCursor}
    {change : ProjectionChangeCursor}
    (hpartition : staged.HasPartition (.fromInput input.cursor))
    (h : observationChange input staged request revision cursor = .ok (change, next))
    : Collected (.fromInput input.cursor) staged next := by
  cases cursor with
  | some cursor =>
      cases h
      exact hpartition.collected_refl
  | none =>
      simp only [observationChange, Result.bind_eq_ok_iff] at h
      obtain ⟨⟨appended, following⟩, happend, h⟩ := h
      cases h
      exact append_collected happend

theorem stageObservation_collected {request : ProjectionObservationRequest}
    (hpartition : staged.HasPartition (.fromInput input.cursor))
    (hscope : PartitionKey.ofScope request.scope = .fromInput input.cursor)
    (h : stageObservation input staged request = .ok next)
    : Collected (.fromInput input.cursor) staged next := by
  simp only [stageObservation, Result.bind_eq_ok_iff] at h
  obtain ⟨⟨revision, stagedChange⟩, -, h⟩ := h
  split at h
  · cases h
    exact hpartition.collected_refl
  · simp only [Result.bind_eq_ok_iff] at h
    obtain ⟨⟨change, following⟩, hchange, h⟩ := h
    have hcollected := observationChange_collected hpartition hchange
    obtain ⟨state, hstate⟩ := hcollected.hasPartition
    cases h
    refine hcollected.trans ⟨[], (List.append_nil _).symm, ?_⟩
    exact insertObservation_stages hstate hscope _

theorem stageCheckpointChange_collected
    (hpartition : staged.HasPartition (.fromInput input.cursor))
    (h : stageCheckpointChange input staged = .ok next)
    : Collected (.fromInput input.cursor) staged next := by
  unfold stageCheckpointChange at h
  split at h
  · obtain ⟨⟨change, following⟩, happend, h⟩ := Result.bind_eq_ok_iff.mp h
    cases h
    exact append_collected happend
  · cases h
    exact hpartition.collected_refl

/-- A loop whose every iteration collects changes collects them all. -/
theorem foldlM_collected {α : Type} {key : PartitionKey}
    {step : StagedCommit → α → Except ProjectionProtocolError StagedCommit} {items : List α}
    (hpartition : staged.HasPartition key)
    (hstep : ∀ staged item next, item ∈ items → staged.HasPartition key →
      step staged item = .ok next → Collected key staged next)
    (h : items.foldlM step staged = .ok next)
    : Collected key staged next := by
  refine Result.foldlM_invariant (Collected key staged) hpartition.collected_refl ?_ h
  intro middle item following hitem hmiddle hrun
  exact hmiddle.trans (hstep middle item following hitem hmiddle.hasPartition hrun)

end Loops

end Distributed.InMemoryRepo
