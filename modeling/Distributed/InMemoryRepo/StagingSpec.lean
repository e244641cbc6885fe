import Distributed.Foundation.Result
import Distributed.InMemoryRepo.ProjectionStaging

/-! What each staging function of the projection state checks and writes.
-/

namespace Distributed.InMemoryRepo

open Distributed.Foundation Distributed.Platform Distributed.ProjectionProtocol

open Distributed.Table

/-- The partition after one more change. -/
def PartitionState.appended (state : PartitionState) (change : ProjectionChange)
    : PartitionState :=
  { state with
    changeHead := state.changeHead + 1
    changes := state.changes.insert (state.changeHead + 1) change }

/-- The partition without its changes up to a position. -/
def PartitionState.compacted (state : PartitionState) (through : Nat) : PartitionState :=
  { state with
    changes := state.changes.filterKeys fun position => through < position
    compactedThrough := through }

/-- The partition of a record scope. -/
def PartitionKey.ofScope (scope : ProjectionRecordScope) : PartitionKey :=
  ⟨scope.topology, scope.projectionPartition⟩

namespace InMemoryProjectionProtocolState

variable {crates : Crates} {protocol next : InMemoryProjectionProtocolState}
  {key : PartitionKey}

/-- A known partition is kept, an unknown one starts empty in its first generation. -/
theorem ensurePartition_ok {changeEpoch : ProjectionEpoch}
    (h : protocol.ensurePartition key changeEpoch = .ok next)
    : ∃ state, state.changeEpoch = changeEpoch ∧ next.partitions.lookup key = some state
      ∧ (protocol.partitions.lookup key = some state ∧ next = protocol
        ∨ protocol.partitions.lookup key = none ∧ state = .new changeEpoch
          ∧ next = {
            protocol with
            partitions := protocol.partitions.insert key state
            generations := protocol.generations.insert ⟨key, .initial⟩ .initial }) := by
  unfold ensurePartition at h
  cases hstate : protocol.partitions.lookup key with
  | some state =>
      simp only [hstate, Result.guard_eq_ok_iff, not_not] at h
      obtain ⟨hepoch, h⟩ := h
      cases h
      exact ⟨state, hepoch, hstate, .inl ⟨rfl, rfl⟩⟩
  | none =>
      simp only [hstate] at h
      cases h
      exact ⟨.new changeEpoch, rfl, AList.lookup_insert _, .inr ⟨rfl, rfl, rfl⟩⟩

/-- The change takes the next position of the partition's log. -/
structure IsNext (key : PartitionKey) (state : PartitionState) (change : ProjectionChange)
    : Prop where
  topology : change.cursor.topology = key.topology
  partition : change.cursor.projectionPartition = key.partition
  epoch : change.cursor.epoch = state.changeEpoch
  position : change.cursor.position = state.changeHead + 1

theorem appendChange_ok {pending : PendingChange} {change : ProjectionChange}
    (h : protocol.appendChange key pending = .ok (change, next))
    : ∃ state, protocol.partitions.lookup key = some state ∧ IsNext key state change
      ∧ change = {
        cursor := change.cursor
        kind := pending.kind
        causationId := pending.causationId
        observationKind := pending.observationKind
        scope := pending.scope
        revision := pending.revision
        failureId := pending.failureId }
      ∧ next = { protocol with
          partitions := protocol.partitions.insert key (state.appended change) } := by
  unfold appendChange at h
  cases hstate : protocol.partitions.lookup key with
  | none => simp [hstate] at h
  | some state =>
      simp only [hstate, Result.error_bind, Result.guard_eq_ok_iff, Result.bind_eq_ok_iff,
        liftValidation, Result.mapError_eq_ok_iff] at h
      obtain ⟨-, cursor, hcursor, h⟩ := h
      obtain ⟨htopology, hpartition, hepoch, hposition⟩ := ProjectionChangeCursor.new_ok hcursor
      cases h
      exact ⟨state, rfl, ⟨htopology, hpartition, hepoch, hposition⟩, rfl, rfl⟩

/-- Compaction drops the changes up to a position of the log, or nothing when they were
dropped before. -/
inductive Compacts (key : PartitionKey) (protocol : InMemoryProjectionProtocolState)
    (state : PartitionState) : InMemoryProjectionProtocolState → Prop
  | already : Compacts key protocol state protocol
  | dropped {through : Nat} : state.compactedThrough < through → through ≤ state.changeHead →
      Compacts key protocol state { protocol with
        partitions := protocol.partitions.insert key (state.compacted through) }

theorem compactChangesThrough_ok {through compacted : Nat}
    (h : protocol.compactChangesThrough key through = .ok (compacted, next))
    : ∃ state, protocol.partitions.lookup key = some state
      ∧ Compacts key protocol state next := by
  unfold compactChangesThrough at h
  cases hstate : protocol.partitions.lookup key with
  | none => simp [hstate] at h
  | some state =>
      simp only [hstate, Result.error_bind, Result.guard_eq_ok_iff] at h
      obtain ⟨hhead, h⟩ := h
      refine ⟨state, rfl, ?_⟩
      split at h
      · cases h
        exact .already
      · rename_i hnew
        simp only [Result.guard_eq_ok_iff] at h
        obtain ⟨-, h⟩ := h
        cases h
        exact .dropped (Nat.lt_of_not_le hnew) (Nat.le_of_not_lt hhead)

theorem retainChangeSuffix_ok {retention : ProjectionChangeRetention}
    (h : protocol.retainChangeSuffix key retention = .ok next)
    : ∃ state, protocol.partitions.lookup key = some state
      ∧ Compacts key protocol state next := by
  unfold retainChangeSuffix at h
  split at h
  · obtain ⟨⟨compacted, staged⟩, hcompact, h⟩ := Result.bind_eq_ok_iff.mp h
    cases h
    exact compactChangesThrough_ok hcompact
  · cases h

theorem bindOwnership_ok {declaration : ProjectionModelOwnership}
    (h : bindOwnership key protocol declaration = .ok next)
    : next = { protocol with
        ownership := protocol.ownership.insert ⟨key, declaration.model⟩ declaration.table } := by
  unfold bindOwnership at h
  cases hbound : protocol.ownership.lookup ⟨key, declaration.model⟩ with
  | none =>
      simp only [hbound, Result.ok_bind] at h
      split at h
      · cases h
      · cases h
        rfl
  | some previous =>
      simp only [hbound, Result.error_bind, Result.guard_eq_ok_iff] at h
      obtain ⟨-, h⟩ := h
      split at h
      · cases h
      · cases h
        rfl

/-- Registration binds models to tables and nothing else. -/
theorem registerOwnership_ok {batch : ProjectionCommitBatch}
    (h : protocol.registerOwnership key batch = .ok next)
    : (∀ declaration ∈ batch.ownership,
        protocol.requireRegisteredOwner key "projector" declaration = .ok ())
      ∧ (∀ mutation ∈ batch.mutations, next.requireMutationOwner key mutation = .ok ())
      ∧ ∃ ownership, next = { protocol with ownership } := by
  simp only [registerOwnership, Result.bind_eq_ok_iff] at h
  obtain ⟨_, hregistered, _, -, bound, hbound, _, hmutations, _, -, h⟩ := h
  cases h
  refine ⟨Result.forM_eq_ok_iff.mp hregistered, Result.forM_eq_ok_iff.mp hmutations, ?_⟩
  refine Result.foldlM_invariant (fun bound => ∃ ownership, bound = { protocol with ownership })
    ⟨protocol.ownership, rfl⟩ ?_ hbound
  rintro _ declaration next - ⟨ownership, rfl⟩ hnext
  rw [bindOwnership_ok hnext]
  exact ⟨_, rfl⟩

theorem registerSameTransactionOwnership_ok {declaration : ProjectionModelOwnership}
    {mutation : SameTransactionProjectionMutation}
    (h : protocol.registerSameTransactionOwnership key declaration mutation = .ok next)
    : protocol.requireRegisteredOwner key "direct projection" declaration = .ok ()
      ∧ next = { protocol with
        ownership := protocol.ownership.insert ⟨key, declaration.model⟩ declaration.table } := by
  simp only [registerSameTransactionOwnership, Result.bind_eq_ok_iff, Result.error_bind,
    Result.guard_eq_ok_iff] at h
  obtain ⟨_, hregistered, bound, hbound, table, -, -, h⟩ := h
  cases h
  exact ⟨hregistered, bindOwnership_ok hbound⟩

end InMemoryProjectionProtocolState

end Distributed.InMemoryRepo
