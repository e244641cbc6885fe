import Distributed.InMemoryRepo.CommitSpec
import Distributed.InMemoryRepo.ProjectionSpec
import Distributed.InMemoryRepo.System

/-! Which stores an operation leaves alone.
-/

namespace Distributed.InMemoryRepo

open Distributed.CommandLedger Distributed.Foundation Distributed.Platform

open Distributed.ProjectionProtocol Distributed.Repository Distributed.Snapshot

open Distributed.Table

section Ledger

variable {crates : Crates}

theorem putRecord_within (key : CommandLedgerKey) (record : CommandLedgerRecord)
    : Txn.Within InMemoryRepository.ledger (putRecord key record) :=
  Txn.within_updatePart _

theorem reserveOccupied_within (reservation : CommandReservation) (now : SystemTime)
    (record : CommandLedgerRecord)
    : Txn.Within InMemoryRepository.ledger (reserveOccupied crates reservation now record) := by
  refine (Txn.readOnly_lift _).within.bind fun decision => ?_
  cases decision with
  | expire => exact (putRecord_within _ _).bind fun _ => (Txn.readOnly_pure _).within
  | reclaim =>
      refine (Txn.readOnly_lift _).within.bind fun reclaimed => ?_
      exact (putRecord_within _ _).bind fun _ => (Txn.readOnly_lift _).within
  | _ => exact (Txn.readOnly_lift _).within

theorem reserveCommand_within (reservation : CommandReservation) (now : SystemTime)
    : Txn.Within InMemoryRepository.ledger (reserveCommand crates reservation now) := by
  refine Txn.readOnly_current.within.bind fun repository => ?_
  split
  · refine (Txn.readOnly_lift _).within.bind fun record => ?_
    refine (Txn.readOnly_lift _).within.bind fun attempt => ?_
    exact (putRecord_within _ _).bind fun _ => (Txn.readOnly_pure _).within
  · exact reserveOccupied_within reservation now _

theorem lookupCommand_within (key : CommandLedgerKey) (scope : CommandLookupScope)
    (now : SystemTime)
    : Txn.Within InMemoryRepository.ledger (lookupCommand crates key scope now) := by
  refine Txn.readOnly_current.within.bind fun repository => ?_
  split
  · exact (Txn.readOnly_pure _).within
  · split
    · exact (Txn.readOnly_pure _).within
    · split
      · exact (putRecord_within _ _).bind fun _ => (Txn.readOnly_lift _).within
      · exact (Txn.readOnly_lift _).within

theorem markRetryableUnknown_within (attempt : AttemptFence) (now : SystemTime)
    : Txn.Within InMemoryRepository.ledger (markRetryableUnknown attempt now) := by
  refine Txn.readOnly_current.within.bind fun repository => ?_
  split
  · exact (Txn.readOnly_lift _).within
  · exact (Txn.readOnly_lift _).within.bind fun marked => putRecord_within _ _

theorem compactExpiredCommands_within (limit : Nat) (now : SystemTime)
    : Txn.Within InMemoryRepository.ledger (compactExpiredCommands limit now) := by
  unfold compactExpiredCommands
  split
  · exact (Txn.readOnly_pure _).within
  · refine Txn.readOnly_current.within.bind fun repository => ?_
    exact (Txn.within_updatePart _).bind fun _ => (Txn.readOnly_pure _).within

end Ledger

/-- The streams, the outbox, the snapshots and the command ledger are the same. -/
structure SameServiceStores (before after : InMemoryRepository) : Prop where
  events : after.eventStore = before.eventStore
  outbox : after.outboxStore = before.outboxStore
  snapshots : after.snapshotStore = before.snapshotStore
  ledger : after.commandLedger = before.commandLedger

theorem SameServiceStores.refl (repository : InMemoryRepository)
    : SameServiceStores repository repository :=
  ⟨rfl, rfl, rfl, rfl⟩

section Operations

variable {crates : Crates} {repository : InMemoryRepository}

theorem registerProjectionModels_frame (topology : ProjectorTopologyId)
    (ownership : List ProjectionModelOwnership)
    : SameServiceStores repository
        (registerProjectionModels topology ownership repository).2 := by
  refine (Txn.staged_allOrNothing _).preserves (SameServiceStores repository) (.refl _) ?_
  intro _ next hrun
  obtain ⟨protocol, -, rfl⟩ := registerProjectionModels_ok hrun
  exact ⟨rfl, rfl, rfl, rfl⟩

theorem commitProjection_frame (batch : ProjectionCommitBatch)
    : SameServiceStores repository (commitProjection crates batch repository).2 := by
  refine (Txn.staged_allOrNothing _).preserves (SameServiceStores repository) (.refl _) ?_
  intro result next hrun
  obtain ⟨-, -, ⟨-, rfl⟩ | ⟨-, -, -, touched, rows, protocol, -, rfl⟩⟩ :=
    commitProjection_ok hrun
  · exact .refl _
  · exact ⟨rfl, rfl, rfl, rfl⟩

theorem recordProjectionFailure_frame (batch : ProjectionFailureBatch)
    : SameServiceStores repository (recordProjectionFailure crates batch repository).2 := by
  refine (Txn.staged_allOrNothing _).preserves (SameServiceStores repository) (.refl _) ?_
  intro failure next hrun
  obtain ⟨-, rfl⟩ | ⟨-, -, -, -, -, -, protocol, -, rfl⟩ := recordProjectionFailure_ok hrun
  · exact .refl _
  · exact ⟨rfl, rfl, rfl, rfl⟩

theorem repairProjection_frame (topology : ProjectorTopologyId)
    (partition : ProjectionPartition) (failureId : String)
    : SameServiceStores repository
        (repairProjection topology partition failureId repository).2 := by
  refine (Txn.staged_allOrNothing _).preserves (SameServiceStores repository) (.refl _) ?_
  intro generation next hrun
  obtain ⟨protocol, -, rfl⟩ := repairProjection_ok hrun
  exact ⟨rfl, rfl, rfl, rfl⟩

theorem compactProjectionChanges_frame (through : ProjectionChangeCursor)
    : SameServiceStores repository (compactProjectionChanges through repository).2 := by
  refine (Txn.staged_allOrNothing _).preserves (SameServiceStores repository) (.refl _) ?_
  intro compacted next hrun
  obtain ⟨protocol, -, rfl⟩ := compactProjectionChanges_ok hrun
  exact ⟨rfl, rfl, rfl, rfl⟩

theorem commitWritePlan_ok {plan : TableWritePlan} {next : InMemoryRepository}
    (h : commitWritePlan crates plan repository = (.ok (), next))
    : rejectCausalOwnedPlans repository.causalTables [plan] = .ok ()
      ∧ ∃ rows, applyReadModelWritePlan crates plan repository.relationalRows = .ok rows
        ∧ next = { repository with relationalRows := rows } := by
  rw [commitWritePlan, Txn.staged_eq_ok] at h
  simp only [Result.bind_eq_ok_iff] at h
  obtain ⟨_, hallowed, rows, hrows, h⟩ := h
  cases h
  exact ⟨hallowed, rows, hrows, rfl⟩

theorem commitWritePlan_frame (plan : TableWritePlan)
    : SameServiceStores repository (commitWritePlan crates plan repository).2 := by
  refine (Txn.staged_allOrNothing _).preserves (SameServiceStores repository) (.refl _) ?_
  intro _ next hrun
  obtain ⟨-, rows, -, rfl⟩ := commitWritePlan_ok hrun
  exact ⟨rfl, rfl, rfl, rfl⟩

theorem putSnapshot_ok {identity : StreamIdentity} {record : SnapshotRecord}
    {next : InMemoryRepository}
    (h : putSnapshot identity record repository = (.ok (), next))
    : record.validateForIdentity identity = .ok ()
      ∧ next = { repository with
          snapshotStore := repository.snapshotStore.insert identity.storageKey record } := by
  rw [putSnapshot, Txn.staged_eq_ok, Result.bind_eq_ok_iff] at h
  obtain ⟨_, hvalid, h⟩ := h
  cases h
  exact ⟨hvalid, rfl⟩

theorem putSnapshot_ledger (identity : StreamIdentity) (record : SnapshotRecord)
    : (putSnapshot identity record repository).2.commandLedger
      = repository.commandLedger := by
  refine (Txn.staged_allOrNothing _).preserves
    (fun next : InMemoryRepository => next.commandLedger = repository.commandLedger) rfl ?_
  intro _ next hrun
  rw [(putSnapshot_ok hrun).2]

end Operations

end Distributed.InMemoryRepo
