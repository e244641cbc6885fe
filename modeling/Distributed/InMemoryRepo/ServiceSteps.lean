import Distributed.InMemoryRepo.CommitEffects
import Distributed.InMemoryRepo.Frames

/-! What an operation does to the streams, the outbox, the snapshots and the inbox.
Either it commits a batch, or it leaves the streams alone and changes at most one of the
other stores.
-/

namespace Distributed.InMemoryRepo

open Distributed.CommandLedger Distributed.Entities Distributed.Foundation

open Distributed.Outbox Distributed.OutboxWorker Distributed.Platform

open Distributed.ProjectionProtocol Distributed.Repository Distributed.Snapshot

/-- The batch that a successful commit stored, with the causation of its command. -/
def storedBatch (crates : Crates) (op : RepositoryOp) (answer : RepositoryAnswer)
    : Option CommitBatch :=
  match op, answer with
  | .commitBatch _ batch, .batchCommitted (.ok _) => some batch
  | .commitCommand _ request, .commandCommitted (.ok _) =>
      match request.completion.complete crates with
      | .ok completion =>
          some (CausalCommitBatch.build request.domain completion request.directProjection).domain
      | .error _ => none
  | _, _ => none

/-- The state after a successful commit of the batch. -/
inductive Commits (crates : Crates) (batch : CommitBatch) (before : InMemoryRepository)
    : InMemoryRepository → Prop
  | published {clock : CommitClock} {completion : Option CommandCompletion}
      {direct : Option SameTransactionProjectionBatch} {staged : StagedBatch}
      : StagedFrom crates clock batch completion direct before staged →
        Commits crates batch before (staged.publish batch before)

/-- The outbox after an operation that commits nothing. -/
def outboxAfter (crates : Crates) (op : RepositoryOp) (storage : OutboxStorage)
    : OutboxStorage :=
  match op with
  | .claimOutbox request now checked => (claim request now checked storage).2
  | .settleOutbox settlement claim now => (settle crates settlement claim now storage).2
  | .completeManyOutbox claims now => (completeMany crates now claims storage).2
  | _ => storage

/-- An operation that commits nothing leaves the streams alone, writes at most the snapshot
it was given and never removes a receipt, unless it clears the inbox. -/
structure Uncommitted (crates : Crates) (op : RepositoryOp)
    (before after : InMemoryRepository) : Prop where
  events : after.eventStore = before.eventStore
  outbox : after.outboxStore = outboxAfter crates op before.outboxStore
  snapshots : ∀ key record, after.snapshotStore.lookup key = some record →
    before.snapshotStore.lookup key = some record
      ∨ ∃ identity, op = .putSnapshot identity record ∧ key = identity.storageKey
  inbox : op ≠ .clearInbox → before.inboxStore ⊆ after.inboxStore

section Operations

variable {crates : Crates} {repository next : InMemoryRepository} {op : RepositoryOp}

theorem Uncommitted.of_same (hevents : next.eventStore = repository.eventStore)
    (houtbox : next.outboxStore = outboxAfter crates op repository.outboxStore)
    (hsnapshots : next.snapshotStore = repository.snapshotStore)
    (hinbox : repository.inboxStore ⊆ next.inboxStore)
    : Uncommitted crates op repository next where
  events := hevents
  outbox := houtbox
  snapshots _ _ h := .inl (hsnapshots ▸ h)
  inbox _ := hinbox

theorem Uncommitted.refl (h : outboxAfter crates op repository.outboxStore
      = repository.outboxStore)
    : Uncommitted crates op repository repository :=
  .of_same rfl h.symm rfl subset_rfl

/-- An operation on the ledger or the outbox writes that store only. -/
theorem report_within_uncommitted {Error α Part : Type}
    {wrap : Except Error α → RepositoryAnswer} {operation : Txn InMemoryRepository Error α}
    {lens : Lens InMemoryRepository Part} (hwithin : operation.Within lens)
    (hother : ∀ part, Uncommitted crates op repository (lens.set part repository))
    : Uncommitted crates op repository (report wrap operation repository).2 := by
  obtain ⟨part, hpart⟩ := hwithin repository
  rw [report, hpart]
  exact hother part

theorem report_uncommitted {Error α : Type} {wrap : Except Error α → RepositoryAnswer}
    {operation : Txn InMemoryRepository Error α} (hatomic : operation.AllOrNothing)
    (hrefl : outboxAfter crates op repository.outboxStore = repository.outboxStore)
    (hok : ∀ value next, operation repository = (.ok value, next) →
      Uncommitted crates op repository next)
    : Uncommitted crates op repository (report wrap operation repository).2 :=
  hatomic.preserves (Uncommitted crates op repository) (.refl hrefl) hok

theorem putSnapshot_uncommitted (identity : StreamIdentity) (record : SnapshotRecord)
    : Uncommitted crates (.putSnapshot identity record) repository
        (step crates (.putSnapshot identity record) repository).2 := by
  refine report_uncommitted (Txn.staged_allOrNothing _) rfl fun _ next hrun => ?_
  obtain ⟨-, rfl⟩ := putSnapshot_ok hrun
  refine ⟨rfl, rfl, fun key stored h => ?_, fun _ => subset_rfl⟩
  rw [Map.lookup_insert_eq] at h
  split at h
  · rename_i hkey
    cases h
    exact .inr ⟨identity, rfl, hkey⟩
  · exact .inl h

theorem deleteSnapshot_uncommitted (identity : StreamIdentity)
    : Uncommitted crates (.deleteSnapshot identity) repository
        (step crates (.deleteSnapshot identity) repository).2 := by
  refine ⟨rfl, rfl, fun key stored h => ?_, fun _ => subset_rfl⟩
  simp only [step, report, deleteSnapshot, Map.lookup_erase_eq] at h
  split at h
  · cases h
  · exact .inl h

theorem commitProjection_uncommitted (batch : ProjectionCommitBatch)
    : Uncommitted crates (.commitProjection batch) repository
        (step crates (.commitProjection batch) repository).2 := by
  refine report_uncommitted (Txn.staged_allOrNothing _) rfl fun result next hrun => ?_
  obtain ⟨-, -, ⟨-, rfl⟩ | ⟨-, -, -, touched, rows, protocol, -, rfl⟩⟩ :=
    commitProjection_ok hrun
  · exact .refl rfl
  · exact .of_same rfl rfl rfl (Finset.subset_insert _ _)

theorem recordProjectionFailure_uncommitted (batch : ProjectionFailureBatch)
    : Uncommitted crates (.recordProjectionFailure batch) repository
        (step crates (.recordProjectionFailure batch) repository).2 := by
  refine report_uncommitted (Txn.staged_allOrNothing _) rfl fun failure next hrun => ?_
  obtain ⟨-, rfl⟩ | ⟨-, -, -, -, -, -, protocol, -, rfl⟩ := recordProjectionFailure_ok hrun
  · exact .refl rfl
  · exact .of_same rfl rfl rfl (Finset.subset_insert _ _)

end Operations

theorem commitBatch_commits {crates : Crates} {clock : CommitClock} {batch : CommitBatch}
    {repository next : InMemoryRepository} {streams : List StreamWrite}
    (h : commitBatch crates clock batch repository = (.ok streams, next))
    : Commits crates batch repository next := by
  obtain ⟨staged, hstaged, rfl, -⟩ := commitBatchInner_ok (Txn.mapError_eq_ok.mp h)
  exact .published hstaged

/-- Every operation commits a batch or leaves the streams alone. -/
theorem step_service (crates : Crates) (op : RepositoryOp) (repository : InMemoryRepository)
    : (∃ batch, storedBatch crates op (step crates op repository).1 = some batch
        ∧ Commits crates batch repository (step crates op repository).2)
      ∨ storedBatch crates op (step crates op repository).1 = none
        ∧ Uncommitted crates op repository (step crates op repository).2 := by
  cases op with
  | commitBatch clock batch =>
      have hatomic : Txn.AllOrNothing (commitBatch crates clock batch) :=
        commitBatchInner_allOrNothing.mapError _
      simp only [step, report]
      rcases hrun : commitBatch crates clock batch repository with ⟨error | streams, next⟩
      · have hsame := hatomic repository error (congrArg Prod.fst hrun)
        rw [hrun] at hsame
        subst hsame
        exact .inr ⟨rfl, .refl rfl⟩
      · exact .inl ⟨batch, rfl, commitBatch_commits hrun⟩
  | commitCommand clock request =>
      simp only [step, report]
      rcases hrun : commitCommand crates clock request repository with ⟨error | streams, next⟩
      · have hsame := commitCommand_allOrNothing request repository error (congrArg Prod.fst hrun)
        rw [hrun] at hsame
        subst hsame
        exact .inr ⟨rfl, .refl rfl⟩
      · rw [commitCommand, Txn.lift_bind_eq_ok] at hrun
        obtain ⟨completion, hcompletion, hcommit⟩ := hrun
        obtain ⟨staged, hstaged, rfl, -⟩ := commitBatchInner_ok (Txn.mapError_eq_ok.mp hcommit)
        exact .inl ⟨_, by simp only [storedBatch, hcompletion], .published hstaged⟩
  | reserveCommand reservation now =>
      exact .inr ⟨rfl, report_within_uncommitted (reserveCommand_within reservation now)
        fun _ => .of_same rfl rfl rfl subset_rfl⟩
  | lookupCommand key scope now =>
      exact .inr ⟨rfl, report_within_uncommitted (lookupCommand_within key scope now)
        fun _ => .of_same rfl rfl rfl subset_rfl⟩
  | markRetryableUnknown attempt now =>
      exact .inr ⟨rfl, report_within_uncommitted (markRetryableUnknown_within attempt now)
        fun _ => .of_same rfl rfl rfl subset_rfl⟩
  | compactExpiredCommands limit now =>
      exact .inr ⟨rfl, report_within_uncommitted (compactExpiredCommands_within limit now)
        fun _ => .of_same rfl rfl rfl subset_rfl⟩
  | claimOutbox | settleOutbox | completeManyOutbox =>
      exact .inr ⟨rfl, .of_same rfl rfl rfl subset_rfl⟩
  | registerProjectionModels topology ownership =>
      refine .inr ⟨rfl, report_uncommitted (Txn.staged_allOrNothing _) rfl
        fun _ next hrun => ?_⟩
      obtain ⟨protocol, -, rfl⟩ := registerProjectionModels_ok hrun
      exact .of_same rfl rfl rfl subset_rfl
  | commitProjection batch => exact .inr ⟨rfl, commitProjection_uncommitted batch⟩
  | recordProjectionFailure batch =>
      exact .inr ⟨rfl, recordProjectionFailure_uncommitted batch⟩
  | repairProjection topology partition failureId =>
      refine .inr ⟨rfl, report_uncommitted (Txn.staged_allOrNothing _) rfl
        fun _ next hrun => ?_⟩
      obtain ⟨protocol, -, rfl⟩ := repairProjection_ok hrun
      exact .of_same rfl rfl rfl subset_rfl
  | compactProjectionChanges through =>
      refine .inr ⟨rfl, report_uncommitted (Txn.staged_allOrNothing _) rfl
        fun _ next hrun => ?_⟩
      obtain ⟨protocol, -, rfl⟩ := compactProjectionChanges_ok hrun
      exact .of_same rfl rfl rfl subset_rfl
  | commitWritePlan plan =>
      refine .inr ⟨rfl, report_uncommitted (Txn.staged_allOrNothing _) rfl
        fun _ next hrun => ?_⟩
      obtain ⟨-, rows, -, rfl⟩ := commitWritePlan_ok hrun
      exact .of_same rfl rfl rfl subset_rfl
  | putSnapshot identity record => exact .inr ⟨rfl, putSnapshot_uncommitted identity record⟩
  | deleteSnapshot identity => exact .inr ⟨rfl, deleteSnapshot_uncommitted identity⟩
  | clearInbox =>
      exact .inr ⟨rfl, rfl, rfl, fun _ _ h => .inl h, fun hclear => absurd rfl hclear⟩

theorem checkInboxReceipts_ok {storage : Finset (String × String)}
    {seen : List (String × String)} {receipts : List InboxReceipt}
    (h : checkInboxReceipts storage seen receipts = .ok ())
    : (receipts.map InboxReceipt.key).Nodup
      ∧ ∀ key ∈ receipts.map InboxReceipt.key, key ∉ storage ∧ key ∉ seen := by
  induction receipts generalizing seen with
  | nil => simp
  | cons receipt receipts ih =>
      simp only [checkInboxReceipts, Result.bind_eq_ok_iff, Result.error_bind,
        Result.guard_eq_ok_iff, not_or] at h
      obtain ⟨-, -, hfresh, hrest⟩ := h
      obtain ⟨hnodup, hnew⟩ := ih hrest
      rw [List.map_cons, List.nodup_cons]
      refine ⟨⟨fun hmem => (hnew _ hmem).2 List.mem_cons_self, hnodup⟩, fun key hkey => ?_⟩
      rcases List.mem_cons.mp hkey with rfl | hkey
      · exact hfresh
      · exact ⟨(hnew key hkey).1, fun hseen => (hnew key hkey).2 (List.mem_cons_of_mem _ hseen)⟩

/-- A commit accepts new receipts only, each once, and keeps the old ones. -/
theorem Commits.receipts {crates : Crates} {batch : CommitBatch}
    {before after : InMemoryRepository} (h : Commits crates batch before after)
    : (batch.inboxReceipts.map InboxReceipt.key).Nodup
      ∧ (∀ key ∈ batch.inboxReceipts.map InboxReceipt.key,
        key ∉ before.inboxStore ∧ key ∈ after.inboxStore)
      ∧ before.inboxStore ⊆ after.inboxStore := by
  cases h with
  | published hstaged =>
      obtain ⟨hdistinct, hfresh⟩ := checkInboxReceipts_ok hstaged.inbox
      refine ⟨hdistinct, fun key hkey => ⟨(hfresh key hkey).1, ?_⟩, subset_foldl_insert _ _⟩
      obtain ⟨receipt, hreceipt, rfl⟩ := List.mem_map.mp hkey
      exact hstaged.present.inbox receipt hreceipt

/-- The receipts of the batches committed since the inbox was last cleared. -/
def receiptsAfter (crates : Crates) (accepted : List (String × String))
    (event : Event InMemoryRepository RepositoryOp RepositoryAnswer) : List (String × String) :=
  match event.op with
  | .clearInbox => []
  | op => accepted
      ++ ((storedBatch crates op event.answer).elim [] (·.inboxReceipts)).map InboxReceipt.key

/-- The accepted receipts are distinct and in the inbox. -/
structure ReceiptsHeld (accepted : List (String × String)) (repository : InMemoryRepository)
    : Prop where
  distinct : accepted.Nodup
  held : ∀ key ∈ accepted, key ∈ repository.inboxStore

theorem receiptsHeld_nil (repository : InMemoryRepository) : ReceiptsHeld [] repository :=
  ⟨.nil, fun _ h => absurd h List.not_mem_nil⟩

theorem ReceiptsHeld.after_step {accepted : List (String × String)}
    {repository : InMemoryRepository} (h : ReceiptsHeld accepted repository) (crates : Crates)
    (op : RepositoryOp)
    : ReceiptsHeld (receiptsAfter crates accepted (.ofStep (step crates) repository op))
        (step crates op repository).2 := by
  unfold receiptsAfter
  split
  next => exact receiptsHeld_nil _
  next hclear =>
    simp only [Event.ofStep]
    rcases step_service crates op repository with ⟨batch, hbatch, hcommits⟩ | ⟨hnone, hother⟩
    · obtain ⟨hdistinct, hnew, hkept⟩ := hcommits.receipts
      rw [hbatch]
      refine ⟨List.nodup_append.mpr ⟨h.distinct, hdistinct, ?_⟩, fun key hkey => ?_⟩
      · rintro key hkey _ hadded rfl
        exact (hnew key hadded).1 (h.held key hkey)
      · rcases List.mem_append.mp hkey with hold | hadded
        · exact hkept (h.held key hold)
        · exact (hnew key hadded).2
    · rw [hnone, Option.elim_none, List.map_nil, List.append_nil]
      exact ⟨h.distinct, fun key hkey => hother.inbox hclear (h.held key hkey)⟩

/-- No delivery is processed twice: in every run, as long as the inbox is not cleared, no two
committed batches carry the same receipt, and the inbox holds every accepted one. -/
theorem receipts_are_accepted_once (crates : Crates) (retention : ProjectionChangeRetention)
    (ops : List RepositoryOp)
    : ReceiptsHeld ((history (step crates) (.new retention) ops).foldl (receiptsAfter crates) [])
        (finalState (step crates) (.new retention) ops) :=
  history_foldl (step crates) ReceiptsHeld (receiptsAfter crates)
    (fun _ _ op h => h.after_step crates op) (receiptsHeld_nil _) ops

end Distributed.InMemoryRepo
