import Distributed.CommandLedger.ReplaySpec
import Distributed.InMemoryRepo.Frames

/-! How each operation of the repository changes the command ledger.
-/

namespace Distributed.InMemoryRepo

open Distributed.CommandLedger Distributed.Foundation Distributed.Platform

open Distributed.ProjectionProtocol Distributed.Repository

abbrev CommandLedger : Type := Map CommandLedgerKey CommandLedgerRecord

/-- Every row is kept or changed by one transition. -/
def LedgerStep (crates : Crates) (before after : CommandLedger) : Prop :=
  ∀ key, after.lookup key = before.lookup key
    ∨ ∃ record, after.lookup key = some record
      ∧ RecordTransition crates (before.lookup key) record

theorem LedgerStep.refl {crates : Crates} (ledger : CommandLedger)
    : LedgerStep crates ledger ledger :=
  fun _ => .inl rfl

theorem LedgerStep.of_eq {crates : Crates} {before after : CommandLedger}
    (h : after = before)
    : LedgerStep crates before after :=
  h ▸ .refl after

theorem LedgerStep.insert {crates : Crates} {ledger : CommandLedger}
    {key : CommandLedgerKey} {record : CommandLedgerRecord}
    (h : RecordTransition crates (ledger.lookup key) record)
    : LedgerStep crates ledger (ledger.insert key record) := by
  intro other
  rw [Map.lookup_insert_eq]
  split
  · rename_i hkey
    subst hkey
    exact .inr ⟨record, rfl, h⟩
  · exact .inl rfl

section Operations

variable {crates : Crates} {repository : InMemoryRepository}

theorem reserveOccupied_ledgerStep {reservation : CommandReservation} {now : SystemTime}
    {record : CommandLedgerRecord}
    (hrow : repository.commandLedger.lookup reservation.key = some record)
    : LedgerStep crates repository.commandLedger
        (reserveOccupied crates reservation now record repository).2.commandLedger := by
  unfold reserveOccupied
  cases hdecision : record.classifyReservation reservation now with
  | error error => exact .refl _
  | ok decision =>
      cases decision with
      | conflict | inProgress | replay => exact .refl _
      | expire =>
          cases CommandLedgerRecord.classifyReservation_ok hdecision with
          | expire hdue => exact .insert (hrow ▸ .expired now hdue)
      | reclaim =>
          cases hreclaim : record.reclaim reservation now with
          | error error => exact .refl _
          | ok reclaimed =>
              exact .insert (hrow ▸ .reclaimed reservation now hdecision hreclaim)

theorem reserveCommand_ledgerStep (reservation : CommandReservation) (now : SystemTime)
    : LedgerStep crates repository.commandLedger
        (reserveCommand crates reservation now repository).2.commandLedger := by
  rw [reserveCommand, Txn.current_bind_apply]
  cases hrow : repository.commandLedger.lookup reservation.key with
  | none =>
      cases hinitial : CommandLedgerRecord.initial reservation now with
      | error error => exact .refl _
      | ok record =>
          have htoken : record.attemptToken = some reservation.candidateAttempt :=
            CommandLedgerRecord.initial_ok hinitial ▸ rfl
          simp only [Txn.lift_ok_bind, CommandLedgerRecord.acquiredAttempt_eq htoken]
          exact .insert (hrow ▸ .inserted reservation now hinitial)
  | some record => exact reserveOccupied_ledgerStep hrow

theorem lookupCommand_ledgerStep (key : CommandLedgerKey) (scope : CommandLookupScope)
    (now : SystemTime)
    : LedgerStep crates repository.commandLedger
        (lookupCommand crates key scope now repository).2.commandLedger := by
  rw [lookupCommand, Txn.current_bind_apply]
  cases hrow : repository.commandLedger.lookup key with
  | none => exact .refl _
  | some record =>
      dsimp only
      split
      · exact .refl _
      · split
        · rename_i hdue
          exact .insert (hrow ▸ .expired now (.inr hdue.2))
        · exact .refl _

theorem markRetryableUnknown_ledgerStep (attempt : AttemptFence) (now : SystemTime)
    : LedgerStep crates repository.commandLedger
        (markRetryableUnknown attempt now repository).2.commandLedger := by
  rw [markRetryableUnknown, Txn.current_bind_apply]
  cases hrow : repository.commandLedger.lookup attempt.key with
  | none => exact .refl _
  | some record =>
      dsimp only
      cases hmark : record.markRetryableUnknown attempt now with
      | error error => exact .refl _
      | ok marked => exact .insert (hrow ▸ .marked attempt now hmark)

theorem lookup_expireRecord (now : SystemTime) (ledger : CommandLedger)
    (key other : CommandLedgerKey)
    : AList.lookup other (expireRecord now ledger key)
      = if other = key then (ledger.lookup key).map fun record => record.expire now
        else ledger.lookup other := by
  unfold expireRecord
  cases hrow : ledger.lookup key with
  | none =>
      by_cases hkey : other = key
      · subst hkey
        simp [hrow]
      · simp [hkey]
  | some record => exact Map.lookup_insert_eq ledger key other _

/-- Expiring a row twice at one time is expiring it once. -/
theorem lookup_foldl_expireRecord (now : SystemTime) (keys : List CommandLedgerKey)
    (ledger : CommandLedger) (key : CommandLedgerKey)
    : AList.lookup key (keys.foldl (expireRecord now) ledger)
      = if key ∈ keys then (ledger.lookup key).map fun record => record.expire now
        else ledger.lookup key := by
  induction keys generalizing ledger with
  | nil => simp
  | cons other keys ih =>
      rw [List.foldl_cons, ih, lookup_expireRecord]
      by_cases hkey : key = other
      · subst hkey
        cases hrow : ledger.lookup key with
        | none => simp
        | some record => simp [CommandLedgerRecord.expire]
      · simp [hkey]

theorem mem_compactionCandidates {ledger : CommandLedger} {now : SystemTime} {limit : Nat}
    {key : CommandLedgerKey} (h : key ∈ compactionCandidates ledger now limit)
    : ∃ record, ledger.lookup key = some record ∧ isCompactable now record = true := by
  obtain ⟨⟨retention, found⟩, hfound, rfl⟩ := List.mem_map.mp h
  have hsorted := (List.mem_insertionSort _).mp (List.mem_of_mem_take hfound)
  obtain ⟨⟨stored, record⟩, hentry, heq⟩ := List.mem_map.mp hsorted
  cases heq
  obtain ⟨hmem, hcompactable⟩ := List.mem_filter.mp hentry
  exact ⟨record, Map.mem_toList.mp hmem, hcompactable⟩

theorem compactExpiredCommands_ledgerStep (limit : Nat) (now : SystemTime)
    : LedgerStep crates repository.commandLedger
        (compactExpiredCommands limit now repository).2.commandLedger := by
  unfold compactExpiredCommands
  split
  · exact .refl _
  · intro key
    change AList.lookup key ((compactionCandidates repository.commandLedger now limit).foldl
      (expireRecord now) repository.commandLedger) = _ ∨ ∃ record,
        AList.lookup key ((compactionCandidates repository.commandLedger now limit).foldl
          (expireRecord now) repository.commandLedger) = _ ∧ _
    rw [lookup_foldl_expireRecord]
    split
    · rename_i hkey
      obtain ⟨record, hrow, hcompactable⟩ := mem_compactionCandidates hkey
      rw [hrow]
      have hdue : record.retentionExpiresAt ≤ now := by
        simp only [isCompactable, Bool.and_eq_true, decide_eq_true_eq] at hcompactable
        exact hcompactable.2
      exact .inr ⟨_, rfl, .expired now (.inr hdue)⟩
    · exact .inl rfl

variable {clock : CommitClock} {batch : CommitBatch}
  {direct : Option SameTransactionProjectionBatch} {next : InMemoryRepository}

/-- A commit without a completion stages no row. -/
theorem StagedFrom.stagedRecord_none {staged : StagedBatch}
    (h : StagedFrom crates clock batch none direct repository staged)
    : staged.stagedRecord = none := by
  obtain ⟨planned, completed, -, hdirect, hrecord⟩ := h.staging
  obtain ⟨prepared, touched, rows, protocol, stagedRecord⟩ := staged
  have hcompleted : completed = none := by
    cases direct with
    | none =>
        cases hdirect
        rfl
    | some direct =>
        simp only [stageDirectProjection, attachEvidence, Result.bind_eq_ok_iff] at hdirect
        obtain ⟨⟨evidence, staged, rows⟩, -, _, hnone, hdirect⟩ := hdirect
        cases hnone
        cases hdirect
        rfl
  subst hcompleted
  cases hrecord
  rfl

/-- A commit with a completion stages the completed row of its attempt, with the evidence of
its direct projection attached. -/
theorem StagedFrom.stagedRecord_some {completion : CommandCompletion} {staged : StagedBatch}
    (h : StagedFrom crates clock batch (some completion) direct repository staged)
    : ∃ stored record row,
      (stored = completion
        ∨ ∃ evidence, completion.attachDirectProjection crates evidence = .ok stored)
      ∧ repository.commandLedger.lookup stored.attempt.key = some record
      ∧ record.complete stored clock.completion = .ok row
      ∧ staged.stagedRecord = some row := by
  obtain ⟨planned, completed, -, hdirect, hrecord⟩ := h.staging
  obtain ⟨prepared, touched, rows, protocol, stagedRecord⟩ := staged
  have hstored : ∃ stored, completed = some stored
      ∧ (stored = completion
        ∨ ∃ evidence, completion.attachDirectProjection crates evidence = .ok stored) := by
    cases direct with
    | none =>
        cases hdirect
        exact ⟨completion, rfl, .inl rfl⟩
    | some direct =>
        simp only [stageDirectProjection, attachEvidence, Result.bind_eq_ok_iff, ofLedger,
          Result.mapError_eq_ok_iff] at hdirect
        obtain ⟨⟨evidence, protocol, rows⟩, -, attached, ⟨stored, hattach, hsome⟩, hdirect⟩ :=
          hdirect
        cases hsome
        cases hdirect
        exact ⟨stored, rfl, .inr ⟨evidence, hattach⟩⟩
  obtain ⟨stored, rfl, horigin⟩ := hstored
  simp only [stageCompletion, Result.bind_eq_ok_iff, ofLedger, Result.mapError_eq_ok_iff]
    at hrecord
  obtain ⟨record, hrow, row, hcomplete, hstaged⟩ := hrecord
  refine ⟨stored, record, row, horigin, ?_, hcomplete, ?_⟩
  · unfold attemptRecord at hrow
    split at hrow
    · rename_i found hfound
      cases hrow
      exact hfound
    · cases hrow
  · cases hstaged
    rfl

theorem commitBatch_ledger (batch : CommitBatch)
    : (commitBatch crates clock batch repository).2.commandLedger
      = repository.commandLedger := by
  refine (commitBatchInner_allOrNothing.mapError _).preserves
    (fun next => next.commandLedger = repository.commandLedger) rfl ?_
  intro streams next hrun
  obtain ⟨staged, hstaged, rfl, -⟩ := commitBatchInner_ok (Txn.mapError_eq_ok.mp hrun)
  simp [StagedBatch.publish, hstaged.stagedRecord_none]

/-- A successful command commit completes the row of its attempt. -/
theorem commitCommand_ok {request : CausalCommitRequest} {streams : List StreamWrite}
    (h : commitCommand crates clock request repository = (.ok streams, next))
    : ∃ stored record row,
      request.completion.Stored crates stored
      ∧ repository.commandLedger.lookup request.completion.attempt.key = some record
      ∧ record.complete stored clock.completion = .ok row
      ∧ next.commandLedger
        = repository.commandLedger.insert request.completion.attempt.key row := by
  rw [commitCommand, Txn.lift_bind_eq_ok] at h
  obtain ⟨completion, hcompletion, hcommit⟩ := h
  obtain ⟨staged, hstaged, rfl, -⟩ := commitBatchInner_ok (Txn.mapError_eq_ok.mp hcommit)
  obtain ⟨stored, record, row, horigin, hrow, hcomplete, hrecord⟩ :=
    hstaged.stagedRecord_some
  have hstored : request.completion.Stored crates stored := by
    rcases horigin with rfl | ⟨evidence, hattach⟩
    · exact .plain hcompletion
    · exact .attached evidence hcompletion hattach
  have hkey := (CommandLedgerRecord.complete_completedFrom hstored hcomplete).1.key
  rw [hstored.fields.1] at hrow
  refine ⟨stored, record, row, hstored, hrow, hcomplete, ?_⟩
  simp [StagedBatch.publish, hrecord, hkey]

theorem commitCommand_allOrNothing (request : CausalCommitRequest)
    : Txn.AllOrNothing (commitCommand crates clock request) :=
  (Txn.readOnly_lift _).bind_allOrNothing fun _ =>
    commitBatchInner_allOrNothing.mapError InMemoryCommitError.toLedgerError

theorem commitCommand_ledgerStep (request : CausalCommitRequest)
    : LedgerStep crates repository.commandLedger
        (commitCommand crates clock request repository).2.commandLedger := by
  refine (commitCommand_allOrNothing request).preserves
    (fun next => LedgerStep crates repository.commandLedger next.commandLedger) (.refl _) ?_
  intro streams next hrun
  obtain ⟨stored, record, row, hstored, hrow, hcomplete, hledger⟩ := commitCommand_ok hrun
  rw [hledger]
  exact .insert (hrow ▸ .completed _ stored clock.completion hstored hcomplete)

end Operations

theorem step_ledgerStep (crates : Crates) (repository : InMemoryRepository)
    (op : RepositoryOp)
    : LedgerStep crates repository.commandLedger
        (step crates op repository).2.commandLedger := by
  cases op with
  | commitBatch clock batch => exact .of_eq (commitBatch_ledger batch)
  | commitCommand clock request => exact commitCommand_ledgerStep request
  | reserveCommand reservation now => exact reserveCommand_ledgerStep reservation now
  | lookupCommand key scope now => exact lookupCommand_ledgerStep key scope now
  | markRetryableUnknown attempt now => exact markRetryableUnknown_ledgerStep attempt now
  | compactExpiredCommands limit now => exact compactExpiredCommands_ledgerStep limit now
  | registerProjectionModels topology ownership =>
      exact .of_eq (registerProjectionModels_frame topology ownership).ledger
  | commitProjection batch => exact .of_eq (commitProjection_frame batch).ledger
  | recordProjectionFailure batch =>
      exact .of_eq (recordProjectionFailure_frame batch).ledger
  | repairProjection topology partition failureId =>
      exact .of_eq (repairProjection_frame topology partition failureId).ledger
  | compactProjectionChanges through =>
      exact .of_eq (compactProjectionChanges_frame through).ledger
  | commitWritePlan plan => exact .of_eq (commitWritePlan_frame plan).ledger
  | putSnapshot identity record => exact .of_eq (putSnapshot_ledger identity record)
  | claimOutbox | settleOutbox | completeManyOutbox | deleteSnapshot | clearInbox =>
      exact .refl _

end Distributed.InMemoryRepo
