import Distributed.CommandLedger.ReplaySpec

/-! The shape of the rows the ledger writes.
-/

namespace Distributed.CommandLedger

open Distributed.Foundation Distributed.Platform Distributed.ProjectionProtocol

namespace CommandLedgerRecord

variable {crates : Crates} {record next : CommandLedgerRecord}

theorem validateStoredShape_ok_iff
    : record.validateStoredShape = .ok ()
      ↔ isBlank record.commandName = false ∧ record.attemptNumber ≠ 0
        ∧ record.fieldsMatchState = true := by
  unfold validateStoredShape
  by_cases hblank : isBlank record.commandName = true
  · simp [hblank]
  · by_cases hnumber : record.attemptNumber = 0
    · simp [hnumber]
    · simp [hblank, hnumber]

/-- A row the ledger wrote: its fields fit its state, its attempt number is a `u64`, and if
it is completed it was completed from some request. -/
structure Written (crates : Crates) (record : CommandLedgerRecord) : Prop where
  named : isBlank record.commandName = false
  attempted : record.attemptNumber ≠ 0
  bounded : record.attemptNumber ≤ maxAttemptNumber
  fields : record.fieldsMatchState = true
  completion : record.state.isReplayable = true →
    ∃ request direct, record.CompletedFrom crates request direct

theorem Written.validateStoredShape (h : record.Written crates)
    : record.validateStoredShape = .ok () :=
  validateStoredShape_ok_iff.mpr ⟨h.named, h.attempted, h.fields⟩

/-- What a row has while no attempt of it was completed. -/
theorem Written.open_fields (h : record.Written crates)
    (hstate : record.state = .inProgress ∨ record.state = .retryableUnknown)
    : record.outcomeJson = none ∧ record.completedAt = none
      ∧ record.compactedAt = none := by
  have hfields := h.fields
  rcases hstate with hstate | hstate
  · simp only [fieldsMatchState, hstate, Bool.and_eq_true, Option.isNone_iff_eq_none]
      at hfields
    exact ⟨hfields.1.1.2, hfields.1.2, hfields.2⟩
  · simp only [fieldsMatchState, hstate, Bool.and_eq_true, Option.isNone_iff_eq_none]
      at hfields
    exact ⟨hfields.1.1.2, hfields.1.2, hfields.2⟩

theorem Written.lease (h : record.Written crates) (hstate : record.state = .inProgress)
    : ∃ lease, record.leaseExpiresAt = some lease := by
  have hfields := h.fields
  simp only [fieldsMatchState, hstate, Bool.and_eq_true, Option.isSome_iff_exists] at hfields
  exact hfields.1.1.1.2

end CommandLedgerRecord

/-- Every transition writes a well-shaped row if it started from one. -/
theorem RecordTransition.written {crates : Crates} {before : Option CommandLedgerRecord}
    {next : CommandLedgerRecord} (h : RecordTransition crates before next)
    (hbefore : ∀ record, before = some record → record.Written crates)
    : next.Written crates := by
  cases h with
  | inserted reservation now hinitial =>
      rw [CommandLedgerRecord.initial_ok hinitial]
      exact ⟨reservation.name_not_blank, by simp, by simp [maxAttemptNumber], rfl,
        nofun⟩
  | @reclaimed record _ reservation now hclassify hreclaim =>
      have hwritten := hbefore record rfl
      obtain ⟨houtcome, hcompleted, hcompacted⟩ := hwritten.open_fields
        (CommandLedgerRecord.classifyReservation_ok hclassify).reclaim_open
      obtain ⟨hnumber, rfl⟩ := CommandLedgerRecord.reclaim_ok hreclaim
      refine ⟨hwritten.named, by simp, hnumber, ?_, nofun⟩
      simp [CommandLedgerRecord.fieldsMatchState, houtcome, hcompleted, hcompacted]
  | @expired record now _ =>
      have hwritten := hbefore record rfl
      exact ⟨hwritten.named, hwritten.attempted, hwritten.bounded, rfl, nofun⟩
  | @marked record _ attempt now hmark =>
      have hwritten := hbefore record rfl
      obtain ⟨hfence, rfl⟩ := CommandLedgerRecord.markRetryableUnknown_ok hmark
      obtain ⟨houtcome, hcompleted, hcompacted⟩ := hwritten.open_fields
        (.inl (CommandLedgerRecord.matchesFence_iff.mp hfence).1)
      refine ⟨hwritten.named, hwritten.attempted, hwritten.bounded, ?_, nofun⟩
      simp [CommandLedgerRecord.fieldsMatchState, houtcome, hcompleted, hcompacted]
  | @completed record _ request completion now hstored hcomplete =>
      have hwritten := hbefore record rfl
      obtain ⟨hfrom, -⟩ := CommandLedgerRecord.complete_completedFrom hstored hcomplete
      obtain ⟨-, hfence, -, retention, rfl⟩ := CommandLedgerRecord.complete_ok hcomplete
      obtain ⟨-, -, hcompacted⟩ := hwritten.open_fields
        (.inl (CommandLedgerRecord.matchesFence_iff.mp hfence).1)
      refine ⟨hwritten.named, hwritten.attempted, hwritten.bounded, ?_,
        fun _ => ⟨request, completion.directProjection, hfrom⟩⟩
      cases completion.state <;>
        simp [CommandLedgerRecord.fieldsMatchState, hcompacted,
          TerminalCommandState.toLedgerState]

/-- The lease of the row, if it has one, ends before its retention. -/
def CommandLedgerRecord.LeaseInside (record : CommandLedgerRecord) : Prop :=
  ∀ lease, record.leaseExpiresAt = some lease → lease < record.retentionExpiresAt

theorem CommandReservation.deadline_lt (reservation : CommandReservation) (now : SystemTime)
    : now + (reservation.lease : Int) < now + (reservation.retention : Int) :=
  Int.add_lt_add_left (Int.ofNat_lt.mpr reservation.lease_lt_retention) now

/-- Leases are only granted by reservations, which retain longer than they lease. -/
theorem RecordTransition.leaseInside {crates : Crates}
    {before : Option CommandLedgerRecord} {next : CommandLedgerRecord}
    (h : RecordTransition crates before next)
    : next.LeaseInside := by
  cases h with
  | inserted reservation now hinitial =>
      rw [CommandLedgerRecord.initial_ok hinitial]
      rintro lease ⟨⟩
      exact reservation.deadline_lt now
  | reclaimed reservation now hclassify hreclaim =>
      obtain ⟨-, rfl⟩ := CommandLedgerRecord.reclaim_ok hreclaim
      rintro lease ⟨⟩
      exact reservation.deadline_lt now
  | expired now hdue => exact nofun
  | marked attempt now hmark =>
      obtain ⟨-, rfl⟩ := CommandLedgerRecord.markRetryableUnknown_ok hmark
      exact nofun
  | completed request completion now hstored hcomplete =>
      obtain ⟨-, -, -, retention, rfl⟩ := CommandLedgerRecord.complete_ok hcomplete
      exact nofun

/-- The error does not blame the stored row. -/
def CommandLedgerError.NotCorrupt (error : CommandLedgerError) : Prop :=
  ∀ message, error ≠ .corrupt message

@[simp] theorem CommandLedgerError.notCorrupt_invalid (message : String)
    : (CommandLedgerError.invalid message).NotCorrupt := nofun

@[simp] theorem CommandLedgerError.notCorrupt_attemptFenced (commandId : String)
    : (CommandLedgerError.attemptFenced commandId).NotCorrupt := nofun

open CommandLedgerError Result

theorem checkedDeadline_failsWith (now : SystemTime) (duration : Duration) (label : String)
    : FailsWith NotCorrupt (checkedDeadline now duration label) := by
  unfold checkedDeadline
  split
  · simp
  · simp

theorem validatePositiveDuration_failsWith (label : String) (duration : Duration)
    : FailsWith NotCorrupt (validatePositiveDuration label duration) := by
  unfold validatePositiveDuration
  split
  · simp
  · simp

theorem CompletionRequest.complete_failsWith (crates : Crates) (request : CompletionRequest)
    : FailsWith NotCorrupt (request.complete crates) := by
  refine (validatePositiveDuration_failsWith _ _).bind fun _ => ?_
  refine .optional (fun _ => failsWith_mapError _ notCorrupt_invalid) ?_
  refine FailsWith.bind ?_ fun _ => ?_
  · unfold validateProjectionMetadataBytes
    split
    · simp
    · split_ifs <;> simp
  · refine .optional (fun _ => by simp) (by simp)

theorem CommandCompletion.attachDirectProjection_failsWith (crates : Crates)
    (completion : CommandCompletion) (evidence : SameTransactionProjectionEvidence)
    : FailsWith NotCorrupt (completion.attachDirectProjection crates evidence) := by
  unfold attachDirectProjection
  refine .optional (fun _ => by simp) ?_
  refine .optional (fun _ => by simp) ?_
  refine (failsWith_mapError _ notCorrupt_invalid).bind fun _ => ?_
  refine (failsWith_mapError _ fun _ => notCorrupt_invalid _).bind fun replay => ?_
  cases replay with
  | object fields => exact .optional (fun _ => by simp) (by simp)
  | null | bool | number | string | array => simp

theorem CommandCompletion.validateDirectProjection_failsWith (completion : CommandCompletion)
    : FailsWith NotCorrupt completion.validateDirectProjection := by
  unfold validateDirectProjection
  split <;> simp

namespace CommandLedgerRecord

variable {crates : Crates} {record : CommandLedgerRecord}

theorem initial_failsWith (reservation : CommandReservation) (now : SystemTime)
    : FailsWith NotCorrupt (initial reservation now) := by
  refine (checkedDeadline_failsWith _ _ _).bind fun _ => ?_
  refine (checkedDeadline_failsWith _ _ _).bind fun _ => ?_
  simp

theorem validateLiveAttempt_failsWith (record : CommandLedgerRecord) (attempt : AttemptFence)
    (now : SystemTime)
    : FailsWith NotCorrupt (record.validateLiveAttempt attempt now) := by
  unfold validateLiveAttempt
  split
  · simp
  · simp

theorem markRetryableUnknown_failsWith (record : CommandLedgerRecord) (attempt : AttemptFence)
    (now : SystemTime)
    : FailsWith NotCorrupt (record.markRetryableUnknown attempt now) := by
  unfold markRetryableUnknown
  split
  · simp
  · simp

theorem complete_failsWith (record : CommandLedgerRecord) (completion : CommandCompletion)
    (now : SystemTime)
    : FailsWith NotCorrupt (record.complete completion now) := by
  refine completion.validateDirectProjection_failsWith.bind fun _ => ?_
  refine (record.validateLiveAttempt_failsWith _ _).bind fun _ => ?_
  refine FailsWith.bind ?_ fun _ => by simp
  unfold completedRetention
  split
  · split
    · simp
    · simp
  · exact checkedDeadline_failsWith _ _ _

/-- A reclaim blames the row only when its attempt counter is exhausted. -/
theorem reclaim_failsWith (record : CommandLedgerRecord) (reservation : CommandReservation)
    (now : SystemTime)
    : FailsWith (fun error => NotCorrupt error ∨ maxAttemptNumber ≤ record.attemptNumber)
        (record.reclaim reservation now) := by
  have hdeadline : ∀ duration label, FailsWith
      (fun error => NotCorrupt error ∨ maxAttemptNumber ≤ record.attemptNumber)
      (checkedDeadline now duration label) := fun duration label error herror =>
    .inl (checkedDeadline_failsWith now duration label error herror)
  unfold reclaim
  refine .optional (fun hnumber => failsWith_error.mpr (.inr hnumber)) ?_
  refine (hdeadline _ _).bind fun _ => ?_
  refine (hdeadline _ _).bind fun _ => ?_
  simp

/-- The classification of a row the ledger wrote does not fail. -/
theorem Written.classifies (h : record.Written crates)
    (reservation : CommandReservation) (now : SystemTime)
    : ∃ decision, record.classifyReservation reservation now = .ok decision := by
  unfold classifyReservation
  split
  · exact ⟨_, rfl⟩
  · split
    · exact ⟨_, rfl⟩
    · cases hstate : record.state with
      | inProgress =>
          obtain ⟨lease, hlease⟩ := h.lease hstate
          simp only [hlease]
          split
          · exact ⟨_, rfl⟩
          · exact ⟨_, rfl⟩
      | retryableUnknown | succeeded | succeededPendingProjection | atomic | rejected
      | projectionFailed | expired => exact ⟨_, rfl⟩

end CommandLedgerRecord

end Distributed.CommandLedger
