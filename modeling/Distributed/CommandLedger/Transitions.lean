import Distributed.CommandLedger.Record
import Distributed.Foundation.Result

/-! The transitions of a ledger row.
Every change of a stored row is one of five, and what each can do is stated once here.
-/

namespace Distributed.CommandLedger

open Distributed.Foundation Distributed.Platform Distributed.ProjectionProtocol

/-- A completion as a commit stores it: as the request made it, or with the evidence of its
direct projection. -/
inductive CompletionRequest.Stored (crates : Crates) (request : CompletionRequest)
    : CommandCompletion → Prop
  | plain {completion : CommandCompletion}
      : request.complete crates = .ok completion → Stored crates request completion
  | attached {completion attached : CommandCompletion}
      (evidence : SameTransactionProjectionEvidence)
      : request.complete crates = .ok completion →
        completion.attachDirectProjection crates evidence = .ok attached →
        Stored crates request attached

/-- One change of the row under a key: `none` is an absent row. -/
inductive RecordTransition (crates : Crates)
    : Option CommandLedgerRecord → CommandLedgerRecord → Prop
  | inserted {record : CommandLedgerRecord} (reservation : CommandReservation)
      (now : SystemTime)
      : CommandLedgerRecord.initial reservation now = .ok record →
        RecordTransition crates none record
  | reclaimed {record next : CommandLedgerRecord} (reservation : CommandReservation)
      (now : SystemTime)
      : record.classifyReservation reservation now = .ok .reclaim →
        record.reclaim reservation now = .ok next →
        RecordTransition crates (some record) next
  | expired {record : CommandLedgerRecord} (now : SystemTime)
      : record.state = .expired ∨ record.retentionExpiresAt ≤ now →
        RecordTransition crates (some record) (record.expire now)
  | marked {record next : CommandLedgerRecord} (attempt : AttemptFence) (now : SystemTime)
      : record.markRetryableUnknown attempt now = .ok next →
        RecordTransition crates (some record) next
  | completed {record next : CommandLedgerRecord} (request : CompletionRequest)
      (completion : CommandCompletion) (now : SystemTime)
      : request.Stored crates completion →
        record.complete completion now = .ok next →
        RecordTransition crates (some record) next

namespace CommandLedgerRecord

variable {record next : CommandLedgerRecord} {reservation : CommandReservation}
  {now : SystemTime}

theorem checkedDeadline_ok {duration : Duration} {label : String} {deadline : SystemTime}
    (h : checkedDeadline now duration label = .ok deadline)
    : deadline = now + duration := by
  unfold checkedDeadline at h
  cases hadd : SystemTime.checkedAdd now duration with
  | none => simp [hadd] at h
  | some sum =>
      simp only [hadd, Except.ok.injEq] at h
      exact h ▸ (SystemTime.checkedAdd_eq_some.mp hadd).2

theorem initial_ok (h : initial reservation now = .ok record)
    : record = {
        key := reservation.key
        commandName := reservation.commandName
        contractFingerprint := reservation.contractFingerprint
        inputHash := reservation.inputHash
        state := .inProgress
        causationId := reservation.candidateCausation
        attemptToken := some reservation.candidateAttempt
        attemptNumber := 1
        leaseExpiresAt := some (now + reservation.lease)
        outcomeJson := none
        createdAt := now
        updatedAt := now
        completedAt := none
        retentionExpiresAt := now + reservation.retention
        compactedAt := none } := by
  simp only [initial, Result.bind_eq_ok_iff] at h
  obtain ⟨lease, hlease, retention, hretention, h⟩ := h
  rw [checkedDeadline_ok hlease, checkedDeadline_ok hretention] at h
  cases h
  rfl

theorem reclaim_ok (h : record.reclaim reservation now = .ok next)
    : record.attemptNumber < maxAttemptNumber
      ∧ next = {
        record with
        state := .inProgress
        attemptToken := some reservation.candidateAttempt
        attemptNumber := record.attemptNumber + 1
        leaseExpiresAt := some (now + reservation.lease)
        retentionExpiresAt := now + reservation.retention
        updatedAt := now } := by
  simp only [reclaim] at h
  split at h
  · simp at h
  · rename_i hnumber
    simp only [Result.bind_eq_ok_iff] at h
    obtain ⟨lease, hlease, retention, hretention, h⟩ := h
    rw [checkedDeadline_ok hlease, checkedDeadline_ok hretention] at h
    cases h
    exact ⟨Nat.lt_of_not_le hnumber, rfl⟩

theorem markRetryableUnknown_ok {attempt : AttemptFence}
    (h : record.markRetryableUnknown attempt now = .ok next)
    : record.matchesFence attempt = true
      ∧ next = {
        record with
        state := .retryableUnknown
        attemptToken := none
        leaseExpiresAt := none
        updatedAt := now } := by
  unfold markRetryableUnknown at h
  split at h
  · rename_i hfence
    cases h
    exact ⟨hfence, rfl⟩
  · cases h

theorem validateLiveAttempt_ok {attempt : AttemptFence}
    (h : record.validateLiveAttempt attempt now = .ok ())
    : record.matchesFence attempt = true
      ∧ ∃ lease, record.leaseExpiresAt = some lease ∧ now < lease := by
  unfold validateLiveAttempt at h
  split at h
  · rename_i hlive
    simp only [Bool.and_eq_true, Option.any_eq_true, decide_eq_true_eq] at hlive
    exact hlive
  · cases h

theorem complete_ok {completion : CommandCompletion}
    (h : record.complete completion now = .ok next)
    : completion.validateDirectProjection = .ok ()
      ∧ record.matchesFence completion.attempt = true
      ∧ (∃ lease, record.leaseExpiresAt = some lease ∧ now < lease)
      ∧ ∃ retentionExpiresAt, next = {
        record with
        state := completion.state.toLedgerState
        attemptToken := none
        leaseExpiresAt := none
        outcomeJson := some completion.replay
        updatedAt := now
        completedAt := some now
        retentionExpiresAt } := by
  simp only [complete, Result.bind_eq_ok_iff] at h
  obtain ⟨_, hdirect, _, hlive, retention, -, h⟩ := h
  obtain ⟨hfence, hlease⟩ := validateLiveAttempt_ok hlive
  cases h
  exact ⟨hdirect, hfence, hlease, retention, rfl⟩

theorem acquiredAttempt_eq {token : AttemptToken} (h : record.attemptToken = some token)
    : record.acquiredAttempt = .ok {
        key := record.key
        contractFingerprint := record.contractFingerprint
        inputHash := record.inputHash
        causationId := record.causationId
        attemptToken := token
        attemptNumber := record.attemptNumber } := by
  rw [acquiredAttempt, h]

theorem matchesFence_iff {attempt : AttemptFence}
    : record.matchesFence attempt = true
      ↔ record.state = .inProgress
        ∧ attempt = {
          key := record.key
          contractFingerprint := record.contractFingerprint
          inputHash := record.inputHash
          causationId := record.causationId
          attemptToken := attempt.attemptToken
          attemptNumber := record.attemptNumber }
        ∧ record.attemptToken = some attempt.attemptToken := by
  obtain ⟨key, contract, input, causation, token, number⟩ := attempt
  simp only [matchesFence, Bool.and_eq_true, decide_eq_true_eq, CommandAttempt.mk.injEq]
  constructor
  · rintro ⟨⟨⟨⟨⟨⟨rfl, rfl⟩, rfl⟩, hstate⟩, rfl⟩, htoken⟩, rfl⟩
    exact ⟨hstate, ⟨rfl, rfl, rfl, rfl, trivial, rfl⟩, htoken⟩
  · rintro ⟨hstate, ⟨rfl, rfl, rfl, rfl, -, rfl⟩, htoken⟩
    exact ⟨⟨⟨⟨⟨⟨rfl, rfl⟩, rfl⟩, hstate⟩, rfl⟩, htoken⟩, rfl⟩

theorem classifyReservation_of_due
    (h : record.state = .expired ∨ record.retentionExpiresAt ≤ now)
    : record.classifyReservation reservation now = .ok .expire := by
  rw [classifyReservation, if_pos h]

theorem classifyReservation_of_replayable
    (hlive : ¬(record.state = .expired ∨ record.retentionExpiresAt ≤ now))
    (hsame : record.differsFrom reservation = false)
    (hstate : record.state.isReplayable = true)
    : record.classifyReservation reservation now = .ok .replay := by
  rw [classifyReservation, if_neg hlive, hsame]
  cases hcase : record.state with
  | inProgress | retryableUnknown | expired =>
      simp [hcase, CommandLedgerState.isReplayable] at hstate
  | succeeded | succeededPendingProjection | atomic | rejected | projectionFailed => rfl

/-- Why a reservation of a row is decided as it is. -/
inductive Classified (record : CommandLedgerRecord) (reservation : CommandReservation)
    (now : SystemTime) : ReservationDecision → Prop
  | expire : record.state = .expired ∨ record.retentionExpiresAt ≤ now →
      Classified record reservation now .expire
  | conflict : record.differsFrom reservation = true →
      Classified record reservation now .conflict
  | inProgress : record.state = .inProgress → Classified record reservation now .inProgress
  | leaseOver {lease : SystemTime} : record.state = .inProgress →
      record.leaseExpiresAt = some lease → lease ≤ now →
      Classified record reservation now .reclaim
  | unknown : record.state = .retryableUnknown → Classified record reservation now .reclaim
  | replay : record.state.isReplayable = true → Classified record reservation now .replay

theorem classifyReservation_ok {decision : ReservationDecision}
    (h : record.classifyReservation reservation now = .ok decision)
    : Classified record reservation now decision := by
  unfold classifyReservation at h
  split at h
  · rename_i hdue
    cases h
    exact .expire hdue
  · rename_i hlive
    split at h
    · rename_i hdiffers
      cases h
      exact .conflict hdiffers
    · cases hstate : record.state with
      | inProgress =>
          rw [hstate] at h
          cases hlease : record.leaseExpiresAt with
          | none => simp [hlease] at h
          | some lease =>
              by_cases hover : lease ≤ now
              · simp only [hlease, hover, if_true] at h
                cases h
                exact .leaseOver hstate hlease hover
              · simp only [hlease, hover, if_false] at h
                cases h
                exact .inProgress hstate
      | retryableUnknown =>
          rw [hstate] at h
          cases h
          exact .unknown hstate
      | succeeded | succeededPendingProjection | atomic | rejected | projectionFailed =>
          rw [hstate] at h
          cases h
          exact .replay (by rw [hstate]; rfl)
      | expired => exact absurd (.inl hstate) hlive

/-- A row is reclaimed only while no attempt of it was completed. -/
theorem Classified.reclaim_open (h : Classified record reservation now .reclaim)
    : record.state = .inProgress ∨ record.state = .retryableUnknown := by
  cases h with
  | leaseOver hstate _ _ => exact .inl hstate
  | unknown hstate => exact .inr hstate

end CommandLedgerRecord

/-- The row is completed or expired. -/
def CommandLedgerRecord.IsTerminal (record : CommandLedgerRecord) : Prop :=
  record.state.isReplayable = true ∨ record.state = .expired

theorem CommandLedgerRecord.IsTerminal.not_open {record : CommandLedgerRecord}
    (h : record.IsTerminal)
    : record.state ≠ .inProgress ∧ record.state ≠ .retryableUnknown := by
  rcases h with h | h
  · refine ⟨fun hstate => ?_, fun hstate => ?_⟩
    · simp [hstate, CommandLedgerState.isReplayable] at h
    · simp [hstate, CommandLedgerState.isReplayable] at h
  · simp [h]

/-- A terminal row can only expire. -/
theorem RecordTransition.of_terminal {crates : Crates} {record next : CommandLedgerRecord}
    (h : RecordTransition crates (some record) next) (hterminal : record.IsTerminal)
    : ∃ now, next = record.expire now := by
  obtain ⟨hprogress, hunknown⟩ := hterminal.not_open
  cases h with
  | reclaimed reservation now hclassify _ =>
      rcases (CommandLedgerRecord.classifyReservation_ok hclassify).reclaim_open
        with hstate | hstate
      · exact absurd hstate hprogress
      · exact absurd hstate hunknown
  | expired now _ => exact ⟨now, rfl⟩
  | marked attempt now hmark =>
      have hfence := (CommandLedgerRecord.markRetryableUnknown_ok hmark).1
      exact absurd (CommandLedgerRecord.matchesFence_iff.mp hfence).1 hprogress
  | completed request completion now _ hcomplete =>
      have hfence := (CommandLedgerRecord.complete_ok hcomplete).2.1
      exact absurd (CommandLedgerRecord.matchesFence_iff.mp hfence).1 hprogress

end Distributed.CommandLedger
