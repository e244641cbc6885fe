import Distributed.CommandLedger.Completion

/-! The stored ledger row, its transitions and its replay.
-/

namespace Distributed.CommandLedger

open Distributed.Platform Distributed.ProjectionProtocol

/-- Attempt numbers are `u64`. -/
def maxAttemptNumber : Nat := 2 ^ 64 - 1

structure CommandLedgerRecord where
  key : CommandLedgerKey
  commandName : String
  contractFingerprint : CommandContractFingerprint
  inputHash : CanonicalInputHash
  state : CommandLedgerState
  causationId : CausationId
  attemptToken : Option AttemptToken
  attemptNumber : Nat
  leaseExpiresAt : Option SystemTime
  outcomeJson : Option String
  createdAt : SystemTime
  updatedAt : SystemTime
  completedAt : Option SystemTime
  retentionExpiresAt : SystemTime
  compactedAt : Option SystemTime

inductive ReservationDecision where
  | conflict
  | expire
  | inProgress
  | replay
  | reclaim
deriving DecidableEq

def checkedDeadline (now : SystemTime) (duration : Duration) (label : String)
    : Except CommandLedgerError SystemTime :=
  match SystemTime.checkedAdd now duration with
  | some deadline => .ok deadline
  | none => .error (.invalid s!"{label} deadline exceeds SystemTime range")

namespace CommandLedgerRecord

def initial (reservation : CommandReservation) (now : SystemTime)
    : Except CommandLedgerError CommandLedgerRecord := do
  let leaseExpiresAt ← checkedDeadline now reservation.lease "attempt lease"
  let retentionExpiresAt ← checkedDeadline now reservation.retention "command retention"
  .ok {
    key := reservation.key
    commandName := reservation.commandName
    contractFingerprint := reservation.contractFingerprint
    inputHash := reservation.inputHash
    state := .inProgress
    causationId := reservation.candidateCausation
    attemptToken := some reservation.candidateAttempt
    attemptNumber := 1
    leaseExpiresAt := some leaseExpiresAt
    outcomeJson := none
    createdAt := now
    updatedAt := now
    completedAt := none
    retentionExpiresAt
    compactedAt := none
  }

def acquiredAttempt (record : CommandLedgerRecord)
    : Except CommandLedgerError CommandAttempt :=
  match record.attemptToken with
  | some token =>
      .ok {
        key := record.key
        contractFingerprint := record.contractFingerprint
        inputHash := record.inputHash
        causationId := record.causationId
        attemptToken := token
        attemptNumber := record.attemptNumber
      }
  | none =>
      let id := record.key.commandId
      .error (.corrupt s!"in-progress command `{id}` has no attempt token")

/-- The request is not the one the key was first used for. -/
def differsFrom (record : CommandLedgerRecord) (reservation : CommandReservation) : Bool :=
  record.commandName ≠ reservation.commandName
    || record.contractFingerprint ≠ reservation.contractFingerprint
    || record.inputHash ≠ reservation.inputHash

def classifyReservation (record : CommandLedgerRecord) (reservation : CommandReservation)
    (now : SystemTime) : Except CommandLedgerError ReservationDecision :=
  if record.state = .expired ∨ record.retentionExpiresAt ≤ now then .ok .expire
  else if record.differsFrom reservation then .ok .conflict
  else
    match record.state with
    | .inProgress =>
        match record.leaseExpiresAt with
        | none =>
            let id := record.key.commandId
            .error (.corrupt s!"in-progress command `{id}` has no lease deadline")
        | some lease => if lease ≤ now then .ok .reclaim else .ok .inProgress
    | .retryableUnknown => .ok .reclaim
    | .succeeded | .succeededPendingProjection | .atomic | .rejected | .projectionFailed =>
        .ok .replay
    | .expired => .ok .expire

def reclaim (record : CommandLedgerRecord) (reservation : CommandReservation)
    (now : SystemTime) : Except CommandLedgerError CommandLedgerRecord := do
  if maxAttemptNumber ≤ record.attemptNumber then
    let id := record.key.commandId
    .error (.corrupt s!"command `{id}` attempt counter overflowed")
  let leaseExpiresAt ← checkedDeadline now reservation.lease "attempt lease"
  let retentionExpiresAt ← checkedDeadline now reservation.retention "command retention"
  .ok {
    record with
    state := .inProgress
    attemptToken := some reservation.candidateAttempt
    attemptNumber := record.attemptNumber + 1
    leaseExpiresAt := some leaseExpiresAt
    retentionExpiresAt
    updatedAt := now
  }

/-- Which nullable fields a row of each state has. -/
def fieldsMatchState (record : CommandLedgerRecord) : Bool :=
  match record.state with
  | .inProgress =>
      record.attemptToken.isSome && record.leaseExpiresAt.isSome
        && record.outcomeJson.isNone && record.completedAt.isNone
        && record.compactedAt.isNone
  | .retryableUnknown =>
      record.attemptToken.isNone && record.leaseExpiresAt.isNone
        && record.outcomeJson.isNone && record.completedAt.isNone
        && record.compactedAt.isNone
  | .succeeded | .succeededPendingProjection | .atomic | .rejected | .projectionFailed =>
      record.attemptToken.isNone && record.leaseExpiresAt.isNone
        && record.outcomeJson.isSome && record.completedAt.isSome
        && record.compactedAt.isNone
  | .expired =>
      record.attemptToken.isNone && record.leaseExpiresAt.isNone
        && record.outcomeJson.isNone && record.compactedAt.isSome

def validateStoredShape (record : CommandLedgerRecord) : Except CommandLedgerError Unit :=
  let id := record.key.commandId
  let state := record.state.asStr
  if isBlank record.commandName ∨ record.attemptNumber = 0 then
    .error (.corrupt s!"command `{id}` has invalid invariant fields")
  else if record.fieldsMatchState then .ok ()
  else
    .error (.corrupt s!"command `{id}` state `{state}` has inconsistent nullable fields")

def expire (record : CommandLedgerRecord) (now : SystemTime) : CommandLedgerRecord :=
  { record with
    state := .expired
    attemptToken := none
    leaseExpiresAt := none
    outcomeJson := none
    updatedAt := now
    compactedAt := some now }

def matchesFence (record : CommandLedgerRecord) (attempt : AttemptFence) : Bool :=
  record.key = attempt.key
    && record.contractFingerprint = attempt.contractFingerprint
    && record.inputHash = attempt.inputHash
    && record.state = .inProgress
    && record.causationId = attempt.causationId
    && record.attemptToken = some attempt.attemptToken
    && record.attemptNumber = attempt.attemptNumber

def matchesLookupScope (record : CommandLedgerRecord) : CommandLookupScope → Bool
  | .commandName expected => record.commandName = expected
  | .commandContract name contractFingerprint =>
      record.commandName = name && record.contractFingerprint = contractFingerprint
  | .attempt fence =>
      record.key = fence.key
        && record.contractFingerprint = fence.contractFingerprint
        && record.inputHash = fence.inputHash
        && record.causationId = fence.causationId
        && record.attemptNumber = fence.attemptNumber
        && record.attemptToken.all fun token => token = fence.attemptToken

def validateLiveAttempt (record : CommandLedgerRecord) (attempt : AttemptFence)
    (now : SystemTime) : Except CommandLedgerError Unit :=
  if record.matchesFence attempt
      && record.leaseExpiresAt.any fun leaseExpiresAt => now < leaseExpiresAt then .ok ()
  else .error (.attemptFenced attempt.key.commandId)

def markRetryableUnknown (record : CommandLedgerRecord) (attempt : AttemptFence)
    (now : SystemTime) : Except CommandLedgerError CommandLedgerRecord :=
  if record.matchesFence attempt then
    .ok {
      record with
      state := .retryableUnknown
      attemptToken := none
      leaseExpiresAt := none
      updatedAt := now
    }
  else .error (.attemptFenced attempt.key.commandId)

/-- The absolute deadline of the completion if it has one, else counted from `now`. -/
def completedRetention (completion : CommandCompletion) (now : SystemTime)
    : Except CommandLedgerError SystemTime :=
  match completion.retentionExpiresAt with
  | some deadline =>
      if now < deadline then .ok deadline
      else .error (.invalid "command retention deadline must remain live at commit")
  | none => checkedDeadline now completion.retention "command retention"

def complete (record : CommandLedgerRecord) (completion : CommandCompletion)
    (now : SystemTime) : Except CommandLedgerError CommandLedgerRecord := do
  completion.validateDirectProjection
  record.validateLiveAttempt completion.attempt now
  let retentionExpiresAt ← completedRetention completion now
  .ok {
    record with
    state := completion.state.toLedgerState
    attemptToken := none
    leaseExpiresAt := none
    outcomeJson := some completion.replay
    updatedAt := now
    completedAt := some now
    retentionExpiresAt
  }

/-- A corrupt-row error that names the command. -/
def corruptCommand (record : CommandLedgerRecord) (problem : String) : CommandLedgerError :=
  let id := record.key.commandId
  .corrupt (s!"command `{id}` " ++ problem)

/-- The stored text as the fields of an envelope. -/
def replayFields (crates : Crates) (record : CommandLedgerRecord)
    : Except CommandLedgerError JsonFields := do
  let id := record.key.commandId
  let state := record.state.asStr
  if !record.state.isReplayable then
    .error (record.corruptCommand s!"state `{state}` is not replayable")
  let some payload := record.outcomeJson
    | .error (.corrupt s!"replayable command `{id}` has no outcome")
  let envelope ← (crates.jsonFromStr payload).mapError fun error =>
    record.corruptCommand ("outcome is invalid JSON: " ++ error)
  match envelope with
  | .object fields => .ok fields
  | _ => .error (record.corruptCommand "replay envelope is not an object")

def replayVersion (record : CommandLedgerRecord) (value : Option Json)
    : Except CommandLedgerError Unit :=
  match value.bind Json.asU64? with
  | none => .error (record.corruptCommand "replay envelope has no numeric version")
  | some version =>
      if version ≠ commandReplayVersion then
        .error (record.corruptCommand
          s!"replay envelope version `{version}` is unsupported")
      else .ok ()

/-- The obligations must be in the form the ledger itself writes. -/
def replayObligations (record : CommandLedgerRecord) (value : Json)
    : Except CommandLedgerError (List ResolvedProjectionObligation) := do
  let obligations ← (do
      let items ← Serde.asArray value
      items.mapM ResolvedProjectionObligation.fromJson).mapError fun error =>
    record.corruptCommand ("replay projection obligations are invalid: " ++ error)
  if Json.array (obligations.map ResolvedProjectionObligation.toJson) ≠ value then
    .error (record.corruptCommand
      "replay projection obligations contain unknown or non-canonical fields")
  .ok obligations

def replayMetadata (crates : Crates) (record : CommandLedgerRecord) (value : Json)
    : Except CommandLedgerError Bytes := do
  let .string encoded := value
    | .error (record.corruptCommand "replay projection metadata is not an opaque string")
  let some bytes := crates.base64Decode encoded
    | .error (record.corruptCommand "replay projection metadata is not canonical base64url")
  if crates.base64Encode bytes ≠ encoded then
    .error (record.corruptCommand "replay projection metadata uses noncanonical base64url")
  (validateProjectionMetadataBytes record.state (some bytes)).mapError fun error =>
    record.corruptCommand ("replay projection metadata is invalid: " ++ error.text)
  .ok bytes

/-- Obligations and metadata exclude each other, and obligations fit the state. -/
def replayObligationSemantics (record : CommandLedgerRecord)
    (obligations : List ResolvedProjectionObligation) (metadata : Option Bytes)
    : Except CommandLedgerError Unit := do
  if metadata.isSome ∧ obligations ≠ [] then
    .error (record.corruptCommand
      "replay mixes legacy and modeled projection obligations")
  if metadata = none then
    (validateProjectionObligationSemantics record.state obligations).mapError fun error =>
      record.corruptCommand ("replay projection obligations are inconsistent: " ++ error)

def replayDirectProjection (crates : Crates) (record : CommandLedgerRecord)
    (directProjection : Option Json) : Except CommandLedgerError Unit :=
  match directProjection, record.state with
  | some value, .atomic =>
      (validateReplayValue crates value).mapError fun error =>
        record.corruptCommand ("replay direct projection is invalid: " ++ error)
  | none, .atomic =>
      .error (record.corruptCommand
        "projected replay has no exact direct projection evidence")
  | some _, _ =>
      .error (record.corruptCommand
        "non-projected replay contains direct projection evidence")
  | none, _ => .ok ()

def replay (crates : Crates) (record : CommandLedgerRecord)
    : Except CommandLedgerError CommandReplay := do
  let envelope ← record.replayFields crates
  let (version, envelope) := JsonFields.remove "version" envelope
  record.replayVersion version
  let (some outcome, envelope) := JsonFields.remove "outcome" envelope
    | .error (record.corruptCommand "replay envelope has no outcome")
  let (some obligationsValue, envelope) :=
      JsonFields.remove "projection_obligations" envelope
    | .error (record.corruptCommand "replay envelope has no projection obligations")
  let projectionObligations ← record.replayObligations obligationsValue
  let (metadataValue, envelope) := JsonFields.remove "projection_metadata" envelope
  let projectionMetadata ← metadataValue.mapM (record.replayMetadata crates)
  record.replayObligationSemantics projectionObligations projectionMetadata
  let (directProjection, envelope) := JsonFields.remove "direct_projection" envelope
  record.replayDirectProjection crates directProjection
  if envelope ≠ [] then
    .error (record.corruptCommand "replay envelope has unknown fields")
  .ok {
    commandId := record.key.id
    commandName := record.commandName
    state := record.state
    causationId := record.causationId
    outcome
    projectionObligations
    projectionMetadata
    directProjection
  }

def lookup (crates : Crates) (record : CommandLedgerRecord)
    : Except CommandLedgerError CommandLookup :=
  match record.state with
  | .inProgress => .ok (.inProgress record.causationId)
  | .retryableUnknown => .ok (.retryableUnknown record.causationId)
  | .expired => .ok .expired
  | .succeeded | .succeededPendingProjection | .atomic | .rejected | .projectionFailed => do
      let replay ← record.replay crates
      .ok (.replay replay)

def reservationOutcome (crates : Crates) (record : CommandLedgerRecord)
    : ReservationDecision → Except CommandLedgerError ReservationOutcome
  | .conflict => .ok .conflict
  | .expire => .ok .expired
  | .inProgress => .ok (.inProgress record.causationId)
  | .replay => do
      let replay ← record.replay crates
      .ok (.replay replay)
  | .reclaim => do
      let attempt ← record.acquiredAttempt
      .ok (.acquired attempt)

end CommandLedgerRecord

end Distributed.CommandLedger
