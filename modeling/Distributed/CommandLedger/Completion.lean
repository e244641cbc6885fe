import Distributed.CommandLedger.State
import Distributed.ProjectionProtocol.Replay

/-! Reservations, attempts and completions.
-/

namespace Distributed.CommandLedger

open Distributed.Platform Distributed.ProjectionProtocol Distributed.Repository

/-- `validate_positive_duration`; a `Duration` is never infinite. -/
def validatePositiveDuration (label : String) (duration : Duration)
    : Except CommandLedgerError { span : Duration // 0 < span } :=
  if h : duration = 0 then .error (.invalid s!"{label} must be a finite positive duration")
  else .ok ⟨duration, Nat.pos_of_ne_zero h⟩

structure CommandReservation where
  key : CommandLedgerKey
  commandName : String
  contractFingerprint : CommandContractFingerprint
  inputHash : CanonicalInputHash
  lease : Duration
  retention : Duration
  candidateCausation : CausationId
  candidateAttempt : AttemptToken
  name_not_blank : isBlank commandName = false
  lease_pos : 0 < lease
  lease_lt_retention : lease < retention

/-- The capability of one attempt, and the read-only `AttemptFence` kept beside it. -/
structure CommandAttempt where
  key : CommandLedgerKey
  contractFingerprint : CommandContractFingerprint
  inputHash : CanonicalInputHash
  causationId : CausationId
  attemptToken : AttemptToken
  attemptNumber : Nat
deriving DecidableEq

abbrev AttemptFence : Type := CommandAttempt

inductive CommandLookupScope where
  | commandName (name : String)
  | commandContract (name : String) (contractFingerprint : CommandContractFingerprint)
  | attempt (fence : AttemptFence)

structure CommandReplay where
  commandId : CommandId
  commandName : String
  state : CommandLedgerState
  causationId : CausationId
  outcome : Json
  projectionObligations : List ResolvedProjectionObligation
  projectionMetadata : Option Bytes
  directProjection : Option Json
deriving DecidableEq

inductive ReservationOutcome where
  | acquired (attempt : CommandAttempt)
  | inProgress (causationId : CausationId)
  | replay (replay : CommandReplay)
  | conflict
  | expired
deriving DecidableEq

inductive CommandLookup where
  | inProgress (causationId : CausationId)
  | retryableUnknown (causationId : CausationId)
  | replay (replay : CommandReplay)
  | expired
  | unknown
deriving DecidableEq

structure CommandCompletion where
  attempt : CommandAttempt
  state : TerminalCommandState
  replay : String
  directProjection : Option Json
  retention : Duration
  retentionExpiresAt : Option SystemTime

/-- `MAX_DOMAIN_EVENT_BODY_BYTES`. -/
def maxDomainEventBodyBytes : Nat := 1024 * 1024

def validateProjectionMetadataBytes (state : CommandLedgerState)
    (projectionMetadata : Option Bytes) : Except CommandLedgerError Unit :=
  match projectionMetadata with
  | none => .ok ()
  | some bytes =>
      if bytes = [] ∨ maxDomainEventBodyBytes < bytes.length then
        .error (.invalid
          s!"command projection metadata must contain 1..={maxDomainEventBodyBytes} bytes")
      else if state ∉ [.succeeded, .succeededPendingProjection, .projectionFailed] then
        let name := state.asStr
        .error (.invalid s!"state `{name}` cannot contain modeled projection metadata")
      else .ok ()

/-- What a dispatcher completes an attempt with. -/
structure CompletionRequest where
  attempt : CommandAttempt
  state : TerminalCommandState
  outcome : Json
  projectionObligations : List ResolvedProjectionObligation := []
  projectionMetadata : Option Bytes := none
  retention : Duration
  retentionExpiresAt : Option SystemTime := none

/-- The fields of the replay envelope before evidence is attached. -/
def replayEnvelope (crates : Crates) (request : CompletionRequest) : JsonFields :=
  let envelope : JsonFields := []
  let envelope := JsonFields.insert "version" (.ofNat commandReplayVersion) envelope
  let envelope := JsonFields.insert "outcome" request.outcome envelope
  let envelope := JsonFields.insert "projection_obligations"
    (.array (request.projectionObligations.map ResolvedProjectionObligation.toJson)) envelope
  match request.projectionMetadata with
  | some metadata =>
      JsonFields.insert "projection_metadata" (.string (crates.base64Encode metadata)) envelope
  | none => envelope

/-- `complete_with_replay_metadata`, the common body of the `complete` family. -/
def CompletionRequest.complete (crates : Crates) (request : CompletionRequest)
    : Except CommandLedgerError CommandCompletion := do
  let _ ← validatePositiveDuration "command replay retention" request.retention
  if request.projectionMetadata = none then
    (validateProjectionObligationSemantics request.state.toLedgerState
      request.projectionObligations).mapError .invalid
  validateProjectionMetadataBytes request.state.toLedgerState request.projectionMetadata
  if request.projectionMetadata.isSome ∧ request.projectionObligations ≠ [] then
    .error (.invalid
      "command replay cannot mix legacy and modeled projection obligations")
  .ok {
    attempt := request.attempt
    state := request.state
    replay := crates.jsonToString (.object (replayEnvelope crates request))
    directProjection := none
    retention := request.retention
    retentionExpiresAt := request.retentionExpiresAt
  }

def CommandCompletion.attachDirectProjection (crates : Crates)
    (completion : CommandCompletion) (evidence : SameTransactionProjectionEvidence)
    : Except CommandLedgerError CommandCompletion := do
  if completion.state ≠ .atomic then
    .error (.invalid "direct projection evidence may only complete a projected command")
  if completion.directProjection.isSome then
    .error (.invalid "command completion already contains direct projection evidence")
  let directProjection := evidence.replayValue crates
  (validateReplayValue crates directProjection).mapError .invalid
  let replay ← (crates.jsonFromStr completion.replay).mapError fun error =>
    .invalid ("command replay could not be extended with direct projection evidence: "
      ++ error)
  let .object replay := replay
    | .error (.invalid "command replay envelope is not an object")
  if (JsonFields.get? "direct_projection" replay).isSome then
    .error (.invalid "command replay already has a direct projection field")
  .ok {
    completion with
    replay := crates.jsonToString
      (.object (JsonFields.insert "direct_projection" directProjection replay))
    directProjection := some directProjection
  }

def CommandCompletion.validateDirectProjection (completion : CommandCompletion)
    : Except CommandLedgerError Unit :=
  match completion.state, completion.directProjection with
  | .atomic, some _ => .ok ()
  | .atomic, none =>
      .error (.invalid
        "projected command completion has no exact direct projection evidence")
  | _, some _ =>
      .error (.invalid
        "non-projected command completion contains direct projection evidence")
  | _, none => .ok ()

structure CausalCommitBatch where
  domain : CommitBatch
  completion : CommandCompletion
  directProjection : Option SameTransactionProjectionBatch

/-- `CausalCommitBatch::build`: the attempt's causation overwrites whatever the handler
wrote into the new events and messages. -/
def CausalCommitBatch.build (domain : CommitBatch) (completion : CommandCompletion)
    (directProjection : Option SameTransactionProjectionBatch) : CausalCommitBatch :=
  let causationId := completion.attempt.causationId.value
  {
    domain := {
      domain with
      streams := domain.streams.map fun stream =>
        { stream with entity := stream.entity.overwriteNewEventCausationId causationId }
      outboxMessages := domain.outboxMessages.map fun message =>
        message.overwriteCausationId causationId
    }
    completion
    directProjection
  }

end Distributed.CommandLedger
