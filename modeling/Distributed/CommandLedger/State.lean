import Distributed.ProjectionProtocol.Obligation
import Distributed.Repository.Error

/-! Identities, errors and lifecycle states of the command ledger.
-/

namespace Distributed.CommandLedger

open Distributed.Platform Distributed.ProjectionProtocol Distributed.Repository

/-- Version of the stored replay envelope. -/
def commandReplayVersion : Nat := 2

inductive CommandLedgerError where
  | invalid (message : String)
  | corrupt (message : String)
  | attemptFenced (commandId : String)
  | storage (error : RepositoryError)
deriving DecidableEq

def CommandLedgerError.text : CommandLedgerError → String
  | .invalid message => s!"invalid command ledger value: {message}"
  | .corrupt message => s!"corrupt command ledger row: {message}"
  | .attemptFenced commandId => s!"command attempt for `{commandId}` was fenced"
  | .storage error => "command ledger storage failed: " ++ error.text

/-- The hyphenated spelling of a client-created UUIDv7. -/
structure CommandId where
  value : String
deriving DecidableEq

structure PrincipalPartitionId where
  value : String
  not_blank : isBlank value = false
deriving DecidableEq

structure CommandLedgerKey where
  serviceId : String
  principalPartition : PrincipalPartitionId
  id : CommandId
  service_not_blank : isBlank serviceId = false
deriving DecidableEq

def CommandLedgerKey.commandId (key : CommandLedgerKey) : String := key.id.value

abbrev CanonicalInputHash : Type := Digest

abbrev CommandContractFingerprint : Type := Digest

/-- A UUIDv7 drawn when a reservation is made and kept by the row it inserts. -/
structure CausationId where
  value : String
deriving DecidableEq

/-- A UUIDv7 that fences one attempt. -/
structure AttemptToken where
  value : String
deriving DecidableEq

inductive CommandLedgerState where
  | inProgress
  | retryableUnknown
  | succeeded
  | succeededPendingProjection
  | atomic
  | rejected
  | projectionFailed
  | expired
deriving DecidableEq

def CommandLedgerState.asStr : CommandLedgerState → String
  | .inProgress => "in_progress"
  | .retryableUnknown => "retryable_unknown"
  | .succeeded => "succeeded"
  | .succeededPendingProjection => "succeeded_pending_projection"
  | .atomic => "atomic"
  | .rejected => "rejected"
  | .projectionFailed => "projection_failed"
  | .expired => "expired"

def CommandLedgerState.isReplayable : CommandLedgerState → Bool
  | .succeeded | .succeededPendingProjection | .atomic | .rejected | .projectionFailed => true
  | .inProgress | .retryableUnknown | .expired => false

/-- The states a dispatcher may commit through an attempt fence. -/
inductive TerminalCommandState where
  | succeeded
  | succeededPendingProjection
  | atomic
  | rejected
deriving DecidableEq

def TerminalCommandState.toLedgerState : TerminalCommandState → CommandLedgerState
  | .succeeded => .succeeded
  | .succeededPendingProjection => .succeededPendingProjection
  | .atomic => .atomic
  | .rejected => .rejected

@[simp] theorem TerminalCommandState.isReplayable_toLedgerState (state : TerminalCommandState)
    : state.toLedgerState.isReplayable = true := by
  cases state <;> rfl

/-- Which states carry obligations and which must not. -/
def validateObligationPresence (state : CommandLedgerState)
    (obligations : List ResolvedProjectionObligation) : Except String Unit :=
  let name := state.asStr
  match state with
  | .succeeded | .atomic | .rejected =>
      if obligations ≠ [] then
        .error s!"state `{name}` must not contain projection obligations"
      else .ok ()
  | .succeededPendingProjection | .projectionFailed =>
      if obligations = [] then
        .error s!"state `{name}` must contain at least one projection obligation"
      else .ok ()
  | .inProgress | .retryableUnknown | .expired =>
      .error s!"state `{name}` cannot contain a replay payload"

/-- The key-field loop; `seen` are the names met so far. -/
def validateObligationKeyFields (obligationIndex : Nat)
    : List String → Nat → List ResolvedProjectionKeyField → Except String Unit
  | _, _, [] => .ok ()
  | seen, fieldIndex, field :: rest => do
      if isBlank field.field then
        .error (s!"projection obligation {obligationIndex} key field {fieldIndex} "
          ++ "has a blank name")
      if field.field ∈ seen then
        .error (s!"projection obligation {obligationIndex} contains duplicate key field "
          ++ s!"`{field.field}`")
      validateObligationKeyFields obligationIndex (field.field :: seen) (fieldIndex + 1) rest

def validateObligation (index : Nat) (obligation : ResolvedProjectionObligation)
    : Except String Unit := do
  if isBlank obligation.projector then
    .error s!"projection obligation {index} has a blank projector"
  if isBlank obligation.model then
    .error s!"projection obligation {index} has a blank model"
  if obligation.scope.topology.name ≠ obligation.projector
      ∨ obligation.scope.model ≠ obligation.model then
    .error (s!"projection obligation {index} logical projector/model "
      ++ "does not match its exact canonical scope")
  if obligation.keyFields = [] then
    .error s!"projection obligation {index} has no key fields"
  validateObligationKeyFields index [] 0 obligation.keyFields

def validateObligationsFrom
    : Nat → List ResolvedProjectionObligation → Except String Unit
  | _, [] => .ok ()
  | index, obligation :: rest => do
      validateObligation index obligation
      validateObligationsFrom (index + 1) rest

def validateProjectionObligationSemantics (state : CommandLedgerState)
    (obligations : List ResolvedProjectionObligation) : Except String Unit := do
  validateObligationPresence state obligations
  validateObligationsFrom 0 obligations

end Distributed.CommandLedger
