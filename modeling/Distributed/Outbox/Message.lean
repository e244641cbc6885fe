import Distributed.Entities.EventRecord
import Distributed.Repository.Error

/-! Outbox messages and their delivery state.
-/

namespace Distributed.Outbox

open Distributed.Entities Distributed.Platform

inductive OutboxMessageStatus where
  | pending
  | inFlight
  | published
  | failed
deriving DecidableEq

def OutboxMessageStatus.asStr : OutboxMessageStatus → String
  | .pending => "pending"
  | .inFlight => "in_flight"
  | .published => "published"
  | .failed => "failed"

structure OutboxMessage where
  id : String
  eventType : String
  payload : Bytes
  payloadCodec : String
  payloadCodecVersion : Nat
  status : OutboxMessageStatus
  createdAt : SystemTime
  attempts : UInt32
  lastError : Option String
  workerId : Option String
  leasedUntil : Option SystemTime
  destination : Option String
  metadata : Metadata
  sourceAggregateType : Option String
  sourceAggregateId : Option String
  sourceSequence : Option Nat

def OutboxMessage.isPending (message : OutboxMessage) : Bool :=
  message.status = .pending

def OutboxMessage.isInFlight (message : OutboxMessage) : Bool :=
  message.status = .inFlight

/-- In flight, and the lease is over or absent. -/
def OutboxMessage.hasExpiredLeaseAt (message : OutboxMessage) (now : SystemTime) : Bool :=
  message.isInFlight
    && (match message.leasedUntil with
        | some until_ => until_ ≤ now
        | none => true)

def OutboxMessage.isClaimableAt (message : OutboxMessage) (now : SystemTime) : Bool :=
  message.isPending || message.hasExpiredLeaseAt now

def OutboxMessage.isClaimedBy (message : OutboxMessage) (workerId : String) : Bool :=
  message.workerId = some workerId

/-- `validate_non_empty`. -/
def validateNonEmpty (field value : String) : Except EventRecordError Unit :=
  if isBlank value then .error ⟨s!"{field} must not be empty"⟩ else .ok ()

/-- `claim` reads the clock again; `attempts += 1` wraps in a release build. -/
def OutboxMessage.claim (message : OutboxMessage) (workerId : String)
    (leasedUntil now : SystemTime) : Except EventRecordError OutboxMessage := do
  if !message.isClaimableAt now then
    .error ⟨s!"outbox message `{message.id}` is not claimable"⟩
  validateNonEmpty "outbox worker id" workerId
  .ok {
    message with
    status := .inFlight
    attempts := message.attempts + 1
    workerId := some workerId
    leasedUntil := some leasedUntil
  }

/-- The text of a `SystemTimeError`. -/
def secondTimeText : String := "second time provided was later than self"

def leaseDeadline (now : SystemTime) (lease : Duration)
    : Except EventRecordError SystemTime :=
  match SystemTime.checkedAdd now lease with
  | none => .error ⟨"failed to compute outbox lease deadline: timestamp overflow"⟩
  | some until_ =>
      if until_ < 0 then
        .error ⟨"failed to compute outbox lease deadline before UNIX epoch: "
          ++ secondTimeText⟩
      else .ok until_

/-- `claim_at`: the deadline is counted from `now`, the claim reads the clock at
`checked`. -/
def OutboxMessage.claimAt (message : OutboxMessage) (workerId : String) (lease : Duration)
    (now checked : SystemTime) : Except EventRecordError OutboxMessage := do
  let leasedUntil ← leaseDeadline now lease
  message.claim workerId leasedUntil checked

def OutboxMessage.complete (message : OutboxMessage)
    : Except EventRecordError OutboxMessage :=
  if message.isInFlight then
    .ok { message with status := .published, workerId := none, leasedUntil := none }
  else .error ⟨s!"outbox message `{message.id}` is not in flight"⟩

/-- How `release` and `fail` store an error text: an empty one is dropped. -/
def storedError (error : String) : Option String := if error = "" then none else some error

def OutboxMessage.release (message : OutboxMessage) (error : String)
    : Except EventRecordError OutboxMessage :=
  if message.isInFlight then
    .ok {
      message with
      status := .pending
      lastError := storedError error
      workerId := none
      leasedUntil := none
    }
  else .error ⟨s!"outbox message `{message.id}` is not in flight"⟩

def OutboxMessage.canFail (message : OutboxMessage) : Bool :=
  message.status ≠ .published ∧ message.status ≠ .failed

def OutboxMessage.fail (message : OutboxMessage) (error : String)
    : Except EventRecordError OutboxMessage :=
  if message.canFail then
    .ok {
      message with
      status := .failed
      lastError := storedError error
      workerId := none
      leasedUntil := none
    }
  else .error ⟨s!"outbox message `{message.id}` cannot be failed"⟩

/-- `causation_id`. -/
def OutboxMessage.causationId (message : OutboxMessage) : Option String :=
  message.metadata.lookup causationIdKey

def OutboxMessage.overwriteCausationId (message : OutboxMessage) (id : String)
    : OutboxMessage :=
  { message with metadata := Metadata.overwriteCausationId message.metadata id }

end Distributed.Outbox
