import Distributed.Foundation.Transaction
import Distributed.Outbox.Message
import Distributed.Platform.Crates
import Mathlib.Data.List.Sort

/-! The in-memory outbox store that workers claim from.
-/

namespace Distributed.OutboxWorker

open Distributed.Entities Distributed.Foundation Distributed.Outbox Distributed.Platform

open Distributed.Repository

abbrev OutboxStorage : Type := Map String OutboxMessage

abbrev OutboxTxn : Type → Type := Txn OutboxStorage RepositoryError

structure ClaimOutboxMessages where
  workerId : String
  batchSize : Nat
  lease : Duration
  destination : Option String := none
  messageIds : Option (List String) := none

def ClaimOutboxMessages.selects (request : ClaimOutboxMessages) (id : String) : Bool :=
  request.messageIds.all fun ids => id ∈ ids

/-- The request takes messages of this destination. -/
def ClaimOutboxMessages.accepts (request : ClaimOutboxMessages) (message : OutboxMessage)
    : Bool :=
  request.destination.all fun destination => message.destination = some destination

structure OutboxClaimRef where
  messageId : String
  workerId : String
  leasedUntil : SystemTime
  attempt : UInt32
deriving DecidableEq

def statusDebug : OutboxMessageStatus → String
  | .pending => "Pending"
  | .inFlight => "InFlight"
  | .published => "Published"
  | .failed => "Failed"

/-- The `Debug` form of an `Option`. -/
def optionDebug {α : Type} (debug : α → String) : Option α → String
  | some value => "Some(" ++ debug value ++ ")"
  | none => "None"

def outboxState (crates : Crates) (message : OutboxMessage) : String :=
  let status := statusDebug message.status
  let worker := optionDebug crates.strDebug message.workerId
  let leasedUntil := optionDebug SystemTime.debug message.leasedUntil
  s!"{status}, worker={worker}, leased_until={leasedUntil}, attempts={message.attempts}"

def invalidOutboxState (crates : Crates) (message : OutboxMessage) (expected : String)
    : RepositoryError :=
  .invalidState message.id expected (outboxState crates message)

/-- `ensure_active_claim` for a presented claim. -/
def ensureActiveClaim (crates : Crates) (message : OutboxMessage) (claim : OutboxClaimRef)
    (now : SystemTime) : Except RepositoryError Unit :=
  if !message.isInFlight then
    .error (invalidOutboxState crates message "in-flight outbox message")
  else if !message.isClaimedBy claim.workerId then
    .error (invalidOutboxState crates message "outbox claim held by requesting worker")
  else if message.attempts ≠ claim.attempt then
    .error (invalidOutboxState crates message
      "outbox claim attempt held by requesting worker")
  else if message.hasExpiredLeaseAt now then
    .error (invalidOutboxState crates message "unexpired outbox claim")
  else .ok ()

/-- Oldest row first, message id as the tiebreaker. -/
def claimsBefore (left right : OutboxMessage) : Bool :=
  ((compare left.createdAt right.createdAt).then (compare left.id right.id)) ≠ .gt

def claimOrderIds (storage : OutboxStorage) : List String :=
  (storage.values.insertionSort fun left right => claimsBefore left right).map
    OutboxMessage.id

/-- The message of an id when the request would claim it. -/
def claimCandidate (request : ClaimOutboxMessages) (now : SystemTime)
    (storage : OutboxStorage) (id : String) : Option OutboxMessage :=
  if request.selects id then
    (storage.lookup id).filter fun message =>
      message.isClaimableAt now && request.accepts message
  else none

/-- The claim loop. `now` is the reading of the request; each claim reads the clock again,
the `n`-th one at `checked n`. A failed claim leaves the earlier ones in place. -/
def claimLoop (request : ClaimOutboxMessages) (now : SystemTime)
    (checked : Nat → SystemTime)
    : List String → List OutboxMessage → OutboxTxn (List OutboxMessage)
  | [], claimed => pure claimed
  | id :: rest, claimed => fun storage =>
      match claimCandidate request now storage id with
      | none => claimLoop request now checked rest claimed storage
      | some message =>
          match message.claimAt request.workerId request.lease now
              (checked claimed.length) with
          | .error error => (.error (.ofEventRecord error), storage)
          | .ok taken =>
              let claimed := claimed ++ [taken]
              let storage := storage.insert id taken
              if request.batchSize ≤ claimed.length then (.ok claimed, storage)
              else claimLoop request now checked rest claimed storage

def claim (request : ClaimOutboxMessages) (now : SystemTime) (checked : Nat → SystemTime)
    : OutboxTxn (List OutboxMessage) := do
  if request.batchSize = 0 then pure []
  else
    let storage ← Txn.current
    claimLoop request now checked (claimOrderIds storage) []

/-- What a worker does with a claimed message. -/
inductive Settlement where
  | complete
  | release (error : String)
  | fail (error : String)
deriving DecidableEq

def Settlement.apply (settlement : Settlement) (message : OutboxMessage)
    : Except EventRecordError OutboxMessage :=
  match settlement with
  | .complete => message.complete
  | .release error => message.release error
  | .fail error => message.fail error

/-- The common body of `complete`, `release` and `fail`: the claim is checked, then the
message changes. -/
def settle (crates : Crates) (settlement : Settlement) (claim : OutboxClaimRef)
    (now : SystemTime) : OutboxTxn Unit := do
  let storage ← Txn.current
  match storage.lookup claim.messageId with
  | none => Txn.lift (.error (.notFound claim.messageId))
  | some message => do
      Txn.lift (ensureActiveClaim crates message claim now)
      let settled ← Txn.lift ((settlement.apply message).mapError .ofEventRecord)
      Txn.update fun storage => storage.insert claim.messageId settled

def complete (crates : Crates) (claim : OutboxClaimRef) (now : SystemTime)
    : OutboxTxn Unit :=
  settle crates .complete claim now

/-- One reading for the whole batch; claims before a failing one stay completed. -/
def completeMany (crates : Crates) (now : SystemTime)
    : List OutboxClaimRef → OutboxTxn Unit
  | [] => pure ()
  | claim :: rest => do
      complete crates claim now
      completeMany crates now rest

end Distributed.OutboxWorker
