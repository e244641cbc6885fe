import Distributed.Entities.Entity
import Distributed.Foundation.Result
import Distributed.Outbox.Table
import Distributed.Snapshot.Record
import Distributed.Table.WritePlan

/-! Commit batches and the validation every backend runs before touching storage.
-/

namespace Distributed.Repository

open Distributed.Entities Distributed.Foundation Distributed.Outbox Distributed.Platform

open Distributed.Snapshot Distributed.Table

structure InboxReceipt where
  consumer : String
  messageId : String

def InboxReceipt.key (receipt : InboxReceipt) : String × String :=
  (receipt.consumer, receipt.messageId)

def InboxReceipt.validate (receipt : InboxReceipt) : Except RepositoryError Unit :=
  if receipt.consumer = "" ∨ receipt.messageId = "" then
    .error (.invalidInboxReceipt receipt.consumer receipt.messageId)
  else .ok ()

/-- A stream to append to, with the entity whose new events are appended. -/
structure StreamWrite where
  identity : StreamIdentity
  entity : Entity

/-- `SnapshotWrite::Save`, the only kind of snapshot write. -/
structure SnapshotWrite where
  identity : StreamIdentity
  record : SnapshotRecord

structure CommitBatch where
  streams : List StreamWrite
  outboxMessages : List OutboxMessage := []
  readModelPlans : List TableWritePlan := []
  snapshots : List SnapshotWrite := []
  inboxReceipts : List InboxReceipt := []

structure PreparedEventAppend where
  identity : StreamIdentity
  expectedVersion : Nat
  events : List EventRecord

def PreparedEventAppend.fromStreamWrite (write : StreamWrite) : PreparedEventAppend where
  identity := write.identity
  expectedVersion := write.entity.committedVersion
  events := write.entity.newEvents

/-- `seen` are the storage keys met so far. -/
def rejectDuplicateStreamsFrom
    : List String → List StreamWrite → Except RepositoryError Unit
  | _, [] => .ok ()
  | seen, stream :: rest =>
      if stream.identity.storageKey ∈ seen then
        .error (.duplicateStreamInBatch stream.identity.text)
      else rejectDuplicateStreamsFrom (stream.identity.storageKey :: seen) rest

def rejectDuplicateStreams (streams : List StreamWrite) : Except RepositoryError Unit :=
  rejectDuplicateStreamsFrom [] streams

/-- `seen` are the message ids met so far; `clock` gives the reading the message at an
index takes for its failure column. -/
def rejectDuplicateOutboxMessagesFrom (clock : Nat → SystemTime)
    : List String → Nat → List OutboxMessage → Except RepositoryError Unit
  | _, _, [] => .ok ()
  | seen, index, message :: rest => do
      match validateOutboxMessageTableWrite message (clock index) with
      | .error error => .error (.model error.text)
      | .ok () => .ok ()
      if isBlank message.id then .error (.model "outbox message id must not be empty")
      if isBlank message.eventType then
        .error (.model s!"outbox message `{message.id}` event type must not be empty")
      if message.id ∈ seen then .error (.duplicateOutboxMessageInBatch message.id)
      rejectDuplicateOutboxMessagesFrom clock (message.id :: seen) (index + 1) rest

def rejectDuplicateOutboxMessages (clock : Nat → SystemTime)
    (messages : List OutboxMessage) : Except RepositoryError Unit :=
  rejectDuplicateOutboxMessagesFrom clock [] 0 messages

def validateEntityIdMatchesIdentity (stream : StreamWrite) : Except RepositoryError Unit :=
  if stream.entity.id ≠ stream.identity.aggregateId then
    let identity := stream.identity.text
    .error (.model
      s!"stream identity `{identity}` does not match entity id `{stream.entity.id}`")
  else .ok ()

def validateSupportedEventCodec (event : EventRecord) : Except RepositoryError Unit :=
  if event.payloadCodec ≠ bitcodePayloadCodec
      ∨ event.payloadCodecVersion ≠ bitcodePayloadCodecVersion then
    .error (.ofEventRecord
      (.unsupportedCodec event.payloadCodec event.payloadCodecVersion))
  else .ok ()

/-- The events of one append, the first of which must have the sequence `expected`. -/
def validateAppendedEvents (identity : StreamIdentity)
    : Nat → List EventRecord → Except RepositoryError Unit
  | _, [] => .ok ()
  | expected, event :: rest => do
      validateSupportedEventCodec event
      if event.sequence ≠ expected then
        let stream := identity.text
        .error (.model
          (s!"event `{event.eventName}` for stream `{stream}` "
            ++ s!"has sequence {event.sequence}, expected {expected}"))
      validateAppendedEvents identity (expected + 1) rest

def validatePreparedAppend (append : PreparedEventAppend) : Except RepositoryError Unit :=
  validateAppendedEvents append.identity (append.expectedVersion + 1) append.events

/-- `validate_commit_batch`. -/
def validateCommitBatch (clock : Nat → SystemTime) (batch : CommitBatch)
    : Except RepositoryError (List PreparedEventAppend) := do
  rejectDuplicateStreams batch.streams
  rejectDuplicateOutboxMessages clock batch.outboxMessages
  batch.streams.forM validateEntityIdMatchesIdentity
  let prepared := batch.streams.map PreparedEventAppend.fromStreamWrite
  prepared.forM validatePreparedAppend
  batch.snapshots.forM fun write => write.record.validateForIdentity write.identity
  .ok prepared

/-- The streams of the write are distinct from each other and from those seen. -/
theorem rejectDuplicateStreamsFrom_ok {seen : List String} {streams : List StreamWrite}
    (h : rejectDuplicateStreamsFrom seen streams = .ok ())
    : (streams.map fun stream => stream.identity.storageKey).Nodup
      ∧ ∀ stream ∈ streams, stream.identity.storageKey ∉ seen := by
  induction streams generalizing seen with
  | nil => simp
  | cons stream streams ih =>
      rw [rejectDuplicateStreamsFrom, Result.guard_eq_ok_iff] at h
      exact Result.nodup_unseen_cons.mpr ⟨h.1, ih h.2⟩

/-- The message ids are distinct from each other and from those seen. -/
theorem rejectDuplicateOutboxMessagesFrom_ok {clock : Nat → SystemTime}
    {seen : List String} {index : Nat} {messages : List OutboxMessage}
    (h : rejectDuplicateOutboxMessagesFrom clock seen index messages = .ok ())
    : (messages.map OutboxMessage.id).Nodup
      ∧ ∀ message ∈ messages, message.id ∉ seen := by
  induction messages generalizing seen index with
  | nil => simp
  | cons message messages ih =>
      rw [rejectDuplicateOutboxMessagesFrom] at h
      cases hrow : validateOutboxMessageTableWrite message (clock index) with
      | error error => simp [hrow] at h
      | ok _ =>
          simp only [hrow, Result.ok_bind, Result.error_bind, Result.guard_eq_ok_iff] at h
          obtain ⟨-, -, hfresh, hrest⟩ := h
          exact Result.nodup_unseen_cons.mpr ⟨hfresh, ih hrest⟩

/-- Appended events have consecutive sequence numbers from the expected one. -/
theorem validateAppendedEvents_ok {identity : StreamIdentity} {expected : Nat}
    {events : List EventRecord} (h : validateAppendedEvents identity expected events = .ok ())
    : events.map EventRecord.sequence = List.range' expected events.length := by
  induction events generalizing expected with
  | nil => rfl
  | cons event events ih =>
      simp only [validateAppendedEvents, Result.bind_eq_ok_iff, Result.error_bind,
        Result.guard_eq_ok_iff, not_not] at h
      obtain ⟨_, -, hsequence, hrest⟩ := h
      rw [List.map_cons, ih hrest, hsequence, List.length_cons, List.range'_succ]

/-- What `validate_commit_batch` establishes. -/
structure ValidatedBatch (batch : CommitBatch) (prepared : List PreparedEventAppend)
    : Prop where
  prepared_eq : prepared = batch.streams.map PreparedEventAppend.fromStreamWrite
  streams : (batch.streams.map fun stream => stream.identity.storageKey).Nodup
  messages : (batch.outboxMessages.map OutboxMessage.id).Nodup
  entities : ∀ stream ∈ batch.streams, stream.entity.id = stream.identity.aggregateId
  sequences : ∀ stream ∈ batch.streams,
    stream.entity.newEvents.map EventRecord.sequence
      = List.range' (stream.entity.committedVersion + 1) stream.entity.newEvents.length
  snapshots : ∀ write ∈ batch.snapshots, write.record.validateForIdentity write.identity = .ok ()

theorem validateCommitBatch_ok {clock : Nat → SystemTime} {batch : CommitBatch}
    {prepared : List PreparedEventAppend}
    (h : validateCommitBatch clock batch = .ok prepared)
    : ValidatedBatch batch prepared := by
  simp only [validateCommitBatch, Result.bind_eq_ok_iff] at h
  obtain ⟨_, hstreams, _, hmessages, _, hentities, _, hprepared, _, hsnapshots, h⟩ := h
  cases h
  refine ⟨rfl, (rejectDuplicateStreamsFrom_ok hstreams).1,
    (rejectDuplicateOutboxMessagesFrom_ok hmessages).1, ?_, ?_,
    Result.forM_eq_ok_iff.mp hsnapshots⟩
  · intro stream hstream
    have hentity := Result.forM_eq_ok_iff.mp hentities stream hstream
    rw [validateEntityIdMatchesIdentity, Result.guard_eq_ok_iff, not_not] at hentity
    exact hentity.1
  · intro stream hstream
    have happend : PreparedEventAppend.fromStreamWrite stream
        ∈ batch.streams.map PreparedEventAppend.fromStreamWrite :=
      List.mem_map_of_mem hstream
    exact validateAppendedEvents_ok (Result.forM_eq_ok_iff.mp hprepared _ happend)

end Distributed.Repository
