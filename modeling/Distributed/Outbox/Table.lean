import Distributed.Outbox.Message
import Distributed.Table.Mutation

/-! The durable outbox row of a message, validated before a commit stores the message.
-/

namespace Distributed.Outbox

open Distributed.Foundation Distributed.Platform Distributed.Table

def outboxMessagesTable : String := "outbox_messages"

def tableColumn (name : String) (columnType : ColumnType) (nullable : Bool)
    : TableColumn where
  fieldName := name
  columnName := name
  columnType
  nullable

def timestampColumnWithDefault (name : String) : TableColumn :=
  { tableColumn name .timestamp false with hasDefault := true }

def outboxMessageSchema : TableSchema where
  modelName := "OutboxMessage"
  tableName := outboxMessagesTable
  columns := [
    tableColumn "message_id" .text false,
    tableColumn "event_type" .text false,
    tableColumn "payload" .bytes false,
    tableColumn "payload_codec" .text false,
    tableColumn "payload_codec_version" .unsignedInteger false,
    tableColumn "destination" .text true,
    tableColumn "metadata" .json false,
    tableColumn "status" .text false,
    tableColumn "created_at" .timestamp false,
    tableColumn "next_available_at" .timestamp false,
    timestampColumnWithDefault "updated_at",
    tableColumn "claimed_by" .text true,
    tableColumn "claimed_until" .timestamp true,
    tableColumn "attempts" .unsignedInteger false,
    tableColumn "last_error" .text true,
    tableColumn "published_at" .timestamp true,
    tableColumn "failed_at" .timestamp true,
    tableColumn "source_aggregate_type" .text true,
    tableColumn "source_aggregate_id" .text true,
    tableColumn "source_sequence" .unsignedInteger true,
    tableColumn "correlation_id" .text true,
    tableColumn "causation_id" .text true
  ]
  primaryKey := ["message_id"]
  indexes := [
    ⟨some "outbox_messages_claimable_idx",
      ["status", "next_available_at", "claimed_until", "created_at"]⟩,
    ⟨some "outbox_messages_source_idx",
      ["source_aggregate_type", "source_aggregate_id", "source_sequence"]⟩,
    ⟨some "outbox_messages_destination_idx", ["destination", "status"]⟩
  ]

def systemTimeEpochSecs (time : SystemTime) : Except TableStoreError Nat :=
  match time.epochSeconds with
  | some seconds => .ok seconds
  | none => .error (.metadata secondTimeText)

def optionalStr (value : Option String) : RowValue :=
  match value with
  | some text => .string text
  | none => .null

def optionalU64 (value : Option Nat) : RowValue :=
  match value with
  | some number => .u64 (.ofNat number)
  | none => .null

def optionalTimeEpochSecs (value : Option SystemTime) : Except TableStoreError RowValue :=
  match value with
  | some time => do
      let seconds ← systemTimeEpochSecs time
      .ok (.u64 (.ofNat seconds))
  | none => .ok .null

/-- A failed message reads the clock for its failure column. -/
def statusFailedAt (message : OutboxMessage) (now : SystemTime)
    : Except TableStoreError RowValue :=
  if message.status = .failed then do
    let seconds ← systemTimeEpochSecs now
    .ok (.u64 (.ofNat seconds))
  else .ok .null

def metadataJson (metadata : Map String String) : Json :=
  .ofFields (metadata.toList.map fun entry => (entry.1, .string entry.2))

def outboxMessageRowValues (message : OutboxMessage) (now : SystemTime)
    : Except TableStoreError RowValues := do
  let createdAt ← systemTimeEpochSecs message.createdAt
  let claimedUntil ← optionalTimeEpochSecs message.leasedUntil
  let failedAt ← statusFailedAt message now
  .ok (SortedMap.ofList [
    ("message_id", .string message.id),
    ("event_type", .string message.eventType),
    ("payload", .bytes message.payload),
    ("payload_codec", .string message.payloadCodec),
    ("payload_codec_version", .u64 (.ofNat message.payloadCodecVersion)),
    ("destination", optionalStr message.destination),
    ("metadata", .json (metadataJson message.metadata)),
    ("status", .string message.status.asStr),
    ("created_at", .u64 (.ofNat createdAt)),
    ("next_available_at", .u64 (.ofNat createdAt)),
    ("claimed_by", optionalStr message.workerId),
    ("claimed_until", claimedUntil),
    ("attempts", .u64 (.ofNat message.attempts.toNat)),
    ("last_error", optionalStr message.lastError),
    ("published_at", .null),
    ("failed_at", failedAt),
    ("source_aggregate_type", optionalStr message.sourceAggregateType),
    ("source_aggregate_id", optionalStr message.sourceAggregateId),
    ("source_sequence", optionalU64 message.sourceSequence),
    ("correlation_id", optionalStr (message.metadata.lookup "correlation_id")),
    ("causation_id", optionalStr (message.metadata.lookup "causation_id"))
  ])

def outboxMessageKey (messageId : String) : RowKey :=
  SortedMap.ofList [("message_id", .string messageId)]

def outboxMessageInsertPlan (message : OutboxMessage) (now : SystemTime)
    : Except TableStoreError (List TableMutation) := do
  let values ← outboxMessageRowValues message now
  .ok [.upsertRow {
    schema := outboxMessageSchema
    key := outboxMessageKey message.id
    values
    expectedVersion := .notExists
    mode := .insert
  }]

def validateOutboxMessageTableWrite (message : OutboxMessage) (now : SystemTime)
    : Except TableStoreError Unit := do
  let plan ← outboxMessageInsertPlan message now
  validateWritePlan plan

end Distributed.Outbox
