import Distributed.Entities.EventRecord
import Distributed.Table.Schema

/-! Repository errors and their texts.
Lock poisoning is left out: it needs a panic inside a critical section.
-/

namespace Distributed.Table

/-- The `Display` text of a table error. -/
def TableStoreError.text : TableStoreError → String
  | .concurrencyConflict collection id expected actual =>
      s!"concurrency conflict on {collection}:{id} "
        ++ s!"(expected version {expected}, actual {actual})"
  | .storage message => s!"table storage error: {message}"
  | .causalWriteRequired table =>
      s!"table `{table}` is causal-owned and requires the projection commit path"
  | .notFound collection id => s!"table row not found: {collection}:{id}"
  | .metadata message => s!"table metadata error: {message}"

end Distributed.Table

namespace Distributed.Repository

open Distributed.Entities Distributed.Table

/-- What a `RepositoryError::Storage` wraps. -/
inductive StorageSource where
  | table (error : TableStoreError)
  | eventRecord (error : EventRecordError)
deriving DecidableEq

inductive RepositoryError where
  | concurrentWrite (id : String) (expected actual : Nat)
  | duplicateStreamInBatch (id : String)
  | duplicateOutboxMessageInBatch (id : String)
  | duplicateInboxReceipt (consumer messageId : String)
  | invalidInboxReceipt (consumer messageId : String)
  | causalWriteRequired (table : String)
  | invalidStreamIdentity (aggregateType aggregateId reason : String)
  | notFound (id : String)
  | invalidState (id expected actual : String)
  | replay (message : String)
  | model (message : String)
  | storage (operation : String) (retryable : Bool) (source : StorageSource)
deriving DecidableEq

def StorageSource.text : StorageSource → String
  | .table error => error.text
  | .eventRecord error => s!"event record error: {error.message}"

def RepositoryError.text : RepositoryError → String
  | .concurrentWrite id expected actual =>
      s!"concurrent write detected for entity {id} "
        ++ s!"(expected version {expected}, got {actual})"
  | .duplicateStreamInBatch id => s!"duplicate stream id in commit batch: {id}"
  | .duplicateOutboxMessageInBatch id =>
      s!"duplicate outbox message id in commit batch: {id}"
  | .duplicateInboxReceipt consumer messageId =>
      s!"consumer inbox receipt already recorded for consumer `{consumer}`, "
        ++ s!"message `{messageId}`"
  | .invalidInboxReceipt consumer messageId =>
      s!"invalid consumer inbox receipt (consumer `{consumer}`, message `{messageId}`): "
        ++ "consumer and message id must be non-empty"
  | .causalWriteRequired table =>
      s!"table `{table}` is causal-owned and requires the projection commit path"
  | .invalidStreamIdentity aggregateType aggregateId reason =>
      s!"invalid stream identity (type `{aggregateType}`, id `{aggregateId}`): {reason}"
  | .notFound id => s!"entity not found: {id}"
  | .invalidState id expected actual =>
      s!"invalid state for entity {id} (expected {expected}, got {actual})"
  | .replay message => s!"replay error: {message}"
  | .model message => s!"model error: {message}"
  | .storage operation retryable source =>
      let kind := if retryable then "retryable" else "permanent"
      let cause := source.text
      s!"storage error ({kind}) during {operation}: {cause}"

/-- `From<TableStoreError>`; none of the modelled table errors is retryable. -/
def RepositoryError.ofTable : TableStoreError → RepositoryError
  | .causalWriteRequired table => .causalWriteRequired table
  | error => .storage "read model" false (.table error)

/-- `From<EventRecordError>`. -/
def RepositoryError.ofEventRecord (error : EventRecordError) : RepositoryError :=
  .storage "event record" false (.eventRecord error)

end Distributed.Repository
