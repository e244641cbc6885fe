import Distributed.CommandLedger.Record
import Distributed.Entities.Entity
import Distributed.Foundation.Transaction
import Distributed.InMemoryRepo.ProjectionStaging
import Distributed.Snapshot.Hydration

/-! The stores of the in-memory repository.
Every operation holds the locks of the stores it touches from its first read to its last
write, so an interleaving of callers is a sequence of operations.
-/

namespace Distributed.InMemoryRepo

open Distributed.CommandLedger Distributed.Entities Distributed.Foundation

open Distributed.Outbox Distributed.Platform Distributed.ProjectionProtocol

open Distributed.Repository Distributed.Snapshot Distributed.Table

structure InMemoryRepository where
  /-- Streams under the storage keys of their identities. -/
  eventStore : Map String (List EventRecord) := ∅
  outboxStore : Map String OutboxMessage := ∅
  relationalRows : RelationalRows := ∅
  snapshotStore : Map String SnapshotRecord := ∅
  inboxStore : Finset (String × String) := ∅
  commandLedger : Map CommandLedgerKey CommandLedgerRecord := ∅
  projectionProtocol : InMemoryProjectionProtocolState := {}
  causalTables : Finset String := ∅
  projectionChangeRetention : ProjectionChangeRetention

/-- The default number of retained changes. -/
def defaultProjectionChangeRetention : ProjectionChangeRetention := ⟨4096, by decide⟩

namespace InMemoryRepository

def events : Lens InMemoryRepository (Map String (List EventRecord)) where
  get := eventStore
  set eventStore repository := { repository with eventStore }
  get_set _ _ := rfl
  set_set _ _ _ := rfl
  set_get _ := rfl

def outbox : Lens InMemoryRepository (Map String OutboxMessage) where
  get := outboxStore
  set outboxStore repository := { repository with outboxStore }
  get_set _ _ := rfl
  set_set _ _ _ := rfl
  set_get _ := rfl

def rows : Lens InMemoryRepository RelationalRows where
  get := relationalRows
  set relationalRows repository := { repository with relationalRows }
  get_set _ _ := rfl
  set_set _ _ _ := rfl
  set_get _ := rfl

def snapshots : Lens InMemoryRepository (Map String SnapshotRecord) where
  get := snapshotStore
  set snapshotStore repository := { repository with snapshotStore }
  get_set _ _ := rfl
  set_set _ _ _ := rfl
  set_get _ := rfl

def inbox : Lens InMemoryRepository (Finset (String × String)) where
  get := inboxStore
  set inboxStore repository := { repository with inboxStore }
  get_set _ _ := rfl
  set_set _ _ _ := rfl
  set_get _ := rfl

def ledger : Lens InMemoryRepository (Map CommandLedgerKey CommandLedgerRecord) where
  get := commandLedger
  set commandLedger repository := { repository with commandLedger }
  get_set _ _ := rfl
  set_set _ _ _ := rfl
  set_get _ := rfl

def protocol : Lens InMemoryRepository InMemoryProjectionProtocolState where
  get := projectionProtocol
  set projectionProtocol repository := { repository with projectionProtocol }
  get_set _ _ := rfl
  set_set _ _ _ := rfl
  set_get _ := rfl

end InMemoryRepository

/-- Copy the rows under the touched keys. -/
def stageRows (rows : RelationalRows) (touched : List String) : RelationalRows :=
  touched.foldl
    (fun staged key =>
      match rows.lookup key with
      | some row => staged.insert key row
      | none => staged)
    ∅

/-- Write the staged rows back; a touched key without a staged row is removed. -/
def mergeRows (rows staged : RelationalRows) (touched : List String) : RelationalRows :=
  touched.foldl
    (fun rows key =>
      match staged.lookup key with
      | some row => rows.insert key row
      | none => rows.erase key)
    rows

theorem lookup_stageRows (rows : RelationalRows) (touched : List String) (key : String)
    : AList.lookup key (stageRows rows touched)
      = if key ∈ touched then rows.lookup key else none := by
  have hfold : ∀ (touched : List String) (staged : RelationalRows),
      AList.lookup key (touched.foldl
        (fun staged key =>
          match rows.lookup key with
          | some row => staged.insert key row
          | none => staged) staged)
      = if key ∈ touched ∧ (rows.lookup key).isSome then rows.lookup key
        else staged.lookup key := by
    intro touched
    induction touched with
    | nil => simp
    | cons other touched ih =>
        intro staged
        rw [List.foldl_cons, ih]
        by_cases hkey : key = other
        · subst hkey
          cases hrow : rows.lookup key with
          | none => simp
          | some row => simp
        · cases hother : rows.lookup other with
          | none => simp [hkey]
          | some row => simp [hkey]
  rw [stageRows, hfold]
  cases hrow : rows.lookup key with
  | none => simp
  | some row => simp

theorem lookup_mergeRows (rows staged : RelationalRows) (touched : List String)
    (key : String)
    : AList.lookup key (mergeRows rows staged touched)
      = if key ∈ touched then staged.lookup key else rows.lookup key := by
  unfold mergeRows
  induction touched generalizing rows with
  | nil => simp
  | cons other touched ih =>
      rw [List.foldl_cons, ih]
      by_cases hkey : key = other
      · subst hkey
        cases hrow : staged.lookup key with
        | none => simp
        | some row => simp
      · cases hother : staged.lookup other with
        | none => simp [hkey]
        | some row => simp [hkey]

def getStream (identity : StreamIdentity) (now : SystemTime) (repository : InMemoryRepository)
    : Option Entity :=
  (repository.eventStore.lookup identity.storageKey).map fun events =>
    (Entity.withId identity.aggregateId now).loadFromHistory events

/-- The version a stream is at. -/
def trueVersion (events : List EventRecord) : Nat :=
  (events.map EventRecord.sequence).max?.getD 0

/-- `get_stream_tail`. The prefix never exceeds the stream, so that a snapshot past the
stream's end shows as one. -/
def getStreamTail (identity : StreamIdentity) (afterVersion : Nat) (now : SystemTime)
    (repository : InMemoryRepository) : Option Entity :=
  (repository.eventStore.lookup identity.storageKey).map fun events =>
    (Entity.withId identity.aggregateId now).loadTailFromHistory
      (postSnapshotTail events afterVersion) (min afterVersion (trueVersion events))

def getSnapshot (identity : StreamIdentity) (repository : InMemoryRepository)
    : Option SnapshotRecord :=
  repository.snapshotStore.lookup identity.storageKey

end Distributed.InMemoryRepo
