import Distributed.Aggregates.Aggregate
import Distributed.Snapshot.Record

/-! Hydration from snapshot cache records.
-/

namespace Distributed.Snapshot

open Distributed.Aggregates Distributed.Entities Distributed.Foundation

open Distributed.Platform Distributed.Repository

/-- An aggregate that can capture and restore its state. -/
structure Snapshottable (A State : Type) extends Aggregate A where
  snapshotVersion : Nat
  createSnapshot : A → State
  restoreFromSnapshot : State → A → A
  /-- `bitcode::serialize` and `bitcode::deserialize`, with the text of their errors. -/
  serialize : State → Except String Bytes
  deserialize : Bytes → Except String State

inductive SnapshotHydrationError where
  | cache (message : String)
  | replay (message : String)
deriving DecidableEq

def SnapshotHydrationError.toRepositoryError : SnapshotHydrationError → RepositoryError
  | .cache message | .replay message => .replay message

/-- The events a snapshot of this version does not cover. -/
def postSnapshotTail (history : List EventRecord) (snapshotVersion : Nat)
    : List EventRecord :=
  history.filter fun event => snapshotVersion < event.sequence

namespace Snapshottable

variable {A State : Type} (model : Snapshottable A State)

def validateSnapshotForEntity (entity : Entity) (snapshot : SnapshotRecord)
    : Except SnapshotHydrationError Unit :=
  let held := s!"{snapshot.aggregateType}:{snapshot.aggregateId}"
  let expected := model.aggregateType
  let current := model.snapshotVersion
  if snapshot.aggregateId ≠ entity.id ∨ snapshot.aggregateType ≠ model.aggregateType then
    .error (.cache (s!"snapshot cache identity {held} does not match aggregate "
      ++ s!"{expected}:{entity.id}"))
  else if snapshot.snapshotVersion ≠ model.snapshotVersion then
    .error (.cache (s!"snapshot schema version {snapshot.snapshotVersion} does not match "
      ++ s!"aggregate {expected} version {current} for {held}"))
  else if entity.version < snapshot.version then
    .error (.cache (s!"snapshot cache version {snapshot.version} exceeds stream version "
      ++ s!"{entity.version} for {held}"))
  else .ok ()

def prepareSnapshot (entity : Entity) (snapshot : SnapshotRecord)
    : Except SnapshotHydrationError State := do
  model.validateSnapshotForEntity entity snapshot
  if !snapshot.hasSupportedPayloadCodec then
    .error (.cache (s!"unsupported snapshot payload codec `{snapshot.payloadCodec}` "
      ++ s!"version {snapshot.payloadCodecVersion}"))
  (model.deserialize snapshot.payload).mapError fun error =>
    .cache (s!"snapshot deserialize: {error}")

/-- `hydrate_prepared_snapshot`: restore the state and replay the events after it. The
entity keeps the history and the counters it was loaded with. -/
def hydratePreparedSnapshot (entity : Entity) (snapshot : SnapshotRecord) (payload : State)
    : Except SnapshotHydrationError A := do
  let started := model.entity.set { entity with snapshotVersion := snapshot.version }
    model.newEmpty
  let restored := model.restoreFromSnapshot payload started
  let history := (model.entity.get restored).events
  let taken := model.modifyEntity (fun held => { held with events := [] }) restored
  let replayed ← (model.replayUpcasted taken (postSnapshotTail history snapshot.version)).mapError
    .replay
  .ok (model.modifyEntity (fun held => { held with events := history }) replayed)

/-- A snapshot that cannot be prepared is a cache miss. -/
theorem prepareSnapshot_error {entity : Entity} {snapshot : SnapshotRecord}
    : Result.FailsWith (fun error => ∃ message, error = .cache message)
        (model.prepareSnapshot entity snapshot) := by
  unfold prepareSnapshot validateSnapshotForEntity
  refine Result.FailsWith.bind ?_ fun _ => ?_
  · split
    · exact Result.failsWith_error.mpr ⟨_, rfl⟩
    · split
      · exact Result.failsWith_error.mpr ⟨_, rfl⟩
      · split
        · exact Result.failsWith_error.mpr ⟨_, rfl⟩
        · exact Result.failsWith_ok ()
  · split
    · exact Result.failsWith_error.mpr ⟨_, rfl⟩
    · exact Result.failsWith_mapError _ fun _ => ⟨_, rfl⟩

end Snapshottable

/-- An aggregate that is its entity, with snapshots of the given layout version. -/
def plainAggregate (snapshotVersion : Nat) : Snapshottable Entity Unit where
  aggregateType := "todo"
  newEmpty := Entity.withId "" 0
  entity := .whole Entity
  replayEvent _ entity := .ok entity
  upcasters := []
  snapshotVersion
  createSnapshot _ := ()
  restoreFromSnapshot _ entity := entity
  serialize _ := .ok []
  deserialize _ := .ok ()

end Distributed.Snapshot
