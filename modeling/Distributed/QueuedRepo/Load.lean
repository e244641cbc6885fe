import Distributed.InMemoryRepo.Repository
import Distributed.InMemoryRepo.System
import Distributed.Lock.Tasks

/-! Loads of snapshotting aggregates through the queued repository.
The queued repository takes the lock of a stream before it reads the stream and keeps it.
A load is a future that may have to wait at each of its reads, while other tasks use the
lock manager and the repository.
-/

namespace Distributed.QueuedRepo

open Distributed.Aggregates Distributed.Entities Distributed.Foundation

open Distributed.InMemoryRepo Distributed.Lock Distributed.Platform Distributed.Repository

open Distributed.Snapshot

/-- Where `load_from_store` is: at its start, at one of its three reads, or done. -/
inductive LoadPhase (A : Type) where
  | created
  | lockingStream (handle : HandleId)
  | lockingTail (snapshot : SnapshotRecord) (handle : HandleId)
  | lockingFallback (handle : HandleId)
  | returned (result : Except RepositoryError (Option A))

/-- The load of one task among the tasks that share the locks and the repository.
`requested` counts how often the load asked for the lock of its stream. -/
structure LoadSystem (A : Type) where
  locks : LockSystem
  repository : InMemoryRepository
  phase : LoadPhase A := .created
  requested : Nat := 0

/-- The clock readings of the entities that one poll creates. -/
structure LoadClock where
  tailRead : SystemTime
  streamRead : SystemTime

namespace LoadSystem

variable {A State : Type} (model : Snapshottable A State) (task : TaskId)
  (identity : StreamIdentity)

def ensureLock (system : LoadSystem A) : HandleId × LoadSystem A :=
  let (handle, locks) := system.locks.getLock task identity.storageKey
  (handle, { system with locks, requested := system.requested + 1 })

/-- `lock.lock().await`. The lock is kept; its handle goes out of scope with the read. -/
def awaitLock (handle : HandleId) (system : LoadSystem A) : Poll × LoadSystem A :=
  match LockSystem.step (.poll handle) system.locks with
  | (.polled .ready, locks) =>
      (.ready, { system with locks := (LockSystem.step (.dropHandle handle) locks).2 })
  | (_, locks) => (.pending, { system with locks })

/-- `map(hydrate).transpose()` on a stream that was read. -/
def hydrateStream : Option Entity → Except RepositoryError (Option A)
  | none => .ok none
  | some entity => (model.hydrate entity).map some

/-- The full read, whose await point is `waiting`. -/
def readStream (waiting : HandleId → LoadPhase A) (handle : HandleId) (clock : LoadClock)
    (system : LoadSystem A) : LoadSystem A :=
  match system.awaitLock handle with
  | (.pending, system) => { system with phase := waiting handle }
  | (.ready, system) => {
      system with
      phase := .returned
        (hydrateStream model (getStream identity clock.streamRead system.repository)) }

/-- The read after the snapshot, with the full read it falls back to. -/
def readTail (snapshot : SnapshotRecord) (handle : HandleId) (clock : LoadClock)
    (system : LoadSystem A) : LoadSystem A :=
  match system.awaitLock handle with
  | (.pending, system) => { system with phase := .lockingTail snapshot handle }
  | (.ready, system) =>
      match getStreamTail identity snapshot.version clock.tailRead system.repository with
      | none => { system with phase := .returned (.ok none) }
      | some entity =>
          match model.prepareSnapshot entity snapshot with
          | .ok payload => {
              system with
              phase := .returned (((model.hydratePreparedSnapshot entity snapshot payload).mapError
                SnapshotHydrationError.toRepositoryError).map some) }
          | .error (.cache _) =>
              let (handle, system) := system.ensureLock task identity
              system.readStream model identity .lockingFallback handle clock
          | .error (.replay message) =>
              { system with phase := .returned (.error (.replay message)) }

/-- `load_from_store`, up to the next point where it has to wait. -/
def pollLoad (clock : LoadClock) (system : LoadSystem A) : LoadSystem A :=
  match system.phase with
  | .created =>
      match getSnapshot identity system.repository with
      | none =>
          let (handle, system) := system.ensureLock task identity
          system.readStream model identity .lockingStream handle clock
      | some snapshot =>
          let (handle, system) := system.ensureLock task identity
          system.readTail model task identity snapshot handle clock
  | .lockingStream handle => system.readStream model identity .lockingStream handle clock
  | .lockingTail snapshot handle => system.readTail model task identity snapshot handle clock
  | .lockingFallback handle => system.readStream model identity .lockingFallback handle clock
  | .returned _ => system

end LoadSystem

inductive LoadOp where
  | poll (clock : LoadClock)
  | lock (op : LockOp)
  | repository (op : RepositoryOp)

namespace LoadSystem

variable {A State : Type} (model : Snapshottable A State) (task : TaskId)
  (identity : StreamIdentity)

def step (crates : Crates) : LoadOp → LoadSystem A → Unit × LoadSystem A
  | .poll clock, system => ((), system.pollLoad model task identity clock)
  | .lock op, system => ((), { system with locks := (LockSystem.step op system.locks).2 })
  | .repository op, system =>
      ((), { system with repository := (InMemoryRepo.step crates op system.repository).2 })

/-- The load is polled until it returns, and the other tasks use handles of their own. -/
def Allowed (event : Event (LoadSystem A) LoadOp Unit) : Prop :=
  match event.op with
  | .poll _ => ∀ result, event.before.phase ≠ .returned result
  | .lock op => event.before.locks.Allowed op ∧ event.before.locks.ByOther task op
  | .repository _ => True

/-- A load that was not polled yet, of a stream whose lock its task does not hold. -/
structure Starts (system : LoadSystem A) : Prop where
  locks : system.locks.Reached
  phase : system.phase = .created
  requested : system.requested = 0
  lock_free : ¬system.locks.Holds task identity.storageKey

/-- The snapshot record that the load reads the stream after. -/
def snapshotInHand (system : LoadSystem A) : Option SnapshotRecord :=
  match system.phase with
  | .created => getSnapshot identity system.repository
  | .lockingTail snapshot _ => some snapshot
  | _ => none

/-- No task holds the lock of the stream. -/
def LockFree (system : LoadSystem A) : Prop :=
  ∀ other, ¬system.locks.Holds other identity.storageKey

/-- The record can be prepared for the stream as it is, if there is a stream. -/
def TailUsable (clock : LoadClock) (snapshot : SnapshotRecord)
    (repository : InMemoryRepository) : Prop :=
  ∀ entity, getStreamTail identity snapshot.version clock.tailRead repository = some entity →
    ∃ payload, model.prepareSnapshot entity snapshot = .ok payload

def SnapshotUsable (clock : LoadClock) (system : LoadSystem A) : Prop :=
  ∀ snapshot, system.snapshotInHand identity = some snapshot →
    TailUsable model identity clock snapshot system.repository

/-- No poll that gets the lock finds a snapshot record it cannot use. -/
def UsesSnapshots (event : Event (LoadSystem A) LoadOp Unit) : Prop :=
  ∀ clock, event.op = .poll clock → event.before.LockFree identity →
    event.before.SnapshotUsable model identity clock

end LoadSystem

end Distributed.QueuedRepo
