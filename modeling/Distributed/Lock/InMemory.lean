import Distributed.Foundation.Map
import Distributed.Foundation.Runs
import Mathlib.Logic.Function.Basic

/-! The in-memory locks of the queued repository.
A lock is taken by polling a future; unlocking releases the state, wakes the waiters and
then drops the lock from its manager's map when nothing else can reach it. Each of these is
a step of its own, so that tasks interleave between them as threads do.
-/

namespace Distributed.Lock

open Distributed.Foundation

/-- A task, which is also what its waker wakes. -/
abbrev TaskId : Type := Nat

/-- One allocated lock. -/
abbrev LockId : Type := Nat

/-- One `Arc` of a lock that `get_lock` gave out. -/
abbrev HandleId : Type := Nat

structure LockState where
  locked : Bool := false
  waiters : List TaskId := []

inductive Poll where
  | ready
  | pending
deriving DecidableEq

namespace LockState

def tryLockCore (state : LockState) : Bool × LockState :=
  if state.locked then (false, state) else (true, { state with locked := true })

/-- `InMemoryLockFuture::poll`. A waker that would wake the same task is not added twice. -/
def poll (task : TaskId) (state : LockState) : Poll × LockState :=
  if state.locked = false then (.ready, { state with locked := true })
  else if task ∈ state.waiters then (.pending, state)
  else (.pending, { state with waiters := state.waiters ++ [task] })

/-- The guarded part of `unlock_core`, with the wakers it takes out. -/
def release (state : LockState) : List TaskId × LockState :=
  if state.locked then (state.waiters, { locked := false, waiters := [] }) else ([], state)

def isIdle (state : LockState) : Bool := !state.locked && state.waiters.isEmpty

end LockState

structure InMemoryLock where
  /-- The key of the lock's entry in the manager's map. -/
  key : String
  state : LockState := {}

/-- Where the task is with its handle. -/
inductive HandlePhase where
  | ready
  | waiting
  | unlocking (wakers : List TaskId)
  | spent
deriving DecidableEq

structure Handle where
  task : TaskId
  lock : LockId
  phase : HandlePhase := .ready

/-- The manager's map, the locks it allocated and the handles of the tasks. `holders` and
`asleep` record what happened: the acquisitions that were not released, and the waiting
handles whose task was not woken since it was last polled. -/
structure LockSystem where
  locks : LockId → InMemoryLock := fun _ => { key := "" }
  allocated : Nat := 0
  entries : Map String LockId := ∅
  handles : Map HandleId Handle := ∅
  cloned : Nat := 0
  holders : List (TaskId × LockId) := []
  asleep : List HandleId := []

namespace LockSystem

def setState (lock : LockId) (state : LockState) (system : LockSystem) : LockSystem :=
  { system with
    locks := Function.update system.locks lock { system.locks lock with state } }

def setPhase (id : HandleId) (handle : Handle) (phase : HandlePhase) (system : LockSystem)
    : LockSystem :=
  { system with handles := system.handles.insert id { handle with phase } }

/-- `Arc::strong_count`: the entries and the handles that share the lock. -/
def strongCount (system : LockSystem) (lock : LockId) : Nat :=
  (system.entries.values.filter fun entry => entry = lock).length
    + (system.handles.values.filter fun handle => handle.lock = lock).length

/-- `or_insert_with` on the manager's map. -/
def entry (key : String) (system : LockSystem) : LockId × LockSystem :=
  match system.entries.lookup key with
  | some lock => (lock, system)
  | none => (system.allocated, { system with
      locks := Function.update system.locks system.allocated { key }
      allocated := system.allocated + 1
      entries := system.entries.insert key system.allocated })

def getLock (task : TaskId) (key : String) (system : LockSystem) : HandleId × LockSystem :=
  let (lock, system) := system.entry key
  (system.cloned, { system with
    handles := system.handles.insert system.cloned { task, lock }
    cloned := system.cloned + 1 })

def evictIfIdle (lock : LockId) (system : LockSystem) : LockSystem :=
  match system.entries.lookup (system.locks lock).key with
  | none => system
  | some entry =>
      if entry ≠ lock ∨ system.strongCount entry ≠ 2 then system
      else if (system.locks lock).state.isIdle then
        { system with entries := system.entries.erase (system.locks lock).key }
      else system

end LockSystem

inductive LockOp where
  | getLock (task : TaskId) (key : String)
  | poll (handle : HandleId)
  | dropFuture (handle : HandleId)
  | tryLock (handle : HandleId)
  | release (handle : HandleId)
  | wake (handle : HandleId)
  | evict (handle : HandleId)
  | dropHandle (handle : HandleId)

inductive LockAnswer where
  | handle (id : HandleId)
  | polled (result : Poll)
  | tried (acquired : Bool)
  | done

namespace LockSystem

def pollHandle (id : HandleId) (handle : Handle) (system : LockSystem)
    : LockAnswer × LockSystem :=
  match (system.locks handle.lock).state.poll handle.task with
  | (.ready, state) => (.polled .ready, {
      (system.setState handle.lock state).setPhase id handle .ready with
      holders := (handle.task, handle.lock) :: system.holders
      asleep := system.asleep.filter (· ≠ id) })
  | (.pending, state) => (.polled .pending, {
      (system.setState handle.lock state).setPhase id handle .waiting with
      asleep := id :: system.asleep.filter (· ≠ id) })

def dropFuture (id : HandleId) (handle : Handle) (system : LockSystem) : LockSystem :=
  { system.setPhase id handle .ready with asleep := system.asleep.filter (· ≠ id) }

def tryLockHandle (handle : Handle) (system : LockSystem) : LockAnswer × LockSystem :=
  match (system.locks handle.lock).state.tryLockCore with
  | (true, state) => (.tried true, { system.setState handle.lock state with
      holders := (handle.task, handle.lock) :: system.holders })
  | (false, _) => (.tried false, system)

def releaseHandle (id : HandleId) (handle : Handle) (system : LockSystem) : LockSystem :=
  let (wakers, state) := (system.locks handle.lock).state.release
  { (system.setState handle.lock state).setPhase id handle (.unlocking wakers) with
    holders := system.holders.erase (handle.task, handle.lock) }

/-- Wake the first of the wakers that the unlock took out. -/
def wakeNext (id : HandleId) (handle : Handle) (system : LockSystem) : LockSystem :=
  match handle.phase with
  | .unlocking (task :: wakers) => {
      system.setPhase id handle (.unlocking wakers) with
      asleep := system.asleep.filter fun other =>
        (system.handles.lookup other).map Handle.task ≠ some task }
  | _ => system

def evictHandle (id : HandleId) (handle : Handle) (system : LockSystem) : LockSystem :=
  (system.evictIfIdle handle.lock).setPhase id handle .spent

def step : LockOp → LockSystem → LockAnswer × LockSystem
  | .getLock task key, system =>
      let (id, system) := system.getLock task key
      (.handle id, system)
  | .poll id, system =>
      match system.handles.lookup id with
      | some handle => system.pollHandle id handle
      | none => (.done, system)
  | .dropFuture id, system =>
      match system.handles.lookup id with
      | some handle => (.done, system.dropFuture id handle)
      | none => (.done, system)
  | .tryLock id, system =>
      match system.handles.lookup id with
      | some handle => system.tryLockHandle handle
      | none => (.done, system)
  | .release id, system =>
      match system.handles.lookup id with
      | some handle => (.done, system.releaseHandle id handle)
      | none => (.done, system)
  | .wake id, system =>
      match system.handles.lookup id with
      | some handle => (.done, system.wakeNext id handle)
      | none => (.done, system)
  | .evict id, system =>
      match system.handles.lookup id with
      | some handle => (.done, system.evictHandle id handle)
      | none => (.done, system)
  | .dropHandle id, system => (.done, { system with handles := system.handles.erase id })

/-- How the tasks use their handles: a handle is polled or tried until it was used to
unlock, only the holder unlocks, and an unlock runs to its end before its handle is
dropped. -/
def Allowed (system : LockSystem) : LockOp → Prop
  | .getLock _ _ => True
  | .poll id | .tryLock id => ∃ handle, system.handles.lookup id = some handle
      ∧ (handle.phase = .ready ∨ handle.phase = .waiting)
  | .dropFuture id => ∃ handle, system.handles.lookup id = some handle
      ∧ handle.phase = .waiting
  | .release id => ∃ handle, system.handles.lookup id = some handle
      ∧ handle.phase = .ready ∧ (handle.task, handle.lock) ∈ system.holders
  | .wake id => ∃ handle task wakers, system.handles.lookup id = some handle
      ∧ handle.phase = .unlocking (task :: wakers)
  | .evict id => ∃ handle, system.handles.lookup id = some handle
      ∧ handle.phase = .unlocking []
  | .dropHandle id => ∃ handle, system.handles.lookup id = some handle
      ∧ (handle.phase = .ready ∨ handle.phase = .spent)

/-- The states that tasks reach from a new manager by using their handles as above. -/
def Reached (system : LockSystem) : Prop :=
  Reachable step (fun event => event.before.Allowed event.op) {} system

end LockSystem

end Distributed.Lock
