import Distributed.Lock.InMemory
import Distributed.Platform.Time

/-! The lease-table locks of the SQL repositories.
A lock of a key layers an in-process gate over a lease row in the database. A call is cut at
its awaits: waiting for the gate, a lease query, the sleep between two attempts. Other calls
run in between, the backend answers as it likes, and a call can be dropped at any of them.
-/

namespace Distributed.Lock

open Distributed.Foundation Distributed.Platform

inductive LockError where
  | poisoned (message : String)
  | acquireFailed (message : String)
  | releaseFailed (message : String)
  | expired (message : String)
  | busy (message : String)
  | other (message : String)
deriving DecidableEq

/-- What the locks of one manager share for good. `durationDebug` is the `Debug` text of a
duration. -/
structure LeaseManager where
  ownerId : String
  maxWait : Option Duration := none
  durationDebug : Duration → String

/-- `LockShared`: the state of the one lock that the manager caches for a key. -/
structure LockShared where
  gate : LockState := {}
  token : Option String := none

/-- `store_token`. -/
def LockShared.storeToken (next : Option String) (shared : LockShared)
    : Option String × LockShared :=
  (shared.token, { shared with token := next })

/-- An armed `GateGuard` is dropped. -/
def LockShared.dropGuard (shared : LockShared) : LockShared :=
  { shared with gate := shared.gate.release.2 }

abbrev CallId : Type := Nat

abbrev Instant : Type := Nat

/-- How a lease is asked for: `lease_lock` polls until it wins, `lease_try_lock` asks
once. -/
inductive LeaseMode where
  | lock (started : Instant)
  | tryLock

/-- Where a call is. After it returned success it holds the lock until the unlock that
matches it, which is then in progress until the lease row is released. -/
inductive LeasePhase where
  | waiting (started : Instant)
  | acquiring (mode : LeaseMode) (token : String)
  | sleeping (started : Instant) (token : String)
  | holding (token : String)
  | releasing (token : String)

structure LeaseCall where
  key : String
  task : TaskId
  phase : LeasePhase

/-- The cached locks by key, and the calls that are under way or hold a lock. -/
structure LeaseSystem where
  shared : String → LockShared := fun _ => {}
  tokenSeq : UInt64 := 0
  calls : Map CallId LeaseCall := ∅
  begun : CallId := 0

inductive LeaseOp where
  | lock (task : TaskId) (key : String) (now : Instant)
  | pollGate (call : CallId) (expired : Bool)
  | tryLock (task : TaskId) (key : String)
  | dbAcquire (call : CallId) (result : Except LockError Bool) (now : Instant)
  | wake (call : CallId)
  | unlock (call : CallId)
  | dbRelease (call : CallId) (result : Except LockError Unit)
  | cancel (call : CallId)

inductive LeaseAnswer where
  | none
  | begun (call : CallId)
  | acquired (call : CallId)
  | notAcquired (call : CallId)
  | failed (call : CallId) (error : LockError)
  | cancelled (call : CallId)
  | unlocked (call : CallId)
deriving DecidableEq

namespace LeaseSystem

def setShared (key : String) (shared : LockShared) (system : LeaseSystem) : LeaseSystem :=
  { system with shared := Function.update system.shared key shared }

def setPhase (id : CallId) (call : LeaseCall) (phase : LeasePhase) (system : LeaseSystem)
    : LeaseSystem :=
  { system with calls := system.calls.insert id { call with phase } }

def finish (id : CallId) (system : LeaseSystem) : LeaseSystem :=
  { system with calls := system.calls.erase id }

/-- The call's future ends while its guard is armed. -/
def finishGuarded (id : CallId) (call : LeaseCall) (system : LeaseSystem) : LeaseSystem :=
  (system.setShared call.key (system.shared call.key).dropGuard).finish id

def startCall (task : TaskId) (key : String) (phase : LeasePhase) (system : LeaseSystem)
    : LeaseSystem :=
  { system with
    calls := system.calls.insert system.begun { key, task, phase }
    begun := system.begun + 1 }

/-- `mint_token`. -/
def mintToken (manager : LeaseManager) (system : LeaseSystem) : String × LeaseSystem :=
  (s!"{manager.ownerId}:{system.tokenSeq}",
    { system with tokenSeq := system.tokenSeq + 1 })

/-- The gate future of `lease_lock`; the timeout looks at it before its own timer. -/
def pollGate (manager : LeaseManager) (id : CallId) (call : LeaseCall) (expired : Bool)
    (system : LeaseSystem) : LeaseAnswer × LeaseSystem :=
  match call.phase with
  | .waiting started =>
      let shared := system.shared call.key
      match shared.gate.poll call.task with
      | (.ready, gate) =>
          let system := system.setShared call.key { shared with gate }
          let (token, system) := system.mintToken manager
          (.none, system.setPhase id call (.acquiring (.lock started) token))
      | (.pending, gate) =>
          let system := system.setShared call.key { shared with gate }
          match manager.maxWait with
          | some limit =>
              if expired then
                let text := manager.durationDebug limit
                (.failed id (.acquireFailed ("lease acquire timed out after " ++ text
                  ++ " waiting for the in-process gate")), system.finish id)
              else (.none, system)
          | none => (.none, system)
  | _ => (.none, system)

/-- `lease_try_lock` up to its lease query. -/
def tryLock (manager : LeaseManager) (task : TaskId) (key : String) (system : LeaseSystem)
    : LeaseAnswer × LeaseSystem :=
  let shared := system.shared key
  match shared.gate.tryLockCore with
  | (false, _) => (.notAcquired system.begun, { system with begun := system.begun + 1 })
  | (true, gate) =>
      let system := system.setShared key { shared with gate }
      let (token, system) := system.mintToken manager
      (.begun system.begun, system.startCall task key (.acquiring .tryLock token))

/-- `db_acquire` answers. -/
def dbAcquire (manager : LeaseManager) (id : CallId) (call : LeaseCall)
    (result : Except LockError Bool) (now : Instant) (system : LeaseSystem)
    : LeaseAnswer × LeaseSystem :=
  match call.phase with
  | .acquiring mode token =>
      match result with
      | .ok true =>
          let (_, shared) := (system.shared call.key).storeToken (some token)
          (.acquired id, (system.setShared call.key shared).setPhase id call (.holding token))
      | .error error => (.failed id error, system.finishGuarded id call)
      | .ok false =>
          match mode with
          | .tryLock => (.notAcquired id, system.finishGuarded id call)
          | .lock started =>
              match manager.maxWait with
              | some limit =>
                  if limit ≤ now - started then
                    (.failed id (.acquireFailed ("lease acquire timed out after "
                      ++ manager.durationDebug limit)), system.finishGuarded id call)
                  else (.none, system.setPhase id call (.sleeping started token))
              | none => (.none, system.setPhase id call (.sleeping started token))
  | _ => (.none, system)

/-- The sleep of `lease_lock` is over. -/
def wake (id : CallId) (call : LeaseCall) (system : LeaseSystem) : LeaseSystem :=
  match call.phase with
  | .sleeping started token => system.setPhase id call (.acquiring (.lock started) token)
  | _ => system

/-- `lease_unlock` of a lock that the call holds, up to its lease query. -/
def unlock (id : CallId) (call : LeaseCall) (system : LeaseSystem)
    : LeaseAnswer × LeaseSystem :=
  match call.phase with
  | .holding _ =>
      let (previous, shared) := (system.shared call.key).storeToken none
      let system := system.setShared call.key shared
      match previous with
      | some token => (.none, system.setPhase id call (.releasing token))
      | none => (.unlocked id, system.finishGuarded id call)
  | _ => (.none, system)

/-- `db_release` answers; its result is dropped. -/
def dbRelease (id : CallId) (call : LeaseCall) (system : LeaseSystem)
    : LeaseAnswer × LeaseSystem :=
  match call.phase with
  | .releasing _ => (.unlocked id, system.finishGuarded id call)
  | _ => (.none, system)

/-- The call's future is dropped. A call that returned has no future. -/
def cancel (id : CallId) (call : LeaseCall) (system : LeaseSystem)
    : LeaseAnswer × LeaseSystem :=
  match call.phase with
  | .waiting _ => (.cancelled id, system.finish id)
  | .acquiring _ _ => (.cancelled id, system.finishGuarded id call)
  | .sleeping _ _ => (.cancelled id, system.finishGuarded id call)
  | .holding _ => (.none, system)
  | .releasing _ => (.unlocked id, system.finishGuarded id call)

/-- Run a step of a call that is under way. -/
def onCall (id : CallId)
    (work : LeaseCall → LeaseSystem → LeaseAnswer × LeaseSystem) (system : LeaseSystem)
    : LeaseAnswer × LeaseSystem :=
  match system.calls.lookup id with
  | some call => work call system
  | none => (.none, system)

def step (manager : LeaseManager) : LeaseOp → LeaseSystem → LeaseAnswer × LeaseSystem
  | .lock task key now => fun system =>
      (.begun system.begun, system.startCall task key (.waiting now))
  | .pollGate id expired => onCall id fun call => pollGate manager id call expired
  | .tryLock task key => tryLock manager task key
  | .dbAcquire id result now => onCall id fun call => dbAcquire manager id call result now
  | .wake id => onCall id fun call system => (.none, wake id call system)
  | .unlock id => onCall id fun call => unlock id call
  | .dbRelease id _ => onCall id fun call => dbRelease id call
  | .cancel id => onCall id fun call => cancel id call

end LeaseSystem

end Distributed.Lock
