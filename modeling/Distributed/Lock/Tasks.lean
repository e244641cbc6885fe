import Distributed.Lock.MutualExclusion

/-! What one task can rely on while other tasks use the lock manager.
-/

namespace Distributed.Lock

open Distributed.Foundation

namespace LockSystem

/-- The operation is not one of the task. -/
def ByOther (system : LockSystem) (task : TaskId) : LockOp → Prop
  | .getLock other _ => other ≠ task
  | .poll id | .dropFuture id | .tryLock id | .release id | .wake id | .evict id
  | .dropHandle id => ∀ handle, system.handles.lookup id = some handle → handle.task ≠ task

/-- The task holds a lock of the key. -/
def Holds (system : LockSystem) (task : TaskId) (key : String) : Prop :=
  ∃ lock, (task, lock) ∈ system.holders ∧ (system.locks lock).key = key

/-- The task has a handle with which it is taking a lock of the key. -/
def Requests (system : LockSystem) (task : TaskId) (key : String) (id : HandleId) : Prop :=
  ∃ handle, system.handles.lookup id = some handle ∧ handle.task = task
    ∧ (handle.phase = .ready ∨ handle.phase = .waiting)
    ∧ (system.locks handle.lock).key = key

variable {system : LockSystem} {task : TaskId} {key : String} {id : HandleId}

theorem entry_frame (system : LockSystem) (key : String)
    : (system.entry key).2.handles = system.handles
      ∧ (system.entry key).2.holders = system.holders := by
  unfold entry
  split
  · exact ⟨rfl, rfl⟩
  · exact ⟨rfl, rfl⟩

/-- The entry of a key is a lock of that key. -/
theorem entry_lock_key (h : Sound system) (key : String)
    : ((system.entry key).2.locks (system.entry key).1).key = key := by
  cases hentry : system.entries.lookup key with
  | some lock =>
      simp only [entry, hentry]
      exact (h.registered key lock hentry).2
  | none =>
      simp only [entry, hentry]
      rw [Function.update_self]

theorem entry_key {lock : LockId} (hlock : lock < system.allocated)
    : ((system.entry key).2.locks lock).key = (system.locks lock).key := by
  unfold entry
  split
  · rfl
  · exact congrArg InMemoryLock.key (Function.update_of_ne (Nat.ne_of_lt hlock) _ _)

theorem evictIfIdle_key {lock other : LockId}
    : ((system.evictIfIdle lock).locks other).key = (system.locks other).key := by
  rcases system.evictIfIdle_cases lock with hsame | ⟨-, -, -, hevict⟩
  · rw [hsame]
  · rw [hevict]

/-- A lock keeps the key it was allocated for. -/
theorem step_key (op : LockOp) {lock : LockId} (hlock : lock < system.allocated)
    : ((step op system).2.locks lock).key = (system.locks lock).key := by
  cases op with
  | getLock _ key => exact entry_key hlock
  | poll id =>
      simp only [step]
      split
      · unfold pollHandle
        split
        · exact setState_key
        · exact setState_key
      · rfl
  | dropFuture id =>
      simp only [step]
      split
      · rfl
      · rfl
  | tryLock id =>
      simp only [step]
      split
      · unfold tryLockHandle
        split
        · exact setState_key
        · rfl
      · rfl
  | release id =>
      simp only [step]
      split
      · exact setState_key
      · rfl
  | wake id =>
      simp only [step]
      split
      · unfold wakeNext
        split
        · rfl
        · rfl
      · rfl
  | evict id =>
      simp only [step]
      split
      · exact evictIfIdle_key
      · rfl
  | dropHandle id => rfl

theorem Sound.lt_allocated {lock : LockId} (h : Sound system) (hmapped : system.Mapped lock)
    : lock < system.allocated :=
  (h.registered _ lock hmapped).1

theorem Sound.step_key_of_mapped {lock : LockId} (h : Sound system) (op : LockOp)
    (hmapped : system.Mapped lock)
    : ((LockSystem.step op system).2.locks lock).key = (system.locks lock).key :=
  step_key op (h.lt_allocated hmapped)

/-- The handles and the locks of the task are as before. -/
structure KeptFor (task : TaskId) (before after : LockSystem) : Prop where
  handles : ∀ id handle, before.handles.lookup id = some handle → handle.task = task →
    after.handles.lookup id = some handle
  holders : ∀ lock, (task, lock) ∈ after.holders ↔ (task, lock) ∈ before.holders

theorem KeptFor.of_frame {before after : LockSystem} (hhandles : after.handles = before.handles)
    (hholders : after.holders = before.holders)
    : KeptFor task before after := by
  constructor
  · intro id handle hhandle _
    rw [hhandles]
    exact hhandle
  · intro lock
    rw [hholders]

/-- Another task's handle changed, and the holders at most for that task. -/
theorem KeptFor.of_setPhase {after : LockSystem} {handle : Handle} {phase : HandlePhase}
    (hhandle : system.handles.lookup id = some handle) (hother : handle.task ≠ task)
    (hhandles : after.handles = (system.setPhase id handle phase).handles)
    (hholders : ∀ lock, (task, lock) ∈ after.holders ↔ (task, lock) ∈ system.holders)
    : KeptFor task system after := by
  refine ⟨?_, hholders⟩
  intro other own hown htask
  rw [hhandles, setPhase_lookup, if_neg]
  · exact hown
  · rintro rfl
    cases hhandle.symm.trans hown
    exact hother htask

theorem mem_holders_cons {other : TaskId} (hother : other ≠ task) (lock held : LockId)
    : (task, lock) ∈ (other, held) :: system.holders ↔ (task, lock) ∈ system.holders := by
  rw [List.mem_cons, Prod.mk.injEq]
  constructor
  · rintro (⟨htask, -⟩ | hmem)
    · exact absurd htask.symm hother
    · exact hmem
  · exact .inr

theorem KeptFor.step (h : Sound system) (op : LockOp) (hallowed : system.Allowed op)
    (hother : system.ByOther task op)
    : KeptFor task system (LockSystem.step op system).2 := by
  cases op with
  | getLock other key =>
      have hentry := (h.entry key).1
      have hframe := entry_frame system key
      refine ⟨?_, fun lock => iff_of_eq (congrArg ((task, lock) ∈ ·) hframe.2)⟩
      intro id handle hhandle _
      have hlookup : (system.entry key).2.handles.lookup id = some handle := by
        rw [hframe.1]
        exact hhandle
      have hnumber := hentry.numbered id handle hlookup
      exact (Map.lookup_insert_eq _ _ _ _).trans
        ((if_neg (Nat.ne_of_lt hnumber)).trans hlookup)
  | poll id =>
      obtain ⟨handle, hhandle, -⟩ := hallowed
      have htask := hother handle hhandle
      simp only [LockSystem.step, hhandle]
      unfold pollHandle
      split
      · exact .of_setPhase hhandle htask rfl fun lock => mem_holders_cons htask lock _
      · exact .of_setPhase hhandle htask rfl fun _ => Iff.rfl
  | dropFuture id =>
      obtain ⟨handle, hhandle, -⟩ := hallowed
      have htask := hother handle hhandle
      simp only [LockSystem.step, hhandle]
      exact .of_setPhase hhandle htask rfl fun _ => Iff.rfl
  | tryLock id =>
      obtain ⟨handle, hhandle, -⟩ := hallowed
      have htask := hother handle hhandle
      simp only [LockSystem.step, hhandle]
      unfold tryLockHandle
      split
      · refine ⟨fun _ _ hown _ => hown, fun lock => mem_holders_cons htask lock _⟩
      · exact .of_frame rfl rfl
  | release id =>
      obtain ⟨handle, hhandle, -⟩ := hallowed
      have htask := hother handle hhandle
      simp only [LockSystem.step, hhandle]
      refine .of_setPhase hhandle htask rfl fun lock => ?_
      refine List.mem_erase_of_ne ?_
      intro heq
      exact htask (congrArg Prod.fst heq).symm
  | wake id =>
      obtain ⟨handle, woken, wakers, hhandle, hphase⟩ := hallowed
      have htask := hother handle hhandle
      simp only [LockSystem.step, hhandle, wakeNext, hphase]
      exact .of_setPhase hhandle htask rfl fun _ => Iff.rfl
  | evict id =>
      obtain ⟨handle, hhandle, -⟩ := hallowed
      have htask := hother handle hhandle
      simp only [LockSystem.step, hhandle]
      have hframe : (system.evictIfIdle handle.lock).handles = system.handles
          ∧ (system.evictIfIdle handle.lock).holders = system.holders := by
        rcases system.evictIfIdle_cases handle.lock with hsame | ⟨-, -, -, hevict⟩
        · rw [hsame]
          exact ⟨rfl, rfl⟩
        · rw [hevict]
          exact ⟨rfl, rfl⟩
      have hhandles : (system.evictHandle id handle).handles
          = (system.setPhase id handle .spent).handles := by
        simp only [evictHandle, setPhase, hframe.1]
      exact .of_setPhase hhandle htask hhandles
        fun lock => iff_of_eq (congrArg ((task, lock) ∈ ·) hframe.2)
  | dropHandle id =>
      obtain ⟨handle, hhandle, -⟩ := hallowed
      have htask := hother handle hhandle
      refine ⟨?_, fun _ => Iff.rfl⟩
      intro other own hown hself
      refine (Map.lookup_erase_eq _ _ _).trans ?_
      rw [if_neg]
      · exact hown
      · rintro rfl
        cases hhandle.symm.trans hown
        exact htask hself

/-- Other tasks leave to the task what it holds. -/
theorem Sound.holds_byOther (h : Sound system) (op : LockOp) (hallowed : system.Allowed op)
    (hother : system.ByOther task op)
    : (LockSystem.step op system).2.Holds task key ↔ system.Holds task key := by
  have hkept := KeptFor.step h op hallowed hother
  constructor
  · rintro ⟨lock, hholder, hkey⟩
    have hbefore := (hkept.holders lock).mp hholder
    exact ⟨lock, hbefore, (h.step_key_of_mapped op (h.held _ hbefore)).symm.trans hkey⟩
  · rintro ⟨lock, hholder, hkey⟩
    exact ⟨lock, (hkept.holders lock).mpr hholder,
      (h.step_key_of_mapped op (h.held _ hholder)).trans hkey⟩

theorem Sound.requests_byOther (h : Sound system) (op : LockOp)
    (hallowed : system.Allowed op) (hother : system.ByOther task op)
    (hrequests : system.Requests task key id)
    : (LockSystem.step op system).2.Requests task key id := by
  have hkept := KeptFor.step h op hallowed hother
  obtain ⟨handle, hhandle, htask, hphase, hkey⟩ := hrequests
  have hmapped := h.current id handle hhandle (HandlePhase.usable hphase).1
  exact ⟨handle, hkept.handles id handle hhandle htask, htask, hphase,
    (h.step_key_of_mapped op hmapped).trans hkey⟩

/-- `get_lock` gives the task a handle for the key and takes nothing. -/
theorem getLock_requests (h : Sound system) (task : TaskId) (key : String)
    : Sound (system.getLock task key).2
      ∧ (system.getLock task key).2.Requests task key (system.getLock task key).1
      ∧ ∀ other, (system.getLock task key).2.Holds other key ↔ system.Holds other key := by
  refine ⟨h.getLock task key, ?_, ?_⟩
  · exact ⟨{ task, lock := (system.entry key).1 }, AList.lookup_insert _, rfl, .inl rfl,
      entry_lock_key h key⟩
  · have hholders : (system.getLock task key).2.holders = system.holders :=
      (entry_frame system key).2
    intro other
    constructor
    · rintro ⟨lock, hholder, hkey⟩
      rw [hholders] at hholder
      exact ⟨lock, hholder,
        (h.step_key_of_mapped (.getLock task key) (h.held _ hholder)).symm.trans hkey⟩
    · rintro ⟨lock, hholder, hkey⟩
      refine ⟨lock, hholders ▸ hholder, ?_⟩
      exact (h.step_key_of_mapped (.getLock task key) (h.held _ hholder)).trans hkey

/-- A poll takes the lock if nobody holds one of the key, and otherwise keeps asking. -/
theorem step_poll_cases (h : Sound system) (hrequest : system.Requests task key id)
    : ((step (.poll id) system).1 = .polled .ready
        ∧ (∀ other, ¬system.Holds other key)
        ∧ (step (.poll id) system).2.Holds task key
        ∧ (step (.poll id) system).2.Allowed (.dropHandle id))
      ∨ ((step (.poll id) system).1 = .polled .pending
        ∧ (∃ other, system.Holds other key)
        ∧ (step (.poll id) system).2.holders = system.holders
        ∧ (step (.poll id) system).2.Requests task key id) := by
  obtain ⟨handle, hhandle, htask, hphase, hkey⟩ := hrequest
  have hmapped := h.current id handle hhandle (HandlePhase.usable hphase).1
  cases hlocked : (system.locks handle.lock).state.locked with
  | false =>
      left
      simp only [step, hhandle, pollHandle, poll_of_free _ hlocked]
      refine ⟨trivial, ?_, ?_, ?_⟩
      · rintro other ⟨lock, hholder, hlock⟩
        have hheld := h.held _ hholder
        rw [Mapped, hlock, ← hkey, hmapped] at hheld
        cases hheld
        have htaken := (h.locked handle.lock).mpr ⟨other, hholder⟩
        rw [hlocked] at htaken
        cases htaken
      · refine ⟨handle.lock, ?_, ?_⟩
        · rw [htask]
          exact List.mem_cons_self ..
        · exact setState_key.trans hkey
      · exact ⟨{ handle with phase := .ready }, AList.lookup_insert _, .inl rfl⟩
  | true =>
      right
      obtain ⟨next, hpoll, -⟩ := poll_of_locked handle.task hlocked
      obtain ⟨other, hholder⟩ := (h.locked handle.lock).mp hlocked
      simp only [step, hhandle, pollHandle, hpoll]
      refine ⟨trivial, ⟨other, handle.lock, hholder, hkey⟩, rfl, ?_⟩
      exact ⟨{ handle with phase := .waiting }, AList.lookup_insert _, htask, .inr rfl,
        setState_key.trans hkey⟩

end LockSystem

end Distributed.Lock
