import Distributed.Lock.InMemory

/-! The in-memory lock manager gives mutual exclusion and loses no wake-up.
-/

namespace Distributed.Lock

open Distributed.Foundation

namespace LockSystem

--------------------
-- Invariants
--------------------

/-- The manager's map leads to the lock. -/
def Mapped (system : LockSystem) (lock : LockId) : Prop :=
  system.entries.lookup (system.locks lock).key = some lock

/-- Whatever can still be locked, or is held, is in the manager's map. -/
structure Consistent (system : LockSystem) : Prop where
  registered : ∀ key lock, system.entries.lookup key = some lock →
    lock < system.allocated ∧ (system.locks lock).key = key
  numbered : ∀ id handle, system.handles.lookup id = some handle → id < system.cloned
  current : ∀ id handle, system.handles.lookup id = some handle → handle.phase ≠ .spent →
    system.Mapped handle.lock
  held : ∀ holder ∈ system.holders, system.Mapped holder.2

/-- A lock is locked by exactly one holder or by none. -/
structure Owned (system : LockSystem) : Prop where
  exclusive : (system.holders.map Prod.snd).Nodup
  locked : ∀ lock, (system.locks lock).state.locked = true ↔
    ∃ task, (task, lock) ∈ system.holders

/-- The task is among those the next unlock wakes, or that an unlock under way still has
to wake. -/
def WillWake (system : LockSystem) (handle : Handle) : Prop :=
  handle.task ∈ (system.locks handle.lock).state.waiters
    ∨ ∃ id unlocker wakers, system.handles.lookup id = some unlocker
      ∧ unlocker.lock = handle.lock ∧ unlocker.phase = .unlocking wakers
      ∧ handle.task ∈ wakers

structure Wakeful (system : LockSystem) : Prop where
  free : ∀ lock, (system.locks lock).state.locked = false →
    (system.locks lock).state.waiters = []
  asleep : ∀ id ∈ system.asleep, ∃ handle, system.handles.lookup id = some handle
    ∧ handle.phase = .waiting ∧ system.WillWake handle

--------------------
-- Updates
--------------------

section Updates

variable {system : LockSystem} {lock other : LockId} {state : LockState} {id : HandleId}
  {handle : Handle} {phase : HandlePhase}

@[simp] theorem setState_key
    : ((system.setState lock state).locks other).key = (system.locks other).key := by
  simp only [setState, Function.update_apply]
  split
  · rename_i h
    rw [h]
  · rfl

theorem setState_state
    : ((system.setState lock state).locks other).state
      = if other = lock then state else (system.locks other).state := by
  simp only [setState, Function.update_apply]
  split
  · rfl
  · rfl

theorem setState_locked
    : ((system.setState lock state).locks other).state.locked
      = if other = lock then state.locked else (system.locks other).state.locked := by
  rw [setState_state]
  split
  · rfl
  · rfl

theorem setState_waiters
    (h : (system.locks lock).state.waiters ⊆ state.waiters)
    : (system.locks other).state.waiters
      ⊆ ((system.setState lock state).locks other).state.waiters := by
  rw [setState_state]
  split
  · rename_i hother
    exact hother ▸ h
  · exact List.Subset.refl _

theorem setState_free
    (hfree : ∀ lock, (system.locks lock).state.locked = false →
      (system.locks lock).state.waiters = [])
    (hstate : state.locked = false → state.waiters = [])
    (h : ((system.setState lock state).locks other).state.locked = false)
    : ((system.setState lock state).locks other).state.waiters = [] := by
  rw [setState_state] at h ⊢
  split at h
  · rename_i hother
    rw [if_pos hother]
    exact hstate h
  · rename_i hother
    rw [if_neg hother]
    exact hfree other h

theorem setPhase_lookup (otherId : HandleId)
    : (system.setPhase id handle phase).handles.lookup otherId
      = if otherId = id then some { handle with phase } else system.handles.lookup otherId :=
  Map.lookup_insert_eq _ _ _ _

theorem poll_of_free (task : TaskId) (h : state.locked = false)
    : state.poll task = (.ready, { state with locked := true }) := by
  simp [LockState.poll, h]

theorem poll_of_locked (task : TaskId) (h : state.locked = true)
    : ∃ next, state.poll task = (.pending, next) ∧ next.locked = true
      ∧ task ∈ next.waiters ∧ state.waiters ⊆ next.waiters := by
  unfold LockState.poll
  rw [if_neg (by simp [h])]
  split
  · rename_i hmem
    exact ⟨state, rfl, h, hmem, List.Subset.refl _⟩
  · exact ⟨_, rfl, h, by simp, List.subset_append_left _ _⟩

end Updates

section Frames

variable {before after : LockSystem}

/-- Only the manager's map and new handles decide what is mapped. -/
theorem Consistent.of_frame (h : Consistent before) (hentries : after.entries = before.entries)
    (hallocated : after.allocated = before.allocated) (hcloned : after.cloned = before.cloned)
    (hkeys : ∀ lock, (after.locks lock).key = (before.locks lock).key)
    (hhandles : ∀ id handle, after.handles.lookup id = some handle →
      ∃ old, before.handles.lookup id = some old ∧ old.lock = handle.lock
        ∧ (handle.phase ≠ .spent → old.phase ≠ .spent))
    (hholders : ∀ holder ∈ after.holders, before.Mapped holder.2)
    : Consistent after := by
  have hmapped : ∀ lock, before.Mapped lock → after.Mapped lock := by
    intro lock hlock
    rw [Mapped, hentries, hkeys]
    exact hlock
  constructor
  · intro key lock hlock
    rw [hentries] at hlock
    rw [hallocated, hkeys]
    exact h.registered key lock hlock
  · intro id handle hhandle
    obtain ⟨old, hold, -⟩ := hhandles id handle hhandle
    rw [hcloned]
    exact h.numbered id old hold
  · intro id handle hhandle hphase
    obtain ⟨old, hold, hlock, hspent⟩ := hhandles id handle hhandle
    rw [← hlock]
    exact hmapped _ (h.current id old hold (hspent hphase))
  · exact fun holder hholder => hmapped _ (hholders holder hholder)

/-- A change of one handle's phase, unless it brings back a spent handle. -/
theorem setPhase_handles {system : LockSystem} {id : HandleId} {handle : Handle}
    {phase : HandlePhase} (hhandle : system.handles.lookup id = some handle)
    (hspent : phase ≠ .spent → handle.phase ≠ .spent)
    : ∀ otherId other, (system.setPhase id handle phase).handles.lookup otherId = some other →
      ∃ old, system.handles.lookup otherId = some old ∧ old.lock = other.lock
        ∧ (other.phase ≠ .spent → old.phase ≠ .spent) := by
  intro otherId other hother
  rw [setPhase_lookup] at hother
  split at hother
  · rename_i hid
    cases hother
    exact ⟨handle, hid ▸ hhandle, rfl, hspent⟩
  · exact ⟨other, hother, rfl, fun hother => hother⟩

theorem Owned.of_frame (h : Owned before) (hholders : after.holders = before.holders)
    (hlocked : ∀ lock, (after.locks lock).state.locked = (before.locks lock).state.locked)
    : Owned after := by
  refine ⟨hholders ▸ h.exclusive, fun lock => ?_⟩
  rw [hlocked, hholders]
  exact h.locked lock

theorem Owned.unique {lock : LockId} {first second : TaskId} (h : Owned before)
    (hfirst : (first, lock) ∈ before.holders) (hsecond : (second, lock) ∈ before.holders)
    : (first, lock) = (second, lock) :=
  List.inj_on_of_nodup_map h.exclusive hfirst hsecond rfl

theorem Owned.acquire {task : TaskId} {lock : LockId} (h : Owned before)
    (hfree : (before.locks lock).state.locked = false)
    (hholders : after.holders = (task, lock) :: before.holders)
    (hlocked : ∀ other, (after.locks other).state.locked
      = if other = lock then true else (before.locks other).state.locked)
    : Owned after := by
  have hnone : lock ∉ before.holders.map Prod.snd := by
    intro hmem
    obtain ⟨⟨owner, held⟩, hholder, rfl⟩ := List.mem_map.mp hmem
    have hheld := (h.locked held).mpr ⟨owner, hholder⟩
    rw [hfree] at hheld
    cases hheld
  refine ⟨hholders ▸ List.nodup_cons.mpr ⟨hnone, h.exclusive⟩, fun other => ?_⟩
  rw [hlocked, hholders]
  split
  · rename_i hother
    subst hother
    simp
  · rename_i hother
    simp [h.locked, hother]

theorem Owned.release {task : TaskId} {lock : LockId} (h : Owned before)
    (hheld : (task, lock) ∈ before.holders)
    (hholders : after.holders = before.holders.erase (task, lock))
    (hlocked : ∀ other, (after.locks other).state.locked
      = if other = lock then false else (before.locks other).state.locked)
    : Owned after := by
  have hnodup : before.holders.Nodup := h.exclusive.of_map
  refine ⟨?_, fun other => ?_⟩
  · rw [hholders]
    exact h.exclusive.sublist (List.erase_sublist.map _)
  rw [hlocked, hholders]
  split
  · rename_i hother
    subst hother
    constructor
    · intro hfalse
      cases hfalse
    · rintro ⟨owner, howner⟩
      obtain ⟨hne, howner⟩ := hnodup.mem_erase_iff.mp howner
      exact absurd (h.unique howner hheld) hne
  · rename_i hother
    rw [h.locked]
    constructor
    · rintro ⟨owner, howner⟩
      exact ⟨owner, hnodup.mem_erase_iff.mpr ⟨by simp [hother], howner⟩⟩
    · rintro ⟨owner, howner⟩
      exact ⟨owner, List.mem_of_mem_erase howner⟩

theorem WillWake.mono {handle : Handle} (h : before.WillWake handle)
    (hwaiters : (before.locks handle.lock).state.waiters
      ⊆ (after.locks handle.lock).state.waiters)
    (hunlocking : ∀ id unlocker wakers, before.handles.lookup id = some unlocker →
      unlocker.phase = .unlocking wakers → after.handles.lookup id = some unlocker)
    : after.WillWake handle := by
  rcases h with hwaiting | ⟨id, unlocker, wakers, hunlocker, hlock, hphase, htask⟩
  · exact .inl (hwaiters hwaiting)
  · exact .inr ⟨id, unlocker, wakers, hunlocking id unlocker wakers hunlocker hphase, hlock,
      hphase, htask⟩

theorem Wakeful.of_frame (h : Wakeful before)
    (hfree : ∀ lock, (after.locks lock).state.locked = false →
      (after.locks lock).state.waiters = [])
    (hasleep : ∀ id ∈ after.asleep, id ∈ before.asleep
      ∧ after.handles.lookup id = before.handles.lookup id)
    (hwaiters : ∀ lock, (before.locks lock).state.waiters
      ⊆ (after.locks lock).state.waiters)
    (hunlocking : ∀ id unlocker wakers, before.handles.lookup id = some unlocker →
      unlocker.phase = .unlocking wakers → after.handles.lookup id = some unlocker)
    : Wakeful after := by
  refine ⟨hfree, fun id hid => ?_⟩
  obtain ⟨hbefore, hlookup⟩ := hasleep id hid
  obtain ⟨handle, hhandle, hphase, hwake⟩ := h.asleep id hbefore
  exact ⟨handle, hlookup.trans hhandle, hphase, hwake.mono (hwaiters _) hunlocking⟩

/-- A handle that was not unlocking can change its phase without taking a wake-up along. -/
theorem setPhase_unlocking {system : LockSystem} {id : HandleId} {handle : Handle}
    {phase : HandlePhase} (hhandle : system.handles.lookup id = some handle)
    (hphase : ∀ wakers, handle.phase ≠ .unlocking wakers)
    : ∀ otherId unlocker wakers, system.handles.lookup otherId = some unlocker →
      unlocker.phase = .unlocking wakers →
      (system.setPhase id handle phase).handles.lookup otherId = some unlocker := by
  intro otherId unlocker wakers hunlocker hunlocking
  rw [setPhase_lookup, if_neg]
  · exact hunlocker
  · rintro rfl
    cases hhandle.symm.trans hunlocker
    exact hphase wakers hunlocking

end Frames

--------------------
-- Steps
--------------------

/-- All that is kept along a run. -/
structure Sound (system : LockSystem) : Prop extends
  Consistent system, Owned system, Wakeful system

section Steps

variable {system : LockSystem} {id : HandleId} {handle : Handle}

theorem HandlePhase.usable {phase : HandlePhase} (h : phase = .ready ∨ phase = .waiting)
    : phase ≠ .spent ∧ ∀ wakers, phase ≠ .unlocking wakers := by
  rcases h with rfl | rfl <;> simp

/-- The other handles that sleep are untouched. -/
theorem asleep_filter (handle : Handle) (phase : HandlePhase) {other : HandleId}
    (h : other ∈ system.asleep.filter (· ≠ id))
    : other ∈ system.asleep
      ∧ (system.setPhase id handle phase).handles.lookup other
        = system.handles.lookup other := by
  obtain ⟨hasleep, hne⟩ := List.mem_filter.mp h
  refine ⟨hasleep, ?_⟩
  rw [setPhase_lookup, if_neg (by simpa using hne)]

/-- A handle that sleeps is not one of another phase, whatever that one does. -/
theorem Sound.sleeper (h : Sound system) (hhandle : system.handles.lookup id = some handle)
    (hphase : handle.phase ≠ .waiting) (phase : HandlePhase) {other : HandleId}
    (hother : other ∈ system.asleep)
    : ∃ sleeper, system.handles.lookup other = some sleeper
        ∧ (system.setPhase id handle phase).handles.lookup other = some sleeper
        ∧ sleeper.phase = .waiting ∧ system.WillWake sleeper := by
  obtain ⟨sleeper, hsleeper, hwaiting, hwake⟩ := h.asleep other hother
  have hne : other ≠ id := by
    rintro rfl
    cases hhandle.symm.trans hsleeper
    exact hphase hwaiting
  exact ⟨sleeper, hsleeper, (setPhase_lookup _).trans ((if_neg hne).trans hsleeper), hwaiting,
    hwake⟩

theorem Sound.pollHandle (h : Sound system) (hhandle : system.handles.lookup id = some handle)
    (hphase : handle.phase = .ready ∨ handle.phase = .waiting)
    : Sound (system.pollHandle id handle).2 := by
  obtain ⟨hspent, hunlocking⟩ := HandlePhase.usable hphase
  cases hlocked : (system.locks handle.lock).state.locked with
  | false =>
      simp only [LockSystem.pollHandle, poll_of_free _ hlocked]
      refine ⟨h.toConsistent.of_frame rfl rfl rfl (fun _ => setState_key)
        (setPhase_handles hhandle fun _ => hspent) ?_,
        h.toOwned.acquire hlocked rfl (fun _ => setState_locked),
        h.toWakeful.of_frame (fun _ => setState_free h.free (fun hfalse => by cases hfalse))
          (fun _ => asleep_filter handle .ready) (fun _ => setState_waiters (List.Subset.refl _))
          (setPhase_unlocking hhandle hunlocking)⟩
      intro holder hholder
      rcases List.mem_cons.mp hholder with rfl | hholder
      · exact h.current id handle hhandle hspent
      · exact h.held holder hholder
  | true =>
      obtain ⟨next, hpoll, hnext, htask, hwaiters⟩ := poll_of_locked handle.task hlocked
      simp only [LockSystem.pollHandle, hpoll]
      refine ⟨h.toConsistent.of_frame rfl rfl rfl (fun _ => setState_key)
        (setPhase_handles hhandle fun _ => hspent) h.held, h.toOwned.of_frame rfl ?_, ?_, ?_⟩
      · intro other
        refine setState_locked.trans ?_
        split
        · rename_i hother
          rw [hother, hlocked, hnext]
        · rfl
      · exact fun _ => setState_free h.free fun hfalse => by rw [hnext] at hfalse; cases hfalse
      · intro other hother
        rcases List.mem_cons.mp hother with rfl | hother
        · refine ⟨{ handle with phase := .waiting }, ?_, rfl, .inl ?_⟩
          · exact (setPhase_lookup _).trans (if_pos rfl)
          · change handle.task
              ∈ ((system.setState handle.lock next).locks handle.lock).state.waiters
            rw [setState_state, if_pos rfl]
            exact htask
        · obtain ⟨hasleep, hlookup⟩ := asleep_filter handle .waiting hother
          obtain ⟨sleeper, hsleeper, hwaiting, hwake⟩ := h.asleep other hasleep
          exact ⟨sleeper, hlookup.trans hsleeper, hwaiting,
            hwake.mono (setState_waiters hwaiters) (setPhase_unlocking hhandle hunlocking)⟩

theorem Sound.dropFuture (h : Sound system) (hhandle : system.handles.lookup id = some handle)
    (hphase : handle.phase = .waiting)
    : Sound (system.dropFuture id handle) := by
  obtain ⟨hspent, hunlocking⟩ := HandlePhase.usable (.inr hphase)
  exact ⟨h.toConsistent.of_frame rfl rfl rfl (fun _ => rfl)
      (setPhase_handles hhandle fun _ => hspent) h.held,
    h.toOwned.of_frame rfl (fun _ => rfl),
    h.toWakeful.of_frame h.free (fun _ => asleep_filter handle .ready)
      (fun _ => List.Subset.refl _) (setPhase_unlocking hhandle hunlocking)⟩

theorem Sound.tryLockHandle (h : Sound system)
    (hhandle : system.handles.lookup id = some handle)
    (hphase : handle.phase = .ready ∨ handle.phase = .waiting)
    : Sound (system.tryLockHandle handle).2 := by
  cases hlocked : (system.locks handle.lock).state.locked with
  | true =>
      simp only [LockSystem.tryLockHandle, LockState.tryLockCore, hlocked]
      exact h
  | false =>
      simp only [LockSystem.tryLockHandle, LockState.tryLockCore, hlocked]
      refine ⟨h.toConsistent.of_frame rfl rfl rfl (fun _ => setState_key)
        (fun _ other hother => ⟨other, hother, rfl, fun hspent => hspent⟩) ?_,
        h.toOwned.acquire hlocked rfl (fun _ => setState_locked),
        h.toWakeful.of_frame (fun _ => setState_free h.free (fun hfalse => by cases hfalse))
          (fun _ hasleep => ⟨hasleep, rfl⟩)
          (fun _ => setState_waiters (List.Subset.refl _)) (fun _ _ _ hother _ => hother)⟩
      intro holder hholder
      rcases List.mem_cons.mp hholder with rfl | hholder
      · exact h.current id handle hhandle (HandlePhase.usable hphase).1
      · exact h.held holder hholder

theorem Sound.releaseHandle (h : Sound system)
    (hhandle : system.handles.lookup id = some handle) (hphase : handle.phase = .ready)
    (hheld : (handle.task, handle.lock) ∈ system.holders)
    : Sound (system.releaseHandle id handle) := by
  obtain ⟨hspent, hunlocking⟩ := HandlePhase.usable (.inl hphase)
  have hlocked : (system.locks handle.lock).state.locked = true :=
    (h.locked handle.lock).mpr ⟨handle.task, hheld⟩
  simp only [LockSystem.releaseHandle, LockState.release, hlocked, if_true]
  refine ⟨h.toConsistent.of_frame rfl rfl rfl (fun _ => setState_key)
    (setPhase_handles hhandle fun _ => hspent)
    (fun holder hholder => h.held holder (List.mem_of_mem_erase hholder)),
    h.toOwned.release hheld rfl (fun _ => setState_locked),
    fun _ => setState_free h.free (fun _ => rfl), ?_⟩
  intro other hother
  obtain ⟨sleeper, -, hsleeper, hwaiting, hwake⟩ :=
    h.sleeper hhandle (by simp [hphase]) _ hother
  refine ⟨sleeper, hsleeper, hwaiting, ?_⟩
  rcases hwake with hwaiter | ⟨otherId, unlocker, wakers, hunlocker, hsame, hwakers, htask⟩
  · by_cases hsame : sleeper.lock = handle.lock
    · -- Its waker is among those this unlock took out.
      refine .inr ⟨id, _, _, (setPhase_lookup _).trans (if_pos rfl), hsame.symm, rfl, ?_⟩
      rw [← hsame]
      exact hwaiter
    · left
      change sleeper.task ∈ ((system.setState handle.lock _).locks sleeper.lock).state.waiters
      rw [setState_state, if_neg hsame]
      exact hwaiter
  · exact .inr ⟨otherId, unlocker, wakers,
      setPhase_unlocking hhandle hunlocking otherId unlocker wakers hunlocker hwakers, hsame,
      hwakers, htask⟩

theorem Sound.wakeNext {task : TaskId} {wakers : List TaskId} (h : Sound system)
    (hhandle : system.handles.lookup id = some handle)
    (hphase : handle.phase = .unlocking (task :: wakers))
    : Sound (system.wakeNext id handle) := by
  simp only [LockSystem.wakeNext, hphase]
  refine ⟨h.toConsistent.of_frame rfl rfl rfl (fun _ => rfl)
    (setPhase_handles hhandle fun _ => by simp [hphase]) h.held,
    h.toOwned.of_frame rfl (fun _ => rfl), h.free, ?_⟩
  intro other hother
  obtain ⟨hasleep, htask⟩ := List.mem_filter.mp hother
  obtain ⟨sleeper, hbefore, hsleeper, hwaiting, hwake⟩ :=
    h.sleeper hhandle (by simp [hphase]) _ hasleep
  have hdiffers : sleeper.task ≠ task := by simpa [hbefore] using htask
  refine ⟨sleeper, hsleeper, hwaiting, ?_⟩
  rcases hwake with hwaiter | ⟨otherId, unlocker, left, hunlocker, hsame, hleft, hwoken⟩
  · exact .inl hwaiter
  · right
    by_cases hid : otherId = id
    · subst hid
      cases hhandle.symm.trans hunlocker
      cases hphase.symm.trans hleft
      refine ⟨otherId, _, wakers, (setPhase_lookup _).trans (if_pos rfl), hsame, rfl, ?_⟩
      exact (List.mem_cons.mp hwoken).resolve_left hdiffers
    · exact ⟨otherId, unlocker, left, (setPhase_lookup _).trans ((if_neg hid).trans hunlocker),
        hsame, hleft, hwoken⟩

theorem eq_of_length_le_one {α : Type} {items : List α} (h : items.length ≤ 1) {x y : α}
    (hx : x ∈ items) (hy : y ∈ items)
    : x = y := by
  match items with
  | [] => cases hx
  | [item] => rw [List.mem_singleton.mp hx, List.mem_singleton.mp hy]
  | _ :: _ :: _ => simp at h

/-- Of the handles of a lock with two references only one is not the map's. -/
theorem eq_of_strongCount {lock : LockId} (hmapped : system.Mapped lock)
    (hcount : system.strongCount lock = 2) {first second : HandleId} {left right : Handle}
    (hfirst : system.handles.lookup first = some left)
    (hsecond : system.handles.lookup second = some right) (hleft : left.lock = lock)
    (hright : right.lock = lock)
    : first = second := by
  have hentries : 1 ≤ (system.entries.values.filter fun entry => entry = lock).length := by
    refine List.length_pos_of_mem (List.mem_filter.mpr ⟨?_, decide_eq_true (Eq.refl lock)⟩)
    exact Map.mem_values.mpr ⟨_, hmapped⟩
  have hhandles : (system.handles.toList.filter fun pair => pair.2.lock = lock).length ≤ 1 := by
    have hlength := Map.length_filter_values system.handles fun handle => handle.lock = lock
    rw [strongCount] at hcount
    omega
  have hsame := eq_of_length_le_one hhandles
    (List.mem_filter.mpr ⟨Map.mem_toList.mpr hfirst, by simpa using hleft⟩)
    (List.mem_filter.mpr ⟨Map.mem_toList.mpr hsecond, by simpa using hright⟩)
  exact congrArg Prod.fst hsame

/-- Evicting takes a lock out of the map only when it is idle and has one other handle. -/
theorem evictIfIdle_cases (system : LockSystem) (lock : LockId)
    : system.evictIfIdle lock = system
      ∨ system.Mapped lock ∧ system.strongCount lock = 2
        ∧ (system.locks lock).state.isIdle = true
        ∧ system.evictIfIdle lock
          = { system with entries := system.entries.erase (system.locks lock).key } := by
  unfold evictIfIdle
  split
  · exact .inl rfl
  · rename_i entry hentry
    split
    · exact .inl rfl
    · rename_i hsole
      simp only [not_or, not_not] at hsole
      obtain ⟨rfl, hcount⟩ := hsole
      split
      · exact .inr ⟨hentry, hcount, ‹_›, rfl⟩
      · exact .inl rfl

theorem Sound.evictHandle (h : Sound system)
    (hhandle : system.handles.lookup id = some handle) (hphase : handle.phase = .unlocking [])
    : Sound (system.evictHandle id handle) := by
  unfold LockSystem.evictHandle
  have hunlocking : ∀ otherId unlocker wakers, system.handles.lookup otherId = some unlocker →
      unlocker.phase = .unlocking wakers → wakers ≠ [] → otherId ≠ id := by
    rintro otherId unlocker wakers hunlocker hwakers hne rfl
    cases hhandle.symm.trans hunlocker
    cases hphase.symm.trans hwakers
    exact hne rfl
  have hasleep : ∀ other ∈ system.asleep, ∃ sleeper,
      (system.setPhase id handle .spent).handles.lookup other = some sleeper
      ∧ sleeper.phase = .waiting ∧ (system.setPhase id handle .spent).WillWake sleeper := by
    intro other hother
    obtain ⟨sleeper, -, hsleeper, hwaiting, hwake⟩ :=
      h.sleeper hhandle (by simp [hphase]) _ hother
    refine ⟨sleeper, hsleeper, hwaiting, ?_⟩
    rcases hwake with hwaiter | ⟨otherId, unlocker, wakers, hunlocker, hsame, hwakers, htask⟩
    · exact .inl hwaiter
    · have hid := hunlocking otherId unlocker wakers hunlocker hwakers (List.ne_nil_of_mem htask)
      exact .inr ⟨otherId, unlocker, wakers,
        (setPhase_lookup _).trans ((if_neg hid).trans hunlocker), hsame, hwakers, htask⟩
  rcases system.evictIfIdle_cases handle.lock with hsame | ⟨hmapped, hcount, hidle, hevict⟩
  · rw [hsame]
    exact ⟨h.toConsistent.of_frame rfl rfl rfl (fun _ => rfl)
      (setPhase_handles hhandle fun hspent => absurd rfl hspent) h.held,
      h.toOwned.of_frame rfl (fun _ => rfl), h.free, hasleep⟩
  · rw [hevict]
    have hkept : ∀ lock, lock ≠ handle.lock → system.Mapped lock →
        (system.entries.erase (system.locks handle.lock).key).lookup (system.locks lock).key
          = some lock := by
      intro lock hne hlock
      rw [Map.lookup_erase_eq, if_neg]
      · exact hlock
      · intro hkey
        rw [Mapped, hkey] at hlock
        exact hne (Option.some.inj (hlock.symm.trans hmapped))
    refine ⟨⟨?_, ?_, ?_, ?_⟩, h.toOwned.of_frame rfl (fun _ => rfl), h.free, hasleep⟩
    · intro key lock hlock
      refine h.registered key lock ?_
      change AList.lookup key (system.entries.erase _) = some lock at hlock
      rw [Map.lookup_erase_eq] at hlock
      split at hlock
      · cases hlock
      · exact hlock
    · intro otherId other hother
      obtain ⟨old, hold, -⟩ := setPhase_handles hhandle
        (fun hspent => absurd rfl hspent) otherId other hother
      exact h.numbered otherId old hold
    · intro otherId other hother hspent
      have hlookup := (setPhase_lookup otherId).symm.trans hother
      split at hlookup
      · cases hlookup
        exact absurd rfl hspent
      · rename_i hid
        refine hkept other.lock ?_ (h.current otherId other hlookup hspent)
        exact fun hlock => hid (eq_of_strongCount hmapped hcount hlookup hhandle hlock rfl)
    · intro holder hholder
      refine hkept holder.2 ?_ (h.held holder hholder)
      rintro hlock
      have hlocked := (h.locked holder.2).mpr ⟨holder.1, hholder⟩
      rw [hlock] at hlocked
      simp [LockState.isIdle, hlocked] at hidle

theorem Sound.dropHandle (h : Sound system)
    (hhandle : system.handles.lookup id = some handle)
    (hphase : handle.phase = .ready ∨ handle.phase = .spent)
    : Sound { system with handles := system.handles.erase id } := by
  have hother : ∀ otherId other, AList.lookup otherId (system.handles.erase id) = some other →
      system.handles.lookup otherId = some other := by
    intro otherId other hother
    rw [Map.lookup_erase_eq] at hother
    split at hother
    · cases hother
    · exact hother
  have hkept : ∀ otherId other, system.handles.lookup otherId = some other →
      other.phase ≠ .ready → other.phase ≠ .spent →
      AList.lookup otherId (system.handles.erase id) = some other := by
    intro otherId other hlookup hready hspent
    rw [Map.lookup_erase_eq, if_neg]
    · exact hlookup
    · rintro rfl
      cases hhandle.symm.trans hlookup
      rcases hphase with hphase | hphase
      · exact hready hphase
      · exact hspent hphase
  refine ⟨h.toConsistent.of_frame rfl rfl rfl (fun _ => rfl)
    (fun otherId other hlookup => ⟨other, hother otherId other hlookup, rfl, fun hspent => hspent⟩)
    h.held, h.toOwned.of_frame rfl (fun _ => rfl), h.free, ?_⟩
  intro otherId hasleep
  obtain ⟨sleeper, hsleeper, hwaiting, hwake⟩ := h.asleep otherId hasleep
  refine ⟨sleeper, hkept otherId sleeper hsleeper (by simp [hwaiting]) (by simp [hwaiting]),
    hwaiting, hwake.mono (List.Subset.refl _) ?_⟩
  intro unlockerId unlocker wakers hunlocker hwakers
  exact hkept unlockerId unlocker hunlocker (by simp [hwakers]) (by simp [hwakers])

/-- A new lock changes nothing about those the map leads to. -/
theorem Sound.allocated {key : String} (h : Sound system)
    (hentry : system.entries.lookup key = none)
    : Sound { system with
      locks := Function.update system.locks system.allocated { key }
      allocated := system.allocated + 1
      entries := system.entries.insert key system.allocated } := by
  have hold : ∀ lock, system.Mapped lock → lock ≠ system.allocated
      ∧ AList.lookup (Function.update system.locks system.allocated { key } lock).key
        (system.entries.insert key system.allocated) = some lock := by
    intro lock hlock
    have hne : lock ≠ system.allocated := Nat.ne_of_lt (h.registered _ lock hlock).1
    refine ⟨hne, ?_⟩
    rw [Function.update_of_ne hne, Map.lookup_insert_eq, if_neg]
    · exact hlock
    · intro hkey
      rw [Mapped, hkey, hentry] at hlock
      cases hlock
  refine ⟨⟨?_, h.numbered, ?_, ?_⟩, ⟨h.exclusive, ?_⟩, ⟨?_, ?_⟩⟩
  · intro other lock hlock
    change AList.lookup other (system.entries.insert key system.allocated) = some lock at hlock
    change lock < system.allocated + 1
      ∧ (Function.update system.locks system.allocated { key } lock).key = other
    rw [Map.lookup_insert_eq] at hlock
    split at hlock
    · rename_i hother
      cases hlock
      rw [Function.update_self]
      exact ⟨Nat.lt_succ_self _, hother.symm⟩
    · obtain ⟨hlt, hkey⟩ := h.registered other lock hlock
      rw [Function.update_of_ne (Nat.ne_of_lt hlt)]
      exact ⟨Nat.lt_succ_of_lt hlt, hkey⟩
  · exact fun id handle hhandle hspent =>
      (hold _ (h.current id handle hhandle hspent)).2
  · exact fun holder hholder => (hold _ (h.held holder hholder)).2
  · intro lock
    change (Function.update system.locks system.allocated { key } lock).state.locked = true ↔ _
    by_cases hlock : lock = system.allocated
    · subst hlock
      rw [Function.update_self]
      constructor
      · intro hfalse
        cases hfalse
      · rintro ⟨task, hholder⟩
        exact absurd rfl (hold _ (h.held _ hholder)).1
    · rw [Function.update_of_ne hlock]
      exact h.locked lock
  · intro lock
    change (Function.update system.locks system.allocated { key } lock).state.locked = false →
      (Function.update system.locks system.allocated { key } lock).state.waiters = []
    by_cases hlock : lock = system.allocated
    · subst hlock
      rw [Function.update_self]
      exact fun _ => rfl
    · rw [Function.update_of_ne hlock]
      exact h.free lock
  · intro id hid
    obtain ⟨sleeper, hsleeper, hwaiting, hwake⟩ := h.asleep id hid
    have hne := (hold _ (h.current id sleeper hsleeper (by simp [hwaiting]))).1
    refine ⟨sleeper, hsleeper, hwaiting, hwake.mono ?_ fun _ _ _ hunlocker _ => hunlocker⟩
    change (system.locks sleeper.lock).state.waiters
      ⊆ (Function.update system.locks system.allocated { key } sleeper.lock).state.waiters
    rw [Function.update_of_ne hne]
    exact List.Subset.refl _

/-- The manager's entry for a key, allocated if there was none. -/
theorem Sound.entry (h : Sound system) (key : String)
    : Sound (system.entry key).2 ∧ (system.entry key).2.Mapped (system.entry key).1 := by
  cases hentry : system.entries.lookup key with
  | some lock =>
      simp only [LockSystem.entry, hentry]
      refine ⟨h, ?_⟩
      rw [Mapped, (h.registered key lock hentry).2]
      exact hentry
  | none =>
      simp only [LockSystem.entry, hentry]
      refine ⟨h.allocated hentry, ?_⟩
      change AList.lookup (Function.update system.locks system.allocated { key } _).key
        (system.entries.insert key system.allocated) = some system.allocated
      rw [Function.update_self, AList.lookup_insert]

theorem Sound.getLock (h : Sound system) (task : TaskId) (key : String)
    : Sound (system.getLock task key).2 := by
  obtain ⟨hentry, hmapped⟩ := h.entry key
  rcases hrun : system.entry key with ⟨lock, opened⟩
  rw [hrun] at hentry hmapped
  simp only [LockSystem.getLock, hrun]
  have hfresh : opened.handles.lookup opened.cloned = none := by
    cases hlookup : opened.handles.lookup opened.cloned with
    | none => rfl
    | some handle => exact absurd (hentry.numbered _ handle hlookup) (Nat.lt_irrefl _)
  have hkept : ∀ id handle, opened.handles.lookup id = some handle →
      AList.lookup id (opened.handles.insert opened.cloned { task, lock }) = some handle := by
    intro id handle hhandle
    rw [Map.lookup_insert_eq, if_neg]
    · exact hhandle
    · rintro rfl
      cases hhandle.symm.trans hfresh
  refine ⟨⟨hentry.registered, ?_, ?_, hentry.held⟩,
    hentry.toOwned.of_frame rfl (fun _ => rfl), hentry.free, ?_⟩
  · intro id handle hhandle
    have hlookup := (Map.lookup_insert_eq _ _ _ _).symm.trans hhandle
    split at hlookup
    · rename_i hid
      exact hid ▸ Nat.lt_succ_self _
    · exact Nat.lt_succ_of_lt (hentry.numbered id handle hlookup)
  · intro id handle hhandle hspent
    have hlookup := (Map.lookup_insert_eq _ _ _ _).symm.trans hhandle
    split at hlookup
    · cases hlookup
      exact hmapped
    · exact hentry.current id handle hlookup hspent
  · intro id hid
    obtain ⟨sleeper, hsleeper, hwaiting, hwake⟩ := hentry.asleep id hid
    exact ⟨sleeper, hkept id sleeper hsleeper, hwaiting,
      hwake.mono (List.Subset.refl _) fun id unlocker _ hunlocker _ => hkept id unlocker hunlocker⟩

theorem Sound.step (h : Sound system) (op : LockOp) (hallowed : system.Allowed op)
    : Sound (LockSystem.step op system).2 := by
  cases op with
  | getLock task key => exact h.getLock task key
  | poll id =>
      obtain ⟨handle, hhandle, hphase⟩ := hallowed
      simp only [LockSystem.step, hhandle]
      exact h.pollHandle hhandle hphase
  | dropFuture id =>
      obtain ⟨handle, hhandle, hphase⟩ := hallowed
      simp only [LockSystem.step, hhandle]
      exact h.dropFuture hhandle hphase
  | tryLock id =>
      obtain ⟨handle, hhandle, hphase⟩ := hallowed
      simp only [LockSystem.step, hhandle]
      exact h.tryLockHandle hhandle hphase
  | release id =>
      obtain ⟨handle, hhandle, hphase, hheld⟩ := hallowed
      simp only [LockSystem.step, hhandle]
      exact h.releaseHandle hhandle hphase hheld
  | wake id =>
      obtain ⟨handle, task, wakers, hhandle, hphase⟩ := hallowed
      simp only [LockSystem.step, hhandle]
      exact h.wakeNext hhandle hphase
  | evict id =>
      obtain ⟨handle, hhandle, hphase⟩ := hallowed
      simp only [LockSystem.step, hhandle]
      exact h.evictHandle hhandle hphase
  | dropHandle id =>
      obtain ⟨handle, hhandle, hphase⟩ := hallowed
      exact h.dropHandle hhandle hphase

end Steps

--------------------
-- Runs
--------------------

theorem Reached.sound {system : LockSystem} (h : Reached system) : Sound system := by
  refine h.invariant ?_ fun _ op hsound hallowed => hsound.step op hallowed
  refine ⟨⟨?_, ?_, ?_, ?_⟩, ⟨List.nodup_nil, ?_⟩, ⟨fun _ _ => rfl, ?_⟩⟩
  all_goals simp

/-- A task holds the lock or waits for it. -/
def InUse (system : LockSystem) (lock : LockId) : Prop :=
  (∃ task, (task, lock) ∈ system.holders)
    ∨ ∃ id handle, system.handles.lookup id = some handle ∧ handle.lock = lock
      ∧ handle.phase = .waiting

theorem Sound.mapped_of_inUse {system : LockSystem} {lock : LockId} (h : Sound system)
    (hused : system.InUse lock)
    : system.Mapped lock := by
  rcases hused with ⟨task, hholder⟩ | ⟨id, handle, hhandle, rfl, hwaiting⟩
  · exact h.held (task, lock) hholder
  · exact h.current id handle hhandle (by simp [hwaiting])

/-- An eviction releases no lock and ends no wait. -/
theorem inUse_evict {system : LockSystem} {id : HandleId} {lock : LockId}
    (hallowed : system.Allowed (.evict id)) (hused : system.InUse lock)
    : (step (.evict id) system).2.InUse lock
      ∧ ((step (.evict id) system).2.locks lock).key = (system.locks lock).key := by
  obtain ⟨handle, hhandle, hphase⟩ := hallowed
  simp only [step, hhandle, evictHandle]
  have hframe : (system.evictIfIdle handle.lock).holders = system.holders
      ∧ (system.evictIfIdle handle.lock).handles = system.handles
      ∧ (system.evictIfIdle handle.lock).locks = system.locks := by
    rcases system.evictIfIdle_cases handle.lock with hsame | ⟨-, -, -, hevict⟩
    · rw [hsame]
      exact ⟨rfl, rfl, rfl⟩
    · rw [hevict]
      exact ⟨rfl, rfl, rfl⟩
  obtain ⟨hholders, hhandles, hlocks⟩ := hframe
  refine ⟨?_, congrArg (fun locks => (locks lock).key) hlocks⟩
  rcases hused with ⟨task, hholder⟩ | ⟨other, waiter, hwaiter, hlock, hwaiting⟩
  · exact .inl ⟨task, hholders ▸ hholder⟩
  · refine .inr ⟨other, waiter, ?_, hlock, hwaiting⟩
    rw [setPhase_lookup, if_neg, hhandles]
    · exact hwaiter
    · rintro rfl
      cases hhandle.symm.trans hwaiter
      rw [hphase] at hwaiting
      cases hwaiting

/-- An `unlock` is between its release of the lock and the wake-up of the task. -/
def InHand (system : LockSystem) (waiter : Handle) (id : HandleId) : Prop :=
  ∃ unlocker wakers, system.handles.lookup id = some unlocker
    ∧ unlocker.lock = waiter.lock ∧ unlocker.phase = .unlocking wakers
    ∧ waiter.task ∈ wakers

/-- The `unlock` of the handle wakes every task it has in hand. -/
def wakeAll (id : HandleId) (wakers : List TaskId) (system : LockSystem) : LockSystem :=
  finalState step system (wakers.map fun _ => .wake id)

/-- An `unlock` under way runs to its end and changes no lock meanwhile. -/
theorem Reached.wakeAll {system : LockSystem} {id : HandleId} {unlocker : Handle}
    {wakers : List TaskId} (h : Reached system)
    (hunlocker : system.handles.lookup id = some unlocker)
    (hphase : unlocker.phase = .unlocking wakers)
    : Reached (wakeAll id wakers system)
      ∧ (wakeAll id wakers system).handles.lookup id
        = some { unlocker with phase := .unlocking [] }
      ∧ (wakeAll id wakers system).locks = system.locks := by
  induction wakers generalizing system unlocker with
  | nil => exact ⟨h, by rw [← hphase]; exact hunlocker, rfl⟩
  | cons task wakers ih =>
      have hallowed : system.Allowed (.wake id) := ⟨unlocker, task, wakers, hunlocker, hphase⟩
      have hnext : (step (.wake id) system).2.handles.lookup id
          = some { unlocker with phase := .unlocking wakers } := by
        simp only [step, hunlocker, wakeNext, hphase]
        rw [setPhase_lookup, if_pos rfl]
      obtain ⟨hreached, hended, hlocks⟩ := ih (.next _ h hallowed) hnext rfl
      refine ⟨hreached, hended, hlocks.trans ?_⟩
      simp only [step, hunlocker, wakeNext, hphase]
      rfl

/-- What the manager promises to the tasks that use it. -/
structure Safe (system : LockSystem) : Prop where
  exclusive : system.holders.Nodup ∧ ∀ first ∈ system.holders, ∀ second ∈ system.holders,
    (system.locks first.2).key = (system.locks second.2).key → first = second
  kept : ∀ id, system.Allowed (.evict id) → ∀ lock, system.InUse lock →
    (step (.evict id) system).2.entries.lookup (system.locks lock).key = some lock
  again : ∀ lock, system.InUse lock → ∀ task,
    ((system.getLock task (system.locks lock).key).2.handles.lookup
      (system.getLock task (system.locks lock).key).1).map Handle.lock = some lock
  woken : ∀ id handle, system.handles.lookup id = some handle → handle.phase = .waiting →
    (system.locks handle.lock).state.locked = false →
    id ∉ system.asleep ∨ ∃ other, system.InHand handle other
  unlocked : ∀ id unlocker wakers, system.handles.lookup id = some unlocker →
    unlocker.phase = .unlocking wakers →
    (wakeAll id wakers system).handles.lookup id
        = some { unlocker with phase := .unlocking [] }
      ∧ (wakeAll id wakers system).locks = system.locks
      ∧ ∀ other waiter, (wakeAll id wakers system).handles.lookup other = some waiter →
        waiter.lock = unlocker.lock → waiter.phase = .waiting →
        (system.locks unlocker.lock).state.locked = false →
        other ∉ (wakeAll id wakers system).asleep
          ∨ ∃ rival, rival ≠ id ∧ (wakeAll id wakers system).InHand waiter rival

theorem Sound.woken {system : LockSystem} (h : Sound system) {id : HandleId} {handle : Handle}
    (hhandle : system.handles.lookup id = some handle)
    (hfree : (system.locks handle.lock).state.locked = false)
    : id ∉ system.asleep ∨ ∃ other, system.InHand handle other := by
  by_cases hasleep : id ∈ system.asleep
  · obtain ⟨sleeper, hsleeper, -, hwake⟩ := h.asleep id hasleep
    cases hhandle.symm.trans hsleeper
    rcases hwake with hwaiter | hwake
    · rw [h.free handle.lock hfree] at hwaiter
      cases hwaiter
    · exact .inr hwake
  · exact .inl hasleep

/-- At most one task holds the lock of a key, and an eviction leaves every lock that is held
or waited for in the map, where `get_lock` finds it again. Of the tasks that wait for a free
lock all were woken since they parked, apart from those that an `unlock` still under way has
in hand; an `unlock` that runs to its end leaves none unwoken but for those that another one
has in hand. -/
theorem lock_manager_is_safe {system : LockSystem} (h : Reached system) : Safe system := by
  have hsound := h.sound
  refine ⟨⟨hsound.exclusive.of_map, ?_⟩, ?_, ?_, ?_, ?_⟩
  · rintro ⟨first, left⟩ hfirst ⟨second, right⟩ hsecond hkey
    have hleft := hsound.held _ hfirst
    have hright := hsound.held _ hsecond
    rw [Mapped, hkey] at hleft
    cases hleft.symm.trans hright
    exact hsound.toOwned.unique hfirst hsecond
  · intro id hallowed lock hused
    obtain ⟨hafter, hkey⟩ := inUse_evict hallowed hused
    have hmapped := (hsound.step (.evict id) hallowed).mapped_of_inUse hafter
    rw [Mapped, hkey] at hmapped
    exact hmapped
  · intro lock hused task
    have hentry : system.entry (system.locks lock).key = (lock, system) := by
      rw [entry, hsound.mapped_of_inUse hused]
    have hhandle : (system.getLock task (system.locks lock).key).2.handles.lookup
        (system.getLock task (system.locks lock).key).1
        = some { task, lock := (system.entry (system.locks lock).key).1 } :=
      AList.lookup_insert _
    rw [hhandle, hentry, Option.map_some]
  · intro id handle hhandle _ hfree
    exact hsound.woken hhandle hfree
  · intro id unlocker wakers hunlocker hphase
    obtain ⟨hreached, hended, hlocks⟩ := h.wakeAll hunlocker hphase
    refine ⟨hended, hlocks, fun other waiter hwaiter hlock _ hfree => ?_⟩
    rw [← hlock, ← hlocks] at hfree
    refine (hreached.sound.woken hwaiter hfree).imp_right ?_
    rintro ⟨rival, hhand⟩
    refine ⟨rival, ?_, hhand⟩
    -- the ended unlock has nobody left in hand
    rintro rfl
    obtain ⟨found, left, hfound, -, hleft, hmem⟩ := hhand
    cases hended.symm.trans hfound
    cases hleft
    cases hmem

/-- Task 1 parks on the lock that task 0 holds, and task 0 unlocks. -/
def handedOver : LockSystem :=
  finalState step {} [.getLock 0 "todo", .getLock 1 "todo", .poll 0, .poll 1, .release 0,
    .wake 0]

theorem handedOver_is_safe
    : (handedOver.handles.lookup 1).map Handle.phase = some .waiting
      ∧ (handedOver.locks 0).state.locked = false ∧ handedOver.asleep = []
      ∧ Safe handedOver := by
  have hfirst : Reached (step (.getLock 0 "todo") {}).2 := .next _ .start trivial
  have hsecond : Reached (finalState step {} [.getLock 0 "todo", .getLock 1 "todo"]) :=
    .next _ hfirst trivial
  have hheld : Reached (finalState step {} [.getLock 0 "todo", .getLock 1 "todo", .poll 0]) :=
    .next _ hsecond ⟨_, rfl, .inl rfl⟩
  have hparked : Reached (finalState step {} [.getLock 0 "todo", .getLock 1 "todo", .poll 0,
      .poll 1]) :=
    .next _ hheld ⟨_, rfl, .inl rfl⟩
  have hreleased : Reached (finalState step {} [.getLock 0 "todo", .getLock 1 "todo", .poll 0,
      .poll 1, .release 0]) :=
    .next _ hparked ⟨_, rfl, rfl, List.mem_singleton.mpr rfl⟩
  have hwoken : Reached handedOver := .next _ hreleased ⟨_, _, _, rfl, rfl⟩
  exact ⟨rfl, rfl, rfl, lock_manager_is_safe hwoken⟩

end LockSystem

end Distributed.Lock
