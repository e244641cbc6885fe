import Distributed.InMemoryRepo.CommitEffects
import Distributed.QueuedRepo.Load

/-! When a load completes, and when it waits for the lock that it holds itself.
-/

namespace Distributed.QueuedRepo

open Distributed.Entities Distributed.Foundation Distributed.InMemoryRepo Distributed.Lock

open Distributed.Platform Distributed.Repository Distributed.Snapshot

namespace LoadSystem

variable {A State : Type} {model : Snapshottable A State} {task : TaskId}
  {identity : StreamIdentity} {system : LoadSystem A} {clock : LoadClock}

/-- What the load holds and asks for at each of its phases. -/
def Stage (task : TaskId) (identity : StreamIdentity) (system : LoadSystem A) : Prop :=
  match system.phase with
  | .created => system.requested = 0 ∧ ¬system.locks.Holds task identity.storageKey
  | .lockingStream handle | .lockingTail _ handle =>
      system.requested = 1 ∧ ¬system.locks.Holds task identity.storageKey
        ∧ system.locks.Requests task identity.storageKey handle
  | .lockingFallback handle =>
      system.requested = 2 ∧ system.locks.Holds task identity.storageKey
        ∧ system.locks.Requests task identity.storageKey handle
  | .returned _ => system.requested = 1

structure Sound (task : TaskId) (identity : StreamIdentity) (system : LoadSystem A)
    : Prop where
  locks : system.locks.Sound
  stage : Stage task identity system

theorem ensureLock_spec (system : LoadSystem A) (task : TaskId) (identity : StreamIdentity)
    (h : system.locks.Sound)
    : ∃ handle locks,
        system.ensureLock task identity
          = (handle, { system with locks, requested := system.requested + 1 })
        ∧ locks.Sound ∧ locks.Requests task identity.storageKey handle
        ∧ ∀ other, locks.Holds other identity.storageKey
          ↔ system.locks.Holds other identity.storageKey := by
  obtain ⟨hsound, hrequests, hholds⟩ :=
    LockSystem.getLock_requests h task identity.storageKey
  exact ⟨_, _, rfl, hsound, hrequests, hholds⟩

/-- The lock is taken exactly when nobody holds it. -/
theorem awaitLock_cases {handle : HandleId} (h : system.locks.Sound)
    (hrequests : system.locks.Requests task identity.storageKey handle)
    : (∃ locks, system.awaitLock handle = (.ready, { system with locks })
        ∧ locks.Sound ∧ locks.Holds task identity.storageKey ∧ system.LockFree identity)
      ∨ (∃ locks, system.awaitLock handle = (.pending, { system with locks })
        ∧ locks.Sound ∧ locks.Requests task identity.storageKey handle
        ∧ (∀ other, locks.Holds other identity.storageKey
          ↔ system.locks.Holds other identity.storageKey)
        ∧ ¬system.LockFree identity) := by
  have hallowed : system.locks.Allowed (.poll handle) := by
    obtain ⟨held, hheld, -, hphase, -⟩ := hrequests
    exact ⟨held, hheld, hphase⟩
  have hsound := h.step _ hallowed
  rcases hpoll : LockSystem.step (.poll handle) system.locks with ⟨answer, locks⟩
  have hcases := LockSystem.step_poll_cases h hrequests
  have hkeys : ∀ lock, system.locks.Mapped lock →
      (locks.locks lock).key = (system.locks.locks lock).key := by
    intro lock hmapped
    have hkey := h.step_key_of_mapped (.poll handle) hmapped
    rw [hpoll] at hkey
    exact hkey
  rw [hpoll] at hcases hsound
  rcases hcases with ⟨hready, hfree, hholds, hdrop⟩ | ⟨hpending, ⟨other, hother⟩, hholders, hasks⟩
  · left
    cases hready
    refine ⟨_, ?_, hsound.step _ hdrop, hholds, hfree⟩
    simp only [awaitLock, hpoll]
  · right
    cases hpending
    refine ⟨locks, ?_, hsound, hasks, ?_, fun hfree => hfree other hother⟩
    · simp only [awaitLock, hpoll]
    · intro holder
      constructor
      · rintro ⟨lock, hlock, hkey⟩
        have hbefore : (holder, lock) ∈ system.locks.holders := hholders ▸ hlock
        exact ⟨lock, hbefore, (hkeys lock (h.held _ hbefore)).symm.trans hkey⟩
      · rintro ⟨lock, hlock, hkey⟩
        exact ⟨lock, hholders ▸ hlock, (hkeys lock (h.held _ hlock)).trans hkey⟩

/-- A full read returns if the lock is free and otherwise waits on. -/
theorem readStream_cases (system : LoadSystem A) (model : Snapshottable A State)
    (clock : LoadClock) (waiting : HandleId → LoadPhase A) {handle : HandleId}
    (h : system.locks.Sound)
    (hrequests : system.locks.Requests task identity.storageKey handle)
    : (∃ locks result, system.readStream model identity waiting handle clock
          = { system with locks, phase := .returned result }
        ∧ locks.Sound ∧ system.LockFree identity)
      ∨ (∃ locks, system.readStream model identity waiting handle clock
          = { system with locks, phase := waiting handle }
        ∧ locks.Sound ∧ locks.Requests task identity.storageKey handle
        ∧ (∀ other, locks.Holds other identity.storageKey
          ↔ system.locks.Holds other identity.storageKey)
        ∧ ¬system.LockFree identity) := by
  rcases awaitLock_cases h hrequests with
    ⟨locks, hawait, hsound, -, hfree⟩ | ⟨locks, hawait, hsound, hasks, hholds, hbusy⟩
  · left
    refine ⟨locks,
      hydrateStream model (getStream identity clock.streamRead system.repository), ?_, hsound,
      hfree⟩
    simp only [readStream, hawait]
  · right
    refine ⟨locks, ?_, hsound, hasks, hholds, hbusy⟩
    simp only [readStream, hawait]

/-- A tail read waits if the lock is not free. Otherwise it returns, or it falls back to a
full read and then waits for the lock it has just taken. -/
theorem readTail_cases (model : Snapshottable A State) (clock : LoadClock)
    (snapshot : SnapshotRecord) {handle : HandleId} (h : system.locks.Sound)
    (hrequests : system.locks.Requests task identity.storageKey handle)
    : (∃ locks result, system.readTail model task identity snapshot handle clock
          = { system with locks, phase := .returned result }
        ∧ locks.Sound ∧ system.LockFree identity
        ∧ TailUsable model identity clock snapshot system.repository)
      ∨ (∃ locks fallback, system.readTail model task identity snapshot handle clock
          = { system with
              locks
              phase := .lockingFallback fallback
              requested := system.requested + 1 }
        ∧ locks.Sound ∧ system.LockFree identity
        ∧ locks.Holds task identity.storageKey
        ∧ locks.Requests task identity.storageKey fallback
        ∧ ¬TailUsable model identity clock snapshot system.repository)
      ∨ (∃ locks, system.readTail model task identity snapshot handle clock
          = { system with locks, phase := .lockingTail snapshot handle }
        ∧ locks.Sound ∧ locks.Requests task identity.storageKey handle
        ∧ (∀ other, locks.Holds other identity.storageKey
          ↔ system.locks.Holds other identity.storageKey)
        ∧ ¬system.LockFree identity) := by
  rcases awaitLock_cases h hrequests with
    ⟨locks, hawait, hsound, hown, hfree⟩ | ⟨locks, hawait, hsound, hasks, hholds, hbusy⟩
  · cases htail : getStreamTail identity snapshot.version clock.tailRead system.repository with
    | none =>
        left
        refine ⟨locks, .ok none, ?_, hsound, hfree, fun _ hentity => ?_⟩
        · simp only [readTail, hawait, htail]
        · cases htail.symm.trans hentity
    | some entity =>
        cases hprepare : model.prepareSnapshot entity snapshot with
        | ok payload =>
            left
            refine ⟨locks, ((model.hydratePreparedSnapshot entity snapshot payload).mapError
              SnapshotHydrationError.toRepositoryError).map some, ?_, hsound, hfree, ?_⟩
            · simp only [readTail, hawait, htail, hprepare]
            · intro found hfound
              cases htail.symm.trans hfound
              exact ⟨payload, hprepare⟩
        | error error =>
            obtain ⟨message, rfl⟩ := model.prepareSnapshot_error error hprepare
            right
            left
            -- The full read finds the lock held by this very load.
            obtain ⟨fallback, opened, hensure, hopened, hasks, hholds⟩ :=
              ensureLock_spec { system with locks } task identity hsound
            have hheld := (hholds task).mpr hown
            rcases readStream_cases
                { system with locks := opened, requested := system.requested + 1 } model clock
                .lockingFallback hopened hasks with
              ⟨_, _, _, _, hnobody⟩ | ⟨final, hread, hfinal, hagain, hsame, -⟩
            · exact absurd hheld (hnobody task)
            · refine ⟨final, fallback, ?_, hfinal, hfree, (hsame task).mpr hheld, hagain, ?_⟩
              · simp only [readTail, hawait, htail, hprepare, hensure, hread]
              · intro husable
                obtain ⟨payload, hpayload⟩ := husable entity htail
                cases hprepare.symm.trans hpayload
  · right
    right
    refine ⟨locks, ?_, hsound, hasks, hholds, hbusy⟩
    simp only [readTail, hawait]

/-- How a poll ends, if the lock is `free` and the snapshot `usable`. -/
inductive Outcome (free usable : Prop) (next : LoadSystem A) : Prop
  | returned (result : Except RepositoryError (Option A))
      : next.phase = .returned result → free → usable → Outcome free usable next
  | blocked (handle : HandleId)
      : next.phase = .lockingFallback handle → free → ¬usable → Outcome free usable next
  | waiting
      : (∀ result, next.phase ≠ .returned result) →
        (∀ handle, next.phase ≠ .lockingFallback handle) → ¬free → Outcome free usable next

structure Polled (task : TaskId) (identity : StreamIdentity) (free usable : Prop)
    (next : LoadSystem A) : Prop where
  sound : Sound task identity next
  outcome : Outcome free usable next

/-- The system after `ensure_lock`, or while the load waits at its first read. -/
structure Asking (task : TaskId) (identity : StreamIdentity) (handle : HandleId)
    (system : LoadSystem A) : Prop where
  locks : system.locks.Sound
  requested : system.requested = 1
  not_holding : ¬system.locks.Holds task identity.storageKey
  requests : system.locks.Requests task identity.storageKey handle

theorem Asking.readStream {handle : HandleId} {usable : Prop}
    (h : Asking task identity handle system) (model : Snapshottable A State)
    (clock : LoadClock) (husable : usable)
    : Polled task identity (system.LockFree identity) usable
        (system.readStream model identity .lockingStream handle clock) := by
  rcases readStream_cases system model clock .lockingStream h.locks h.requests with
    ⟨locks, result, hread, hsound, hfree⟩ | ⟨locks, hread, hsound, hasks, hholds, hbusy⟩
  · rw [hread]
    exact ⟨⟨hsound, h.requested⟩, .returned result rfl hfree husable⟩
  · rw [hread]
    refine ⟨⟨hsound, h.requested, fun hown => h.not_holding ((hholds task).mp hown), hasks⟩, ?_⟩
    exact .waiting (fun _ hphase => by cases hphase) (fun _ hphase => by cases hphase) hbusy

theorem Asking.readTail {handle : HandleId} (h : Asking task identity handle system)
    (model : Snapshottable A State) (clock : LoadClock) (snapshot : SnapshotRecord)
    : Polled task identity (system.LockFree identity)
        (TailUsable model identity clock snapshot system.repository)
        (system.readTail model task identity snapshot handle clock) := by
  rcases readTail_cases model clock snapshot h.locks h.requests with
    ⟨locks, result, hread, hsound, hfree, husable⟩
    | ⟨locks, fallback, hread, hsound, hfree, hown, hasks, hunusable⟩
    | ⟨locks, hread, hsound, hasks, hholds, hbusy⟩
  · rw [hread]
    exact ⟨⟨hsound, h.requested⟩, .returned result rfl hfree husable⟩
  · rw [hread]
    refine ⟨⟨hsound, congrArg (· + 1) h.requested, hown, hasks⟩, ?_⟩
    exact .blocked fallback rfl hfree hunusable
  · rw [hread]
    refine ⟨⟨hsound, h.requested, fun hown => h.not_holding ((hholds task).mp hown), hasks⟩, ?_⟩
    exact .waiting (fun _ hphase => by cases hphase) (fun _ hphase => by cases hphase) hbusy

/-- Before its fallback the load returns if it gets the lock and can use the snapshot, and
takes the fallback if it gets the lock and cannot. -/
theorem Sound.pollLoad (h : Sound task identity system) (model : Snapshottable A State)
    (clock : LoadClock) (hopen : ∀ result, system.phase ≠ .returned result)
    (hfirst : ∀ handle, system.phase ≠ .lockingFallback handle)
    : Polled task identity (system.LockFree identity)
        (system.SnapshotUsable model identity clock)
        (system.pollLoad model task identity clock) := by
  have hstage := h.stage
  unfold Stage at hstage
  cases hphase : system.phase with
  | created =>
      rw [hphase] at hstage
      obtain ⟨hnone, hnot⟩ := hstage
      obtain ⟨handle, locks, hensure, hsound, hasks, hholds⟩ :=
        ensureLock_spec system task identity h.locks
      have hasking : Asking task identity handle
          { system with locks, requested := system.requested + 1 } :=
        ⟨hsound, congrArg (· + 1) hnone, fun hown => hnot ((hholds task).mp hown), hasks⟩
      have hsame : LockFree identity { system with locks, requested := system.requested + 1 }
          ↔ system.LockFree identity :=
        forall_congr' fun other => not_congr (hholds other)
      cases hfound : getSnapshot identity system.repository with
      | none =>
          have hpoll : system.pollLoad model task identity clock
              = LoadSystem.readStream model identity .lockingStream handle clock
                { system with locks, requested := system.requested + 1 } := by
            simp only [LoadSystem.pollLoad, hphase, hfound, hensure]
          rw [← hsame, hpoll]
          refine hasking.readStream model clock ?_
          intro snapshot hsnapshot
          simp only [snapshotInHand, hphase, hfound] at hsnapshot
          cases hsnapshot
      | some snapshot =>
          have hpoll : system.pollLoad model task identity clock
              = LoadSystem.readTail model task identity snapshot handle clock
                { system with locks, requested := system.requested + 1 } := by
            simp only [LoadSystem.pollLoad, hphase, hfound, hensure]
          have husable : system.SnapshotUsable model identity clock
              ↔ TailUsable model identity clock snapshot system.repository := by
            simp [SnapshotUsable, snapshotInHand, hphase, hfound]
          rw [← hsame, hpoll, husable]
          exact hasking.readTail model clock snapshot
  | lockingStream handle =>
      rw [hphase] at hstage
      obtain ⟨hone, hnot, hasks⟩ := hstage
      simp only [LoadSystem.pollLoad, hphase]
      refine Asking.readStream ⟨h.locks, hone, hnot, hasks⟩ model clock ?_
      intro snapshot hsnapshot
      simp only [snapshotInHand, hphase] at hsnapshot
      cases hsnapshot
  | lockingTail snapshot handle =>
      rw [hphase] at hstage
      obtain ⟨hone, hnot, hasks⟩ := hstage
      simp only [LoadSystem.pollLoad, hphase]
      have husable : system.SnapshotUsable model identity clock
          ↔ TailUsable model identity clock snapshot system.repository := by
        simp [SnapshotUsable, snapshotInHand, hphase]
      rw [husable]
      exact Asking.readTail ⟨h.locks, hone, hnot, hasks⟩ model clock snapshot
  | lockingFallback handle => exact absurd hphase (hfirst handle)
  | returned result => exact absurd hphase (hopen result)

/-- At its fallback the load waits for itself. -/
theorem Sound.pollLoad_fallback {handle : HandleId} (h : Sound task identity system)
    (model : Snapshottable A State) (clock : LoadClock)
    (hphase : system.phase = .lockingFallback handle)
    : Sound task identity (system.pollLoad model task identity clock)
      ∧ (system.pollLoad model task identity clock).phase = .lockingFallback handle := by
  have hstage := h.stage
  unfold Stage at hstage
  rw [hphase] at hstage
  obtain ⟨htwo, hown, hasks⟩ := hstage
  simp only [LoadSystem.pollLoad, hphase]
  rcases readStream_cases system model clock .lockingFallback h.locks hasks with
    ⟨_, _, _, _, hfree⟩ | ⟨locks, hread, hsound, hagain, hholds, -⟩
  · exact absurd hown (hfree task)
  · rw [hread]
    exact ⟨⟨hsound, htwo, (hholds task).mpr hown, hagain⟩, rfl⟩

/-- Other tasks leave the load where it is. -/
theorem Sound.step_lock (h : Sound task identity system) {op : LockOp}
    (hallowed : system.locks.Allowed op) (hother : system.locks.ByOther task op)
    : Sound task identity { system with locks := (LockSystem.step op system.locks).2 } := by
  have hholds : (LockSystem.step op system.locks).2.Holds task identity.storageKey
      ↔ system.locks.Holds task identity.storageKey :=
    h.locks.holds_byOther op hallowed hother
  have hasks : ∀ handle, system.locks.Requests task identity.storageKey handle →
      (LockSystem.step op system.locks).2.Requests task identity.storageKey handle :=
    fun handle => h.locks.requests_byOther op hallowed hother
  refine ⟨h.locks.step op hallowed, ?_⟩
  have hstage := h.stage
  unfold Stage at hstage ⊢
  cases hphase : system.phase with
  | created =>
      rw [hphase] at hstage
      exact ⟨hstage.1, fun hown => hstage.2 (hholds.mp hown)⟩
  | lockingStream handle | lockingTail snapshot handle =>
      rw [hphase] at hstage
      exact ⟨hstage.1, fun hown => hstage.2.1 (hholds.mp hown), hasks handle hstage.2.2⟩
  | lockingFallback handle =>
      rw [hphase] at hstage
      exact ⟨hstage.1, hholds.mpr hstage.2.1, hasks handle hstage.2.2⟩
  | returned result =>
      rw [hphase] at hstage
      exact hstage

theorem Starts.sound (h : Starts task identity system) : Sound task identity system := by
  refine ⟨h.locks.sound, ?_⟩
  unfold Stage
  rw [h.phase]
  exact ⟨h.requested, h.lock_free⟩

/-- A load at its fallback stays there for good. -/
theorem blocked_forever {crates : Crates} {later : LoadSystem A} {handle : HandleId}
    (h : Sound task identity system) (hphase : system.phase = .lockingFallback handle)
    (hrun : Reachable (step model task identity crates) (Allowed task) system later)
    : Sound task identity later ∧ later.phase = .lockingFallback handle := by
  induction hrun with
  | start => exact ⟨h, hphase⟩
  | @next current op _ hallowed ih =>
      obtain ⟨hsound, hwaiting⟩ := ih
      cases op with
      | poll clock => exact hsound.pollLoad_fallback model clock hwaiting
      | lock op => exact ⟨hsound.step_lock hallowed.1 hallowed.2, hwaiting⟩
      | repository op => exact ⟨⟨hsound.locks, hsound.stage⟩, hwaiting⟩

/-- While the snapshots it finds are usable the load never takes its fallback. -/
theorem never_falls_back {crates : Crates} {start : LoadSystem A}
    (hstart : Starts task identity start)
    (hrun : Reachable (step model task identity crates)
      (fun event => Allowed task event ∧ UsesSnapshots model identity event) start system)
    : Sound task identity system ∧ ∀ handle, system.phase ≠ .lockingFallback handle := by
  induction hrun with
  | start =>
      refine ⟨hstart.sound, fun handle hphase => ?_⟩
      cases hstart.phase.symm.trans hphase
  | @next current op _ hevent ih =>
      obtain ⟨hsound, hfirst⟩ := ih
      obtain ⟨hallowed, husable⟩ := hevent
      cases op with
      | poll clock =>
          obtain ⟨hnext, houtcome⟩ := hsound.pollLoad model clock hallowed hfirst
          refine ⟨hnext, fun handle hphase => ?_⟩
          cases houtcome with
          | returned result hreturned => cases hreturned.symm.trans hphase
          | blocked _ _ hfree hunusable => exact hunusable (husable clock rfl hfree)
          | waiting _ hnot _ => exact hnot handle hphase
      | lock op => exact ⟨hsound.step_lock hallowed.1 hallowed.2, hfirst⟩
      | repository op => exact ⟨⟨hsound.locks, hsound.stage⟩, hfirst⟩

theorem Sound.requested_le_one (h : Sound task identity system)
    (hfirst : ∀ handle, system.phase ≠ .lockingFallback handle)
    : system.requested ≤ 1 := by
  have hstage := h.stage
  unfold Stage at hstage
  cases hphase : system.phase with
  | created =>
      rw [hphase] at hstage
      exact Nat.le_of_eq hstage.1 |>.trans (Nat.zero_le 1)
  | lockingStream handle | lockingTail snapshot handle =>
      rw [hphase] at hstage
      exact Nat.le_of_eq hstage.1
  | lockingFallback handle => exact absurd hphase (hfirst handle)
  | returned result =>
      rw [hphase] at hstage
      exact Nat.le_of_eq hstage

/-- Until it falls back or returns, the load itself does not hold the lock. -/
theorem Sound.not_holding (h : Sound task identity system)
    (hopen : ∀ result, system.phase ≠ .returned result)
    (hfirst : ∀ handle, system.phase ≠ .lockingFallback handle)
    : ¬system.locks.Holds task identity.storageKey := by
  have hstage := h.stage
  unfold Stage at hstage
  cases hphase : system.phase with
  | created =>
      rw [hphase] at hstage
      exact hstage.2
  | lockingStream handle | lockingTail snapshot handle =>
      rw [hphase] at hstage
      exact hstage.2.1
  | lockingFallback handle => exact absurd hphase (hfirst handle)
  | returned result => exact absurd hphase (hopen result)

/-- In a run in which every snapshot record that the load gets to use can be prepared, the
load asks for the lock of its stream at most once, and a poll at which no other task holds
the lock completes it. -/
theorem load_completes_without_waiting_for_itself {crates : Crates} {start : LoadSystem A}
    (hstart : Starts task identity start)
    (hrun : Reachable (step model task identity crates)
      (fun event => Allowed task event ∧ UsesSnapshots model identity event) start system)
    : system.requested ≤ 1
      ∧ ∀ clock, (∀ result, system.phase ≠ .returned result) →
        (∀ other, other ≠ task → ¬system.locks.Holds other identity.storageKey) →
        system.SnapshotUsable model identity clock →
        ∃ result, (system.pollLoad model task identity clock).phase = .returned result := by
  obtain ⟨hsound, hfirst⟩ := never_falls_back hstart hrun
  refine ⟨hsound.requested_le_one hfirst, ?_⟩
  intro clock hopen hothers husable
  have hfree : system.LockFree identity := by
    intro other hholds
    by_cases hother : other = task
    · exact hsound.not_holding hopen hfirst (hother ▸ hholds)
    · exact hothers other hother hholds
  obtain ⟨-, houtcome⟩ := hsound.pollLoad model clock hopen hfirst
  cases houtcome with
  | returned result hreturned => exact ⟨result, hreturned⟩
  | blocked _ _ _ hunusable => exact absurd husable hunusable
  | waiting _ _ hbusy => exact absurd hfree hbusy

/-- A load that gets the lock and cannot use the snapshot record it found asks for the lock
again, and never returns. -/
theorem unusable_snapshot_blocks {crates : Crates} {later : LoadSystem A}
    (h : Sound task identity system) (hopen : ∀ result, system.phase ≠ .returned result)
    (hfirst : ∀ handle, system.phase ≠ .lockingFallback handle)
    (hfree : system.LockFree identity)
    (hunusable : ¬system.SnapshotUsable model identity clock)
    (hrun : Reachable (step model task identity crates) (Allowed task)
      (system.pollLoad model task identity clock) later)
    : later.locks.Holds task identity.storageKey
      ∧ ∀ result, later.phase ≠ .returned result := by
  obtain ⟨hsound, houtcome⟩ := h.pollLoad model clock hopen hfirst
  cases houtcome with
  | returned _ _ _ husable => exact absurd husable hunusable
  | blocked handle hphase =>
      obtain ⟨hlater, hstuck⟩ := blocked_forever hsound hphase hrun
      have hstage := hlater.stage
      unfold Stage at hstage
      rw [hstuck] at hstage
      refine ⟨hstage.2.1, fun result hreturned => ?_⟩
      cases hstuck.symm.trans hreturned
  | waiting _ _ hbusy => exact absurd hfree hbusy

/-- One event and the snapshot that was taken after it, of layout version 1. -/
def cachedStream : InMemoryRepository where
  eventStore := AList.singleton todoStream.storageKey [EventRecord.newVersioned "Created" [] 1 1 0]
  snapshotStore :=
    AList.singleton todoStream.storageKey (SnapshotRecord.new "todo" "1" 1 1 [] 0)
  projectionChangeRetention := defaultProjectionChangeRetention

def freshLoad : LoadSystem Entity where
  locks := {}
  repository := cachedStream

theorem freshLoad_starts : Starts 0 todoStream freshLoad := by
  refine ⟨.start, rfl, rfl, ?_⟩
  rintro ⟨lock, hholder, -⟩
  cases hholder

theorem freshLoad_lockFree : freshLoad.LockFree todoStream := by
  rintro other ⟨lock, hholder, -⟩
  cases hholder

/-- With the layout the snapshot was taken in, the first poll completes the load. -/
theorem freshLoad_completes
    : freshLoad.requested ≤ 1
      ∧ ∃ result, (freshLoad.pollLoad (plainAggregate 1) 0 todoStream ⟨0, 0⟩).phase
        = .returned result := by
  have hrun : Reachable (step (plainAggregate 1) 0 todoStream uncalledCrates)
      (fun event => Allowed 0 event ∧ UsesSnapshots (plainAggregate 1) todoStream event)
      freshLoad freshLoad := .start
  have hcompletes := load_completes_without_waiting_for_itself freshLoad_starts hrun
  refine ⟨hcompletes.1, hcompletes.2 ⟨0, 0⟩ (fun _ h => by cases h) ?_ ?_⟩
  · exact fun other _ => freshLoad_lockFree other
  · rintro snapshot ⟨⟩ entity ⟨⟩
    exact ⟨(), rfl⟩

/-- After the layout version was raised the first poll asks for the lock twice, and the load
then waits for the lock that it holds, however the run goes on. -/
theorem raised_snapshot_version_blocks_load
    : (freshLoad.pollLoad (plainAggregate 2) 0 todoStream ⟨0, 0⟩).requested = 2
      ∧ ∀ crates later, Reachable (step (plainAggregate 2) 0 todoStream crates) (Allowed 0)
          (freshLoad.pollLoad (plainAggregate 2) 0 todoStream ⟨0, 0⟩) later →
        later.locks.Holds 0 todoStream.storageKey
        ∧ ∀ result, later.phase ≠ .returned result := by
  refine ⟨rfl, fun crates later hrun => ?_⟩
  refine unusable_snapshot_blocks freshLoad_starts.sound (fun _ h => by cases h)
    (fun _ h => by cases h) freshLoad_lockFree ?_ hrun
  intro husable
  obtain ⟨payload, hpayload⟩ := husable _ rfl _ rfl
  cases hpayload

end LoadSystem

end Distributed.QueuedRepo
