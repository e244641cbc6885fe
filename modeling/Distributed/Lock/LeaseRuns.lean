import Distributed.Lock.LeaseGates

/-! What holds of every run of calls on the lease-table locks.
-/

namespace Distributed.Lock

open Distributed.Foundation Distributed.Platform

/-- The call ends without success: with an error, by a timeout, not acquired or dropped. -/
def LeaseAnswer.Fails (answer : LeaseAnswer) (id : CallId) : Prop :=
  answer = .notAcquired id ∨ answer = .cancelled id ∨ ∃ error, answer = .failed id error

namespace LeaseSystem

/-- The call had the gate, and the gate is free again. -/
structure Frees (before after : LeaseSystem) (id : CallId) (key : String) : Prop where
  owned : before.Owns id key
  unheld : ∀ token, ¬before.Holds id key token
  locked : (after.shared key).gate.locked = false
  token : (after.shared key).token = (before.shared key).token

/-- The call did not have a gate, and all gates and tokens are as before. -/
structure Spares (before after : LeaseSystem) (id : CallId) : Prop where
  unowned : ∀ key, ¬before.Owns id key
  locked : ∀ key, (after.shared key).gate.locked = (before.shared key).gate.locked
  token : ∀ key, (after.shared key).token = (before.shared key).token

/-- What one step does to one call. -/
structure Effect (op : LeaseOp) (answer : LeaseAnswer) (before after : LeaseSystem)
    (id : CallId) (key : String) : Prop where
  changes : Changes before after id key
  moves : Moves before after id key
  kept : ∀ token, before.Holds id key token → after.Holds id key token ∨ op = .unlock id
  ended : ∀ call, answer.Fails call → call = id ∧ after.calls.lookup id = none
    ∧ (Frees before after id key ∨ Spares before after id)
  won : ∀ call, answer = .acquired call → call = id ∧ ∃ token, after.Holds id key token

/-- An answer that ends no call. -/
structure Silent (answer : LeaseAnswer) : Prop where
  fails : ∀ id, ¬answer.Fails id
  acquired : ∀ id, answer ≠ .acquired id

theorem silent_none : Silent .none := by
  constructor
  · simp [LeaseAnswer.Fails]
  · simp

theorem silent_begun (id : CallId) : Silent (.begun id) := by
  constructor
  · simp [LeaseAnswer.Fails]
  · simp

theorem silent_unlocked (id : CallId) : Silent (.unlocked id) := by
  constructor
  · simp [LeaseAnswer.Fails]
  · simp

variable {op : LeaseOp} {answer : LeaseAnswer} {before after : LeaseSystem} {id : CallId}

variable {key : String}

theorem Effect.of_silent (hanswer : Silent answer) (hchanges : Changes before after id key)
    (hmoves : Moves before after id key)
    (hkept : ∀ token, before.Holds id key token → after.Holds id key token ∨ op = .unlock id)
    : Effect op answer before after id key where
  changes := hchanges
  moves := hmoves
  kept := hkept
  ended := fun call hfails => absurd hfails (hanswer.fails call)
  won := fun call hwon => absurd hwon (hanswer.acquired call)

/-- A call that owns the gate but holds no lock ends, and drops its guard. -/
theorem Effect.of_finishGuarded {call : LeaseCall}
    (hcall : before.calls.lookup id = some call)
    (hphase : call.phase.Guarded) (hanswer : ∀ other, answer.Fails other → other = id)
    (hlost : ∀ other, answer ≠ .acquired other)
    : Effect op answer before (before.finishGuarded id call) id call.key := by
  have howned := owns_of_guarded hcall hphase
  have hunheld := not_holds_of_guarded hcall hphase
  have hmissing : (before.finishGuarded id call).calls.lookup id = none :=
    AList.lookup_erase id before.calls
  have hshared : (before.finishGuarded id call).shared call.key
      = (before.shared call.key).dropGuard :=
    Function.update_self ..
  have hlocked : ((before.finishGuarded id call).shared call.key).gate.locked = false := by
    rw [hshared]
    simp only [LockShared.dropGuard, LockState.release]
    split
    · rfl
    · rename_i hopen
      simpa using hopen
  have htoken : ((before.finishGuarded id call).shared call.key).token
      = (before.shared call.key).token := by
    rw [hshared]
    rfl
  constructor
  · refine .of_finish hcall rfl rfl ?_
    intro other hother
    exact Function.update_of_ne hother _ _
  · exact .leaves howned hunheld (not_owns_of_missing hmissing _) hlocked htoken
  · exact fun token hholds => absurd hholds (hunheld token)
  · intro other hfails
    exact ⟨hanswer other hfails, hmissing, .inl ⟨howned, hunheld, hlocked, htoken⟩⟩
  · exact fun other hwon => absurd hwon (hlost other)

/-- A call moves between two phases in which its guard is armed. -/
theorem Effect.of_retry (hsound : Sound before) {call : LeaseCall}
    (hcall : before.calls.lookup id = some call) (hphase : call.phase.Guarded)
    {phase : LeasePhase} (hnext : phase.Guarded)
    : Effect op .none before (before.setPhase id call phase) id call.key := by
  have hfound : (before.setPhase id call phase).calls.lookup id = some { call with phase } :=
    AList.lookup_insert before.calls
  have howns := owns_of_guarded hfound hnext
  have hunheld := not_holds_of_guarded hcall hphase
  have hunheldAfter := not_holds_of_guarded hfound hnext
  refine .of_silent silent_none (.of_setPhase hsound hcall rfl rfl fun _ _ => rfl) ?_ ?_
  · exact .keeps (iff_of_true howns (owns_of_guarded hcall hphase))
      (fun token => iff_of_false (hunheldAfter token) (hunheld token)) rfl rfl
  · exact fun token hholds => absurd hholds (hunheld token)

/-- Nothing happens to the call. -/
theorem Effect.of_idle (hsound : Sound before)
    (hkey : ∀ call, before.calls.lookup id = some call → call.key = key)
    : Effect op .none before before id key := by
  refine .of_silent silent_none ?_ (.keeps Iff.rfl (fun _ => Iff.rfl) rfl rfl)
    fun _ hholds => .inl hholds
  exact ⟨fun _ _ => rfl, fun _ _ => rfl, Nat.le_refl _, hsound.older id, hkey, hkey⟩

theorem poll_locked (task : TaskId) (state : LockState)
    : ((state.poll task).1 = .ready ∧ state.locked = false
        ∧ (state.poll task).2.locked = true)
      ∨ (state.poll task).1 = .pending ∧ (state.poll task).2.locked = state.locked := by
  unfold LockState.poll
  split
  · rename_i hfree
    exact .inl ⟨rfl, hfree, rfl⟩
  · split
    · exact .inr ⟨rfl, rfl⟩
    · exact .inr ⟨rfl, rfl⟩

/-- A call is given the gate and asks for the lease. -/
theorem Effect.of_enter (hanswer : Silent answer) (hchanges : Changes before after id key)
    (hunheld : ∀ token, ¬before.Holds id key token) {call : LeaseCall} {mode : LeaseMode}
    {asked : String} (hcall : after.calls.lookup id = some call)
    (hphase : call.phase = .acquiring mode asked)
    (hfree : (before.shared key).gate.locked = false)
    (hlocked : (after.shared key).gate.locked = true)
    (htoken : (after.shared key).token = (before.shared key).token)
    : Effect op answer before after id key := by
  have hkey : call.key = key := hchanges.keyAfter call hcall
  refine .of_silent hanswer hchanges (.enters hfree ?_ ?_ hlocked htoken) ?_
  · rw [← hkey, owns_iff_of_lookup hcall, hphase]
    exact fun started => LeasePhase.noConfusion
  · intro token
    rw [← hkey, holds_iff_of_lookup hcall, hphase]
    exact LeasePhase.noConfusion
  · exact fun token hholds => absurd hholds (hunheld token)

/-- A call that waits for the gate looks at it in vain. -/
theorem Effect.of_wait (hsound : Sound before) {call : LeaseCall}
    (hcall : before.calls.lookup id = some call) {gate : LockState}
    (hlocked : gate.locked = (before.shared call.key).gate.locked)
    : Effect op .none before
        (before.setShared call.key { before.shared call.key with gate }) id call.key := by
  have hshared : (before.setShared call.key { before.shared call.key with gate }).shared
      call.key = { before.shared call.key with gate } :=
    Function.update_self ..
  refine .of_silent silent_none ?_ ?_ fun _ hholds => .inl hholds
  · exact ⟨fun _ _ => rfl, fun other hother => Function.update_of_ne hother _ _,
      Nat.le_refl _, hsound.older id, key_of_lookup hcall, key_of_lookup hcall⟩
  · refine .keeps Iff.rfl (fun _ => Iff.rfl) ?_ ?_
    · rw [hshared]
      exact hlocked
    · rw [hshared]

/-- A call that waits for the gate ends. -/
theorem Effect.of_giveUp {call : LeaseCall} (hcall : before.calls.lookup id = some call)
    {started : Instant} (hphase : call.phase = .waiting started)
    (hcalls : after.calls = before.calls.erase id) (hbegun : after.begun = before.begun)
    (hshared : ∀ other, other ≠ call.key → after.shared other = before.shared other)
    (hlocked : (after.shared call.key).gate.locked = (before.shared call.key).gate.locked)
    (htoken : (after.shared call.key).token = (before.shared call.key).token)
    (hanswer : ∀ other, answer.Fails other → other = id)
    (hlost : ∀ other, answer ≠ .acquired other)
    : Effect op answer before after id call.key := by
  have hunowned : ∀ key, ¬before.Owns id key := by
    rintro key ⟨found, hfound, -, hnot⟩
    rw [hcall] at hfound
    cases hfound
    exact hnot started hphase
  have hmissing : after.calls.lookup id = none := by
    rw [hcalls, AList.lookup_erase]
  constructor
  · exact .of_finish hcall hcalls hbegun hshared
  · exact .keeps (iff_of_false (not_owns_of_missing hmissing _) (hunowned _))
      (fun token => iff_of_false (fun hholds => not_owns_of_missing hmissing _ hholds.owns)
        fun hholds => hunowned _ hholds.owns) hlocked htoken
  · exact fun token hholds => absurd hholds.owns (hunowned _)
  · intro other hfails
    refine ⟨hanswer other hfails, hmissing, .inr ⟨hunowned, ?_, ?_⟩⟩
    · intro key
      by_cases hkey : key = call.key
      · rw [hkey, hlocked]
      · rw [hshared key hkey]
    · intro key
      by_cases hkey : key = call.key
      · rw [hkey, htoken]
      · rw [hshared key hkey]
  · exact fun other hwon => absurd hwon (hlost other)

/-- A waiting call is given the gate, or it waits on, or its time is over. -/
theorem pollGate_effect (manager : LeaseManager) (hsound : Sound before) {call : LeaseCall}
    (hcall : before.calls.lookup id = some call) (expired : Bool)
    : Effect op (before.pollGate manager id call expired).1 before
        (before.pollGate manager id call expired).2 id call.key := by
  unfold pollGate
  split
  · rename_i started hphase
    have hunheld : ∀ token, ¬before.Holds id call.key token := by
      intro token
      rw [holds_iff_of_lookup hcall, hphase]
      exact LeasePhase.noConfusion
    have hpolled := poll_locked call.task (before.shared call.key).gate
    dsimp only
    generalize (before.shared call.key).gate.poll call.task = polled at hpolled
    obtain ⟨result, gate⟩ := polled
    have hshared : (before.setShared call.key { before.shared call.key with gate }).shared
        call.key = { before.shared call.key with gate } :=
      Function.update_self ..
    rcases hpolled with ⟨rfl, hfree, hlocked⟩ | ⟨rfl, hlocked⟩
    · refine .of_enter silent_none (.of_setPhase hsound hcall rfl rfl ?_) hunheld
        (AList.lookup_insert _) rfl hfree ?_ ?_
      · exact fun other hother => Function.update_of_ne hother _ _
      · exact (congrArg (fun shared => shared.gate.locked) hshared).trans hlocked
      · exact (congrArg LockShared.token hshared).trans rfl
    · cases manager.maxWait with
      | none => exact .of_wait hsound hcall hlocked
      | some limit =>
          cases expired with
          | false => exact .of_wait hsound hcall hlocked
          | true =>
              refine .of_giveUp hcall hphase rfl rfl
                (fun other hother => Function.update_of_ne hother _ _) ?_ ?_ ?_ ?_
              · exact (congrArg (fun shared => shared.gate.locked) hshared).trans hlocked
              · exact (congrArg LockShared.token hshared).trans rfl
              · simp [LeaseAnswer.Fails, eq_comm]
              · simp
  · exact .of_idle hsound (key_of_lookup hcall)

theorem tryLockCore_cases (state : LockState)
    : (state.locked = true ∧ state.tryLockCore = (false, state))
      ∨ state.locked = false ∧ state.tryLockCore = (true, { state with locked := true }) := by
  unfold LockState.tryLockCore
  split
  · rename_i hlocked
    exact .inl ⟨hlocked, rfl⟩
  · rename_i hfree
    exact .inr ⟨by simpa using hfree, rfl⟩

theorem tryLock_effect (manager : LeaseManager) (hsound : Sound before) (task : TaskId)
    (key : String)
    : Effect op (before.tryLock manager task key).1 before
        (before.tryLock manager task key).2 before.begun key := by
  have hmissing := hsound.lookup_begun
  have hunowned := not_owns_of_missing hmissing
  unfold tryLock
  rcases tryLockCore_cases (before.shared key).gate with ⟨hlocked, htry⟩ | ⟨hfree, htry⟩
  · simp only [htry]
    constructor
    · refine ⟨fun _ _ => rfl, fun _ _ => rfl, Nat.le_succ _, ?_, ?_, ?_⟩
      · exact fun _ _ => Nat.lt_succ_self _
      · intro call hcall
        rw [hmissing] at hcall
        cases hcall
      · intro call hcall
        rw [hmissing] at hcall
        cases hcall
    · exact .keeps Iff.rfl (fun _ => Iff.rfl) rfl rfl
    · exact fun token hholds => .inl hholds
    · intro call hfails
      refine ⟨?_, hmissing, .inr ⟨hunowned, fun _ => rfl, fun _ => rfl⟩⟩
      simpa [LeaseAnswer.Fails, eq_comm] using hfails
    · simp
  · simp only [htry, mintToken]
    have hshared := Function.update_self key
      { before.shared key with gate := { (before.shared key).gate with locked := true } }
      before.shared
    refine .of_enter (silent_begun _) (.of_start hsound rfl rfl ?_)
      (fun token hholds => hunowned key hholds.owns) (AList.lookup_insert _) rfl hfree ?_ ?_
    · exact fun other hother => Function.update_of_ne hother _ _
    · exact (congrArg (fun shared => shared.gate.locked) hshared).trans rfl
    · exact (congrArg LockShared.token hshared).trans rfl

/-- The lease is won: the token is stored and the guard disarmed. -/
theorem Effect.of_win (hsound : Sound before) {call : LeaseCall} {mode : LeaseMode}
    {token : String} (hcall : before.calls.lookup id = some call)
    (hphase : call.phase = .acquiring mode token)
    : Effect op (.acquired id) before
        ((before.setShared call.key ((before.shared call.key).storeToken (some token)).2).setPhase
          id call (.holding token)) id call.key := by
  have hguarded : call.phase.Guarded := hphase ▸ .acquiring mode token
  have howned := owns_of_guarded hcall hguarded
  have hunheld := not_holds_of_guarded hcall hguarded
  have hshared := Function.update_self call.key
    ((before.shared call.key).storeToken (some token)).2 before.shared
  have hholds : ((before.setShared call.key
      ((before.shared call.key).storeToken (some token)).2).setPhase id call
        (.holding token)).Holds id call.key token :=
    ⟨_, AList.lookup_insert _, rfl, rfl⟩
  constructor
  · refine .of_setPhase hsound hcall rfl rfl ?_
    exact fun other hother => Function.update_of_ne hother _ _
  · refine .wins howned hunheld hholds ?_ ?_
    · exact (congrArg (fun shared => shared.gate.locked) hshared).trans rfl
    · exact (congrArg LockShared.token hshared).trans rfl
  · exact fun token hheld => absurd hheld (hunheld token)
  · simp [LeaseAnswer.Fails]
  · intro other hwon
    cases hwon
    exact ⟨rfl, token, hholds⟩

theorem dbAcquire_effect (manager : LeaseManager) (hsound : Sound before) {call : LeaseCall}
    (hcall : before.calls.lookup id = some call) (result : Except LockError Bool)
    (now : Instant)
    : Effect op (before.dbAcquire manager id call result now).1 before
        (before.dbAcquire manager id call result now).2 id call.key := by
  have hsleep {started : Instant} {token : String}
      (hphase : call.phase = .acquiring (.lock started) token)
      : Effect op .none before (before.setPhase id call (.sleeping started token)) id
          call.key :=
    .of_retry hsound hcall (hphase ▸ .acquiring _ _) (.sleeping _ _)
  unfold dbAcquire
  split
  · rename_i mode token hphase
    have hends {answer : LeaseAnswer} (hfails : ∀ other, answer.Fails other → other = id)
        (hlost : ∀ other, answer ≠ .acquired other)
        : Effect op answer before (before.finishGuarded id call) id call.key :=
      .of_finishGuarded hcall (hphase ▸ .acquiring _ _) hfails hlost
    split
    · exact .of_win hsound hcall hphase
    · exact hends (by simp [LeaseAnswer.Fails, eq_comm]) (by simp)
    · split
      · exact hends (by simp [LeaseAnswer.Fails, eq_comm]) (by simp)
      · split
        · split
          · exact hends (by simp [LeaseAnswer.Fails, eq_comm]) (by simp)
          · exact hsleep hphase
        · exact hsleep hphase
  · exact .of_idle hsound (key_of_lookup hcall)

theorem wake_effect (hsound : Sound before) {call : LeaseCall}
    (hcall : before.calls.lookup id = some call)
    : Effect op .none before (before.wake id call) id call.key := by
  unfold wake
  split
  · rename_i started token hphase
    exact .of_retry hsound hcall (hphase ▸ .sleeping _ _) (.acquiring _ _)
  · exact .of_idle hsound (key_of_lookup hcall)

/-- The matching unlock takes the token out; the gate stays with the call until the lease
row is released. -/
theorem unlock_effect (hsound : Sound before) {call : LeaseCall}
    (hcall : before.calls.lookup id = some call)
    : Effect (.unlock id) (before.unlock id call).1 before (before.unlock id call).2 id
        call.key := by
  unfold unlock
  split
  · rename_i token hphase
    have hholds : before.Holds id call.key token := (holds_iff_of_lookup hcall).mpr hphase
    have htoken : (before.shared call.key).token = some token :=
      (hsound.token call.key token).mpr ⟨id, hholds⟩
    simp only [LockShared.storeToken, htoken]
    have hshared := Function.update_self call.key
      { before.shared call.key with token := none } before.shared
    have hfound : AList.lookup id (before.calls.insert id { call with phase := .releasing token })
        = some { call with phase := .releasing token } :=
      AList.lookup_insert before.calls
    refine .of_silent silent_none (.of_setPhase hsound hcall rfl rfl ?_) ?_
      fun _ _ => .inr rfl
    · exact fun other hother => Function.update_of_ne hother _ _
    · refine .returns hholds.owns ⟨_, hfound, rfl, fun _ => LeasePhase.noConfusion⟩ ?_ ?_ ?_
      · rintro other ⟨released, hreleased, -, hholding⟩
        have hsame := hfound.symm.trans hreleased
        cases hsame
        cases hholding
      · exact (congrArg (fun shared => shared.gate.locked) hshared).trans rfl
      · exact (congrArg LockShared.token hshared).trans rfl
  · exact .of_idle hsound (key_of_lookup hcall)

theorem dbRelease_effect (hsound : Sound before) {call : LeaseCall}
    (hcall : before.calls.lookup id = some call)
    : Effect op (before.dbRelease id call).1 before (before.dbRelease id call).2 id
        call.key := by
  unfold dbRelease
  split
  · rename_i token hphase
    refine .of_finishGuarded hcall (hphase ▸ .releasing _) ?_ ?_
    · exact fun other hfails => absurd hfails ((silent_unlocked id).fails other)
    · exact (silent_unlocked id).acquired
  · exact .of_idle hsound (key_of_lookup hcall)

theorem cancel_effect (hsound : Sound before) {call : LeaseCall}
    (hcall : before.calls.lookup id = some call)
    : Effect op (before.cancel id call).1 before (before.cancel id call).2 id call.key := by
  unfold cancel
  split
  · rename_i started hphase
    refine .of_giveUp hcall hphase rfl rfl (fun _ _ => rfl) rfl rfl ?_ ?_
    · simp [LeaseAnswer.Fails, eq_comm]
    · simp
  · rename_i mode token hphase
    refine .of_finishGuarded hcall (hphase ▸ .acquiring _ _) ?_ ?_
    · simp [LeaseAnswer.Fails, eq_comm]
    · simp
  · rename_i started token hphase
    refine .of_finishGuarded hcall (hphase ▸ .sleeping _ _) ?_ ?_
    · simp [LeaseAnswer.Fails, eq_comm]
    · simp
  · exact .of_idle hsound (key_of_lookup hcall)
  · rename_i token hphase
    refine .of_finishGuarded hcall (hphase ▸ .releasing _) ?_ ?_
    · exact fun other hfails => absurd hfails ((silent_unlocked id).fails other)
    · exact (silent_unlocked id).acquired

theorem lock_effect (hsound : Sound before) (task : TaskId) (key : String) (now : Instant)
    : Effect op (.begun before.begun) before (before.startCall task key (.waiting now))
        before.begun key := by
  have hunowned := not_owns_of_missing hsound.lookup_begun key
  have hfound : (before.startCall task key (.waiting now)).calls.lookup before.begun
      = some { key, task, phase := .waiting now } :=
    AList.lookup_insert before.calls
  have hwaits : ¬(before.startCall task key (.waiting now)).Owns before.begun key :=
    fun howns => (owns_iff_of_lookup hfound).mp howns now rfl
  refine .of_silent (silent_begun _) (.of_start hsound rfl rfl fun _ _ => rfl) ?_ ?_
  · exact .keeps (iff_of_false hwaits hunowned)
      (fun token => iff_of_false (fun hholds => hwaits hholds.owns)
        fun hholds => hunowned hholds.owns) rfl rfl
  · exact fun token hholds => absurd hholds.owns hunowned

theorem onCall_effect {work : LeaseCall → LeaseSystem → LeaseAnswer × LeaseSystem}
    (hsound : Sound before)
    (hwork : ∀ call, before.calls.lookup id = some call →
      Effect op (work call before).1 before (work call before).2 id call.key)
    : ∃ key, Effect op (onCall id work before).1 before (onCall id work before).2 id key := by
  unfold onCall
  cases hcall : before.calls.lookup id with
  | some call => exact ⟨call.key, hwork call hcall⟩
  | none =>
      refine ⟨"", .of_idle hsound fun found hfound => ?_⟩
      rw [hcall] at hfound
      cases hfound

theorem step_effect (manager : LeaseManager) (hsound : Sound before) (op : LeaseOp)
    : ∃ id key, Effect op (step manager op before).1 before (step manager op before).2 id
        key := by
  cases op with
  | lock task key now => exact ⟨_, _, lock_effect hsound task key now⟩
  | pollGate id expired =>
      exact ⟨id, onCall_effect hsound fun _ hcall =>
        pollGate_effect manager hsound hcall expired⟩
  | tryLock task key => exact ⟨_, _, tryLock_effect manager hsound task key⟩
  | dbAcquire id result now =>
      exact ⟨id, onCall_effect hsound fun _ hcall =>
        dbAcquire_effect manager hsound hcall result now⟩
  | wake id => exact ⟨id, onCall_effect hsound fun _ hcall => wake_effect hsound hcall⟩
  | unlock id => exact ⟨id, onCall_effect hsound fun _ hcall => unlock_effect hsound hcall⟩
  | dbRelease id result =>
      exact ⟨id, onCall_effect hsound fun _ hcall => dbRelease_effect hsound hcall⟩
  | cancel id => exact ⟨id, onCall_effect hsound fun _ hcall => cancel_effect hsound hcall⟩

end LeaseSystem

abbrev LeaseEvent : Type := Event LeaseSystem LeaseOp LeaseAnswer

/-- The events of a run of calls on a new manager. -/
def leaseHistory (manager : LeaseManager) (ops : List LeaseOp) : List LeaseEvent :=
  history (LeaseSystem.step manager) {} ops

/-- The state after a run of calls on a new manager. -/
def leased (manager : LeaseManager) (ops : List LeaseOp) : LeaseSystem :=
  finalState (LeaseSystem.step manager) {} ops

namespace LeaseSystem

theorem sound_of_reachable {manager : LeaseManager} {system : LeaseSystem}
    (h : Reachable (step manager) (fun _ => True) {} system)
    : Sound system := by
  refine h.invariant sound_start ?_
  intro state op hsound _
  obtain ⟨id, key, heffect⟩ := step_effect manager hsound op
  exact hsound.change heffect.changes heffect.moves

theorem sound_leased (manager : LeaseManager) (ops : List LeaseOp)
    : Sound (leased manager ops) :=
  sound_of_reachable (finalState_reachable (fun _ => True) fun _ _ => trivial)

theorem event_effect {manager : LeaseManager} {ops : List LeaseOp} {event : LeaseEvent}
    (h : event ∈ leaseHistory manager ops)
    : Sound event.before
      ∧ ∃ id key, Effect event.op event.answer event.before event.after id key := by
  have hreach := history_reachable (fun _ => True) (fun _ _ => trivial) event h
  have hsound := sound_of_reachable hreach.1
  obtain ⟨id, key, heffect⟩ := step_effect manager hsound event.op
  rw [history_step h] at heffect
  exact ⟨hsound, id, key, heffect⟩

/-- The lock is held: its gate is locked and its token remembered. -/
structure Held (system : LeaseSystem) (id : CallId) (key token : String) : Prop where
  holds : system.Holds id key token
  locked : (system.shared key).gate.locked = true
  token : (system.shared key).token = some token

theorem Sound.held {system : LeaseSystem} (h : Sound system) {id : CallId}
    {key token : String} (hholds : system.Holds id key token)
    : system.Held id key token :=
  ⟨hholds, (h.locked key).mpr ⟨id, hholds.owns⟩, (h.token key token).mpr ⟨id, hholds⟩⟩

/-- A call that ended without success is gone, and the gate it took is free with no token
remembered; a call that had not taken a gate leaves all of them as they are. -/
structure LeavesNoGate (event : LeaseEvent) (id : CallId) : Prop where
  gone : event.after.calls.lookup id = none
  gates : (∃ key, event.before.Owns id key ∧ (event.after.shared key).gate.locked = false
      ∧ (event.after.shared key).token = none)
    ∨ Spares event.before event.after id

theorem leavesNoGate_of_fails {manager : LeaseManager} {system : LeaseSystem} {op : LeaseOp}
    {id : CallId} (hsound : Sound system) (hfails : (step manager op system).1.Fails id)
    : LeavesNoGate (.ofStep (step manager) system op) id := by
  obtain ⟨call, key, heffect⟩ := step_effect manager hsound op
  obtain ⟨rfl, hgone, hfrees | hspares⟩ := heffect.ended id hfails
  · refine ⟨hgone, .inl ⟨key, hfrees.owned, hfrees.locked, ?_⟩⟩
    exact hfrees.token.trans (hsound.token_eq_none hfrees.owned hfrees.unheld)
  · exact ⟨hgone, .inr hspares⟩

/-- The future of a call that has not returned can be dropped wherever it is. -/
theorem step_cancel (manager : LeaseManager) {system : LeaseSystem} {id : CallId}
    {call : LeaseCall} (hcall : system.calls.lookup id = some call)
    (hpending : ∀ token, call.phase ≠ .holding token ∧ call.phase ≠ .releasing token)
    : (step manager (.cancel id) system).1 = .cancelled id := by
  simp only [step, onCall, hcall, cancel]
  split
  · rfl
  · rfl
  · rfl
  · exact absurd ‹_› (hpending _).1
  · exact absurd ‹_› (hpending _).2

/-- Every answer of the lease query ends the call, but for a lost race of a `lock` that may
wait on. -/
theorem step_dbAcquire {manager : LeaseManager} {system : LeaseSystem} {id : CallId}
    {call : LeaseCall} {mode : LeaseMode} {token : String}
    (hcall : system.calls.lookup id = some call) (hphase : call.phase = .acquiring mode token)
    (now : Instant)
    : (step manager (.dbAcquire id (.ok true) now) system).1 = .acquired id
      ∧ (∀ error, (step manager (.dbAcquire id (.error error) now) system).1 = .failed id error)
      ∧ ((∀ started, mode = .lock started →
          ∃ limit, manager.maxWait = some limit ∧ limit ≤ now - started) →
        (step manager (.dbAcquire id (.ok false) now) system).1.Fails id) := by
  simp only [step, onCall, hcall, dbAcquire, hphase]
  refine ⟨trivial, fun _ => trivial, fun hexpired => ?_⟩
  cases mode with
  | tryLock => exact .inl rfl
  | lock started =>
      obtain ⟨limit, hlimit, hpast⟩ := hexpired started rfl
      simp only [hlimit, if_pos hpast]
      exact .inr (.inr ⟨_, rfl⟩)

/-- Only the matching unlock ends a hold. -/
theorem unlock_of_turn {manager : LeaseManager} {ops : List LeaseOp} {event : LeaseEvent}
    (hevent : event ∈ leaseHistory manager ops) {id : CallId} {key token : String}
    (hbefore : event.before.Holds id key token) (hafter : ¬event.after.Holds id key token)
    : event.op = .unlock id := by
  obtain ⟨hsound, call, name, heffect⟩ := event_effect hevent
  by_cases hcall : id = call
  · subst hcall
    obtain ⟨found, hfound, hkey, hphase⟩ := hbefore
    have hname : key = name := hkey.symm.trans (heffect.changes.keyBefore found hfound)
    subst hname
    exact (heffect.kept token ⟨found, hfound, hkey, hphase⟩).resolve_left hafter
  · exact absurd ((heffect.changes.holds_other hcall key token).mpr hbefore) hafter

end LeaseSystem

/-- What holds of the calls on the locks of one manager. -/
structure GatesFollowCalls (manager : LeaseManager) (ops : List LeaseOp) : Prop where
  /-- A call that did not return success leaves no gate and no token behind. -/
  failed : ∀ event ∈ leaseHistory manager ops, ∀ id, event.answer.Fails id →
    LeaseSystem.LeavesNoGate event id
  /-- A call that is dropped before it returned is such a call. -/
  dropped : ∀ id call, (leased manager ops).calls.lookup id = some call →
    (∀ token, call.phase ≠ .holding token ∧ call.phase ≠ .releasing token) →
    (LeaseSystem.step manager (.cancel id) (leased manager ops)).1 = .cancelled id
      ∧ LeaseSystem.LeavesNoGate
        (.ofStep (LeaseSystem.step manager) (leased manager ops) (.cancel id)) id
  /-- So is one whose lease query fails, or is lost when it cannot be asked again. -/
  answered : ∀ id call mode token, (leased manager ops).calls.lookup id = some call →
    call.phase = .acquiring mode token → ∀ now,
    (LeaseSystem.step manager (.dbAcquire id (.ok true) now) (leased manager ops)).1
        = .acquired id
      ∧ (∀ error, (LeaseSystem.step manager (.dbAcquire id (.error error) now)
          (leased manager ops)).1 = .failed id error)
      ∧ ((∀ started, mode = .lock started →
          ∃ limit, manager.maxWait = some limit ∧ limit ≤ now - started) →
        (LeaseSystem.step manager (.dbAcquire id (.ok false) now)
          (leased manager ops)).1.Fails id)
  /-- A call that returned success holds its gate with its token set up to the matching
  unlock. -/
  acquired : ∀ earlier event later id,
    leaseHistory manager ops = earlier ++ event :: later → event.answer = .acquired id →
    ∃ key token, event.after.Held id key token
      ∧ ((leased manager ops).Held id key token
        ∨ ∃ turn ∈ later, turn.op = .unlock id ∧ turn.before.Held id key token)
  /-- A key has at most one holder. -/
  exclusive : ∀ key first second firstToken secondToken,
    (leased manager ops).Holds first key firstToken →
    (leased manager ops).Holds second key secondToken → first = second
  /-- A gate is locked only while a call is past it. -/
  gates : ∀ key, ((leased manager ops).shared key).gate.locked = true →
    ∃ id, (leased manager ops).Owns id key

/-- Whatever the lease backend answers and wherever calls are dropped, the gates are locked
for the calls that are past them and for no others. -/
theorem gates_follow_calls (manager : LeaseManager) (ops : List LeaseOp)
    : GatesFollowCalls manager ops where
  failed := by
    intro event hevent id hfails
    have hstep := history_step hevent
    have hofStep : Event.ofStep (LeaseSystem.step manager) event.before event.op = event := by
      rw [Event.ofStep, hstep]
    rw [← hofStep]
    refine LeaseSystem.leavesNoGate_of_fails (LeaseSystem.event_effect hevent).1 ?_
    rwa [hstep]
  dropped := by
    intro id call hcall hpending
    have hcancelled := LeaseSystem.step_cancel manager hcall hpending
    exact ⟨hcancelled, LeaseSystem.leavesNoGate_of_fails
      (LeaseSystem.sound_leased manager ops) (.inr (.inl hcancelled))⟩
  answered := fun _ _ _ _ hcall hphase now => LeaseSystem.step_dbAcquire hcall hphase now
  acquired := by
    intro earlier event later id hsplit hanswer
    have hsub : ∀ turn ∈ event :: later, turn ∈ leaseHistory manager ops := by
      intro turn hturn
      rw [hsplit]
      exact List.mem_append_right _ hturn
    have hevent := hsub event (List.mem_cons_self ..)
    obtain ⟨hsound, call, key, heffect⟩ := LeaseSystem.event_effect hevent
    obtain ⟨rfl, token, hholds⟩ := heffect.won id hanswer
    have hafter := hsound.change heffect.changes heffect.moves
    refine ⟨key, token, hafter.held hholds, ?_⟩
    rcases history_turn_after (fun system => system.Holds id key token) hsplit hholds with
      hfinal | ⟨turn, hturn, hbefore, hended⟩
    · exact .inl ((LeaseSystem.sound_leased manager ops).held hfinal)
    · have hmem := hsub turn (List.mem_cons_of_mem _ hturn)
      exact .inr ⟨turn, hturn, LeaseSystem.unlock_of_turn hmem hbefore hended,
        (LeaseSystem.event_effect hmem).1.held hbefore⟩
  exclusive := fun key first second _ _ hfirst hsecond =>
    (LeaseSystem.sound_leased manager ops).sole key first second hfirst.owns hsecond.owns
  gates := fun key => ((LeaseSystem.sound_leased manager ops).locked key).mp

/-- Task 0 has the lease, task 1 waits for the gate, and task 2 for the lease of another
key. -/
def todoLeases : List LeaseOp :=
  [.lock 0 "todo-1" 0, .pollGate 0 false, .dbAcquire 0 (.ok true) 1, .lock 1 "todo-1" 1,
    .pollGate 1 false, .lock 2 "todo-2" 1, .pollGate 2 false]

def todoManager : LeaseManager where
  ownerId := "host-1"
  durationDebug _ := ""

/-- The call of task 2 is dropped in its lease query: its gate is free again, and that of
task 0 stays locked with its token. -/
theorem dropped_call_frees_gate
    : ((leased todoManager todoLeases).shared "todo-2").gate.locked = true
      ∧ ((LeaseSystem.step todoManager (.cancel 2) (leased todoManager todoLeases)).2.shared
          "todo-2").gate.locked = false
      ∧ (leased todoManager todoLeases).Held 0 "todo-1" "host-1:0" := by
  have hgates := gates_follow_calls todoManager todoLeases
  refine ⟨rfl, ?_, ?_⟩
  · obtain ⟨-, hleaves⟩ := hgates.dropped 2 _ rfl (by simp)
    obtain ⟨key, ⟨call, hcall, rfl, -⟩, hfree, -⟩ | hspares := hleaves.gates
    · cases hcall
      exact hfree
    · exact absurd ⟨_, rfl, rfl, by simp⟩ (hspares.unowned "todo-2")
  · obtain ⟨key, token, -, hheld | ⟨turn, hturn, hop, -⟩⟩ :=
      hgates.acquired [_, _] _ [_, _, _, _] 0 rfl rfl
    · obtain ⟨call, hcall, rfl, hphase⟩ := hheld.holds
      cases hcall
      cases hphase
      exact hheld
    · simp only [List.mem_cons, List.not_mem_nil, or_false] at hturn
      rcases hturn with rfl | rfl | rfl | rfl <;> cases hop

end Distributed.Lock
