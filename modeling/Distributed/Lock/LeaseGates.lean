import Distributed.Lock.Lease

/-! The in-process gates under the lease-table locks.
-/

namespace Distributed.Lock

open Distributed.Foundation Distributed.Platform

/-- The phases in which a guard is armed. -/
inductive LeasePhase.Guarded : LeasePhase → Prop
  | acquiring (mode : LeaseMode) (token : String) : Guarded (.acquiring mode token)
  | sleeping (started : Instant) (token : String) : Guarded (.sleeping started token)
  | releasing (token : String) : Guarded (.releasing token)

namespace LeaseSystem

/-- The call is past the gate of the key: it asks for the lease, holds the lock or is
unlocking it. -/
def Owns (system : LeaseSystem) (id : CallId) (key : String) : Prop :=
  ∃ call, system.calls.lookup id = some call ∧ call.key = key
    ∧ ∀ started, call.phase ≠ .waiting started

/-- The call returned success and was not unlocked. -/
def Holds (system : LeaseSystem) (id : CallId) (key token : String) : Prop :=
  ∃ call, system.calls.lookup id = some call ∧ call.key = key ∧ call.phase = .holding token

theorem Holds.owns {system : LeaseSystem} {id : CallId} {key token : String}
    (h : system.Holds id key token)
    : system.Owns id key := by
  obtain ⟨call, hcall, hkey, hphase⟩ := h
  refine ⟨call, hcall, hkey, ?_⟩
  intro started
  rw [hphase]
  exact LeasePhase.noConfusion

/-- A gate is locked while one call owns it, and its token is that of the call that holds
the lock. -/
structure Sound (system : LeaseSystem) : Prop where
  older : ∀ id call, system.calls.lookup id = some call → id < system.begun
  locked : ∀ key, (system.shared key).gate.locked = true ↔ ∃ id, system.Owns id key
  sole : ∀ key first second, system.Owns first key → system.Owns second key → first = second
  token : ∀ key token, (system.shared key).token = some token
    ↔ ∃ id, system.Holds id key token

theorem sound_start : Sound {} where
  older := by
    intro id call hcall
    cases hcall
  locked := by
    intro key
    constructor
    · intro hlocked
      cases hlocked
    · rintro ⟨id, call, hcall, -⟩
      cases hcall
  sole := by
    rintro key first second ⟨call, hcall, -⟩ _
    cases hcall
  token := by
    intro key token
    constructor
    · intro htoken
      cases htoken
    · rintro ⟨id, call, hcall, -⟩
      cases hcall

theorem Sound.not_owns_of_free {system : LeaseSystem} (h : Sound system) {key : String}
    (hfree : (system.shared key).gate.locked = false) (id : CallId)
    : ¬system.Owns id key := by
  intro howns
  have hlocked := (h.locked key).mpr ⟨id, howns⟩
  rw [hfree] at hlocked
  cases hlocked

/-- While a call that holds no lock owns the gate, no token is remembered. -/
theorem Sound.token_eq_none {system : LeaseSystem} (h : Sound system) {key : String}
    {id : CallId} (howns : system.Owns id key) (hunheld : ∀ token, ¬system.Holds id key token)
    : (system.shared key).token = none := by
  cases htoken : (system.shared key).token with
  | none => rfl
  | some token =>
      obtain ⟨holder, hholds⟩ := (h.token key token).mp htoken
      rw [h.sole key holder id hholds.owns howns] at hholds
      exact absurd hholds (hunheld token)

/-- Only the call and the shared state of its key differ. -/
structure Changes (before after : LeaseSystem) (id : CallId) (key : String) : Prop where
  calls : ∀ other, other ≠ id → after.calls.lookup other = before.calls.lookup other
  shared : ∀ other, other ≠ key → after.shared other = before.shared other
  begun : before.begun ≤ after.begun
  older : ∀ call, after.calls.lookup id = some call → id < after.begun
  keyBefore : ∀ call, before.calls.lookup id = some call → call.key = key
  keyAfter : ∀ call, after.calls.lookup id = some call → call.key = key

/-- What a change means for the gate of its key. -/
inductive Moves (before after : LeaseSystem) (id : CallId) (key : String) : Prop
  | keeps (owns : after.Owns id key ↔ before.Owns id key)
      (holds : ∀ token, after.Holds id key token ↔ before.Holds id key token)
      (locked : (after.shared key).gate.locked = (before.shared key).gate.locked)
      (token : (after.shared key).token = (before.shared key).token)
  | enters (free : (before.shared key).gate.locked = false) (owns : after.Owns id key)
      (unheld : ∀ token, ¬after.Holds id key token)
      (locked : (after.shared key).gate.locked = true)
      (token : (after.shared key).token = (before.shared key).token)
  | leaves (owned : before.Owns id key) (unheld : ∀ token, ¬before.Holds id key token)
      (gone : ¬after.Owns id key) (locked : (after.shared key).gate.locked = false)
      (token : (after.shared key).token = (before.shared key).token)
  | wins {won : String} (owned : before.Owns id key)
      (unheld : ∀ token, ¬before.Holds id key token) (holds : after.Holds id key won)
      (locked : (after.shared key).gate.locked = (before.shared key).gate.locked)
      (token : (after.shared key).token = some won)
  | returns (owned : before.Owns id key) (owns : after.Owns id key)
      (unheld : ∀ token, ¬after.Holds id key token)
      (locked : (after.shared key).gate.locked = (before.shared key).gate.locked)
      (token : (after.shared key).token = none)

variable {before after : LeaseSystem} {id : CallId} {key : String}

theorem Changes.owns_other (h : Changes before after id key) {other : CallId}
    (hother : other ≠ id) (name : String)
    : after.Owns other name ↔ before.Owns other name := by
  unfold Owns
  rw [h.calls other hother]

theorem Changes.holds_other (h : Changes before after id key) {other : CallId}
    (hother : other ≠ id) (name token : String)
    : after.Holds other name token ↔ before.Holds other name token := by
  unfold Holds
  rw [h.calls other hother]

/-- The call has nothing to do with another key. -/
theorem Changes.owns_elsewhere (h : Changes before after id key) {name : String}
    (hname : name ≠ key) (other : CallId)
    : after.Owns other name ↔ before.Owns other name := by
  by_cases hother : other = id
  · subst hother
    constructor
    · rintro ⟨call, hcall, rfl, -⟩
      exact absurd (h.keyAfter call hcall) hname
    · rintro ⟨call, hcall, rfl, -⟩
      exact absurd (h.keyBefore call hcall) hname
  · exact h.owns_other hother name

theorem Changes.holds_elsewhere (h : Changes before after id key) {name : String}
    (hname : name ≠ key) (other : CallId) (token : String)
    : after.Holds other name token ↔ before.Holds other name token := by
  by_cases hother : other = id
  · subst hother
    constructor
    · rintro ⟨call, hcall, rfl, -⟩
      exact absurd (h.keyAfter call hcall) hname
    · rintro ⟨call, hcall, rfl, -⟩
      exact absurd (h.keyBefore call hcall) hname
  · exact h.holds_other hother name token

/-- Unless the change keeps the gate as it is, no other call owns it before or after. -/
theorem Changes.no_other (h : Changes before after id key) (hsound : Sound before)
    (howner : (before.shared key).gate.locked = false ∨ before.Owns id key)
    {other : CallId} (hother : other ≠ id)
    : ¬after.Owns other key := by
  rw [h.owns_other hother]
  rcases howner with hfree | howned
  · exact hsound.not_owns_of_free hfree other
  · exact fun howns => hother (hsound.sole key other id howns howned)

/-- What a change that does not keep the gate leaves of its key. -/
theorem Moves.cases (hmove : Moves before after id key) (hsound : Sound before)
    : ((after.Owns id key ↔ before.Owns id key)
        ∧ (∀ token, after.Holds id key token ↔ before.Holds id key token)
        ∧ (after.shared key).gate.locked = (before.shared key).gate.locked
        ∧ (after.shared key).token = (before.shared key).token)
      ∨ ((before.shared key).gate.locked = false ∨ before.Owns id key)
        ∧ ((after.shared key).gate.locked = true ↔ after.Owns id key)
        ∧ ∀ token, (after.shared key).token = some token ↔ after.Holds id key token := by
  cases hmove with
  | keeps howns hholds hlocked htoken => exact .inl ⟨howns, hholds, hlocked, htoken⟩
  | enters hfree howns hunheld hlocked htoken =>
      refine .inr ⟨.inl hfree, iff_of_true hlocked howns, ?_⟩
      intro token
      refine iff_of_false ?_ (hunheld token)
      rw [htoken, hsound.token]
      rintro ⟨holder, hholds⟩
      exact hsound.not_owns_of_free hfree holder hholds.owns
  | leaves howned hunheld hgone hlocked htoken =>
      refine .inr ⟨.inr howned, iff_of_false (by rw [hlocked]; exact Bool.noConfusion) hgone,
        ?_⟩
      intro token
      refine iff_of_false ?_ fun hholds => hgone hholds.owns
      rw [htoken, hsound.token_eq_none howned hunheld]
      exact (Option.some_ne_none token).symm
  | @wins won howned _ hholds hlocked htoken =>
      refine .inr ⟨.inr howned, iff_of_true ?_ hholds.owns, ?_⟩
      · rw [hlocked]
        exact (hsound.locked key).mpr ⟨id, howned⟩
      · intro token
        rw [htoken, Option.some.injEq]
        constructor
        · rintro rfl
          exact hholds
        · rintro ⟨call, hcall, -, hphase⟩
          obtain ⟨winner, hwinner, -, hwon⟩ := hholds
          rw [hcall] at hwinner
          cases hwinner
          rw [hphase] at hwon
          cases hwon
          rfl
  | returns howned howns hunheld hlocked htoken =>
      refine .inr ⟨.inr howned, iff_of_true ?_ howns, ?_⟩
      · rw [hlocked]
        exact (hsound.locked key).mpr ⟨id, howned⟩
      · intro token
        refine iff_of_false ?_ (hunheld token)
        rw [htoken]
        exact (Option.some_ne_none token).symm

theorem Sound.change (hsound : Sound before) (hchanges : Changes before after id key)
    (hmove : Moves before after id key)
    : Sound after where
  older := by
    intro other call hcall
    by_cases hother : other = id
    · subst hother
      exact hchanges.older call hcall
    · rw [hchanges.calls other hother] at hcall
      exact Nat.lt_of_lt_of_le (hsound.older other call hcall) hchanges.begun
  locked := by
    intro name
    by_cases hname : name = key
    · subst hname
      rcases hmove.cases hsound with ⟨howns, -, hlocked, -⟩ | ⟨howner, hlocked, -⟩
      · rw [hlocked, hsound.locked]
        refine exists_congr fun other => ?_
        by_cases hother : other = id
        · subst hother
          exact howns.symm
        · exact (hchanges.owns_other hother name).symm
      · rw [hlocked]
        refine ⟨fun howns => ⟨id, howns⟩, ?_⟩
        rintro ⟨other, howns⟩
        by_cases hother : other = id
        · exact hother ▸ howns
        · exact absurd howns (hchanges.no_other hsound howner hother)
    · rw [hchanges.shared name hname, hsound.locked]
      exact exists_congr fun other => (hchanges.owns_elsewhere hname other).symm
  sole := by
    intro name first second hfirst hsecond
    by_cases hname : name = key
    · subst hname
      rcases hmove.cases hsound with ⟨howns, -, -, -⟩ | ⟨howner, -, -⟩
      · have hall : ∀ other, after.Owns other name → before.Owns other name := by
          intro other hother
          by_cases hid : other = id
          · subst hid
            exact howns.mp hother
          · exact (hchanges.owns_other hid name).mp hother
        exact hsound.sole name first second (hall first hfirst) (hall second hsecond)
      · have honly : ∀ other, after.Owns other name → other = id := by
          intro other hother
          by_contra hid
          exact hchanges.no_other hsound howner hid hother
        rw [honly first hfirst, honly second hsecond]
    · rw [hchanges.owns_elsewhere hname] at hfirst hsecond
      exact hsound.sole name first second hfirst hsecond
  token := by
    intro name token
    by_cases hname : name = key
    · subst hname
      rcases hmove.cases hsound with ⟨-, hholds, -, htoken⟩ | ⟨howner, -, htoken⟩
      · rw [htoken, hsound.token]
        refine exists_congr fun other => ?_
        by_cases hother : other = id
        · subst hother
          exact (hholds token).symm
        · exact (hchanges.holds_other hother name token).symm
      · rw [htoken]
        refine ⟨fun hholds => ⟨id, hholds⟩, ?_⟩
        rintro ⟨other, hholds⟩
        by_cases hother : other = id
        · exact hother ▸ hholds
        · exact absurd hholds.owns (hchanges.no_other hsound howner hother)
    · rw [hchanges.shared name hname, hsound.token]
      exact exists_congr fun other => (hchanges.holds_elsewhere hname other token).symm

theorem owns_iff_of_lookup {system : LeaseSystem} {call : LeaseCall}
    (h : system.calls.lookup id = some call)
    : system.Owns id call.key ↔ ∀ started, call.phase ≠ .waiting started := by
  constructor
  · rintro ⟨found, hfound, -, hphase⟩
    rw [h] at hfound
    cases hfound
    exact hphase
  · exact fun hphase => ⟨call, h, rfl, hphase⟩

theorem holds_iff_of_lookup {system : LeaseSystem} {call : LeaseCall} {token : String}
    (h : system.calls.lookup id = some call)
    : system.Holds id call.key token ↔ call.phase = .holding token := by
  constructor
  · rintro ⟨found, hfound, -, hphase⟩
    rw [h] at hfound
    cases hfound
    exact hphase
  · exact fun hphase => ⟨call, h, rfl, hphase⟩

theorem not_owns_of_missing {system : LeaseSystem} (h : system.calls.lookup id = none)
    (key : String)
    : ¬system.Owns id key := by
  rintro ⟨call, hcall, -⟩
  rw [h] at hcall
  cases hcall

theorem key_of_lookup {system : LeaseSystem} {call : LeaseCall}
    (h : system.calls.lookup id = some call)
    : ∀ found, system.calls.lookup id = some found → found.key = call.key := by
  intro found hfound
  rw [h] at hfound
  cases hfound
  rfl

/-- A call with an armed guard owns the gate. -/
theorem owns_of_guarded {system : LeaseSystem} {call : LeaseCall}
    (h : system.calls.lookup id = some call) (hphase : call.phase.Guarded)
    : system.Owns id call.key := by
  rw [owns_iff_of_lookup h]
  intro started hwaiting
  rw [hwaiting] at hphase
  cases hphase

theorem not_holds_of_guarded {system : LeaseSystem} {call : LeaseCall}
    (h : system.calls.lookup id = some call) (hphase : call.phase.Guarded) (token : String)
    : ¬system.Holds id call.key token := by
  rw [holds_iff_of_lookup h]
  intro hholding
  rw [hholding] at hphase
  cases hphase

/-- The call moves to another phase. -/
theorem Changes.of_setPhase (hsound : Sound before) {call : LeaseCall}
    (hcall : before.calls.lookup id = some call) {phase : LeasePhase}
    (hcalls : after.calls = before.calls.insert id { call with phase })
    (hbegun : after.begun = before.begun)
    (hshared : ∀ other, other ≠ call.key → after.shared other = before.shared other)
    : Changes before after id call.key where
  calls := by
    intro other hother
    rw [hcalls, AList.lookup_insert_ne hother]
  shared := hshared
  begun := hbegun.ge
  older := by
    intro _ _
    rw [hbegun]
    exact hsound.older id call hcall
  keyBefore := key_of_lookup hcall
  keyAfter := by
    intro found hfound
    rw [hcalls, AList.lookup_insert] at hfound
    cases hfound
    rfl

/-- The call ends. -/
theorem Changes.of_finish {call : LeaseCall} (hcall : before.calls.lookup id = some call)
    (hcalls : after.calls = before.calls.erase id) (hbegun : after.begun = before.begun)
    (hshared : ∀ other, other ≠ call.key → after.shared other = before.shared other)
    : Changes before after id call.key where
  calls := by
    intro other hother
    rw [hcalls, AList.lookup_erase_ne hother]
  shared := hshared
  begun := hbegun.ge
  older := by
    intro found hfound
    rw [hcalls, AList.lookup_erase] at hfound
    cases hfound
  keyBefore := key_of_lookup hcall
  keyAfter := by
    intro found hfound
    rw [hcalls, AList.lookup_erase] at hfound
    cases hfound

theorem Sound.lookup_begun (hsound : Sound before)
    : before.calls.lookup before.begun = none := by
  cases hcall : before.calls.lookup before.begun with
  | none => rfl
  | some call => exact absurd (hsound.older _ call hcall) (Nat.lt_irrefl _)

/-- A new call begins. -/
theorem Changes.of_start (hsound : Sound before) {task : TaskId} {phase : LeasePhase}
    (hcalls : after.calls = before.calls.insert before.begun { key, task, phase })
    (hbegun : after.begun = before.begun + 1)
    (hshared : ∀ other, other ≠ key → after.shared other = before.shared other)
    : Changes before after before.begun key where
  calls := by
    intro other hother
    rw [hcalls, AList.lookup_insert_ne hother]
  shared := hshared
  begun := by
    rw [hbegun]
    exact Nat.le_succ _
  older := by
    intro _ _
    rw [hbegun]
    exact Nat.lt_succ_self _
  keyBefore := by
    intro found hfound
    rw [hsound.lookup_begun] at hfound
    cases hfound
  keyAfter := by
    intro found hfound
    rw [hcalls, AList.lookup_insert] at hfound
    cases hfound
    rfl

end LeaseSystem

end Distributed.Lock
