import Distributed.Entities.EventRecord
import Distributed.Foundation.Result

/-! Upcasting for replay.
A round of the loop raises the version of the event past that of the upcaster it used, so
every chain ends, whatever transitions the upcasters declare.
-/

namespace Distributed.Entities

open Distributed.Foundation Distributed.Platform

def upcastEvents (events : List EventRecord) (upcasters : List EventUpcaster)
    : Except UpcastError (List EventRecord) :=
  events.mapM (upcastOne upcasters)

/-- One round of the loop: the rewritten event, or nothing when no upcaster is left. -/
def upcastRound (upcasters : List EventUpcaster) (seen : List Nat) (event : EventRecord)
    : Except UpcastError (Option EventRecord) :=
  match upcasters.find? fun upcaster => upcaster.matches event with
  | none => .ok none
  | some upcaster =>
      if upcaster.toVersion = event.eventVersion then
        .error (.sameVersionTransition event.eventName event.eventVersion)
      else if upcaster.toVersion ∈ seen then
        .error (.cycleDetected event.eventName upcaster.toVersion)
      else if upcaster.toVersion < event.eventVersion then
        .error (.backwardTransition event.eventName event.eventVersion upcaster.toVersion)
      else do
        let payload ← upcaster.transform event
        .ok (some { event with payload, eventVersion := upcaster.toVersion })

/-- The loop of `upcast_one`, stopped after `fuel` rounds. -/
def upcastWithin (upcasters : List EventUpcaster)
    : Nat → List Nat → EventRecord → Option (Except UpcastError EventRecord)
  | 0, _, _ => none
  | fuel + 1, seen, event =>
      match upcastRound upcasters seen event with
      | .error error => some (.error error)
      | .ok none => some (.ok event)
      | .ok (some next) =>
          upcastWithin upcasters fuel (seen ++ [next.eventVersion]) next

section Rounds

variable {upcasters : List EventUpcaster} {seen : List Nat} {event next result : EventRecord}

theorem upcastLoop_eq (upcasters : List EventUpcaster) (seen : List Nat) (event : EventRecord)
    : upcastLoop upcasters seen event
      = match upcastRound upcasters seen event with
        | .error error => .error error
        | .ok none => .ok event
        | .ok (some next) => upcastLoop upcasters (seen ++ [next.eventVersion]) next := by
  rw [upcastLoop, upcastRound]
  split
  · rename_i hfind
    simp only [hfind]
  · rename_i upcaster hfind
    simp only [hfind]
    split
    · rfl
    · split
      · rfl
      · split
        · rfl
        · cases upcaster.transform event with
          | error error => rfl
          | ok payload => rfl

theorem upcastRound_eq_none
    : upcastRound upcasters seen event = .ok none ↔ upcasterApplies upcasters event = false := by
  rw [upcasterApplies, List.any_eq_false, upcastRound]
  cases hfind : upcasters.find? fun upcaster => upcaster.matches event with
  | none => simpa using hfind
  | some upcaster =>
      have hmatches := List.find?_some hfind
      have hmem := List.mem_of_find?_eq_some hfind
      constructor
      · intro h
        simp only [Result.guard_eq_ok_iff, Result.bind_eq_ok_iff] at h
        obtain ⟨-, -, -, payload, -, h⟩ := h
        cases h
      · exact fun h => absurd hmatches (h upcaster hmem)

/-- A round changes the payload and raises the version, and fewer upcasters are left. -/
theorem upcastRound_some (h : upcastRound upcasters seen event = .ok (some next))
    : next = { event with payload := next.payload, eventVersion := next.eventVersion }
      ∧ event.eventVersion < next.eventVersion
      ∧ remainingUpcasters upcasters next.eventVersion
        < remainingUpcasters upcasters event.eventVersion := by
  unfold upcastRound at h
  split at h
  · cases h
  · rename_i upcaster hfind
    simp only [Result.guard_eq_ok_iff, Result.bind_eq_ok_iff] at h
    obtain ⟨hne, -, hback, payload, -, h⟩ := h
    cases h
    have hmatches := List.find?_some hfind
    simp only [EventUpcaster.matches, Bool.and_eq_true, decide_eq_true_eq] at hmatches
    have hraised : event.eventVersion < upcaster.toVersion := by omega
    refine ⟨rfl, hraised, ?_⟩
    change remainingUpcasters upcasters upcaster.toVersion < _
    rw [← hmatches.2] at hraised ⊢
    exact remainingUpcasters_lt (List.mem_of_find?_eq_some hfind) hraised

/-- The rounds of a chain are no more than the upcasters that can take the event. -/
theorem upcastWithin_eq {fuel : Nat}
    (hfuel : remainingUpcasters upcasters event.eventVersion < fuel)
    : upcastWithin upcasters fuel seen event = some (upcastLoop upcasters seen event) := by
  induction fuel generalizing seen event with
  | zero => cases hfuel
  | succ fuel ih =>
      rw [upcastWithin, upcastLoop_eq]
      cases hround : upcastRound upcasters seen event with
      | error error => rfl
      | ok answer =>
          cases answer with
          | none => rfl
          | some next =>
              have hfewer := (upcastRound_some hround).2.2
              exact ih (by omega)

/-- What upcasting makes of an event. -/
structure UpcastOf (upcasters : List EventUpcaster) (event result : EventRecord) : Prop where
  settled : upcasterApplies upcasters result = false
  version : event.eventVersion ≤ result.eventVersion
  unchanged : result
    = { event with payload := result.payload, eventVersion := result.eventVersion }

theorem upcastLoop_ok (h : upcastLoop upcasters seen event = .ok result)
    : UpcastOf upcasters event result := by
  induction hleft : remainingUpcasters upcasters event.eventVersion
    using Nat.strong_induction_on generalizing seen event with
  | _ left ih =>
      rw [upcastLoop_eq] at h
      split at h
      · cases h
      · rename_i hround
        cases h
        exact ⟨upcastRound_eq_none.mp hround, Nat.le_refl _, rfl⟩
      · rename_i next hround
        obtain ⟨hnext, hraised, hfewer⟩ := upcastRound_some hround
        have hresult := ih _ (hleft ▸ hfewer) h rfl
        refine ⟨hresult.settled, Nat.le_trans (Nat.le_of_lt hraised) hresult.version, ?_⟩
        have hunchanged := hresult.unchanged
        rw [hnext] at hunchanged
        exact hunchanged

theorem upcastOne_of_settled (h : upcasterApplies upcasters event = false)
    : upcastOne upcasters event = .ok event := by
  rw [upcastOne, upcastLoop_eq, upcastRound_eq_none.mpr h]

end Rounds

section Events

variable {upcasters : List EventUpcaster} {events results : List EventRecord}

theorem upcastEvents_of_settled
    (h : ∀ event ∈ events, upcasterApplies upcasters event = false)
    : upcastEvents events upcasters = .ok events := by
  induction events with
  | nil => rfl
  | cons event events ih =>
      obtain ⟨hevent, hevents⟩ := List.forall_mem_cons.mp h
      have hrest := ih hevents
      rw [upcastEvents] at hrest ⊢
      rw [List.mapM_cons, upcastOne_of_settled hevent, Result.ok_bind, hrest, Result.ok_bind]
      rfl

theorem upcastEventsForReplay_of_settled
    (h : ∀ event ∈ events, upcasterApplies upcasters event = false)
    : upcastEventsForReplay events upcasters = .ok none := by
  have hany : events.any (upcasterApplies upcasters) = false := by
    rw [List.any_eq_false]
    exact fun event hevent => by simp [h event hevent]
  simp [upcastEventsForReplay, hany]

theorem upcastEvents_ok (h : upcastEvents events upcasters = .ok results)
    : List.Forall₂ (UpcastOf upcasters) events results := by
  induction events generalizing results with
  | nil =>
      cases h
      exact .nil
  | cons event events ih =>
      rw [upcastEvents, List.mapM_cons] at h
      simp only [Result.bind_eq_ok_iff] at h
      obtain ⟨result, hresult, rest, hrest, h⟩ := h
      cases h
      exact .cons (upcastLoop_ok hresult) (ih hrest)

theorem settled_of_upcast (h : List.Forall₂ (UpcastOf upcasters) events results)
    : ∀ result ∈ results, upcasterApplies upcasters result = false := by
  induction h with
  | nil => exact List.forall_mem_nil _
  | cons hfirst _ ih => exact List.forall_mem_cons.mpr ⟨hfirst.settled, ih⟩

/-- The borrowed view upcasts the events an upcaster applies to, which are the only ones
that change. -/
theorem upcastEventsForReplay_eq (events : List EventRecord) (upcasters : List EventUpcaster)
    : (upcastEventsForReplay events upcasters).map (fun view => view.getD events)
      = upcastEvents events upcasters := by
  by_cases hsettled : ∀ event ∈ events, upcasterApplies upcasters event = false
  · rw [upcastEventsForReplay_of_settled hsettled, upcastEvents_of_settled hsettled]
    rfl
  · have hany : events.any (upcasterApplies upcasters) = true := by
      simp only [not_forall, Bool.not_eq_false] at hsettled
      obtain ⟨event, hevent, happlies⟩ := hsettled
      exact List.any_eq_true.mpr ⟨event, hevent, happlies⟩
    have hnonempty : upcasters.isEmpty = false := by
      cases upcasters with
      | nil =>
          obtain ⟨event, -, happlies⟩ := List.any_eq_true.mp hany
          cases happlies
      | cons upcaster upcasters => rfl
    have hone : (fun event => if upcasterApplies upcasters event then upcastOne upcasters event
        else .ok event) = upcastOne upcasters := by
      funext event
      by_cases happlies : upcasterApplies upcasters event = true
      · rw [if_pos happlies]
      · rw [if_neg happlies, upcastOne_of_settled (by simpa using happlies)]
    rw [upcastEventsForReplay, hany, hnonempty, hone, upcastEvents]
    cases events.mapM (upcastOne upcasters) with
    | error error => rfl
    | ok results => rfl

end Events

/-- The loop ends within one round more than there are upcasters; the view for replay shows
what `upcast_events` returns, errors included; every result is its event with another
payload and a version not below, has no upcaster left and is not changed again. -/
theorem upcasting_exact_and_stable (upcasters : List EventUpcaster) (events : List EventRecord)
    : (∀ event, upcastWithin upcasters (upcasters.length + 1) [event.eventVersion] event
        = some (upcastOne upcasters event))
      ∧ (upcastEventsForReplay events upcasters).map (fun view => view.getD events)
        = upcastEvents events upcasters
      ∧ ∀ results, upcastEvents events upcasters = .ok results →
          List.Forall₂ (UpcastOf upcasters) events results
          ∧ upcastEvents results upcasters = .ok results
          ∧ upcastEventsForReplay results upcasters = .ok none := by
  refine ⟨fun event => ?_, upcastEventsForReplay_eq events upcasters, fun results h => ?_⟩
  · exact upcastWithin_eq (Nat.lt_succ_of_le List.countP_le_length)
  · have hresults := upcastEvents_ok h
    have hsettled := settled_of_upcast hresults
    exact ⟨hresults, upcastEvents_of_settled hsettled,
      upcastEventsForReplay_of_settled hsettled⟩

/-- Each step of the version puts a byte in front of the payload. -/
def counterUpcasters : List EventUpcaster :=
  [⟨"counted", 2, 3, fun event => .ok (3 :: event.payload)⟩,
    ⟨"counted", 1, 2, fun event => .ok (2 :: event.payload)⟩]

def countedEvent : EventRecord := .newVersioned "counted" [1] 1 1 0

theorem counted_event_is_stable
    : ∃ result : EventRecord, result.payload = [3, 2, 1] ∧ result.eventVersion = 3
      ∧ upcastEvents [countedEvent] counterUpcasters = .ok [result]
      ∧ upcastEvents [result] counterUpcasters = .ok [result] := by
  obtain ⟨hends, -, hstable⟩ := upcasting_exact_and_stable counterUpcasters [countedEvent]
  let result : EventRecord := { countedEvent with payload := [3, 2, 1], eventVersion := 3 }
  have hrun : upcastWithin counterUpcasters 3 [1] countedEvent = some (.ok result) := by
    rfl
  have hone : upcastOne counterUpcasters countedEvent = .ok result :=
    Option.some.inj ((hends countedEvent).symm.trans hrun)
  have hevents : upcastEvents [countedEvent] counterUpcasters = .ok [result] := by
    rw [upcastEvents, List.mapM_cons, hone]
    rfl
  exact ⟨result, rfl, rfl, hevents, (hstable _ hevents).2.1⟩

end Distributed.Entities
