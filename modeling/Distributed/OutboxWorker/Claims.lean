import Distributed.OutboxWorker.Store

/-! What claiming and settling do to one message of the outbox store.
-/

namespace Distributed.OutboxWorker

open Distributed.Entities Distributed.Foundation Distributed.Outbox Distributed.Platform

open Distributed.Repository

/-- The message is in flight for the worker and the attempt of the claim, and its lease is
not over. -/
structure HeldUnder (message : OutboxMessage) (claim : OutboxClaimRef) (now : SystemTime)
    : Prop where
  inFlight : message.status = .inFlight
  worker : message.workerId = some claim.workerId
  attempt : message.attempts = claim.attempt
  leased : message.hasExpiredLeaseAt now = false

/-- The message as a claim leases it to a worker. -/
def leasedTo (workerId : String) (deadline : SystemTime) (message : OutboxMessage)
    : OutboxMessage :=
  { message with
    status := .inFlight
    attempts := message.attempts + 1
    workerId := some workerId
    leasedUntil := some deadline }

/-- The message after a settlement. -/
def Settlement.settled (settlement : Settlement) (message : OutboxMessage) : OutboxMessage :=
  let free := { message with workerId := none, leasedUntil := none }
  match settlement with
  | .complete => { free with status := .published }
  | .release error => { free with status := .pending, lastError := storedError error }
  | .fail error => { free with status := .failed, lastError := storedError error }

theorem Settlement.settled_not_inFlight (settlement : Settlement) (message : OutboxMessage)
    : (settlement.settled message).status ≠ .inFlight := by
  cases settlement <;> simp [settled]

theorem Settlement.apply_of_inFlight (settlement : Settlement) {message : OutboxMessage}
    (h : message.status = .inFlight)
    : settlement.apply message = .ok (settlement.settled message) := by
  cases settlement with
  | complete => simp [apply, settled, OutboxMessage.complete, OutboxMessage.isInFlight, h]
  | release error =>
      simp [apply, settled, OutboxMessage.release, OutboxMessage.isInFlight, h]
  | fail error => simp [apply, settled, OutboxMessage.fail, OutboxMessage.canFail, h]

variable {crates : Crates} {now : SystemTime} {storage next : OutboxStorage} {id : String}

theorem ensureActiveClaim_ok {message : OutboxMessage} {claim : OutboxClaimRef}
    (h : ensureActiveClaim crates message claim now = .ok ())
    : HeldUnder message claim now := by
  simp only [ensureActiveClaim, Result.guard_eq_ok_iff, Bool.not_eq_true', Bool.not_eq_false,
    not_not, Bool.not_eq_true] at h
  obtain ⟨hflight, hworker, hattempt, hlease, -⟩ := h
  exact ⟨of_decide_eq_true hflight, of_decide_eq_true hworker, hattempt, hlease⟩

/-- A settlement changes the message that is held under its claim, or nothing. -/
theorem settle_cases (settlement : Settlement) (claim : OutboxClaimRef)
    : (∃ message, storage.lookup claim.messageId = some message
        ∧ HeldUnder message claim now
        ∧ settle crates settlement claim now storage
          = (.ok (), storage.insert claim.messageId (settlement.settled message)))
      ∨ ∃ error, settle crates settlement claim now storage = (.error error, storage) := by
  unfold settle
  rw [Txn.current_bind_apply]
  cases hmessage : storage.lookup claim.messageId with
  | none => exact .inr ⟨_, rfl⟩
  | some message =>
      cases hactive : ensureActiveClaim crates message claim now with
      | error error =>
          refine .inr ⟨error, ?_⟩
          simp only [hactive, Txn.lift_error_bind_apply]
      | ok =>
          have hheld := ensureActiveClaim_ok hactive
          refine .inl ⟨message, rfl, hheld, ?_⟩
          simp only [hactive, Txn.lift_ok_bind, settlement.apply_of_inFlight hheld.inFlight]
          rfl

/-- Every message is stored under its own id. -/
def KeyedById (storage : OutboxStorage) : Prop :=
  ∀ id message, storage.lookup id = some message → message.id = id

theorem KeyedById.insert (h : KeyedById storage) {message : OutboxMessage}
    (hid : message.id = id)
    : KeyedById (storage.insert id message) := by
  intro other found hfound
  rw [Map.lookup_insert_eq] at hfound
  split at hfound
  · rename_i hother
    cases hfound
    rw [hid, hother]
  · exact h other found hfound

theorem KeyedById.settle (h : KeyedById storage) (settlement : Settlement)
    (claim : OutboxClaimRef)
    : KeyedById (settle crates settlement claim now storage).2 := by
  rcases settle_cases settlement claim with ⟨message, hmessage, -, hsettle⟩ | ⟨error, hsettle⟩
  · rw [hsettle]
    refine h.insert ?_
    rw [← h _ message hmessage]
    cases settlement <;> rfl
  · rw [hsettle]
    exact h

theorem KeyedById.nodup_claimOrderIds (h : KeyedById storage)
    : (claimOrderIds storage).Nodup := by
  have hsorted := (List.perm_insertionSort
    (fun left right => claimsBefore left right) storage.values).map OutboxMessage.id
  have hkeys : storage.values.map OutboxMessage.id = storage.keys := by
    rw [Map.values, List.map_map]
    refine List.map_congr_left fun entry hentry => ?_
    exact h entry.1 entry.2 (AList.mem_lookup_iff.mpr hentry)
  exact (hsorted.trans (.of_eq hkeys)).nodup_iff.mpr storage.keys_nodup

theorem claimCandidate_eq_some {request : ClaimOutboxMessages} {message : OutboxMessage}
    (h : claimCandidate request now storage id = some message)
    : storage.lookup id = some message ∧ message.isClaimableAt now = true := by
  unfold claimCandidate at h
  split at h
  · rw [Option.filter_eq_some_iff] at h
    exact ⟨h.1, (Bool.and_eq_true_iff.mp h.2).1⟩
  · cases h

theorem claimAt_ok {message taken : OutboxMessage} {workerId : String} {lease : Duration}
    {checked : SystemTime} (h : message.claimAt workerId lease now checked = .ok taken)
    : message.isClaimableAt checked = true
      ∧ ∃ deadline, taken = leasedTo workerId deadline message := by
  simp only [OutboxMessage.claimAt, OutboxMessage.claim, Result.bind_eq_ok_iff,
    Result.guard_eq_ok_iff, Result.error_bind, Bool.not_eq_true', Bool.not_eq_false] at h
  obtain ⟨deadline, -, hclaimable, _, -, htaken⟩ := h
  cases htaken
  exact ⟨hclaimable, deadline, rfl⟩

/-- The message of an id after a claim: the same, or leased because it was claimable when
the request was read and when the message was taken. -/
inductive Leased (request : ClaimOutboxMessages) (now : SystemTime)
    (checked : Nat → SystemTime) (message : OutboxMessage) : OutboxMessage → Prop
  | same : Leased request now checked message message
  | taken {index : Nat} (deadline : SystemTime)
      : message.isClaimableAt now = true → message.isClaimableAt (checked index) = true →
        Leased request now checked message (leasedTo request.workerId deadline message)

section Loop

variable {request : ClaimOutboxMessages} {checked : Nat → SystemTime} {ids : List String}

theorem lookup_claimLoop_of_notMem (claimed : List OutboxMessage) (h : id ∉ ids)
    : (claimLoop request now checked ids claimed storage).2.lookup id
      = storage.lookup id := by
  induction ids generalizing claimed storage with
  | nil => rfl
  | cons first ids ih =>
      rw [List.mem_cons, not_or] at h
      obtain ⟨hne, hrest⟩ := h
      unfold claimLoop
      split
      · exact ih claimed hrest
      · split
        · rfl
        · dsimp only
          split
          · exact AList.lookup_insert_ne hne
          · exact (ih _ hrest).trans (AList.lookup_insert_ne hne)

theorem lookup_claimLoop (claimed : List OutboxMessage) (hids : ids.Nodup)
    {message : OutboxMessage} (h : storage.lookup id = some message)
    : ∃ after, (claimLoop request now checked ids claimed storage).2.lookup id = some after
      ∧ Leased request now checked message after := by
  induction ids generalizing claimed storage with
  | nil => exact ⟨message, h, .same⟩
  | cons first ids ih =>
      obtain ⟨hfresh, hrest⟩ := List.nodup_cons.mp hids
      unfold claimLoop
      split
      · exact ih claimed hrest h
      · rename_i candidate hcandidate
        split
        · exact ⟨message, h, .same⟩
        · rename_i taken htaken
          obtain ⟨hchecked, deadline, rfl⟩ := claimAt_ok htaken
          obtain ⟨hfound, hclaimable⟩ := claimCandidate_eq_some hcandidate
          dsimp only
          by_cases hid : id = first
          · subst hid
            cases hfound.symm.trans h
            refine ⟨_, ?_, .taken deadline hclaimable hchecked⟩
            split
            · exact AList.lookup_insert _
            · rw [lookup_claimLoop_of_notMem _ hfresh]
              exact AList.lookup_insert _
          · split
            · exact ⟨message, (AList.lookup_insert_ne hid).trans h, .same⟩
            · exact ih _ hrest ((AList.lookup_insert_ne hid).trans h)

theorem KeyedById.claimLoop (h : KeyedById storage) (claimed : List OutboxMessage)
    : KeyedById (claimLoop request now checked ids claimed storage).2 := by
  induction ids generalizing claimed storage with
  | nil => exact h
  | cons first ids ih =>
      unfold OutboxWorker.claimLoop
      split
      · exact ih h claimed
      · rename_i candidate hcandidate
        split
        · exact h
        · rename_i taken htaken
          obtain ⟨-, deadline, rfl⟩ := claimAt_ok htaken
          have hid := h first candidate (claimCandidate_eq_some hcandidate).1
          have hkeyed : KeyedById
              (storage.insert first (leasedTo request.workerId deadline candidate)) :=
            h.insert hid
          dsimp only
          split
          · exact hkeyed
          · exact ih hkeyed _

theorem KeyedById.claim (h : KeyedById storage)
    : KeyedById (claim request now checked storage).2 := by
  unfold OutboxWorker.claim
  split
  · exact h
  · rw [Txn.current_bind_apply]
    exact h.claimLoop []

theorem lookup_claim (hkeyed : KeyedById storage) {message : OutboxMessage}
    (h : storage.lookup id = some message)
    : ∃ after, (claim request now checked storage).2.lookup id = some after
      ∧ Leased request now checked message after := by
  unfold claim
  split
  · exact ⟨message, h, .same⟩
  · rw [Txn.current_bind_apply]
    exact lookup_claimLoop [] hkeyed.nodup_claimOrderIds h

end Loop

end Distributed.OutboxWorker
