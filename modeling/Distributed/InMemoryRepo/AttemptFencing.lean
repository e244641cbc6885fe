import Distributed.InMemoryRepo.CommitEffects
import Distributed.InMemoryRepo.LedgerShape

/-! Attempts of one command fence each other.
The row of a key counts the attempts that were acquired for it and keeps the causation of
the first, so an attempt that was superseded matches no later row.
-/

namespace Distributed.InMemoryRepo

open Distributed.CommandLedger Distributed.Entities Distributed.Foundation

open Distributed.Outbox Distributed.Platform Distributed.ProjectionProtocol

open Distributed.Repository

abbrev RepositoryEvent : Type := Event InMemoryRepository RepositoryOp RepositoryAnswer

--------------------
-- What a row keeps of its attempts
--------------------

/-- The command and the number of an attempt, and the causation all its attempts share. -/
structure AttemptMark where
  key : CommandLedgerKey
  number : Nat
  causation : CausationId

def rowMark (record : CommandLedgerRecord) : AttemptMark :=
  ⟨record.key, record.attemptNumber, record.causationId⟩

def attemptMark (attempt : CommandAttempt) : AttemptMark :=
  ⟨attempt.key, attempt.attemptNumber, attempt.causationId⟩

def storedMark (key : CommandLedgerKey) (ledger : CommandLedger) : Option AttemptMark :=
  (ledger.lookup key).map rowMark

/-- The mark a new attempt gets: the first takes the causation of its reservation. -/
def nextMark (reservation : CommandReservation) : Option AttemptMark → AttemptMark
  | none => ⟨reservation.key, 1, reservation.candidateCausation⟩
  | some mark => { mark with number := mark.number + 1 }

/-- No row changes its mark. -/
def KeepsMarks (before after : CommandLedger) : Prop :=
  ∀ key, storedMark key after = storedMark key before

theorem KeepsMarks.refl (ledger : CommandLedger) : KeepsMarks ledger ledger :=
  fun _ => rfl

theorem storedMark_insert (ledger : CommandLedger) (key other : CommandLedgerKey)
    (record : CommandLedgerRecord)
    : storedMark other (ledger.insert key record)
      = if other = key then some (rowMark record) else storedMark other ledger := by
  rw [storedMark, Map.lookup_insert_eq]
  split
  · rfl
  · rfl

theorem KeepsMarks.insert {ledger : CommandLedger} {key : CommandLedgerKey}
    {record next : CommandLedgerRecord} (hrow : ledger.lookup key = some record)
    (hmark : rowMark next = rowMark record)
    : KeepsMarks ledger (ledger.insert key next) := by
  intro other
  rw [storedMark_insert]
  split
  · rename_i hkey
    rw [hkey, storedMark, hrow, hmark, Option.map_some]
  · rfl

section Operations

variable {crates : Crates} {repository : InMemoryRepository}

/-- A reservation keeps every mark, or acquires the next attempt of its key. -/
theorem reserveCommand_marks (reservation : CommandReservation) (now : SystemTime)
    : ((∀ attempt, (reserveCommand crates reservation now repository).1
          ≠ .ok (.acquired attempt))
        ∧ KeepsMarks repository.commandLedger
          (reserveCommand crates reservation now repository).2.commandLedger)
      ∨ ∃ attempt row,
        reserveCommand crates reservation now repository
          = (.ok (.acquired attempt), { repository with
              commandLedger := repository.commandLedger.insert reservation.key row })
        ∧ rowMark row = attemptMark attempt
        ∧ attemptMark attempt
          = nextMark reservation (storedMark reservation.key repository.commandLedger) := by
  rw [reserveCommand, Txn.current_bind_apply]
  cases hrow : repository.commandLedger.lookup reservation.key with
  | none =>
      cases hinitial : CommandLedgerRecord.initial reservation now with
      | error error => exact .inl ⟨fun _ h => (by cases h), .refl _⟩
      | ok record =>
          cases CommandLedgerRecord.initial_ok hinitial
          right
          refine ⟨_, _, rfl, rfl, ?_⟩
          rw [storedMark, hrow]
          rfl
  | some record =>
      dsimp only
      rw [reserveOccupied]
      cases hdecision : record.classifyReservation reservation now with
      | error error => exact .inl ⟨fun _ h => (by cases h), .refl _⟩
      | ok decision =>
          cases decision with
          | conflict | inProgress => exact .inl ⟨fun _ h => (by cases h), .refl _⟩
          | replay =>
              refine .inl ⟨?_, .refl _⟩
              intro attempt
              simp only [Txn.lift_ok_bind, Txn.lift_apply,
                CommandLedgerRecord.reservationOutcome]
              cases record.replay crates with
              | error error => exact fun h => by cases h
              | ok replay => exact fun h => by cases h
          | expire => exact .inl ⟨fun _ h => (by cases h), .insert hrow rfl⟩
          | reclaim =>
              cases hreclaim : record.reclaim reservation now with
              | error error => exact .inl ⟨fun _ h => (by cases h), .refl _⟩
              | ok reclaimed =>
                  obtain ⟨-, rfl⟩ := CommandLedgerRecord.reclaim_ok hreclaim
                  right
                  refine ⟨_, _, rfl, rfl, ?_⟩
                  rw [storedMark, hrow]
                  rfl

theorem lookupCommand_marks (key : CommandLedgerKey) (scope : CommandLookupScope)
    (now : SystemTime)
    : KeepsMarks repository.commandLedger
        (lookupCommand crates key scope now repository).2.commandLedger := by
  rw [lookupCommand, Txn.current_bind_apply]
  cases hrow : repository.commandLedger.lookup key with
  | none => exact .refl _
  | some record =>
      dsimp only
      split
      · exact .refl _
      · split
        · exact .insert hrow rfl
        · exact .refl _

theorem markRetryableUnknown_marks (attempt : AttemptFence) (now : SystemTime)
    : KeepsMarks repository.commandLedger
        (markRetryableUnknown attempt now repository).2.commandLedger := by
  rw [markRetryableUnknown, Txn.current_bind_apply]
  cases hrow : repository.commandLedger.lookup attempt.key with
  | none => exact .refl _
  | some record =>
      dsimp only
      cases hmark : record.markRetryableUnknown attempt now with
      | error error => exact .refl _
      | ok marked =>
          obtain ⟨-, rfl⟩ := CommandLedgerRecord.markRetryableUnknown_ok hmark
          exact .insert hrow rfl

theorem compactExpiredCommands_marks (limit : Nat) (now : SystemTime)
    : KeepsMarks repository.commandLedger
        (compactExpiredCommands limit now repository).2.commandLedger := by
  unfold compactExpiredCommands
  split
  · exact .refl _
  · intro key
    have hlookup := lookup_foldl_expireRecord now
      (compactionCandidates repository.commandLedger now limit) repository.commandLedger key
    change storedMark key ((compactionCandidates repository.commandLedger now limit).foldl
      (expireRecord now) repository.commandLedger) = _
    rw [storedMark, hlookup]
    split
    · rw [Option.map_map]
      rfl
    · rfl

theorem commitCommand_marks (clock : CommitClock) (request : CausalCommitRequest)
    : KeepsMarks repository.commandLedger
        (commitCommand crates clock request repository).2.commandLedger := by
  refine (commitCommand_allOrNothing request).preserves
    (fun next => KeepsMarks repository.commandLedger next.commandLedger) (.refl _) ?_
  intro streams next hrun
  obtain ⟨stored, record, row, -, hrow, hcomplete, hledger⟩ := commitCommand_ok hrun
  obtain ⟨-, -, -, retention, rfl⟩ := CommandLedgerRecord.complete_ok hcomplete
  rw [hledger]
  exact .insert hrow rfl

end Operations

--------------------
-- Acquired attempts of a run
--------------------

/-- The reservation and the attempt of an event that acquired one for the key. -/
def acquisition? (key : CommandLedgerKey) (event : RepositoryEvent)
    : Option (CommandReservation × CommandAttempt) :=
  match event.op, event.answer with
  | .reserveCommand reservation _, .reserved (.ok (.acquired attempt)) =>
      if reservation.key = key then some (reservation, attempt) else none
  | _, _ => none

/-- Every attempt acquired for the key in a run, in order. -/
def acquisitions (key : CommandLedgerKey) (events : List RepositoryEvent)
    : List (CommandReservation × CommandAttempt) :=
  events.filterMap (acquisition? key)

/-- A step keeps the mark of the key, or acquires the attempt with the next one. -/
theorem step_marks (crates : Crates) (key : CommandLedgerKey)
    (repository : InMemoryRepository) (op : RepositoryOp)
    : acquisition? key (.ofStep (step crates) repository op) = none
        ∧ storedMark key (step crates op repository).2.commandLedger
          = storedMark key repository.commandLedger
      ∨ ∃ reservation attempt,
        acquisition? key (.ofStep (step crates) repository op) = some (reservation, attempt)
        ∧ storedMark key (step crates op repository).2.commandLedger
          = some (attemptMark attempt)
        ∧ attemptMark attempt
          = nextMark reservation (storedMark key repository.commandLedger) := by
  have hframe : ∀ {after : CommandLedger}, after = repository.commandLedger →
      storedMark key after = storedMark key repository.commandLedger :=
    fun h => congrArg (storedMark key) h
  cases op with
  | reserveCommand reservation now =>
      rcases reserveCommand_marks reservation now with
        ⟨hnone, hkept⟩ | ⟨attempt, row, hrun, hmark, hnext⟩
      · left
        refine ⟨?_, hkept key⟩
        simp only [acquisition?, Event.ofStep, step, report]
        split
        · rename_i hanswer
          exact absurd (RepositoryAnswer.reserved.inj hanswer) (hnone _)
        · rfl
      · by_cases hkey : reservation.key = key
        · right
          subst hkey
          refine ⟨reservation, attempt, ?_, ?_, hnext⟩
          · simp only [acquisition?, Event.ofStep, step, report, hrun, if_true]
          · simp only [step, report, hrun, storedMark_insert, if_true, hmark]
        · left
          constructor
          · simp only [acquisition?, Event.ofStep, step, report, hrun, hkey, if_false]
          · simp only [step, report, hrun, storedMark_insert, if_neg (Ne.symm hkey)]
  | lookupCommand found scope now => exact .inl ⟨rfl, lookupCommand_marks found scope now key⟩
  | markRetryableUnknown attempt now =>
      exact .inl ⟨rfl, markRetryableUnknown_marks attempt now key⟩
  | compactExpiredCommands limit now =>
      exact .inl ⟨rfl, compactExpiredCommands_marks limit now key⟩
  | commitCommand clock request => exact .inl ⟨rfl, commitCommand_marks clock request key⟩
  | commitBatch clock batch => exact .inl ⟨rfl, hframe (commitBatch_ledger batch)⟩
  | registerProjectionModels topology ownership =>
      exact .inl ⟨rfl, hframe (registerProjectionModels_frame topology ownership).ledger⟩
  | commitProjection batch =>
      exact .inl ⟨rfl, hframe (commitProjection_frame batch).ledger⟩
  | recordProjectionFailure batch =>
      exact .inl ⟨rfl, hframe (recordProjectionFailure_frame batch).ledger⟩
  | repairProjection topology partition failureId =>
      exact .inl ⟨rfl, hframe (repairProjection_frame topology partition failureId).ledger⟩
  | compactProjectionChanges through =>
      exact .inl ⟨rfl, hframe (compactProjectionChanges_frame through).ledger⟩
  | commitWritePlan plan => exact .inl ⟨rfl, hframe (commitWritePlan_frame plan).ledger⟩
  | putSnapshot identity record =>
      exact .inl ⟨rfl, hframe (putSnapshot_ledger identity record)⟩
  | claimOutbox | settleOutbox | completeManyOutbox | deleteSnapshot | clearInbox =>
      exact .inl ⟨rfl, rfl⟩

theorem acquisition?_eq_some {key : CommandLedgerKey} {event : RepositoryEvent}
    {reservation : CommandReservation} {attempt : CommandAttempt}
    (h : acquisition? key event = some (reservation, attempt))
    : reservation.key = key := by
  unfold acquisition? at h
  split at h
  · split at h
    · rename_i hkey
      cases h
      exact hkey
    · cases h
  · cases h

/-- Every row is stored under its own key. -/
def MarkedByKey (repository : InMemoryRepository) : Prop :=
  ∀ key mark, storedMark key repository.commandLedger = some mark → mark.key = key

theorem MarkedByKey.step (crates : Crates) {repository : InMemoryRepository}
    (h : MarkedByKey repository) (op : RepositoryOp)
    : MarkedByKey (step crates op repository).2 := by
  intro key mark hmark
  rcases step_marks crates key repository op with
    ⟨-, hsame⟩ | ⟨reservation, attempt, hacquired, hafter, hnext⟩
  · exact h key mark (hsame ▸ hmark)
  · cases hafter.symm.trans hmark
    rw [hnext]
    cases hbefore : storedMark key repository.commandLedger with
    | none => exact acquisition?_eq_some hacquired
    | some previous => exact h key previous hbefore

/-- The key has a row of this causation that counts at least this many attempts. -/
def MarkedFrom (key : CommandLedgerKey) (number : Nat) (causation : CausationId)
    (repository : InMemoryRepository) : Prop :=
  ∃ mark, storedMark key repository.commandLedger = some mark
    ∧ number ≤ mark.number ∧ mark.causation = causation

section Marked

variable {crates : Crates} {key : CommandLedgerKey} {number : Nat} {causation : CausationId}
  {repository : InMemoryRepository}

theorem MarkedFrom.step (crates : Crates) (h : MarkedFrom key number causation repository)
    (op : RepositoryOp)
    : MarkedFrom key number causation (step crates op repository).2 := by
  obtain ⟨mark, hmark, hnumber, hcausation⟩ := h
  rcases step_marks crates key repository op with
    ⟨-, hsame⟩ | ⟨reservation, attempt, -, hafter, hnext⟩
  · exact ⟨mark, hsame.trans hmark, hnumber, hcausation⟩
  · refine ⟨attemptMark attempt, hafter, ?_, ?_⟩
    · rw [hnext, hmark]
      exact Nat.le_succ_of_le hnumber
    · rw [hnext, hmark]
      exact hcausation

/-- An attempt acquired for a marked key has a greater number and the same causation. -/
theorem MarkedFrom.acquires (h : MarkedFrom key number causation repository)
    {op : RepositoryOp} {reservation : CommandReservation} {attempt : CommandAttempt}
    (hacquired : acquisition? key (.ofStep (InMemoryRepo.step crates) repository op)
      = some (reservation, attempt))
    : number < attempt.attemptNumber ∧ attempt.causationId = causation := by
  obtain ⟨mark, hmark, hnumber, rfl⟩ := h
  rcases step_marks crates key repository op with
    ⟨hnone, -⟩ | ⟨_, _, hsome, -, hnext⟩
  · cases hnone.symm.trans hacquired
  · cases hsome.symm.trans hacquired
    rw [hmark] at hnext
    have hcount : attempt.attemptNumber = mark.number + 1 := congrArg AttemptMark.number hnext
    have hcause : attempt.causationId = mark.causation :=
      congrArg AttemptMark.causation hnext
    exact ⟨by omega, hcause⟩

/-- A row that counts further than an attempt does not match it. -/
theorem MarkedFrom.fences {attempt : CommandAttempt}
    (h : MarkedFrom attempt.key (attempt.attemptNumber + 1) causation repository)
    {record : CommandLedgerRecord}
    (hrow : repository.commandLedger.lookup attempt.key = some record)
    : record.matchesFence attempt = false := by
  obtain ⟨mark, hmark, hnumber, -⟩ := h
  rw [storedMark, hrow, Option.map_some, Option.some.injEq] at hmark
  have hcount : mark.number = record.attemptNumber := hmark ▸ rfl
  rw [Bool.eq_false_iff]
  intro hfence
  obtain ⟨-, hidentity, -⟩ := CommandLedgerRecord.matchesFence_iff.mp hfence
  have hsame : attempt.attemptNumber = record.attemptNumber :=
    congrArg CommandAttempt.attemptNumber hidentity
  omega

end Marked

--------------------
-- Committed effects
--------------------

/-- Everything appended to a stream and every new outbox message carries the causation. -/
structure CarriesCausation (causation : String) (before after : InMemoryRepository)
    : Prop where
  events : ∀ key, ∃ appended,
    (after.eventStore.lookup key).getD [] = (before.eventStore.lookup key).getD [] ++ appended
    ∧ ∀ event ∈ appended, event.causationId = some causation
  messages : ∀ id message, after.outboxStore.lookup id = some message →
    before.outboxStore.lookup id = some message ∨ message.causationId = some causation

section Commits

variable {crates : Crates} {clock : CommitClock} {request : CausalCommitRequest}
  {repository next : InMemoryRepository} {streams : List StreamWrite}

/-- A successful command commit publishes its batch with the causation sealed in. -/
theorem commitCommand_publishes
    (h : commitCommand crates clock request repository = (.ok streams, next))
    : ∃ completion staged,
      completion.attempt = request.completion.attempt
      ∧ StagedFrom crates clock
          (CausalCommitBatch.build request.domain completion request.directProjection).domain
          (some completion) request.directProjection repository staged
      ∧ next = staged.publish
          (CausalCommitBatch.build request.domain completion request.directProjection).domain
          repository := by
  rw [commitCommand, Txn.lift_bind_eq_ok] at h
  obtain ⟨completion, hcompletion, hcommit⟩ := h
  obtain ⟨staged, hstaged, hnext, -⟩ := commitBatchInner_ok (Txn.mapError_eq_ok.mp hcommit)
  obtain ⟨-, -, -, hfields⟩ := CompletionRequest.complete_ok hcompletion
  exact ⟨completion, staged, congrArg CommandCompletion.attempt hfields, hstaged, hnext⟩

theorem commitCommand_carriesCausation
    (h : commitCommand crates clock request repository = (.ok streams, next))
    : CarriesCausation request.completion.attempt.causationId.value repository next := by
  obtain ⟨completion, staged, hattempt, hstaged, rfl⟩ := commitCommand_publishes h
  have hbatch := hstaged.validatedBatch
  rw [← hattempt]
  constructor
  · intro key
    by_cases hkey : key ∈ staged.prepared.map fun append => append.identity.storageKey
    · obtain ⟨append, happend, rfl⟩ := List.mem_map.mp hkey
      refine ⟨append.events, ?_, ?_⟩
      · have hnodup : (staged.prepared.map fun append => append.identity.storageKey).Nodup := by
          rw [hbatch.prepared_eq, List.map_map]
          exact hbatch.streams
        rw [StagedBatch.publish, lookup_foldl_appendEvents_of_mem hnodup happend]
        rfl
      · rw [hbatch.prepared_eq] at happend
        obtain ⟨stamped, hstamped, rfl⟩ := List.mem_map.mp happend
        obtain ⟨stream, -, rfl⟩ := List.mem_map.mp hstamped
        intro event hevent
        rw [PreparedEventAppend.fromStreamWrite,
          Entity.newEvents_overwriteNewEventCausationId] at hevent
        obtain ⟨original, -, rfl⟩ := List.mem_map.mp hevent
        exact Metadata.lookup_overwriteCausationId _ _
    · refine ⟨[], ?_, List.forall_mem_nil _⟩
      rw [StagedBatch.publish, lookup_foldl_appendEvents_of_notMem hkey, List.append_nil]
  · intro id message hmessage
    by_cases hid : id ∈ (CausalCommitBatch.build request.domain completion
        request.directProjection).domain.outboxMessages.map OutboxMessage.id
    · right
      obtain ⟨stamped, hstamped, rfl⟩ := List.mem_map.mp hid
      cases (hstaged.present.outbox stamped hstamped).symm.trans hmessage
      obtain ⟨original, -, rfl⟩ := List.mem_map.mp hstamped
      exact Metadata.lookup_overwriteCausationId _ _
    · left
      rw [StagedBatch.publish, Map.lookup_insertAll_of_notMem] at hmessage
      · exact hmessage
      · rw [List.map_map]
        exact hid

end Commits

--------------------
-- Runs
--------------------

section Runs

variable {crates : Crates} {repository : InMemoryRepository} {attempt : CommandAttempt}
  {causation : CausationId}

/-- Before the first attempt of a key was acquired it has no row. -/
theorem storedMark_of_acquisitions_nil {key : CommandLedgerKey} {ops : List RepositoryOp}
    (hstart : storedMark key repository.commandLedger = none)
    (h : acquisitions key (history (step crates) repository ops) = [])
    : storedMark key (finalState (step crates) repository ops).commandLedger = none := by
  induction ops generalizing repository with
  | nil => exact hstart
  | cons op ops ih =>
      rw [acquisitions, history, List.filterMap_cons] at h
      rcases step_marks crates key repository op with
        ⟨hnone, hsame⟩ | ⟨reservation, attempt, hsome, -, -⟩
      · rw [hnone] at h
        exact ih (hsame.trans hstart) h
      · simp [hsome] at h

/-- A superseded attempt cannot mark its row retryable. -/
theorem MarkedFrom.markRetryableUnknown_fenced
    (h : MarkedFrom attempt.key (attempt.attemptNumber + 1) causation repository)
    (now : SystemTime)
    : InMemoryRepo.step crates (.markRetryableUnknown attempt now) repository
      = (.marked (.error (.attemptFenced attempt.key.commandId)), repository) := by
  rw [InMemoryRepo.step, report, markRetryableUnknown, Txn.current_bind_apply]
  cases hrow : repository.commandLedger.lookup attempt.key with
  | none => rfl
  | some record =>
      simp only [CommandLedgerRecord.markRetryableUnknown, h.fences hrow]
      rfl

/-- A superseded attempt cannot complete. -/
theorem MarkedFrom.commitCommand_fenced (crates : Crates) (clock : CommitClock)
    {request : CausalCommitRequest}
    (h : MarkedFrom request.completion.attempt.key
      (request.completion.attempt.attemptNumber + 1) causation repository)
    : ∃ error, InMemoryRepo.step crates (.commitCommand clock request) repository
      = (.commandCommitted (.error error), repository) := by
  rw [InMemoryRepo.step, report]
  cases hrun : commitCommand crates clock request repository with
  | mk answer after =>
      cases answer with
      | error error =>
          have hkept := commitCommand_allOrNothing request repository error
            (congrArg Prod.fst hrun)
          rw [hrun] at hkept
          exact ⟨error, by rw [hkept]⟩
      | ok streams =>
          obtain ⟨stored, record, row, hstored, hrow, hcomplete, -⟩ := commitCommand_ok hrun
          have hfence := (CommandLedgerRecord.complete_ok hcomplete).2.1
          rw [hstored.fields.1, h.fences hrow] at hfence
          exact absurd hfence Bool.false_ne_true

/-- A commit of a marked key has the causation of the mark. -/
theorem MarkedFrom.commitCommand_causation {number : Nat} {clock : CommitClock}
    {request : CausalCommitRequest} {next : InMemoryRepository} {streams : List StreamWrite}
    (h : MarkedFrom request.completion.attempt.key number causation repository)
    (hrun : commitCommand crates clock request repository = (.ok streams, next))
    : request.completion.attempt.causationId = causation := by
  obtain ⟨mark, hmark, -, rfl⟩ := h
  obtain ⟨stored, record, row, hstored, hrow, hcomplete, -⟩ := commitCommand_ok hrun
  have hfence := (CommandLedgerRecord.complete_ok hcomplete).2.1
  rw [hstored.fields.1] at hfence
  obtain ⟨-, hidentity, -⟩ := CommandLedgerRecord.matchesFence_iff.mp hfence
  rw [storedMark, hrow, Option.map_some, Option.some.injEq] at hmark
  rw [hidentity, ← hmark]
  rfl

end Runs

/-- In every run, an attempt acquired for a key shares its causation with the row and with
all later attempts, whose numbers are greater; the first attempt has the causation of its
reservation. Once a later attempt was acquired it can neither complete nor mark the row, and
whatever a commit of the key stores carries that causation. -/
theorem command_attempts_are_fenced (crates : Crates) (retention : ProjectionChangeRetention)
    (ops : List RepositoryOp) {earlier later : List RepositoryEvent} {done : RepositoryEvent}
    (hrun : history (step crates) (.new retention) ops = earlier ++ done :: later)
    {key : CommandLedgerKey} {reservation : CommandReservation} {attempt : CommandAttempt}
    (hacquired : acquisition? key done = some (reservation, attempt))
    : (acquisitions key earlier = [] →
        attempt.causationId = reservation.candidateCausation)
      ∧ (∀ event ∈ later, ∃ record,
          event.after.commandLedger.lookup key = some record
          ∧ record.causationId = attempt.causationId)
      ∧ (∀ other ∈ acquisitions key later,
          attempt.attemptNumber < other.2.attemptNumber
          ∧ other.2.causationId = attempt.causationId)
      ∧ (∀ middle newer rest, later = middle ++ newer :: rest →
          (acquisition? key newer).isSome = true → ∀ event ∈ rest,
          (∀ now, event.op = .markRetryableUnknown attempt now →
            event.answer = .marked (.error (.attemptFenced attempt.key.commandId))
            ∧ event.after = event.before)
          ∧ (∀ clock request, event.op = .commitCommand clock request →
            request.completion.attempt = attempt →
            (∃ error, event.answer = .commandCommitted (.error error))
            ∧ event.after = event.before))
      ∧ (∀ event ∈ later, ∀ clock request streams,
          event.op = .commitCommand clock request →
          request.completion.attempt.key = key →
          event.answer = .commandCommitted (.ok streams) →
          CarriesCausation attempt.causationId.value event.before event.after) := by
  have hmem : ∀ event ∈ done :: later, event ∈ history (step crates) (.new retention) ops :=
    fun event hevent => hrun ▸ List.mem_append_right _ hevent
  have hstep : ∀ event ∈ done :: later,
      step crates event.op event.before = (event.answer, event.after) :=
    fun event hevent => history_step (hmem event hevent)
  have hevent : ∀ event ∈ done :: later,
      event = .ofStep (step crates) event.before event.op := by
    intro event hin
    rw [Event.ofStep, hstep event hin]
  have hdone : done ∈ done :: later := List.mem_cons_self
  have hkeyed : MarkedByKey done.before :=
    (history_reachable (fun _ => True) (fun _ _ => trivial) done (hmem done hdone)).1.invariant
      (fun _ _ h => by simp [storedMark, InMemoryRepository.new] at h)
      fun _ op h _ => h.step crates op
  -- The acquiring event leaves the mark of its attempt.
  have hacquires := step_marks crates key done.before done.op
  rw [← hevent done hdone, hacquired, hstep done hdone] at hacquires
  obtain ⟨hnone, -⟩ | ⟨_, _, hsome, hafter, hnext⟩ := hacquires
  · cases hnone
  cases hsome
  have hkey : attempt.key = key := by
    have hstored := hkeyed.step crates done.op key (attemptMark attempt)
    rw [hstep done hdone] at hstored
    exact hstored hafter
  have hlater : ∀ event ∈ later,
      MarkedFrom key attempt.attemptNumber attempt.causationId event.before :=
    history_after (fun _ => True) _ (fun _ _ => trivial) hrun
      ⟨_, hafter, Nat.le_refl _, rfl⟩ fun _ op h _ => h.step crates op
  refine ⟨?_, ?_, ?_, ?_, ?_⟩
  · intro hfirst
    obtain ⟨first, -, -, rfl, hbefore, -⟩ := history_split hrun
    have hnone := storedMark_of_acquisitions_nil (by rfl) hfirst
    rw [hbefore, hnone] at hnext
    exact congrArg AttemptMark.causation hnext
  · intro event hin
    obtain ⟨mark, hmark, -, hcausation⟩ := (hlater event hin).step crates event.op
    rw [hstep event (List.mem_cons_of_mem _ hin)] at hmark
    obtain ⟨record, hrecord, rfl⟩ := Option.map_eq_some_iff.mp hmark
    exact ⟨record, hrecord, hcausation⟩
  · intro other hother
    obtain ⟨event, hin, hsome⟩ := List.mem_filterMap.mp hother
    rw [hevent event (List.mem_cons_of_mem _ hin)] at hsome
    exact (hlater event hin).acquires hsome
  · intro middle newer rest hsplit hnewer event hin
    have hnewerMem : newer ∈ later := hsplit ▸ List.mem_append_right _ List.mem_cons_self
    have hrest : event ∈ later :=
      hsplit ▸ List.mem_append_right _ (List.mem_cons_of_mem _ hin)
    -- The newer attempt counts further, and no step counts back.
    obtain ⟨⟨_, superseding⟩, hsome⟩ := Option.isSome_iff_exists.mp hnewer
    have hnewerEvent := hevent newer (List.mem_cons_of_mem _ hnewerMem)
    rw [hnewerEvent] at hsome
    obtain ⟨hgreater, hcausation⟩ := (hlater newer hnewerMem).acquires hsome
    have hsuperseded : MarkedFrom key (attempt.attemptNumber + 1) attempt.causationId
        newer.after := by
      rcases step_marks crates key newer.before newer.op with
        ⟨hnone, -⟩ | ⟨_, _, hsome', hmark, -⟩
      · cases hnone.symm.trans hsome
      · cases hsome'.symm.trans hsome
        rw [hstep newer (List.mem_cons_of_mem _ hnewerMem)] at hmark
        exact ⟨_, hmark, hgreater, hcausation⟩
    have hrunRest : history (step crates) (.new retention) ops
        = (earlier ++ done :: middle) ++ newer :: rest := by
      rw [hrun, hsplit, List.append_assoc, List.cons_append]
    have hfenced := history_after (fun _ => True) _ (fun _ _ => trivial) hrunRest hsuperseded
      (fun _ op h _ => h.step crates op) event hin
    have heventStep := hstep event (List.mem_cons_of_mem _ hrest)
    subst hkey
    constructor
    · intro now hop
      rw [hop, hfenced.markRetryableUnknown_fenced now] at heventStep
      obtain ⟨hanswer, hafter⟩ := Prod.mk.inj heventStep
      exact ⟨hanswer.symm, hafter.symm⟩
    · intro clock request hop hattempt
      subst hattempt
      obtain ⟨error, herror⟩ := hfenced.commitCommand_fenced crates clock
      rw [hop, herror] at heventStep
      obtain ⟨hanswer, hafter⟩ := Prod.mk.inj heventStep
      exact ⟨⟨error, hanswer.symm⟩, hafter.symm⟩
  · intro event hin clock request streams hop hrequest hanswer
    have heventStep := hstep event (List.mem_cons_of_mem _ hin)
    rw [hop, hanswer] at heventStep
    obtain ⟨hok, hafter⟩ := Prod.mk.inj heventStep
    rw [RepositoryAnswer.commandCommitted.injEq] at hok
    have hcommit : commitCommand crates clock request event.before = (.ok streams, event.after) :=
      Prod.ext hok hafter
    subst hrequest
    rw [← (hlater event hin).commitCommand_causation hcommit]
    exact commitCommand_carriesCausation hcommit

/-- A second caller that reclaims the command after the lease of the first ended. -/
def createTodoRetry : CommandReservation :=
  { createTodoReservation with
    candidateCausation := ⟨"01890a5d-ac96-774b-bcce-b302099a805a"⟩
    candidateAttempt := ⟨"01890a5d-ac96-774b-bcce-b302099a805b"⟩ }

/-- The repository after the first attempt was superseded. -/
def createTodoReclaimed : InMemoryRepository :=
  finalState (step nullOutcomeCrates) (createTodoReserved nullOutcomeCrates)
    [.reserveCommand createTodoRetry (31 * nanosPerSecond)]

/-- The second attempt continues the causation of the first, which is fenced off. -/
theorem createTodo_first_attempt_is_fenced
    : (step nullOutcomeCrates (.markRetryableUnknown createTodoAttempt (32 * nanosPerSecond))
        createTodoReclaimed).1
      = .marked (.error (.attemptFenced "01890a5d-ac96-774b-bcce-b302099a8057")) := by
  obtain ⟨-, -, -, hsuperseded, -⟩ :=
    command_attempts_are_fenced nullOutcomeCrates defaultProjectionChangeRetention
      [.reserveCommand createTodoReservation 0,
        .reserveCommand createTodoRetry (31 * nanosPerSecond),
        .markRetryableUnknown createTodoAttempt (32 * nanosPerSecond)]
      (show _ = [] ++ .ofStep (step nullOutcomeCrates)
            (.new defaultProjectionChangeRetention) (.reserveCommand createTodoReservation 0)
          :: history (step nullOutcomeCrates) (createTodoReserved nullOutcomeCrates)
            [.reserveCommand createTodoRetry (31 * nanosPerSecond),
              .markRetryableUnknown createTodoAttempt (32 * nanosPerSecond)] from rfl)
      (show acquisition? createTodoKey _ = some (createTodoReservation, createTodoAttempt)
        from rfl)
  have hrest := hsuperseded [] _ _ rfl rfl _ (List.mem_singleton_self _)
  exact (hrest.1 _ rfl).1

--------------------
-- Live attempts
--------------------

/-- Every row leases less than it retains. -/
def LeasesInside (repository : InMemoryRepository) : Prop :=
  ∀ key record, repository.commandLedger.lookup key = some record → record.LeaseInside

section Live

variable {crates : Crates} {repository : InMemoryRepository}

theorem LeasesInside.step (h : LeasesInside repository) (op : RepositoryOp)
    : LeasesInside (step crates op repository).2 := by
  intro key record hrow
  rcases step_ledgerStep crates repository op key with hsame | ⟨next, hnext, htransition⟩
  · exact h key record (hsame ▸ hrow)
  · cases hrow.symm.trans hnext
    exact htransition.leaseInside

/-- A reservation writes at most the row of its own key. -/
theorem reserveCommand_ledger (crates : Crates) (reservation : CommandReservation)
    (now : SystemTime)
    : (reserveCommand crates reservation now repository).2.commandLedger
        = repository.commandLedger
      ∨ ∃ row, (reserveCommand crates reservation now repository).2.commandLedger
        = repository.commandLedger.insert reservation.key row := by
  rw [reserveCommand, Txn.current_bind_apply]
  cases hrow : repository.commandLedger.lookup reservation.key with
  | none =>
      cases hinitial : CommandLedgerRecord.initial reservation now with
      | error error => exact .inl rfl
      | ok record =>
          cases CommandLedgerRecord.initial_ok hinitial
          exact .inr ⟨_, rfl⟩
  | some record =>
      dsimp only
      rw [reserveOccupied]
      cases record.classifyReservation reservation now with
      | error error => exact .inl rfl
      | ok decision =>
          cases decision with
          | conflict | inProgress | replay => exact .inl rfl
          | expire => exact .inr ⟨_, rfl⟩
          | reclaim =>
              cases record.reclaim reservation now with
              | error error => exact .inl rfl
              | ok reclaimed => exact .inr ⟨_, rfl⟩

variable {key : CommandLedgerKey} {record : CommandLedgerRecord} {lease now : SystemTime}

/-- A reservation of a live attempt's key is refused and writes nothing. -/
theorem reserveCommand_live
    (hrow : repository.commandLedger.lookup key = some record)
    (hstate : record.state = .inProgress) (hlease : record.leaseExpiresAt = some lease)
    (hlive : now < lease) (hinside : record.LeaseInside)
    {reservation : CommandReservation} (hkey : reservation.key = key)
    : reserveCommand crates reservation now repository = (.ok .conflict, repository)
      ∨ reserveCommand crates reservation now repository
        = (.ok (.inProgress record.causationId), repository) := by
  have hretained : ¬(record.state = .expired ∨ record.retentionExpiresAt ≤ now) := by
    rintro (hexpired | hdue)
    · cases hstate.symm.trans hexpired
    · exact absurd (lt_trans hlive (hinside lease hlease)) (not_lt.mpr hdue)
  rw [reserveCommand, Txn.current_bind_apply, hkey, hrow]
  dsimp only
  rw [reserveOccupied, CommandLedgerRecord.classifyReservation, if_neg hretained]
  by_cases hdiffers : record.differsFrom reservation = true
  · left
    rw [if_pos hdiffers]
    rfl
  · right
    rw [if_neg hdiffers, hstate, hlease]
    dsimp only
    rw [if_neg (not_le.mpr hlive)]
    rfl

end Live

/-- Before its lease deadline an attempt keeps its row: no reservation acquires another one,
and no reservation, lookup or compaction changes the row, so its holder passes the fence. -/
theorem live_attempt_is_kept (crates : Crates) {retention : ProjectionChangeRetention}
    {repository : InMemoryRepository}
    (hreach : Reachable (step crates) (fun _ => True) (.new retention) repository)
    {key : CommandLedgerKey} {record : CommandLedgerRecord} {lease now : SystemTime}
    (hrow : repository.commandLedger.lookup key = some record)
    (hstate : record.state = .inProgress) (hlease : record.leaseExpiresAt = some lease)
    (hlive : now < lease)
    : (∀ reservation,
        (reserveCommand crates reservation now repository).2.commandLedger.lookup key
          = some record
        ∧ (reservation.key = key → ∀ attempt,
          (reserveCommand crates reservation now repository).1 ≠ .ok (.acquired attempt)))
      ∧ (∀ other scope,
        (lookupCommand crates other scope now repository).2.commandLedger.lookup key
          = some record)
      ∧ (∀ limit,
        (compactExpiredCommands limit now repository).2.commandLedger.lookup key
          = some record)
      ∧ ∃ attempt, record.acquiredAttempt = .ok attempt
        ∧ record.validateLiveAttempt attempt now = .ok () := by
  have hleases : LeasesInside repository :=
    hreach.invariant (fun _ _ h => by simp [InMemoryRepository.new] at h) fun _ op h _ => h.step op
  have hinside := hleases key record hrow
  have hretained : now < record.retentionExpiresAt := lt_trans hlive (hinside lease hlease)
  refine ⟨?_, ?_, ?_, ?_⟩
  · intro reservation
    by_cases hkey : reservation.key = key
    · rcases reserveCommand_live hrow hstate hlease hlive hinside hkey with hrun | hrun
      · rw [hrun]
        exact ⟨hrow, fun _ _ h => by cases h⟩
      · rw [hrun]
        exact ⟨hrow, fun _ _ h => by cases h⟩
    · refine ⟨?_, fun hsame => absurd hsame hkey⟩
      rcases reserveCommand_ledger crates reservation now with hsame | ⟨row, hsame⟩
      · rw [hsame, hrow]
      · rw [hsame, Map.lookup_insert_eq, if_neg (Ne.symm hkey), hrow]
  · intro other scope
    rw [lookupCommand, Txn.current_bind_apply]
    cases hother : repository.commandLedger.lookup other with
    | none => exact hrow
    | some found =>
        dsimp only
        split
        · exact hrow
        · split
          · rename_i hdue
            have hne : key ≠ other := by
              rintro rfl
              cases hrow.symm.trans hother
              exact absurd hretained (not_lt.mpr hdue.2)
            change AList.lookup key (repository.commandLedger.insert other _) = some record
            rw [Map.lookup_insert_eq, if_neg hne, hrow]
          · exact hrow
  · intro limit
    unfold compactExpiredCommands
    split
    · exact hrow
    · change AList.lookup key ((compactionCandidates repository.commandLedger now limit).foldl
        (expireRecord now) repository.commandLedger) = some record
      rw [lookup_foldl_expireRecord, if_neg, hrow]
      intro hcandidate
      obtain ⟨found, hfound, hcompactable⟩ := mem_compactionCandidates hcandidate
      cases hrow.symm.trans hfound
      simp only [isCompactable, Bool.and_eq_true, decide_eq_true_eq] at hcompactable
      exact absurd hretained (not_lt.mpr hcompactable.2)
  · obtain ⟨token, htoken⟩ : ∃ token, record.attemptToken = some token := by
      have hfields := (ledgerWritten_of_reachable hreach key record hrow).fields
      simp only [CommandLedgerRecord.fieldsMatchState, hstate, Bool.and_eq_true,
        Option.isSome_iff_exists] at hfields
      exact hfields.1.1.1.1
    refine ⟨_, CommandLedgerRecord.acquiredAttempt_eq htoken, ?_⟩
    simp [CommandLedgerRecord.validateLiveAttempt, CommandLedgerRecord.matchesFence, hstate,
      htoken, hlease, hlive]

/-- A second caller, the holder of the attempt and a compaction one second into its lease. -/
theorem createTodo_attempt_is_kept
    : (reserveCommand nullOutcomeCrates createTodoReservation nanosPerSecond
          (createTodoReserved nullOutcomeCrates)).1 ≠ .ok (.acquired createTodoAttempt)
      ∧ (compactExpiredCommands 10 nanosPerSecond
          (createTodoReserved nullOutcomeCrates)).2.commandLedger.lookup createTodoKey
        = some createTodoRow
      ∧ createTodoRow.validateLiveAttempt createTodoAttempt nanosPerSecond = .ok () := by
  have hreach : Reachable (step nullOutcomeCrates) (fun _ => True)
      (.new defaultProjectionChangeRetention) (createTodoReserved nullOutcomeCrates) :=
    finalState_reachable _ fun _ _ => trivial
  have hrow : (createTodoReserved nullOutcomeCrates).commandLedger.lookup createTodoKey
      = some createTodoRow := rfl
  obtain ⟨hreserve, -, hcompact, attempt, hattempt, hfence⟩ :=
    live_attempt_is_kept nullOutcomeCrates hreach hrow rfl rfl
      (show ((nanosPerSecond : Nat) : Int) < 30 * nanosPerSecond by decide)
  cases hattempt
  exact ⟨(hreserve createTodoReservation).2 rfl createTodoAttempt, hcompact 10, hfence⟩

end Distributed.InMemoryRepo
