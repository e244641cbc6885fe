import Distributed.InMemoryRepo.LedgerSteps
import Distributed.Platform.JsonText

/-! A command is executed at most once.
Completing a row makes it terminal, and a terminal row can only expire, so one successful
commit decides every later answer about its key.
-/

namespace Distributed.InMemoryRepo

open Distributed.CommandLedger Distributed.Foundation Distributed.Platform

open Distributed.ProjectionProtocol Distributed.Repository

/-- The key holds the completed row, or what is left of it after it expired. -/
def Settled (key : CommandLedgerKey) (row : CommandLedgerRecord)
    (repository : InMemoryRepository) : Prop :=
  ∃ record, repository.commandLedger.lookup key = some record
    ∧ (record = row ∨ ∃ now, record = row.expire now)

section Settled

variable {crates : Crates} {key : CommandLedgerKey} {row : CommandLedgerRecord}
  {repository : InMemoryRepository}

theorem isTerminal_of_settled {record : CommandLedgerRecord}
    (hrow : row.state.isReplayable = true)
    (h : record = row ∨ ∃ now, record = row.expire now)
    : record.IsTerminal := by
  rcases h with rfl | ⟨now, rfl⟩
  · exact .inl hrow
  · exact .inr rfl

/-- No operation changes a settled key other than by expiring it. -/
theorem Settled.step (hrow : row.state.isReplayable = true)
    (h : Settled key row repository) (op : RepositoryOp)
    : Settled key row (step crates op repository).2 := by
  obtain ⟨record, hlookup, hrecord⟩ := h
  rcases step_ledgerStep crates repository op key with hsame | ⟨next, hnext, htransition⟩
  · exact ⟨record, hsame.trans hlookup, hrecord⟩
  · rw [hlookup] at htransition
    obtain ⟨now, rfl⟩ := htransition.of_terminal (isTerminal_of_settled hrow hrecord)
    refine ⟨_, hnext, .inr ⟨now, ?_⟩⟩
    rcases hrecord with rfl | ⟨earlier, rfl⟩
    · rfl
    · rfl

theorem Settled.commitCommand_not_ok (hrow : row.state.isReplayable = true)
    {clock : CommitClock} {request : CausalCommitRequest} {streams : List StreamWrite}
    (h : Settled request.completion.attempt.key row repository)
    : (commitCommand crates clock request repository).1 ≠ .ok streams := by
  intro hok
  obtain ⟨found, hfound, hrecord⟩ := h
  obtain ⟨stored, record, completed, -, hlookup, hcomplete, -⟩ :=
    commitCommand_ok (Prod.ext hok rfl)
  cases hfound.symm.trans hlookup
  have hfence := (CommandLedgerRecord.complete_ok hcomplete).2.1
  exact (isTerminal_of_settled hrow hrecord).not_open.1
    (CommandLedgerRecord.matchesFence_iff.mp hfence).1

/-- A repeated request gets `Expired` or the stored replay. -/
theorem Settled.reserveCommand (hrow : row.state.isReplayable = true)
    {reservation : CommandReservation} {now : SystemTime}
    (h : Settled reservation.key row repository)
    (hsame : row.differsFrom reservation = false)
    : (reserveCommand crates reservation now repository).1 = .ok .expired
      ∨ (reserveCommand crates reservation now repository).1
        = (row.replay crates).map .replay := by
  obtain ⟨record, hlookup, hrecord⟩ := h
  rw [InMemoryRepo.reserveCommand, Txn.current_bind_apply, hlookup]
  by_cases hdue : record.state = .expired ∨ record.retentionExpiresAt ≤ now
  · left
    simp only [reserveOccupied, CommandLedgerRecord.classifyReservation_of_due hdue,
      Txn.lift_ok_bind]
    rfl
  · right
    have hkept : record = row := by
      rcases hrecord with rfl | ⟨earlier, rfl⟩
      · rfl
      · exact absurd (.inl rfl) hdue
    subst hkept
    simp only [reserveOccupied, Txn.lift_ok_bind,
      CommandLedgerRecord.classifyReservation_of_replayable hdue hsame hrow]
    cases hreplay : record.replay crates with
    | error error => simp [CommandLedgerRecord.reservationOutcome, hreplay, Except.map]
    | ok replay => simp [CommandLedgerRecord.reservationOutcome, hreplay, Except.map]

end Settled

/-- After a command was committed no later commit of its key succeeds in the same run, and
every later reservation of the same request is answered with `Expired` or with the replay of
the row that commit wrote. When the row's envelope reads back, that replay is exactly the
completion; when its text does not parse, it is a corrupt-record error. -/
theorem committed_command_is_final (crates : Crates) (retention : ProjectionChangeRetention)
    (ops : List RepositoryOp)
    {earlier later : List (Event InMemoryRepository RepositoryOp RepositoryAnswer)}
    {done : Event InMemoryRepository RepositoryOp RepositoryAnswer}
    (hrun : history (step crates) (.new retention) ops = earlier ++ done :: later)
    {clock : CommitClock} {request : CausalCommitRequest} {streams : List StreamWrite}
    (hop : done.op = .commitCommand clock request)
    (hanswer : done.answer = .commandCommitted (.ok streams))
    : ∃ row direct,
      done.after.commandLedger.lookup request.completion.attempt.key = some row
      ∧ row.CompletedFrom crates request.completion direct
      ∧ (request.completion.Readable crates direct →
          row.replay crates
            = .ok (request.completion.expectedReplay row.commandName direct))
      ∧ (∀ text error, row.outcomeJson = some text → crates.jsonFromStr text = .error error →
          row.replay crates
            = .error (row.corruptCommand ("outcome is invalid JSON: " ++ error)))
      ∧ ∀ event ∈ later,
        (∀ clock' other streams', event.op = .commitCommand clock' other →
          other.completion.attempt.key = request.completion.attempt.key →
          event.answer ≠ .commandCommitted (.ok streams'))
        ∧ (∀ reservation now, event.op = .reserveCommand reservation now →
          reservation.key = request.completion.attempt.key →
          reservation.commandName = row.commandName →
          reservation.contractFingerprint = request.completion.attempt.contractFingerprint →
          reservation.inputHash = request.completion.attempt.inputHash →
          event.answer = .reserved (.ok .expired)
          ∨ event.answer = .reserved ((row.replay crates).map .replay)) := by
  have hmem : ∀ event ∈ done :: later,
      step crates event.op event.before = (event.answer, event.after) := fun event hevent =>
    history_step (hrun ▸ List.mem_append_right _ hevent)
  have hdone := hmem done (List.mem_cons_self ..)
  rw [hop, hanswer] at hdone
  obtain ⟨hok, hafter⟩ := Prod.mk.inj hdone
  rw [RepositoryAnswer.commandCommitted.injEq] at hok
  obtain ⟨stored, record, row, hstored, -, hcomplete, hledger⟩ :=
    commitCommand_ok (Prod.ext hok hafter)
  obtain ⟨hfrom, -⟩ := CommandLedgerRecord.complete_completedFrom hstored hcomplete
  have hrow : row.state.isReplayable = true := by simp [hfrom.state]
  have hlookup : done.after.commandLedger.lookup request.completion.attempt.key = some row := by
    rw [hledger]
    exact AList.lookup_insert _
  have hsettled := history_after (fun _ => True) (Settled request.completion.attempt.key row)
    (fun _ _ => trivial) hrun ⟨row, hlookup, .inl rfl⟩ (fun state op h _ => h.step hrow op)
  refine ⟨row, stored.directProjection, hlookup, hfrom, hfrom.replay_eq,
    fun _ _ => CommandLedgerRecord.replay_of_unparsed hrow, ?_⟩
  intro event hevent
  have hbefore := hsettled event hevent
  have hstep := hmem event (List.mem_cons_of_mem _ hevent)
  constructor
  · intro clock' other streams' hother hkey hcommitted
    rw [hother, hcommitted] at hstep
    obtain ⟨hok', -⟩ := Prod.mk.inj hstep
    rw [RepositoryAnswer.commandCommitted.injEq] at hok'
    rw [← hkey] at hbefore
    exact hbefore.commitCommand_not_ok hrow hok'
  · intro reservation now hreserve hkey hname hcontract hinput
    have hsame : row.differsFrom reservation = false := by
      simp [CommandLedgerRecord.differsFrom, hname, hcontract, hinput, hfrom.contract,
        hfrom.input]
    rw [hreserve] at hstep
    rw [← hkey] at hbefore
    rw [← (Prod.mk.inj hstep).1]
    exact (hbefore.reserveCommand hrow hsame).imp
      (congrArg RepositoryAnswer.reserved) (congrArg RepositoryAnswer.reserved)

def createTodoKey : CommandLedgerKey where
  serviceId := "todos"
  principalPartition := ⟨"tenant-a", by decide⟩
  id := ⟨"01890a5d-ac96-774b-bcce-b302099a8057"⟩
  service_not_blank := by decide

def createTodoReservation : CommandReservation where
  key := createTodoKey
  commandName := "create_todo"
  contractFingerprint := .replicate 1
  inputHash := .replicate 2
  lease := 30 * nanosPerSecond
  retention := 3600 * nanosPerSecond
  candidateCausation := ⟨"01890a5d-ac96-774b-bcce-b302099a8058"⟩
  candidateAttempt := ⟨"01890a5d-ac96-774b-bcce-b302099a8059"⟩
  name_not_blank := by decide
  lease_pos := by decide
  lease_lt_retention := by decide

def createTodoAttempt : CommandAttempt where
  key := createTodoKey
  contractFingerprint := .replicate 1
  inputHash := .replicate 2
  causationId := ⟨"01890a5d-ac96-774b-bcce-b302099a8058"⟩
  attemptToken := ⟨"01890a5d-ac96-774b-bcce-b302099a8059"⟩
  attemptNumber := 1

/-- The first attempt succeeds with an outcome and writes nothing else. -/
def createTodoCommit (outcome : Json) : CausalCommitRequest where
  completion := {
    attempt := createTodoAttempt
    state := .succeeded
    outcome
    retention := 3600 * nanosPerSecond
  }
  domain := { streams := [] }

/-- One second after the epoch at every reading. -/
def createTodoClock : CommitClock := ⟨fun _ => nanosPerSecond, nanosPerSecond, nanosPerSecond⟩

/-- The crates on the envelope of a null outcome. -/
def nullOutcomeCrates : Crates :=
  serdeCrates [.object [("outcome", .null), ("projection_obligations", .array []),
    ("version", .ofNat 2)]] ""

/-- The repository after the first attempt was reserved. -/
def createTodoReserved (crates : Crates) : InMemoryRepository :=
  finalState (step crates) (.new defaultProjectionChangeRetention)
    [.reserveCommand createTodoReservation 0]

/-- The repository after the first attempt was committed. -/
def createTodoCommitted (crates : Crates) (outcome : Json) : InMemoryRepository :=
  finalState (step crates) (createTodoReserved crates)
    [.commitCommand createTodoClock (createTodoCommit outcome)]

/-- A null outcome is replayed to a second caller. -/
theorem createTodo_repeated_is_replayed
    : (step nullOutcomeCrates (.reserveCommand createTodoReservation (2 * nanosPerSecond))
          (createTodoCommitted nullOutcomeCrates .null)).1 = .reserved (.ok .expired)
      ∨ (step nullOutcomeCrates (.reserveCommand createTodoReservation (2 * nanosPerSecond))
          (createTodoCommitted nullOutcomeCrates .null)).1
        = .reserved (.ok (.replay
          ((createTodoCommit .null).completion.expectedReplay "create_todo" none))) := by
  obtain ⟨row, direct, hlookup, hfrom, hreplay, -, hlater⟩ :=
    committed_command_is_final nullOutcomeCrates defaultProjectionChangeRetention
      [.reserveCommand createTodoReservation 0,
        .commitCommand createTodoClock (createTodoCommit .null),
        .reserveCommand createTodoReservation (2 * nanosPerSecond)]
      (show _ = history (step nullOutcomeCrates) _ [.reserveCommand createTodoReservation 0]
          ++ .ofStep (step nullOutcomeCrates) (createTodoReserved nullOutcomeCrates)
              (.commitCommand createTodoClock (createTodoCommit .null))
            :: history (step nullOutcomeCrates)
              (createTodoCommitted nullOutcomeCrates .null)
              [.reserveCommand createTodoReservation (2 * nanosPerSecond)] from rfl)
      rfl rfl
  have hdirect : direct = none := by
    have hprojected := hfrom.projected
    simpa [createTodoCommit] using hprojected
  have hname : row.commandName = "create_todo" := by
    cases hlookup
    rfl
  subst hdirect
  rw [hname] at hreplay hlater
  rw [hreplay ⟨by simp [createTodoCommit], rfl, rfl⟩] at hlater
  exact (hlater _ (List.mem_singleton_self _)).2 _ _ rfl rfl rfl rfl rfl

/-- The row of the first attempt. -/
def createTodoRow : CommandLedgerRecord where
  key := createTodoKey
  commandName := "create_todo"
  contractFingerprint := .replicate 1
  inputHash := .replicate 2
  state := .inProgress
  causationId := ⟨"01890a5d-ac96-774b-bcce-b302099a8058"⟩
  attemptToken := some ⟨"01890a5d-ac96-774b-bcce-b302099a8059"⟩
  attemptNumber := 1
  leaseExpiresAt := some (30 * nanosPerSecond)
  outcomeJson := none
  createdAt := 0
  updatedAt := 0
  completedAt := none
  retentionExpiresAt := 3600 * nanosPerSecond
  compactedAt := none

/-- An array inside an array, `depth` times. -/
def nestedArrays : Nat → Json
  | 0 => .array []
  | depth + 1 => .array [nestedArrays depth]

/-- `serde_json` prints 127 nested arrays under the envelope's own object, but reads at most
127 levels. -/
def deepOutcomeCrates : Crates := serdeCrates [] "recursion limit exceeded at line 1 column 138"

/-- A second caller of a command whose outcome is nested too deeply gets an error. -/
theorem createTodo_deep_outcome_is_corrupt
    : (history (step deepOutcomeCrates) (.new defaultProjectionChangeRetention)
        [.reserveCommand createTodoReservation 0,
          .commitCommand createTodoClock (createTodoCommit (nestedArrays 126)),
          .reserveCommand createTodoReservation (2 * nanosPerSecond)]).map Event.answer
      = [.reserved (.ok (.acquired createTodoAttempt)),
          .commandCommitted (.ok []),
          .reserved (.error (.corrupt
            ("command `01890a5d-ac96-774b-bcce-b302099a8057` outcome is invalid JSON: "
              ++ "recursion limit exceeded at line 1 column 138")))] := by
  rfl

end Distributed.InMemoryRepo
