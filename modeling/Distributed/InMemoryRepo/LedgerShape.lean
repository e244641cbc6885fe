import Distributed.CommandLedger.DurableCell
import Distributed.CommandLedger.Shape
import Distributed.InMemoryRepo.AtMostOnce

/-! The ledger never finds its own rows corrupt, except where a counter or the JSON crate
gives out.
-/

namespace Distributed.InMemoryRepo

open Distributed.CommandLedger Distributed.Foundation Distributed.Platform

open Distributed.ProjectionProtocol Distributed.Repository Distributed.Table

open CommandLedgerError Result

/-- Every row of the ledger was written by it. -/
def LedgerWritten (crates : Crates) (repository : InMemoryRepository) : Prop :=
  ∀ key record, repository.commandLedger.lookup key = some record → record.Written crates

theorem LedgerWritten.step {crates : Crates} {repository : InMemoryRepository}
    (h : LedgerWritten crates repository) (op : RepositoryOp)
    : LedgerWritten crates (step crates op repository).2 := by
  intro key record hrecord
  rcases step_ledgerStep crates repository op key with hsame | ⟨next, hnext, htransition⟩
  · exact h key record (hsame ▸ hrecord)
  · cases hrecord.symm.trans hnext
    exact htransition.written fun before hbefore => h key before hbefore

theorem ledgerWritten_of_reachable {crates : Crates} {retention : ProjectionChangeRetention}
    {repository : InMemoryRepository}
    (h : Reachable (step crates) (fun _ => True) (.new retention) repository)
    : LedgerWritten crates repository :=
  h.invariant (fun _ _ hrecord => by simp [InMemoryRepository.new] at hrecord)
    fun _ op hwritten _ => hwritten.step op

/-- The ledger error of an answer. -/
def RepositoryAnswer.ledgerError : RepositoryAnswer → Option CommandLedgerError
  | .commandCommitted result => failure? result
  | .reserved result => failure? result
  | .lookedUp result => failure? result
  | .marked result => failure? result
  | .commandsCompacted result => failure? result
  | _ => none

/-- A completed row whose text the crates do not read back, whatever completion it is of. -/
structure Unreadable (crates : Crates) (record : CommandLedgerRecord) : Prop where
  completed : ∃ request direct, record.CompletedFrom crates request direct
  unread : ∀ request direct, record.CompletedFrom crates request direct →
    ¬request.Readable crates direct

section Corrupt

variable {crates : Crates} {repository : InMemoryRepository} {message : String}

theorem unreadable_of_replay_error {record : CommandLedgerRecord}
    {error : CommandLedgerError} (hwritten : record.Written crates)
    (hstate : record.state.isReplayable = true) (h : record.replay crates = .error error)
    : Unreadable crates record := by
  refine ⟨hwritten.completion hstate, fun request direct hfrom hread => ?_⟩
  rw [hfrom.replay_eq hread] at h
  cases h

theorem lookup_error {record : CommandLedgerRecord} {error : CommandLedgerError}
    (h : record.lookup crates = .error error)
    : record.state.isReplayable = true ∧ record.replay crates = .error error := by
  unfold CommandLedgerRecord.lookup at h
  cases hstate : record.state with
  | inProgress | retryableUnknown | expired => simp [hstate] at h
  | succeeded | succeededPendingProjection | atomic | rejected | projectionFailed =>
      refine ⟨rfl, ?_⟩
      rw [hstate] at h
      cases hreplay : record.replay crates with
      | error failure => simpa [hreplay] using h
      | ok replay => simp [hreplay] at h

/-- Why a reservation may blame the row it finds. -/
def ReservationCorrupts (crates : Crates) (record : CommandLedgerRecord) : Prop :=
  record.attemptNumber = maxAttemptNumber ∨ Unreadable crates record

theorem reserveOccupied_failsWith {reservation : CommandReservation} {now : SystemTime}
    {record : CommandLedgerRecord} (hwritten : record.Written crates)
    : FailsWith (fun error => NotCorrupt error ∨ ReservationCorrupts crates record)
        (reserveOccupied crates reservation now record repository).1 := by
  obtain ⟨decision, hdecision⟩ := hwritten.classifies reservation now
  have hclassified := CommandLedgerRecord.classifyReservation_ok hdecision
  unfold reserveOccupied
  rw [hdecision]
  cases decision with
  | conflict | inProgress | expire => exact failsWith_ok _
  | replay =>
      cases hclassified with
      | replay hstate =>
          cases hreplay : record.replay crates with
          | error error =>
              have hunreadable := unreadable_of_replay_error hwritten hstate hreplay
              exact fun _ _ => .inr (.inr hunreadable)
          | ok replay => simp [CommandLedgerRecord.reservationOutcome, hreplay]
  | reclaim =>
      have hreclaim := record.reclaim_failsWith reservation now
      cases hnext : record.reclaim reservation now with
      | error error =>
          rw [hnext, failsWith_error] at hreclaim
          refine failsWith_error.mpr (hreclaim.imp_right fun hmax => .inl ?_)
          exact le_antisymm hwritten.bounded hmax
      | ok next =>
          have htoken : next.attemptToken = some reservation.candidateAttempt := by
            obtain ⟨-, rfl⟩ := CommandLedgerRecord.reclaim_ok hnext
            rfl
          have houtcome : ∃ outcome, next.reservationOutcome crates .reclaim = .ok outcome := by
            simp [CommandLedgerRecord.reservationOutcome,
              CommandLedgerRecord.acquiredAttempt_eq htoken]
          obtain ⟨outcome, houtcome⟩ := houtcome
          intro error herror
          cases houtcome.symm.trans herror

theorem reserveCommand_failsWith (hledger : LedgerWritten crates repository)
    (reservation : CommandReservation) (now : SystemTime)
    : FailsWith (fun error => NotCorrupt error
          ∨ ∃ record, repository.commandLedger.lookup reservation.key = some record
            ∧ ReservationCorrupts crates record)
        (reserveCommand crates reservation now repository).1 := by
  rw [reserveCommand, Txn.current_bind_apply]
  cases hrow : repository.commandLedger.lookup reservation.key with
  | none =>
      cases hinitial : CommandLedgerRecord.initial reservation now with
      | error error =>
          have hfails := CommandLedgerRecord.initial_failsWith reservation now error hinitial
          exact failsWith_error.mpr (.inl hfails)
      | ok record =>
          have htoken : record.attemptToken = some reservation.candidateAttempt :=
            CommandLedgerRecord.initial_ok hinitial ▸ rfl
          simp only [Txn.lift_ok_bind, CommandLedgerRecord.acquiredAttempt_eq htoken]
          exact failsWith_ok _
  | some record =>
      intro error herror
      refine (reserveOccupied_failsWith (hledger _ _ hrow) error herror).imp_right ?_
      exact fun hcorrupts => ⟨record, rfl, hcorrupts⟩

theorem lookupCommand_failsWith (hledger : LedgerWritten crates repository)
    (key : CommandLedgerKey) (scope : CommandLookupScope) (now : SystemTime)
    : FailsWith (fun _ => ∃ record, repository.commandLedger.lookup key = some record
          ∧ Unreadable crates record)
        (lookupCommand crates key scope now repository).1 := by
  rw [lookupCommand, Txn.current_bind_apply]
  cases hrow : repository.commandLedger.lookup key with
  | none => exact failsWith_ok _
  | some record =>
      dsimp only
      split
      · exact failsWith_ok _
      · split
        · exact failsWith_ok _
        · intro error herror
          obtain ⟨hstate, hreplay⟩ := lookup_error herror
          exact ⟨record, rfl, unreadable_of_replay_error (hledger _ _ hrow) hstate hreplay⟩

theorem markRetryableUnknown_failsWith (attempt : AttemptFence) (now : SystemTime)
    : FailsWith NotCorrupt (markRetryableUnknown attempt now repository).1 := by
  rw [markRetryableUnknown, Txn.current_bind_apply]
  cases repository.commandLedger.lookup attempt.key with
  | none => exact failsWith_error.mpr (notCorrupt_attemptFenced _)
  | some record =>
      exact Txn.failsWith_bind (record.markRetryableUnknown_failsWith attempt now)
        fun _ _ => failsWith_ok _

theorem compactExpiredCommands_failsWith (limit : Nat) (now : SystemTime)
    : FailsWith NotCorrupt (compactExpiredCommands limit now repository).1 := by
  unfold compactExpiredCommands
  split
  · exact failsWith_ok _
  · exact failsWith_ok _

/-- The common commit never reports a corrupt row. -/
def CommitNotCorrupt (error : InMemoryCommitError) : Prop := NotCorrupt error.toLedgerError

theorem ofRepository_failsWith {α : Type} (result : Except RepositoryError α)
    : FailsWith CommitNotCorrupt (ofRepository result) :=
  failsWith_mapError result fun _ => nofun

theorem ofTable_failsWith {α : Type} (result : Except TableStoreError α)
    : FailsWith CommitNotCorrupt (ofTable result) :=
  failsWith_mapError result fun _ => nofun

theorem ofProjection_failsWith {α : Type} (result : Except ProjectionProtocolError α)
    : FailsWith CommitNotCorrupt (ofProjection result) :=
  failsWith_mapError result fun _ => nofun

theorem ofLedger_failsWith {α : Type} {result : Except CommandLedgerError α}
    (h : FailsWith NotCorrupt result)
    : FailsWith CommitNotCorrupt (ofLedger result) :=
  h.mapError fun _ hnot => hnot

theorem attemptRecord_failsWith (ledger : CommandLedger) (completion : CommandCompletion)
    : FailsWith NotCorrupt (attemptRecord ledger completion) := by
  unfold attemptRecord
  split
  · simp
  · simp

theorem validateBatch_failsWith (clock : CommitClock) (batch : CommitBatch)
    (completion : Option CommandCompletion)
    (direct : Option SameTransactionProjectionBatch)
    : FailsWith CommitNotCorrupt (validateBatch clock batch completion direct) := by
  refine (ofRepository_failsWith _).bind fun prepared => ?_
  cases direct with
  | none => exact failsWith_ok _
  | some direct =>
      refine (ofProjection_failsWith _).bind fun _ => ?_
      refine FailsWith.bind (ofLedger_failsWith ?_) fun _ => failsWith_ok _
      unfold validateDirectProjection
      split
      · simp
      · split <;> simp

theorem checkStores_failsWith (clock : CommitClock) (batch : CommitBatch)
    (completion : Option CommandCompletion)
    (direct : Option SameTransactionProjectionBatch) (prepared : List PreparedEventAppend)
    : FailsWith CommitNotCorrupt
        (checkStores repository clock batch completion direct prepared) := by
  have hattempt : FailsWith NotCorrupt
      (checkAttempt repository.commandLedger clock.preflight completion) := by
    cases completion with
    | none => exact failsWith_ok _
    | some completion =>
        exact (attemptRecord_failsWith _ _).bind fun record =>
          record.validateLiveAttempt_failsWith _ _
  refine (ofTable_failsWith _).bind fun _ => ?_
  cases direct with
  | none => exact (ofLedger_failsWith hattempt).bind fun _ => ofRepository_failsWith _
  | some direct =>
      refine (ofProjection_failsWith _).bind fun _ => ?_
      exact (ofLedger_failsWith hattempt).bind fun _ => ofRepository_failsWith _

theorem stageDirectProjection_failsWith (rows : RelationalRows)
    (completion : Option CommandCompletion)
    (direct : Option SameTransactionProjectionBatch)
    : FailsWith CommitNotCorrupt
        (stageDirectProjection crates repository rows completion direct) := by
  cases direct with
  | none => exact failsWith_ok _
  | some direct =>
      refine (ofProjection_failsWith _).bind fun ⟨evidence, protocol, rows⟩ => ?_
      refine FailsWith.bind ?_ fun _ => failsWith_ok _
      cases completion with
      | none => exact failsWith_ok _
      | some completion =>
          exact (ofLedger_failsWith
            (completion.attachDirectProjection_failsWith crates evidence)).bind
              fun _ => failsWith_ok _

theorem stageCompletion_failsWith (now : SystemTime) (completion : Option CommandCompletion)
    : FailsWith CommitNotCorrupt (stageCompletion repository now completion) := by
  cases completion with
  | none => exact failsWith_ok _
  | some completion =>
      refine (ofLedger_failsWith (attemptRecord_failsWith _ _)).bind fun record => ?_
      exact (ofLedger_failsWith (record.complete_failsWith completion now)).bind
        fun _ => failsWith_ok _

theorem stageBatch_failsWith (clock : CommitClock) (batch : CommitBatch)
    (completion : Option CommandCompletion)
    (direct : Option SameTransactionProjectionBatch)
    : FailsWith CommitNotCorrupt
        (stageBatch crates clock batch completion direct repository).1 := by
  refine Txn.failsWith_bind (validateBatch_failsWith _ _ _ _) fun prepared _ => ?_
  refine Txn.failsWith_bind (failsWith_ok _) fun repository _ => ?_
  refine Txn.failsWith_bind (checkStores_failsWith _ _ _ _ _) fun _ _ => ?_
  refine Txn.failsWith_bind (ofTable_failsWith _) fun rows _ => ?_
  refine Txn.failsWith_bind (stageDirectProjection_failsWith _ _ _) fun _ _ => ?_
  refine Txn.failsWith_bind (ofRepository_failsWith _) fun _ _ => ?_
  refine Txn.failsWith_bind (ofRepository_failsWith _) fun _ _ => ?_
  refine Txn.failsWith_bind (stageCompletion_failsWith _ _) fun _ _ => ?_
  exact failsWith_ok _

theorem commitCommand_failsWith (clock : CommitClock) (request : CausalCommitRequest)
    : FailsWith NotCorrupt (commitCommand crates clock request repository).1 := by
  refine Txn.failsWith_bind (request.completion.complete_failsWith crates) ?_
  intro completion next
  have hinner : FailsWith CommitNotCorrupt (commitBatchInner crates clock
      (CausalCommitBatch.build request.domain completion request.directProjection).domain
      (some completion) request.directProjection next).1 := by
    refine Txn.failsWith_bind (stageBatch_failsWith _ _ _ _) fun staged _ => ?_
    rw [Txn.bind_ok (publishBatch_apply _ staged _)]
    exact failsWith_ok _
  exact hinner.mapError fun _ hnot => hnot

end Corrupt

/-- In every run every stored row has the shape of its state, and an answer that blames a
row is given only by a reservation of a row whose attempt counter is exhausted, or by a
reservation or lookup of a completed row whose text the crates do not read back. -/
theorem ledger_rows_keep_shape (crates : Crates) (retention : ProjectionChangeRetention)
    (ops : List RepositoryOp)
    : (∀ key record,
        (finalState (step crates) (.new retention) ops).commandLedger.lookup key
          = some record →
        record.validateStoredShape = .ok ())
      ∧ ∀ event ∈ history (step crates) (.new retention) ops, ∀ message,
        event.answer.ledgerError = some (.corrupt message) →
        ∃ key record, event.before.commandLedger.lookup key = some record
          ∧ ((∃ reservation now, event.op = .reserveCommand reservation now
              ∧ reservation.key = key
              ∧ (record.attemptNumber = maxAttemptNumber ∨ Unreadable crates record))
            ∨ ∃ scope now, event.op = .lookupCommand key scope now
              ∧ Unreadable crates record) := by
  constructor
  · intro key record hrecord
    have hfinal : Reachable (step crates) (fun _ => True) (.new retention)
        (finalState (step crates) (.new retention) ops) :=
      finalState_reachable _ fun _ _ => trivial
    exact (ledgerWritten_of_reachable hfinal key record hrecord).validateStoredShape
  · intro event hevent message hanswer
    have hledger := ledgerWritten_of_reachable
      (history_reachable (fun _ => True) (fun _ _ => trivial) event hevent).1
    have hstep := congrArg Prod.fst (history_step hevent)
    obtain ⟨before, op, answer, after⟩ := event
    dsimp only at hstep hanswer hledger
    rw [← hstep] at hanswer
    cases op with
    | commitCommand clock request =>
        exact absurd rfl
          (commitCommand_failsWith clock request _ (failure?_eq_some.mp hanswer) message)
    | reserveCommand reservation now =>
        obtain hnot | ⟨record, hrow, hcorrupts⟩ :=
          reserveCommand_failsWith hledger reservation now _ (failure?_eq_some.mp hanswer)
        · exact absurd rfl (hnot message)
        · exact ⟨_, record, hrow, .inl ⟨reservation, now, rfl, rfl, hcorrupts⟩⟩
    | lookupCommand key scope now =>
        obtain ⟨record, hrow, hunreadable⟩ :=
          lookupCommand_failsWith hledger key scope now _ (failure?_eq_some.mp hanswer)
        exact ⟨key, record, hrow, .inr ⟨scope, now, rfl, hunreadable⟩⟩
    | markRetryableUnknown attempt now =>
        exact absurd rfl
          (markRetryableUnknown_failsWith attempt now _ (failure?_eq_some.mp hanswer) message)
    | compactExpiredCommands limit now =>
        exact absurd rfl
          (compactExpiredCommands_failsWith limit now _ (failure?_eq_some.mp hanswer) message)
    | _ => cases hanswer

/-- A lookup of a command whose outcome is nested too deeply blames the row that the ledger
wrote for it. -/
theorem createTodo_deep_outcome_lookup_is_corrupt
    : (history (step deepOutcomeCrates) (.new defaultProjectionChangeRetention)
        [.reserveCommand createTodoReservation 0,
          .commitCommand createTodoClock (createTodoCommit (nestedArrays 126)),
          .lookupCommand createTodoKey (.commandName "create_todo")
            (2 * nanosPerSecond)]).map Event.answer
      = [.reserved (.ok (.acquired createTodoAttempt)),
          .commandCommitted (.ok []),
          .lookedUp (.error (.corrupt
            ("command `01890a5d-ac96-774b-bcce-b302099a8057` outcome is invalid JSON: "
              ++ "recursion limit exceeded at line 1 column 138")))] := by
  rfl

/-- A row of the ledger whose times fit and whose outcome the crates read back is written to
its cell, comes back with its times cut to whole milliseconds, and decides as before at
every clock reading that is clear of its deadlines. -/
theorem ledger_rows_survive_cells (crates : Crates) (uuids : UuidCrate) (serde : CellSerde)
    {retention : ProjectionChangeRetention} {repository : InMemoryRepository}
    {key : CommandLedgerKey} {record : CommandLedgerRecord}
    (hreach : Reachable (step crates) (fun _ => True) (.new retention) repository)
    (hrow : repository.commandLedger.lookup key = some record)
    (hids : record.IdsSpelled uuids) (htimes : record.TimesFit)
    (hserde : serde.RoundTrips record.fittingWire)
    (hread : record.state.isReplayable = true →
      ∃ request direct, record.CompletedFrom crates request direct
        ∧ request.Readable crates direct)
    : ∃ body, record.durableCellJson serde = .ok body
      ∧ CommandLedgerRecord.fromDurableCellJson crates uuids serde body = .ok record.cutTimes
      ∧ ∀ now, record.Clear now →
        CommandLedgerRecord.DecidesAs crates now record.cutTimes record := by
  have hwritten := ledgerWritten_of_reachable hreach key record hrow
  have hreplay : record.state.isReplayable = true →
      ∃ replay, record.replay crates = .ok replay := by
    intro hstate
    obtain ⟨request, direct, hfrom, hreadable⟩ := hread hstate
    exact ⟨_, hfrom.replay_eq hreadable⟩
  obtain ⟨body, hwrite, hback⟩ := CommandLedgerRecord.fromDurableCellJson_durableCellJson
    hserde hwritten.validateStoredShape hids htimes hreplay
  exact ⟨body, hwrite, hback, fun now hclear => hclear.decidesAs crates⟩

/-- `01890a5d-ac96-774b-bcce-b302099a8058`. -/
def causationUuid : Uuid :=
  ⟨[0x01, 0x89, 0x0a, 0x5d, 0xac, 0x96, 0x77, 0x4b, 0xbc, 0xce, 0xb3, 0x02, 0x09, 0x9a, 0x80,
    0x58], rfl⟩

/-- The crate on the two ids of a completed row. -/
def createTodoUuids : UuidCrate where
  parseStr text :=
    if text = todoUuid.hyphenated then some todoUuid
    else if text = causationUuid.hyphenated then some causationUuid
    else none

/-- The row the first attempt completed with an outcome. -/
def createTodoDone (crates : Crates) (outcome : Json) : CommandLedgerRecord :=
  { createTodoRow with
    state := .succeeded
    attemptToken := none
    leaseExpiresAt := none
    outcomeJson := some
      (crates.jsonToString (.object (replayEnvelope crates (createTodoCommit outcome).completion)))
    updatedAt := nanosPerSecond
    completedAt := some nanosPerSecond
    retentionExpiresAt := 3601 * nanosPerSecond }

/-- The object `serde_json` prints for a row, its fields in the order of their declaration. -/
def wireJson (wire : DurableCellCommandRecordV1) : Json :=
  .object [
    ("version", .ofNat wire.version),
    ("service_id", .string wire.serviceId),
    ("principal_partition", .string wire.principalPartition),
    ("command_id", .string wire.commandId),
    ("command_name", .string wire.commandName),
    ("contract_fingerprint", bytesToJson wire.contractFingerprint),
    ("input_hash", bytesToJson wire.inputHash),
    ("state", .string wire.state),
    ("causation_id", .string wire.causationId),
    ("attempt_token", Serde.ofOption .string wire.attemptToken),
    ("attempt_number", .ofNat wire.attemptNumber),
    ("lease_expires_at_ms", Serde.ofOption .ofNat wire.leaseExpiresAtMs),
    ("outcome_json", Serde.ofOption .string wire.outcomeJson),
    ("created_at_ms", .ofNat wire.createdAtMs),
    ("updated_at_ms", .ofNat wire.updatedAtMs),
    ("completed_at_ms", Serde.ofOption .ofNat wire.completedAtMs),
    ("retention_expires_at_ms", .ofNat wire.retentionExpiresAtMs),
    ("compacted_at_ms", Serde.ofOption .ofNat wire.compactedAtMs)]

def wireText (wire : DurableCellCommandRecordV1) : String :=
  (serdeCrates [] "").jsonToString (wireJson wire)

/-- The crate on the one row of a run, whose text it prints and reads. -/
def cellSerde (record : CommandLedgerRecord) : CellSerde where
  toString wire := .ok (wireText wire)
  fromStr text :=
    if text = wireText record.fittingWire then .ok record.fittingWire
    else .error "not the row"

theorem cellSerde_fromStr (record : CommandLedgerRecord)
    : (cellSerde record).fromStr (wireText record.fittingWire) = .ok record.fittingWire := by
  simp [cellSerde]

theorem cellSerde_roundTrips (record : CommandLedgerRecord)
    : (cellSerde record).RoundTrips record.fittingWire :=
  ⟨_, rfl, cellSerde_fromStr record⟩

section CreateTodoDone

variable (crates : Crates) (outcome : Json)

theorem createTodoDone_idsSpelled
    : (createTodoDone crates outcome).IdsSpelled createTodoUuids where
  command := ⟨todoUuid, by decide, rfl, rfl⟩
  causation := ⟨causationUuid, by decide, rfl, rfl⟩
  attempt := nofun

theorem createTodoDone_timesFit : (createTodoDone crates outcome).TimesFit where
  lease := nofun
  created := show FitsMillis 0 from ⟨by decide, by decide⟩
  updated := show FitsMillis nanosPerSecond from ⟨by decide, by decide⟩
  completed := fun _ h => by cases h; exact ⟨by decide, by decide⟩
  retention := show FitsMillis (3601 * nanosPerSecond) from ⟨by decide, by decide⟩
  compacted := nofun

theorem createTodoDone_shaped
    : (createTodoDone crates outcome).validateStoredShape = .ok () :=
  CommandLedgerRecord.validateStoredShape_ok_iff.mpr
    ⟨createTodoReservation.name_not_blank, Nat.one_ne_zero, rfl⟩

end CreateTodoDone

/-- The completed null outcome comes back from its cell. -/
theorem createTodoDone_survives_cell
    : let row := createTodoDone nullOutcomeCrates .null
      ∃ body, row.durableCellJson (cellSerde row) = .ok body
      ∧ CommandLedgerRecord.fromDurableCellJson nullOutcomeCrates createTodoUuids
          (cellSerde row) body = .ok row.cutTimes
      ∧ ∀ now, row.Clear now →
        CommandLedgerRecord.DecidesAs nullOutcomeCrates now row.cutTimes row := by
  intro row
  obtain ⟨completion, hstored, hcomplete, hdirect⟩ : ∃ completion,
      (createTodoCommit .null).completion.complete nullOutcomeCrates = .ok completion
      ∧ createTodoRow.complete completion nanosPerSecond = .ok row
      ∧ completion.directProjection = none := ⟨_, rfl, rfl, rfl⟩
  have hfrom := (CommandLedgerRecord.complete_completedFrom (.plain hstored) hcomplete).1
  rw [hdirect] at hfrom
  have hrun : createTodoCommitted nullOutcomeCrates .null
      = finalState (step nullOutcomeCrates) (.new defaultProjectionChangeRetention)
        [.reserveCommand createTodoReservation 0,
          .commitCommand createTodoClock (createTodoCommit .null)] := rfl
  have hrow : (createTodoCommitted nullOutcomeCrates .null).commandLedger.lookup createTodoKey
      = some row := rfl
  exact ledger_rows_survive_cells nullOutcomeCrates createTodoUuids _
    (hrun ▸ finalState_reachable _ fun _ _ => trivial) hrow
    (createTodoDone_idsSpelled ..) (createTodoDone_timesFit ..) (cellSerde_roundTrips row)
    fun _ => ⟨_, none, hfrom, by simp [createTodoCommit], rfl, rfl⟩

/-- A row whose outcome is nested too deeply is written to its cell but not read back. -/
theorem createTodo_deep_outcome_is_lost_in_cell
    : let row := createTodoDone deepOutcomeCrates (nestedArrays 126)
      (createTodoCommitted deepOutcomeCrates (nestedArrays 126)).commandLedger.lookup
          createTodoKey = some row
      ∧ row.IdsSpelled createTodoUuids ∧ row.TimesFit
      ∧ (cellSerde row).RoundTrips row.fittingWire
      ∧ ∃ body, row.durableCellJson (cellSerde row) = .ok body
        ∧ CommandLedgerRecord.fromDurableCellJson deepOutcomeCrates createTodoUuids
            (cellSerde row) body
          = .error (.corrupt
            ("command `01890a5d-ac96-774b-bcce-b302099a8057` outcome is invalid JSON: "
              ++ "recursion limit exceeded at line 1 column 138")) := by
  intro row
  have hids := createTodoDone_idsSpelled deepOutcomeCrates (nestedArrays 126)
  have htimes := createTodoDone_timesFit deepOutcomeCrates (nestedArrays 126)
  have hshape := createTodoDone_shaped deepOutcomeCrates (nestedArrays 126)
  refine ⟨rfl, hids, htimes, cellSerde_roundTrips row, wireText row.fittingWire,
    CommandLedgerRecord.durableCellJson_eq hshape htimes, ?_⟩
  rw [CommandLedgerRecord.fromDurableCellJson_eq (cellSerde_fromStr row) hshape hids htimes]
  rfl

end Distributed.InMemoryRepo
