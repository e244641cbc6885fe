import Distributed.InMemoryRepo.Redelivery
import Distributed.ProjectionProtocol.ReplayRoundTrip

/-! What a repeated command is answered with.
A completion is replayed with its outcome, its obligations, its metadata and the evidence of
its direct projection, which is read back from its stored form.
-/

namespace Distributed.InMemoryRepo

open Distributed.CommandLedger Distributed.Foundation Distributed.Platform

open Distributed.ProjectionProtocol Distributed.Table

open InMemoryProjectionProtocolState

open SameTransactionProjectionEvidence (fromReplayValue)

section Replay

variable {crates : Crates} {retention : ProjectionChangeRetention}
  {rows stagedRows : RelationalRows} {protocol next : InMemoryProjectionProtocolState}
  {batch : SameTransactionProjectionBatch} {evidence : SameTransactionProjectionEvidence}

theorem SameTransactionProjectionBatch.validate_causation (h : batch.validate = .ok ())
    : ValidOpaque maxCausationIdBytes batch.causationId := by
  unfold SameTransactionProjectionBatch.validate at h
  split at h
  · split at h
    · rw [Result.bind_eq_ok_iff] at h
      obtain ⟨text, htext, -⟩ := h
      unfold boundedOpaque at htext
      split at htext
      · assumption
      · cases htext
    · cases h
  · cases h

/-- The staged record, its change and its observation agree with one another, which is what
the reader of the replay form asks for. -/
theorem stagedEvidence_valid
    (h : stageSameTransactionProjection crates protocol rows batch retention
      = .ok (evidence, next, stagedRows))
    : validateReplayEvidence evidence = .ok ()
      ∧ (∀ change ∈ evidence.changes,
        change.causationId = batch.causationId ∧ change.failureId = none)
      ∧ ∀ observation ∈ evidence.observations,
        observation.causationId = batch.causationId := by
  obtain ⟨opened, bound, logged, declaration, mutation, row, revision, change, hstaged, -,
    rfl⟩ := stageSameTransactionProjection_parts h
  obtain ⟨state, -, hnext, hchange, -⟩ := appendChange_ok hstaged.appends
  have hscope := nextDirectRevision_scope hstaged.revises
  obtain ⟨htopology, hpartition⟩ := hstaged.valid.scope
  have htopologies : change.cursor.topology = mutation.scope.topology :=
    hnext.topology.trans htopology.symm
  have hpartitions : change.cursor.projectionPartition = mutation.scope.projectionPartition :=
    hnext.partition.trans hpartition.symm
  refine ⟨?_, ?_, ?_⟩
  · rw [hchange]
    simp [validateReplayEvidence, directObservation, hscope, htopologies, hpartitions]
  · rw [hchange]
    simp
  · simp [directObservation]

/-- Staged evidence is read back from its replay form. -/
theorem stagedEvidence_read
    (h : stageSameTransactionProjection crates protocol rows batch retention
      = .ok (evidence, next, stagedRows))
    (reader : Crates)
    : fromReplayValue reader (evidence.replayValue reader) = .ok evidence := by
  have hcausation : ValidOpaque maxCausationIdBytes batch.causationId := by
    simp only [stageSameTransactionProjection, Result.bind_eq_ok_iff] at h
    obtain ⟨_, hvalid, -⟩ := h
    exact SameTransactionProjectionBatch.validate_causation hvalid
  obtain ⟨hvalid, hchanges, hobservations⟩ := stagedEvidence_valid h
  refine fromReplayValue_replayValue reader (fun change hmem => ?_)
    (fun observation hmem => ?_) hvalid
  · exact ⟨(hchanges change hmem).1 ▸ hcausation, (hchanges change hmem).2⟩
  · exact hobservations observation hmem ▸ hcausation

end Replay

/-- The evidence a direct projection answers with is read back from its replay form, and
whatever the reader accepts is the replay form of what it answers. -/
theorem direct_evidence_survives_replay (crates : Crates)
    : (∀ (protocol : InMemoryProjectionProtocolState) (rows : RelationalRows)
        (batch : SameTransactionProjectionBatch) (retention : ProjectionChangeRetention)
        (evidence : SameTransactionProjectionEvidence)
        (next : InMemoryProjectionProtocolState) (stagedRows : RelationalRows),
        stageSameTransactionProjection crates protocol rows batch retention
            = .ok (evidence, next, stagedRows) →
          fromReplayValue crates (evidence.replayValue crates) = .ok evidence)
      ∧ ∀ (value : Json) (evidence : SameTransactionProjectionEvidence),
        fromReplayValue crates value = .ok evidence →
          evidence.replayValue crates = value := by
  constructor
  · intro protocol rows batch retention evidence next stagedRows hstage
    exact stagedEvidence_read hstage crates
  · intro value evidence hread
    simp only [fromReplayValue, Result.bind_eq_ok_iff,
      Result.error_bind, Result.guard_eq_ok_iff, not_not] at hread
    obtain ⟨accepted, -, hsame, hanswer⟩ := hread
    cases hanswer
    exact hsame

def todoTable : TableSchema where
  modelName := "Todo"
  tableName := "todos"
  columns := [{ fieldName := "id", columnName := "id", columnType := .text, primaryKey := true }]
  primaryKey := ["id"]

def todoRow : RowValues := SortedMap.empty.insert "id" (.string "todo-1")

/-- The projection of the todo in the transaction of the command that creates it. -/
def todoProjection : SameTransactionProjectionBatch where
  topology := todoTopology
  partition := todoPartition
  changeEpoch := todoEpoch
  ownership := [todoOwner]
  causationId := "cause"
  mutations := [⟨todoRecord, .upsertRow ⟨todoTable, todoRow, todoRow, .any, .upsert⟩⟩]
  observations := [⟨.record, .stagedRecord todoRecord⟩]

theorem todoProjection_replays
    : ∃ evidence next rows,
      stageSameTransactionProjection nullOutcomeCrates todoRegistered.projectionProtocol ∅
          todoProjection defaultProjectionChangeRetention = .ok (evidence, next, rows)
        ∧ evidence.changes.length = 1
        ∧ fromReplayValue nullOutcomeCrates (evidence.replayValue nullOutcomeCrates)
          = .ok evidence := by
  have hstage : ∃ answer,
      stageSameTransactionProjection nullOutcomeCrates todoRegistered.projectionProtocol ∅
          todoProjection defaultProjectionChangeRetention = .ok answer
        ∧ answer.1.changes.length = 1 :=
    ⟨_, rfl, rfl⟩
  obtain ⟨⟨evidence, next, rows⟩, hstage, hlength⟩ := hstage
  exact ⟨evidence, next, rows, hstage, hlength,
    (direct_evidence_survives_replay nullOutcomeCrates).1 _ _ _ _ evidence next rows hstage⟩

/-- An accepted completion is replayed as it was made: in every state after its row was
stored, the key holds a row that expired or one whose replay has the same outcome,
obligations, metadata and evidence. -/
theorem accepted_completion_replays (crates : Crates) {request : CompletionRequest}
    {stored : CommandCompletion} {record row : CommandLedgerRecord} {now : SystemTime}
    {repository later : InMemoryRepository}
    (hstored : request.Stored crates stored)
    (hcomplete : record.complete stored now = .ok row)
    (hread : request.Readable crates stored.directProjection)
    (hrow : repository.commandLedger.lookup request.attempt.key = some row)
    (hlater : Reachable (step crates) (fun _ => True) repository later)
    : ∃ current, later.commandLedger.lookup request.attempt.key = some current
      ∧ (current.state = .expired
        ∨ current.replay crates
          = .ok (request.expectedReplay record.commandName stored.directProjection)) := by
  obtain ⟨hfrom, hname⟩ := CommandLedgerRecord.complete_completedFrom hstored hcomplete
  have hreplayable : row.state.isReplayable = true := by simp [hfrom.state]
  have hsettled : Settled request.attempt.key row later :=
    hlater.invariant ⟨row, hrow, .inl rfl⟩ fun _ op h _ => h.step hreplayable op
  obtain ⟨current, hcurrent, rfl | ⟨expired, rfl⟩⟩ := hsettled
  · refine ⟨current, hcurrent, .inr ?_⟩
    rw [← hname]
    exact hfrom.replay_eq hread
  · exact ⟨_, hcurrent, .inl rfl⟩

/-- The first attempt answers with the id of the new todo. -/
def todoCompletion (state : TerminalCommandState)
    (projectionObligations : List ResolvedProjectionObligation)
    (projectionMetadata : Option Bytes) : CompletionRequest where
  attempt := createTodoAttempt
  state
  outcome := .object [("id", .string "todo-1")]
  projectionObligations
  projectionMetadata
  retention := 3600 * nanosPerSecond

/-- The todo has still to reach the projector. -/
def todoPending : CompletionRequest :=
  todoCompletion .succeededPendingProjection
    [⟨"todos", "Todo", [⟨"id", .string "todo-1"⟩], none, todoRecord⟩] none

def todoModeled : CompletionRequest := todoCompletion .succeeded [] (some [1, 2, 3, 255])

/-- The todo was projected with the command. -/
def todoProjected : CompletionRequest := todoCompletion .atomic [] none

theorem todoDigest_length
    : ([0xee, 0xec, 0x01, 0x1b, 0x08, 0x3a, 0x06, 0xbf, 0xe3, 0x45, 0x56, 0xc2, 0x0b, 0xe9, 0xc4,
    0xcd, 0xea, 0x1e, 0x78, 0x15, 0xe9, 0x67, 0xae, 0x4c, 0x35, 0x1c, 0x43, 0x61, 0xa3, 0x57,
    0xfc, 0xb7] : Bytes).length
      = 32 := by
  rfl

/-- The crates on given values and on the digest of the todo's partition. -/
def todoCrates (known : List Json) : Crates :=
  { serdeCrates known "" with sha256 := fun _ => ⟨_, todoDigest_length⟩ }

/-- The crates on the envelopes of one completion. -/
def todoReplayCrates (request : CompletionRequest) (direct : Option Json) : Crates :=
  todoCrates [.object (request.envelope (todoCrates []) direct),
    .object (replayEnvelope (todoCrates []) request)]

/-- An envelope depends on the crates only by base64, and evidence only by the digest. -/
theorem replayEnvelope_todoReplayCrates (request other : CompletionRequest)
    (direct : Option Json)
    : replayEnvelope (todoReplayCrates other direct) request
      = replayEnvelope (todoCrates []) request :=
  rfl

theorem replayValue_todoReplayCrates (request : CompletionRequest) (direct : Option Json)
    (evidence : SameTransactionProjectionEvidence)
    : evidence.replayValue (todoReplayCrates request direct)
      = evidence.replayValue (todoCrates []) :=
  rfl

theorem todoReplayCrates_readable {request : CompletionRequest} {direct : Option Json}
    (hplain : (todoReplayCrates request direct).ReadsBack
      (.object (replayEnvelope (todoReplayCrates request direct) request)))
    : request.Readable (todoReplayCrates request direct) direct where
  metadata _ _ := serdeCrates_base64 [] "" _
  plain := hplain
  stored := serdeCrates_reads_first ..

theorem todoReplayCrates_plain (request : CompletionRequest)
    : (todoReplayCrates request none).ReadsBack
      (.object (replayEnvelope (todoReplayCrates request none) request)) :=
  serdeCrates_reads_first ..

theorem todoProjected_plain (evidence : Json)
    : (todoReplayCrates todoProjected (some evidence)).ReadsBack (.object
        (replayEnvelope (todoReplayCrates todoProjected (some evidence)) todoProjected)) := by
  rw [replayEnvelope_todoReplayCrates]
  refine serdeCrates_reads_second _ _ fun h => ?_
  -- only the envelope with the evidence starts with a `d`
  have hname := congrArg (fun chars => chars.getD 2 ' ') h
  rw [CompletionRequest.envelope_eq,
    show replayEnvelope _ todoProjected = todoProjected.envelope (todoCrates []) none from rfl,
    CompletionRequest.envelope_eq] at hname
  simp [Json.chars, Json.fieldChars, quoteChars, escapeChar] at hname

theorem createTodoRow_completes {completion : CommandCompletion}
    (hattempt : completion.attempt = createTodoAttempt)
    (hdirect : completion.validateDirectProjection = .ok ())
    (hretention : completion.retention = 3600 * nanosPerSecond)
    (hdeadline : completion.retentionExpiresAt = none)
    : ∃ row, createTodoRow.complete completion nanosPerSecond = .ok row := by
  have hlive : createTodoRow.validateLiveAttempt createTodoAttempt nanosPerSecond = .ok () := rfl
  have hkept : checkedDeadline nanosPerSecond (3600 * nanosPerSecond) "command retention"
      = .ok (3601 * nanosPerSecond) := rfl
  simp [CommandLedgerRecord.complete, CommandLedgerRecord.completedRetention, hattempt, hdirect,
    hretention, hdeadline, hlive, hkept]

/-- The evidence is put into the envelope that the completion's text reads as. -/
theorem todoProjected_stored {crates : Crates} {evidence : SameTransactionProjectionEvidence}
    (hplain : crates.ReadsBack (.object (replayEnvelope crates todoProjected)))
    (hread : fromReplayValue crates (evidence.replayValue crates) = .ok evidence)
    : ∃ stored, todoProjected.Stored crates stored
      ∧ stored.directProjection = some (evidence.replayValue crates)
      ∧ ∃ row, createTodoRow.complete stored nanosPerSecond = .ok row := by
  have hvalid : validateReplayValue crates (evidence.replayValue crates) = .ok () := by
    simp [validateReplayValue, hread]
  rw [Crates.ReadsBack] at hplain
  have hfresh : JsonFields.get? "direct_projection" (replayEnvelope crates todoProjected)
      = none := rfl
  obtain ⟨completion, hcomplete⟩ : ∃ completion, todoProjected.complete crates = .ok completion :=
    ⟨_, rfl⟩
  have hcompletion := (CompletionRequest.complete_ok hcomplete).2.2.2
  have hattach : completion.attachDirectProjection crates evidence = .ok {
      completion with
      replay := crates.jsonToString (.object (JsonFields.insert "direct_projection"
        (evidence.replayValue crates) (replayEnvelope crates todoProjected)))
      directProjection := some (evidence.replayValue crates) } := by
    rw [hcompletion]
    simp [CommandCompletion.attachDirectProjection, hvalid, hplain, hfresh, Except.mapError,
      show todoProjected.state = .atomic from rfl]
  refine ⟨_, .attached evidence hcomplete hattach, rfl, ?_⟩
  rw [hcompletion]
  exact createTodoRow_completes rfl rfl rfl rfl

/-- A completion without evidence is stored as it was made. -/
theorem todoCompletion_stored (crates : Crates) {state : TerminalCommandState}
    {obligations : List ResolvedProjectionObligation} {metadata : Option Bytes}
    (haccepted : ∃ completion,
      (todoCompletion state obligations metadata).complete crates = .ok completion)
    (hstate : state ≠ .atomic)
    : ∃ stored, (todoCompletion state obligations metadata).Stored crates stored
      ∧ stored.directProjection = none
      ∧ ∃ row, createTodoRow.complete stored nanosPerSecond = .ok row := by
  obtain ⟨completion, hcomplete⟩ := haccepted
  have hcompletion := (CompletionRequest.complete_ok hcomplete).2.2.2
  refine ⟨completion, .plain hcomplete, hcompletion ▸ rfl, ?_⟩
  rw [hcompletion]
  refine createTodoRow_completes rfl ?_ rfl rfl
  cases state with
  | atomic => exact absurd rfl hstate
  | succeeded | succeededPendingProjection | rejected => rfl

/-- The repository whose ledger holds a row of the first attempt. -/
def holding (row : CommandLedgerRecord) : InMemoryRepository :=
  { InMemoryRepository.new defaultProjectionChangeRetention with
    commandLedger := AList.insert createTodoKey row ∅ }

/-- The request, completed with the evidence, is answered with all of it when a second
caller reserves it. -/
def AnswersAgain (crates : Crates) (request : CompletionRequest) (direct : Option Json)
    : Prop :=
  ∃ stored row current, request.Stored crates stored
    ∧ createTodoRow.complete stored nanosPerSecond = .ok row
    ∧ (step crates (.reserveCommand createTodoReservation (2 * nanosPerSecond))
        (holding row)).2.commandLedger.lookup createTodoKey = some current
    ∧ (current.state = .expired
      ∨ current.replay crates = .ok (request.expectedReplay "create_todo" direct))

/-- Creating the todo is answered again with its outcome and its obligation, its outcome and
its metadata, or its outcome and the evidence of its projection. -/
theorem createTodo_outcome_replays
    : AnswersAgain (todoReplayCrates todoPending none) todoPending none
      ∧ AnswersAgain (todoReplayCrates todoModeled none) todoModeled none
      ∧ ∃ evidence : SameTransactionProjectionEvidence, evidence.changes.length = 1
        ∧ AnswersAgain
          (todoReplayCrates todoProjected (some (evidence.replayValue (todoCrates []))))
          todoProjected (some (evidence.replayValue (todoCrates []))) := by
  have hanswers {crates : Crates} {request : CompletionRequest} {direct : Option Json}
      (hkey : request.attempt.key = createTodoKey) (hread : request.Readable crates direct)
      (hrow : ∃ stored, request.Stored crates stored ∧ stored.directProjection = direct
        ∧ ∃ row, createTodoRow.complete stored nanosPerSecond = .ok row)
      : AnswersAgain crates request direct := by
    obtain ⟨stored, hstored, rfl, row, hcomplete⟩ := hrow
    have hheld : (holding row).commandLedger.lookup request.attempt.key = some row :=
      hkey ▸ AList.lookup_insert _
    obtain ⟨current, hcurrent, hreplay⟩ := accepted_completion_replays crates hstored hcomplete
      hread hheld
      (.next (.reserveCommand createTodoReservation (2 * nanosPerSecond)) .start trivial)
    exact ⟨stored, row, current, hstored, hcomplete, hkey ▸ hcurrent, hreplay⟩
  have hstage : ∃ answer,
      stageSameTransactionProjection nullOutcomeCrates todoRegistered.projectionProtocol ∅
          todoProjection defaultProjectionChangeRetention = .ok answer
        ∧ answer.1.changes.length = 1 :=
    ⟨_, rfl, rfl⟩
  obtain ⟨⟨evidence, next, rows⟩, hstage, hlength⟩ := hstage
  have hplain := todoProjected_plain (evidence.replayValue (todoCrates []))
  refine ⟨?_, ?_, evidence, hlength, ?_⟩
  · exact hanswers rfl (todoReplayCrates_readable (todoReplayCrates_plain _))
      (todoCompletion_stored _ ⟨_, rfl⟩ (by decide))
  · exact hanswers rfl (todoReplayCrates_readable (todoReplayCrates_plain _))
      (todoCompletion_stored _ ⟨_, rfl⟩ (by decide))
  · have hstored := todoProjected_stored hplain (stagedEvidence_read hstage _)
    rw [replayValue_todoReplayCrates] at hstored
    exact hanswers rfl (todoReplayCrates_readable hplain) hstored

/-- The row such an outcome completes cannot be replayed. -/
theorem createTodo_deep_outcome_has_no_replay
    : (do
        let completion ←
          (createTodoCommit (nestedArrays 126)).completion.complete deepOutcomeCrates
        let row ← createTodoRow.complete completion nanosPerSecond
        row.replay deepOutcomeCrates)
      = .error (.corrupt
          ("command `01890a5d-ac96-774b-bcce-b302099a8057` outcome is invalid JSON: "
            ++ "recursion limit exceeded at line 1 column 138")) := by
  rfl

end Distributed.InMemoryRepo
