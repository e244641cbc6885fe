import Distributed.Bus.SqlLog

/-! The log consumer never skips an entry.
Every entry handed to the runner is the first one past the durable offset, and the offset
moves only to an entry that was handed out and settled forward.
-/

namespace Distributed.Bus

open Distributed.Foundation Distributed.Platform Distributed.ProjectionProtocol

variable {subscription : LogSubscription} {options : RunOptions} {router : MessageRouter}

--------------------
-- Tables
--------------------

theorem SqlLog.entries_ascending (log : SqlLog)
    : Ascending ReceivedRow.seq (log.entries subscription) := by
  refine List.pairwise_map.mpr ?_
  simpa only [ReceivedRow.fromRow_seq] using log.ascending.filter _

theorem SqlLog.entries_grow {log grown : SqlLog} (hgrows : log.rows <+: grown.rows)
    : log.entries subscription <+: grown.entries subscription :=
  (hgrows.filter _).map _

theorem SqlLog.pending_grow {log grown : SqlLog} (hgrows : log.rows <+: grown.rows)
    (hoffset : grown.offset = log.offset)
    : log.pending subscription <+: grown.pending subscription := by
  rw [SqlLog.pending, SqlLog.pending, hoffset]
  exact entriesPast_grows (log.entries_grow hgrows)

/-- Settling the first pending entry forward moves the offset to it. -/
theorem SqlLogReceived.offset_advance {log : SqlLog} {received : SqlLogReceived}
    (hpast : log.offset < received.row.seq)
    : (received.advance log).offset = received.row.seq := by
  change SqlLog.greatest received.row.seq log.lastSeq = received.row.seq
  unfold SqlLog.offset at hpast
  cases hlast : log.lastSeq with
  | none => rfl
  | some last =>
      rw [hlast] at hpast
      exact max_eq_right (le_of_lt hpast)

theorem SqlLog.offset_nonneg (log : SqlLog) : 0 ≤ log.offset := by
  unfold SqlLog.offset
  cases hlast : log.lastSeq with
  | none => exact le_rfl
  | some last => exact log.offset_valid last hlast

theorem SqlLog.offset_lt_of_pending {log : SqlLog} {row : ReceivedRow}
    (h : row ∈ log.pending subscription)
    : log.offset < row.seq :=
  (mem_entriesPast.mp h).2

theorem SqlLogReceived.pending_advance {log : SqlLog} {received : SqlLogReceived}
    {rest : List ReceivedRow} (hpending : log.pending subscription = received.row :: rest)
    : (received.advance log).pending subscription = rest := by
  have hpast : log.offset < received.row.seq :=
    SqlLog.offset_lt_of_pending (hpending ▸ List.mem_cons_self)
  rw [SqlLog.pending, SqlLogReceived.offset_advance hpast]
  exact log.entries_ascending.entriesPast_first hpending

--------------------
-- The source
--------------------

theorem SqlLogReceived.row_of_ofRow {row : ReceivedRow} {received : SqlLogReceived}
    (h : SqlLogReceived.ofRow subscription row = .ok received)
    : received.row = row := by
  unfold SqlLogReceived.ofRow at h
  by_cases hseq : 0 ≤ row.seq
  · simp only [hseq, dif_pos, Result.bind_eq_ok_iff] at h
    obtain ⟨_, -, _, -, h⟩ := h
    cases h
    rfl
  · simp only [hseq, dif_neg, not_false_eq_true] at h
    cases h

/-- What one pass of `recv` does when the read-ahead starts at the durable offset. -/
structure Polled (subscription : LogSubscription) (source : SqlLogSource)
    (answer : RecvAnswer SqlLogReceived) (next : SqlLogSource) : Prop where
  log : next.log = source.log
  settledSeq : next.settledSeq = source.settledSeq
  delivered : ∀ received, answer = .delivered received →
    received.row :: next.buffer <+: source.log.pending subscription
    ∧ next.lastDelivered = some received.row.seq
  waiting : answer = .waiting → next.buffer = []

theorem Polled.of_failed (source : SqlLogSource) (error : TransportError)
    (buffer : List ReceivedRow)
    : Polled subscription source (.failed error) { source with buffer } where
  log := rfl
  settledSeq := rfl
  delivered _ h := by cases h
  waiting h := by cases h

/-- The read-ahead of the source polled does not matter. -/
theorem Polled.of_source {source other next : SqlLogSource}
    {answer : RecvAnswer SqlLogReceived} (h : Polled subscription other answer next)
    (hlog : other.log = source.log) (hsettled : other.settledSeq = source.settledSeq)
    : Polled subscription source answer next where
  log := h.log.trans hlog
  settledSeq := h.settledSeq.trans hsettled
  delivered := hlog ▸ h.delivered
  waiting := h.waiting

theorem SqlLogSource.takeNext_polled {source : SqlLogSource}
    (hbuffer : source.buffer <+: source.log.pending subscription)
    : Polled subscription source (source.takeNext subscription).1
        (source.takeNext subscription).2 := by
  unfold SqlLogSource.takeNext
  cases hrows : source.buffer with
  | nil =>
      refine ⟨rfl, rfl, ?_, fun _ => hrows⟩
      intro received h
      by_cases hidle : subscription.idlePoll = 0 <;> simp [hidle] at h
  | cons row rest =>
      cases hreceived : SqlLogReceived.ofRow subscription row with
      | error error =>
          simp only [hreceived]
          exact .of_failed source error rest
      | ok received =>
          simp only [hreceived]
          refine ⟨rfl, rfl, ?_, fun h => (by cases h)⟩
          intro other h
          cases h
          rw [SqlLogReceived.row_of_ofRow hreceived]
          exact ⟨hrows ▸ hbuffer, rfl⟩

theorem SqlLogSource.poll_polled {source : SqlLogSource} (call : LogCall)
    (hbuffer : source.buffer <+: source.log.pending subscription)
    : Polled subscription source (source.poll subscription call).1
        (source.poll subscription call).2 := by
  unfold SqlLogSource.poll SqlLogSource.refill
  by_cases hempty : source.buffer.isEmpty
  · simp only [hempty, if_true]
    cases hread : call.read with
    | some error => exact .of_failed source error source.buffer
    | none =>
        refine Polled.of_source (SqlLogSource.takeNext_polled ?_) rfl rfl
        exact List.take_prefix sourceBatch (source.log.pending subscription)
  · simp only [hempty]
    exact SqlLogSource.takeNext_polled hbuffer

theorem SqlLogSource.dropStaleBuffer_frame (source : SqlLogSource)
    : source.dropStaleBuffer.log = source.log
      ∧ source.dropStaleBuffer.settledSeq = source.settledSeq := by
  unfold SqlLogSource.dropStaleBuffer
  split
  · exact ⟨rfl, rfl⟩
  · split <;> exact ⟨rfl, rfl⟩

theorem SqlLogSource.recv_polled {source : SqlLogSource} (call : LogCall)
    (hbuffer : source.dropStaleBuffer.buffer <+: source.log.pending subscription)
    : Polled subscription source (source.recv subscription call).1
        (source.recv subscription call).2 := by
  obtain ⟨hlog, hsettled⟩ := source.dropStaleBuffer_frame
  unfold SqlLogSource.recv
  cases hverify : call.verify with
  | some error => exact .of_failed source error source.buffer
  | none => exact (SqlLogSource.poll_polled call (hlog ▸ hbuffer)).of_source hlog hsettled

--------------------
-- Steps
--------------------

/-- Where the read-ahead stands. Before a call of `recv` only what `recv` will keep of it
counts; an ended run does not use it any more. -/
def BufferInStep (subscription : LogSubscription) (source : SqlLogSource)
    : RunPhase SqlLogReceived → Prop
  | .receiving => source.dropStaleBuffer.buffer <+: source.log.pending subscription
  | .waiting => source.buffer <+: source.log.pending subscription
  | .handling received =>
      received.row :: source.buffer <+: source.log.pending subscription
      ∧ source.lastDelivered = some received.row.seq
  | .ended _ => True

/-- The source and the durable offset agree on what comes next. -/
structure InStep (subscription : LogSubscription) (consumer : LogConsumer) : Prop where
  settled_le : consumer.source.settledSeq ≤ consumer.source.log.offset
  buffer : BufferInStep subscription consumer.source consumer.phase

/-- A read-ahead that starts at the offset still does after more was published. -/
theorem BufferInStep.grow {source : SqlLogSource} {phase : RunPhase SqlLogReceived}
    {grown : SqlLog} (h : BufferInStep subscription source phase)
    (hgrows : source.log.rows <+: grown.rows) (hoffset : grown.offset = source.log.offset)
    : BufferInStep subscription { source with log := grown } phase := by
  have hpending : source.log.pending subscription <+: grown.pending subscription :=
    SqlLog.pending_grow hgrows hoffset
  cases phase with
  | receiving =>
      have hbuffer : { source with log := grown }.dropStaleBuffer.buffer
          = source.dropStaleBuffer.buffer := by
        obtain ⟨log, buffer, lastDelivered, settledSeq⟩ := source
        cases lastDelivered with
        | none => rfl
        | some last =>
            by_cases hstale : settledSeq < last <;>
              simp [SqlLogSource.dropStaleBuffer, hstale]
      rw [BufferInStep, hbuffer]
      exact List.IsPrefix.trans h hpending
  | waiting => exact List.IsPrefix.trans h hpending
  | handling received => exact ⟨h.1.trans hpending, h.2⟩
  | ended result => trivial

/-- What a step does to the log, the offset and the message in hand. -/
structure StepEffect (subscription : LogSubscription) (before : LogConsumer)
    (effect : RunEffect SqlLogReceived) (after : LogConsumer) : Prop where
  inStep : InStep subscription after
  grows : before.source.log.rows <+: after.source.log.rows
  /-- The offset moves only to the first pending entry, when that is settled forward. -/
  offset : after.source.log.offset = before.source.log.offset
    ∨ ∃ received settlement rest, effect = .settled received (some settlement)
      ∧ settlement.forward = true
      ∧ before.source.log.pending subscription = received.row :: rest
      ∧ after.source.log.offset = received.row.seq
  /-- Only the first pending entry is delivered. -/
  delivered : ∀ received, effect = .delivered received →
    (after.source.log.pending subscription).head? = some received.row
  /-- Only an entry in hand is settled. -/
  settled : ∀ received settlement, effect = .settled received settlement →
    before.phase = .handling received
  /-- An entry gets in hand by a delivery. -/
  handling : ∀ received, after.phase = .handling received →
    effect = .delivered received ∨ effect = .none ∧ before.phase = .handling received

theorem InStep.subscribe (log : SqlLog) : InStep subscription (.subscribe log) where
  settled_le := log.offset_nonneg
  buffer := List.nil_prefix

/-- A step that shows nothing and leaves the offset where it is. -/
theorem StepEffect.quiet {before after : LogConsumer} (hafter : InStep subscription after)
    (hgrows : before.source.log.rows <+: after.source.log.rows)
    (hoffset : after.source.log.offset = before.source.log.offset)
    (hphase : ∀ received, after.phase = .handling received →
      before.phase = .handling received)
    : StepEffect subscription before .none after where
  inStep := hafter
  grows := hgrows
  offset := .inl hoffset
  delivered _ h := by cases h
  settled _ _ h := by cases h
  handling received h := .inr ⟨rfl, hphase received h⟩

theorem StepEffect.of_polled {before : LogConsumer} {answer : RecvAnswer SqlLogReceived}
    {next : SqlLogSource} (hbefore : InStep subscription before)
    (h : Polled subscription before.source answer next)
    : StepEffect subscription before (Runner.afterReceive (answer, next)).1
        (Runner.afterReceive (answer, next)).2 := by
  have hgrows : before.source.log.rows <+: next.log.rows := h.log ▸ List.prefix_rfl
  have hoffset : next.log.offset = before.source.log.offset := by rw [h.log]
  have hkept (phase : RunPhase SqlLogReceived) (hbuffer : BufferInStep subscription next phase)
      : InStep subscription ⟨next, phase⟩ :=
    ⟨hoffset ▸ h.settledSeq ▸ hbefore.settled_le, hbuffer⟩
  cases answer with
  | delivered received =>
      obtain ⟨hfirst, hlast⟩ := h.delivered received rfl
      obtain ⟨rest, hrest⟩ := hfirst
      rw [← h.log] at hrest
      exact {
        inStep := hkept (.handling received) ⟨⟨rest, hrest⟩, hlast⟩
        grows := hgrows
        offset := .inl hoffset
        delivered := by
          intro other hother
          cases hother
          exact congrArg List.head? hrest.symm
        settled := fun _ _ hsettled => (by cases hsettled)
        handling := by
          intro other hother
          cases hother
          exact .inl rfl
      }
  | drained =>
      exact .quiet (hkept (.ended (.ok ())) trivial) hgrows hoffset fun _ h => (by cases h)
  | waiting =>
      have hempty : BufferInStep subscription next .waiting := by
        rw [BufferInStep, h.waiting rfl]
        exact List.nil_prefix
      exact .quiet (hkept .waiting hempty) hgrows hoffset fun _ h => (by cases h)
  | failed error =>
      exact .quiet (hkept (.ended (.error error)) trivial) hgrows hoffset
        fun _ h => (by cases h)

theorem SqlLogSource.settle_cases (call : LogCall) (settlement : Settlement)
    (received : SqlLogReceived) (source : SqlLogSource)
    : (∃ result, source.settle call settlement received = (result, source))
      ∨ settlement.forward = true
        ∧ ((∃ error, source.settle call settlement received
              = (.error error,
                { source with log := received.advance source.log }))
            ∨ source.settle call settlement received
              = (.ok (),
                { source with
                  log := received.advance source.log
                  settledSeq := received.row.seq })) := by
  have hforward : (∃ result, source.settleForward call received = (result, source))
      ∨ (∃ error, source.settleForward call received
            = (.error error,
              { source with log := received.advance source.log }))
        ∨ source.settleForward call received
          = (.ok (),
            { source with
              log := received.advance source.log
              settledSeq := received.row.seq }) := by
    unfold SqlLogSource.settleForward
    rcases call.advance with _ | ⟨error, _ | _⟩
    · exact .inr (.inr rfl)
    · exact .inl ⟨_, rfl⟩
    · exact .inr (.inl ⟨error, rfl⟩)
  cases settlement with
  | nack reason => exact .inl ⟨.ok (), rfl⟩
  | ack => exact hforward.imp_right fun h => ⟨rfl, h⟩
  | deadLetter reason => exact hforward.imp_right fun h => ⟨rfl, h⟩
  | park reason => exact hforward.imp_right fun h => ⟨rfl, h⟩

theorem Runner.afterSettle_source (stop : Option TransportError)
    (result : Except TransportError Unit) (source : SqlLogSource)
    : (Runner.afterSettle stop (result, source) : LogConsumer).source = source := by
  rcases result with error | ⟨⟩
  · rfl
  · cases stop <;> rfl

/-- The run goes on only after a settlement that worked. -/
theorem Runner.afterSettle_phase (stop : Option TransportError)
    (result : Except TransportError Unit) (source : SqlLogSource)
    : (∃ ended, (Runner.afterSettle stop (result, source) : LogConsumer).phase
        = .ended ended)
      ∨ result = .ok ()
        ∧ (Runner.afterSettle stop (result, source) : LogConsumer).phase
          = .receiving := by
  rcases result with error | ⟨⟩
  · exact .inl ⟨_, rfl⟩
  · cases stop with
    | some error => exact .inl ⟨_, rfl⟩
    | none => exact .inr ⟨rfl, rfl⟩

section Handling

variable {source next : SqlLogSource} {received : SqlLogReceived}

/-- The entry in hand is the first pending one, and the read-ahead follows it. -/
theorem InStep.pending_eq (h : InStep subscription ⟨source, .handling received⟩)
    : ∃ rest, source.log.pending subscription = received.row :: (source.buffer ++ rest) := by
  obtain ⟨⟨rest, hrest⟩, -⟩ := h.buffer
  exact ⟨rest, hrest.symm⟩

theorem InStep.offset_lt (h : InStep subscription ⟨source, .handling received⟩)
    : source.log.offset < received.row.seq := by
  obtain ⟨rest, hrest⟩ := h.pending_eq
  exact SqlLog.offset_lt_of_pending (hrest ▸ List.mem_cons_self)

theorem StepEffect.of_afterSettle {settlement : Option Settlement}
    {stop : Option TransportError} {result : Except TransportError Unit}
    (hrows : next.log.rows = source.log.rows)
    (hsettled : next.settledSeq ≤ next.log.offset)
    (hbuffer : result = .ok () → BufferInStep subscription next .receiving)
    (hoffset : next.log.offset = source.log.offset
      ∨ ∃ forward rest, settlement = some forward ∧ forward.forward = true
        ∧ source.log.pending subscription = received.row :: rest
        ∧ next.log.offset = received.row.seq)
    : StepEffect subscription ⟨source, .handling received⟩ (.settled received settlement)
        (Runner.afterSettle stop (result, next)) := by
  have hsource := Runner.afterSettle_source stop result next
  have hphase := Runner.afterSettle_phase stop result next
  refine {
    inStep := ⟨hsource.symm ▸ hsettled, ?_⟩
    grows := hsource.symm ▸ hrows.symm ▸ List.prefix_rfl
    offset := ?_
    delivered := fun _ h => (by cases h)
    settled := ?_
    handling := ?_
  }
  · rw [hsource]
    rcases hphase with ⟨ended, hphase⟩ | ⟨hok, hphase⟩
    · exact hphase.symm ▸ trivial
    · exact hphase.symm ▸ hbuffer hok
  · rw [hsource]
    refine hoffset.imp_right ?_
    rintro ⟨forward, rest, rfl, hrest⟩
    exact ⟨received, forward, rest, rfl, hrest⟩
  · intro other _ hother
    cases hother
    rfl
  · intro other hother
    rcases hphase with ⟨ended, hphase⟩ | ⟨_, hphase⟩ <;> cases hphase.symm.trans hother

/-- An entry that was not settled forward makes the next `recv` drop its read-ahead. -/
theorem StepEffect.of_unsettled (settlement : Option Settlement)
    (stop : Option TransportError) (result : Except TransportError Unit)
    (h : InStep subscription ⟨source, .handling received⟩)
    : StepEffect subscription ⟨source, .handling received⟩ (.settled received settlement)
        (Runner.afterSettle stop (result, source)) := by
  refine .of_afterSettle rfl h.settled_le (fun _ => ?_) (.inl rfl)
  have hstale : source.settledSeq < received.row.seq :=
    lt_of_le_of_lt h.settled_le h.offset_lt
  have hempty : source.dropStaleBuffer.buffer = [] := by
    have hlast : source.lastDelivered = some received.row.seq := h.buffer.2
    simp only [SqlLogSource.dropStaleBuffer, hlast, if_pos hstale]
  rw [BufferInStep, hempty]
  exact List.nil_prefix

/-- A forward settlement moves the offset to the entry in hand; the read-ahead then starts
at the new offset. -/
theorem StepEffect.of_settle (call : LogCall) (settlement : Settlement)
    (stop : Option TransportError)
    (h : InStep subscription ⟨source, .handling received⟩)
    : StepEffect subscription ⟨source, .handling received⟩
        (.settled received (some settlement))
        (Runner.afterSettle stop (source.settle call settlement received)) := by
  obtain ⟨rest, hpending⟩ := h.pending_eq
  have hmoved : (received.advance source.log).offset = received.row.seq :=
    SqlLogReceived.offset_advance h.offset_lt
  have hsettled : source.settledSeq ≤ (received.advance source.log).offset := by
    rw [hmoved]
    exact le_of_lt (lt_of_le_of_lt h.settled_le h.offset_lt)
  have hnext := SqlLogReceived.pending_advance hpending
  rcases source.settle_cases call settlement received
    with ⟨result, hsettle⟩ | ⟨hforward, ⟨error, hsettle⟩ | hsettle⟩
  · exact hsettle ▸ .of_unsettled _ stop result h
  · rw [hsettle]
    exact .of_afterSettle rfl hsettled (fun h => (by cases h))
      (.inr ⟨settlement, _, rfl, hforward, hpending, hmoved⟩)
  · rw [hsettle]
    refine .of_afterSettle rfl (le_of_eq hmoved.symm) (fun _ => ?_)
      (.inr ⟨settlement, _, rfl, hforward, hpending, hmoved⟩)
    have hlast : source.lastDelivered = some received.row.seq := h.buffer.2
    simp only [BufferInStep, SqlLogSource.dropStaleBuffer, hlast, lt_irrefl, if_false, hnext]
    exact List.prefix_append source.buffer rest

end Handling

theorem InStep.runSource_effect {consumer : LogConsumer}
    (h : InStep subscription consumer) (options : RunOptions) (router : MessageRouter)
    (step : RunStep LogCall)
    : StepEffect subscription consumer
        (runSource (sqlLogSource subscription) options router step consumer).1
        (runSource (sqlLogSource subscription) options router step consumer).2 := by
  have hidle : StepEffect subscription consumer .none consumer :=
    .quiet h List.prefix_rfl rfl fun _ hphase => hphase
  obtain ⟨source, phase⟩ := consumer
  cases phase with
  | receiving =>
      cases step with
      | recv call => exact .of_polled h (SqlLogSource.recv_polled call h.buffer)
      | poll | handle => exact hidle
  | waiting =>
      cases step with
      | poll call => exact .of_polled h (SqlLogSource.poll_polled call h.buffer)
      | recv | handle => exact hidle
  | handling received =>
      cases step with
      | recv | poll => exact hidle
      | handle answer call =>
          simp only [runSource]
          generalize decideMessage options router _ _ answer = decision
          obtain ⟨settlement, stop⟩ := decision
          cases settlement with
          | none => exact .of_unsettled none stop (.ok ()) h
          | some settlement => exact .of_settle call settlement stop h
  | ended result => cases step <;> exact hidle

theorem InStep.step_effect {consumer : LogConsumer} (h : InStep subscription consumer)
    (options : RunOptions) (router : MessageRouter) (op : LogOp)
    : StepEffect subscription consumer
        (LogConsumer.step subscription options router op consumer).1
        (LogConsumer.step subscription options router op consumer).2 := by
  cases op with
  | publish gap name decoded =>
      have hgrows : consumer.source.log.rows
          <+: (consumer.source.log.insertLog gap name decoded).rows :=
        List.prefix_append _ _
      exact .quiet ⟨h.settled_le, h.buffer.grow hgrows rfl⟩ hgrows rfl
        fun _ hphase => hphase
  | subscribe =>
      exact .quiet (.subscribe consumer.source.log) List.prefix_rfl rfl fun _ h => (by cases h)
  | run step => exact h.runSource_effect options router step

--------------------
-- Runs
--------------------

/-- The entry an operation hands to the runner. -/
def deliveredRow : RunEffect SqlLogReceived → Option ReceivedRow
  | .delivered received => some received.row
  | _ => none

/-- An entry settled by an operation that moves past it. -/
def SettledForward (row : ReceivedRow) (effect : RunEffect SqlLogReceived) : Prop :=
  ∃ received settlement, effect = .settled received (some settlement)
    ∧ settlement.forward = true ∧ received.row = row

/-- The tables after some steps: more rows, and an offset that did not move back. -/
structure Onward (log later : SqlLog) : Prop where
  grows : log.rows <+: later.rows
  offset : log.offset ≤ later.offset

theorem StepEffect.onward {before after : LogConsumer} {effect : RunEffect SqlLogReceived}
    (h : StepEffect subscription before effect after)
    : Onward before.source.log after.source.log := by
  refine ⟨h.grows, ?_⟩
  rcases h.offset with heq | ⟨received, settlement, rest, -, -, hpending, hoffset⟩
  · exact le_of_eq heq.symm
  · rw [hoffset]
    exact le_of_lt (SqlLog.offset_lt_of_pending (hpending ▸ List.mem_cons_self))

theorem Onward.trans {first second third : SqlLog} (h : Onward first second)
    (hnext : Onward second third)
    : Onward first third :=
  ⟨h.grows.trans hnext.grows, h.offset.trans hnext.offset⟩

section Runs

variable (subscription options router)

/-- The operations of the system, one after another. -/
abbrev LogConsumer.history (start : LogConsumer) (ops : List LogOp)
    : List (Event LogConsumer LogOp (RunEffect SqlLogReceived)) :=
  Foundation.history (LogConsumer.step subscription options router) start ops

abbrev LogConsumer.final (start : LogConsumer) (ops : List LogOp) : LogConsumer :=
  finalState (LogConsumer.step subscription options router) start ops

end Runs

variable {start : LogConsumer}

/-- Every operation of a run has its effect, on tables that went onward from the start. -/
theorem InStep.history_effect (h : InStep subscription start) {ops : List LogOp}
    : ∀ event ∈ start.history subscription options router ops,
        InStep subscription event.before
        ∧ StepEffect subscription event.before event.answer event.after
        ∧ Onward start.source.log event.after.source.log := by
  induction ops generalizing start with
  | nil => simp [Foundation.history]
  | cons op ops ih =>
      have heffect := h.step_effect options router op
      intro event hevent
      rcases List.mem_cons.mp hevent with rfl | hevent
      · exact ⟨h, heffect, heffect.onward⟩
      · obtain ⟨hbefore, hlater, honward⟩ := ih heffect.inStep event hevent
        exact ⟨hbefore, hlater, heffect.onward.trans honward⟩

theorem InStep.final_onward (h : InStep subscription start) (ops : List LogOp)
    : Onward start.source.log (start.final subscription options router ops).source.log := by
  induction ops generalizing start with
  | nil => exact ⟨List.prefix_rfl, le_rfl⟩
  | cons op ops ih =>
      have heffect := h.step_effect options router op
      exact heffect.onward.trans (ih heffect.inStep)

theorem InStep.final_inStep (h : InStep subscription start) (ops : List LogOp)
    : InStep subscription (start.final subscription options router ops) := by
  induction ops generalizing start with
  | nil => exact h
  | cons op ops ih => exact ih (h.step_effect options router op).inStep

/-- What lies between the offset and the first pending entry is that entry. -/
theorem eq_first_of_passed {log later : SqlLog} {first row : ReceivedRow}
    {rest : List ReceivedRow} (hgrows : log.rows <+: later.rows)
    (hpending : log.pending subscription = first :: rest)
    (hrow : row ∈ later.entries subscription) (hstart : log.offset < row.seq)
    (hpassed : row.seq ≤ first.seq)
    : first = row := by
  have hentries : log.entries subscription <+: later.entries subscription :=
    SqlLog.entries_grow hgrows
  have hfirst : first ∈ log.entries subscription :=
    (mem_entriesPast.mp (hpending ▸ List.mem_cons_self)).1
  have hle : first.seq ≤ row.seq :=
    later.entries_ascending.first_le_of_grows hentries hpending hrow hstart
  exact later.entries_ascending.eq_of_key_eq (hentries.subset hfirst) hrow
    (le_antisymm hle hpassed)

/-- No entry is left behind: by induction on the run, what the offset passes in one step is
the entry settled in that step. -/
theorem InStep.settledForward_of_passed (h : InStep subscription start) (ops : List LogOp)
    {row : ReceivedRow}
    (hrow : row ∈ (start.final subscription options router ops).source.log.entries
      subscription)
    (hstart : start.source.log.offset < row.seq)
    (hpassed : row.seq ≤ (start.final subscription options router ops).source.log.offset)
    : ∃ event ∈ start.history subscription options router ops,
        SettledForward row event.answer := by
  induction ops generalizing start with
  | nil => exact absurd hpassed (not_le.mpr hstart)
  | cons op ops ih =>
      have heffect := h.step_effect options router op
      by_cases hbeyond
          : (LogConsumer.step subscription options router op start).2.source.log.offset
            < row.seq
      · obtain ⟨event, hevent, hsettled⟩ := ih heffect.inStep hrow hbeyond hpassed
        exact ⟨event, List.mem_cons_of_mem _ hevent, hsettled⟩
      · -- the offset passed the row in this step, so the row is the entry settled in it
        refine ⟨_, List.mem_cons_self, ?_⟩
        rcases heffect.offset with heq
          | ⟨received, settlement, rest, hanswer, hforward, hpending, hoffset⟩
        · exact absurd (heq ▸ hstart) hbeyond
        · refine ⟨received, settlement, hanswer, hforward, ?_⟩
          exact eq_first_of_passed (h.final_onward (op :: ops)).grows hpending hrow hstart
            (hoffset ▸ not_lt.mp hbeyond)

theorem head_pending_of_grows {log grown : SqlLog} {row : ReceivedRow}
    (hgrows : log.rows <+: grown.rows) (hoffset : grown.offset = log.offset)
    (h : (log.pending subscription).head? = some row)
    : (grown.pending subscription).head? = some row := by
  obtain ⟨rest, hrest⟩ := List.head?_eq_some_iff.mp h
  have hpending : log.pending subscription <+: grown.pending subscription :=
    SqlLog.pending_grow hgrows hoffset
  obtain ⟨added, hadded⟩ := hpending
  rw [← hadded, hrest]
  rfl

theorem mem_entries_of_head_pending {log : SqlLog} {row : ReceivedRow}
    (h : (log.pending subscription).head? = some row)
    : row ∈ log.entries subscription ∧ log.offset < row.seq :=
  mem_entriesPast.mp (List.mem_of_mem_head? h)

/-- An entry delivered later is not before one delivered earlier. -/
theorem seq_le_of_onward {log later : SqlLog} {first second : ReceivedRow}
    (honward : Onward log later)
    (hfirst : (log.pending subscription).head? = some first)
    (hsecond : (later.pending subscription).head? = some second)
    : first.seq ≤ second.seq := by
  obtain ⟨rest, hpending⟩ := List.head?_eq_some_iff.mp hfirst
  obtain ⟨hmem, hoffset⟩ := mem_entries_of_head_pending hsecond
  exact later.entries_ascending.first_le_of_grows (SqlLog.entries_grow honward.grows) hpending
    hmem (lt_of_le_of_lt honward.offset hoffset)

theorem StepEffect.head_of_deliveredRow {before after : LogConsumer}
    {effect : RunEffect SqlLogReceived} {row : ReceivedRow}
    (h : StepEffect subscription before effect after) (hrow : deliveredRow effect = some row)
    : (after.source.log.pending subscription).head? = some row := by
  cases effect with
  | delivered received =>
      cases hrow
      exact h.delivered received rfl
  | none | settled => cases hrow

theorem InStep.delivered_ascending (h : InStep subscription start) (ops : List LogOp)
    : ((start.history subscription options router ops).filterMap
        (fun event => deliveredRow event.answer)).Pairwise
        (fun first second => first.seq ≤ second.seq) := by
  induction ops generalizing start with
  | nil => exact .nil
  | cons op ops ih =>
      have heffect := h.step_effect options router op
      have hrest := ih heffect.inStep
      rw [LogConsumer.history, Foundation.history, List.filterMap_cons]
      split
      · exact hrest
      · rename_i row hrow
        refine List.pairwise_cons.mpr ⟨?_, hrest⟩
        intro later hlater
        obtain ⟨event, hevent, hdelivered⟩ := List.mem_filterMap.mp hlater
        obtain ⟨-, hnext, honward⟩ := heffect.inStep.history_effect event hevent
        exact seq_le_of_onward honward (heffect.head_of_deliveredRow hrow)
          (hnext.head_of_deliveredRow hdelivered)

/-- As long as nothing is in hand the first pending entry stays the one to deliver. -/
theorem InStep.next_delivered (h : InStep subscription start) (ops : List LogOp)
    {row next : ReceivedRow} (hidle : ∀ received, start.phase ≠ .handling received)
    (hpending : (start.source.log.pending subscription).head? = some row)
    (hnext : ((start.history subscription options router ops).filterMap
      (fun event => deliveredRow event.answer)).head? = some next)
    : next = row := by
  induction ops generalizing start with
  | nil => cases hnext
  | cons op ops ih =>
      have heffect := h.step_effect options router op
      have hoffset
          : (LogConsumer.step subscription options router op start).2.source.log.offset
            = start.source.log.offset := by
        refine heffect.offset.resolve_right ?_
        rintro ⟨received, settlement, -, hanswer, -⟩
        exact hidle received (heffect.settled received _ hanswer)
      have hkept
          : ((LogConsumer.step subscription options router op start).2.source.log.pending
              subscription).head? = some row :=
        head_pending_of_grows heffect.grows hoffset hpending
      rw [LogConsumer.history, Foundation.history, List.filterMap_cons] at hnext
      split at hnext
      · rename_i hnone
        refine ih heffect.inStep ?_ hkept hnext
        intro received hphase
        rcases heffect.handling received hphase with hanswer | ⟨-, hbefore⟩
        · rw [Event.ofStep, hanswer] at hnone
          cases hnone
        · exact hidle received hbefore
      · rename_i delivered hdelivered
        cases hnext
        exact Option.some.inj ((heffect.head_of_deliveredRow hdelivered).symm.trans hkept)

/-- After a `nack` nothing is in hand and the entry is still the first pending one. -/
theorem StepEffect.of_nack {before after : LogConsumer} {received : SqlLogReceived}
    {reason : String} (hbefore : InStep subscription before)
    (h : StepEffect subscription before (.settled received (some (.nack reason))) after)
    : (∀ other, after.phase ≠ .handling other)
      ∧ (after.source.log.pending subscription).head? = some received.row := by
  have hoffset : after.source.log.offset = before.source.log.offset := by
    refine h.offset.resolve_right ?_
    rintro ⟨other, settlement, rest, hanswer, hforward, -⟩
    cases hanswer
    cases hforward
  constructor
  · intro other hphase
    rcases h.handling other hphase with hanswer | ⟨hanswer, -⟩ <;> cases hanswer
  · have hphase := h.settled received _ rfl
    obtain ⟨source, phase⟩ := before
    cases hphase
    obtain ⟨rest, hrest⟩ := hbefore.pending_eq
    exact head_pending_of_grows h.grows hoffset (congrArg List.head? hrest)

--------------------
-- Deliveries
--------------------

/-- The database refuses neither the epoch check nor the read. -/
structure LogCall.Answers (call : LogCall) : Prop where
  verify : call.verify = none
  read : call.read = none

/-- The subscriber's name of the log is a source name, and the entry's number a position. -/
structure Positioned (subscription : LogSubscription) (row : ReceivedRow) : Prop where
  name : ValidName maxProjectionSourceNameBytes s!"{subscription.backend}.bus_log"
  seq : 0 ≤ row.seq ∧ row.seq ≤ maxProjectionPosition

theorem Positioned.ofRow {row : ReceivedRow} (h : Positioned subscription row)
    : ∃ received, SqlLogReceived.ofRow subscription row = .ok received
      ∧ received.row = row := by
  have hglobal : ValidCanonicalBytes maxProjectionSourcePartitionBytes (utf8Bytes "global") := by
    decide
  have hposition : ¬ maxProjectionPosition < row.seq.toNat := by
    have hbound := h.seq.2
    omega
  rw [SqlLogReceived.ofRow, dif_pos h.seq.1]
  simp [ProjectionSource.new, validateName_eq_ok h.name, validateCanonicalBytes_eq_ok hglobal,
    OrderedDelivery.new, hposition, Except.mapError]

/-- A pass over a read-ahead in step delivers the first pending entry. -/
theorem SqlLogSource.poll_delivers {source : SqlLogSource} {call : LogCall} {row : ReceivedRow}
    (hbuffer : source.buffer <+: source.log.pending subscription) (hread : call.read = none)
    (hpending : (source.log.pending subscription).head? = some row)
    (hrow : Positioned subscription row)
    : ∃ received next, source.poll subscription call = (.delivered received, next)
      ∧ received.row = row := by
  obtain ⟨received, hreceived, hsame⟩ := hrow.ofRow
  obtain ⟨rest, hrest⟩ := List.head?_eq_some_iff.mp hpending
  have htake (refilled : SqlLogSource) (rows : List ReceivedRow)
      (hrows : refilled.buffer = row :: rows)
      : ∃ received next, refilled.takeNext subscription = (.delivered received, next)
        ∧ received.row = row := by
    rw [takeNext, hrows]
    simp [hreceived, hsame]
  unfold poll refill
  cases hrows : source.buffer with
  | nil =>
      simp only [List.isEmpty_nil, if_true, hread]
      refine htake _ (rest.take (sourceBatch - 1)) ?_
      simp only [SqlLog.logRead, hrest]
      rfl
  | cons first rows =>
      rw [hrows, hrest] at hbuffer
      obtain ⟨rfl, -⟩ := List.cons_prefix_cons.mp hbuffer
      exact htake source rows hrows

/-- In step, a call of `recv` and the next pass of a waiting one deliver the first pending
entry. -/
theorem InStep.delivers {consumer : LogConsumer} {call : LogCall} {row : ReceivedRow}
    (h : InStep subscription consumer) (hcall : call.Answers)
    (hpending : (consumer.source.log.pending subscription).head? = some row)
    (hrow : Positioned subscription row)
    : (consumer.phase = .receiving → deliveredRow (LogConsumer.step subscription options router
          (.run (.recv call)) consumer).1 = some row)
      ∧ (consumer.phase = .waiting → deliveredRow (LogConsumer.step subscription options router
          (.run (.poll call)) consumer).1 = some row) := by
  obtain ⟨source, phase⟩ := consumer
  constructor
  · rintro rfl
    obtain ⟨hlog, -⟩ := source.dropStaleBuffer_frame
    have hbuffer : source.dropStaleBuffer.buffer
        <+: source.dropStaleBuffer.log.pending subscription := hlog ▸ h.buffer
    obtain ⟨received, next, hpoll, rfl⟩ :=
      SqlLogSource.poll_delivers hbuffer hcall.read (hlog ▸ hpending) hrow
    simp only [LogConsumer.step, runSource, sqlLogSource, SqlLogSource.recv, hcall.verify,
      hpoll, Runner.afterReceive, deliveredRow]
  · rintro rfl
    obtain ⟨received, next, hpoll, rfl⟩ :=
      SqlLogSource.poll_delivers h.buffer hcall.read hpending hrow
    simp only [LogConsumer.step, runSource, sqlLogSource, hpoll, Runner.afterReceive,
      deliveredRow]

theorem SqlLogReceived.seq_le (received : SqlLogReceived)
    : received.row.seq ≤ maxProjectionPosition := by
  rw [← received.positioned]
  exact_mod_cast received.ordered.position_valid

/-- A `nack` ends the run only when the router asked to retain the message and stop. -/
theorem decideMessage_nack {message : Message} {decodeError : Option TransportError}
    {answer : Except TransportError Unit} {reason : String}
    (h : (decideMessage options router message decodeError answer).settlement
      = some (.nack reason))
    : (decideMessage options router message decodeError answer).stop = none
      ∨ ∃ error, (decideMessage options router message decodeError answer).stop = some error
        ∧ error.retainAndStop = true := by
  have haction (text : String) (stopped : TransportError) (action : FailureAction)
      (hnack : (Decision.ofAction text stopped action).settlement = some (.nack reason))
      : (Decision.ofAction text stopped action).stop = none := by
    cases action <;> simp_all [Decision.ofAction]
  unfold decideMessage at h ⊢
  cases decodeError with
  | some error => exact .inl (haction _ _ _ h)
  | none =>
      by_cases hhandles : router.handles message.kind message.name = false
      · simp [hhandles] at h
      · simp only [hhandles] at h ⊢
        cases hdispatch : dispatch options message answer with
        | ok => simp [hdispatch] at h
        | error error =>
            by_cases hretains : error.retainAndStop = true
            · simp [hretains]
            · simp only [hdispatch, hretains] at h ⊢
              exact .inl (haction _ _ _ h)

theorem LogConsumer.step_nack {op : LogOp} {before after : LogConsumer}
    {received : SqlLogReceived} {reason : String}
    (h : LogConsumer.step subscription options router op before
      = (.settled received (some (.nack reason)), after))
    : after.phase = .receiving
      ∨ ∃ error, after.phase = .ended (.error error) ∧ error.retainAndStop = true := by
  have hreceive (result : RecvAnswer SqlLogReceived × SqlLogSource)
      : Runner.afterReceive result ≠ (.settled received (some (.nack reason)), after) := by
    obtain ⟨answer, source⟩ := result
    cases answer <;> simp [Runner.afterReceive]
  obtain ⟨source, phase⟩ := before
  cases op with
  | publish | subscribe => cases h
  | run step =>
      cases step with
      | recv call =>
          cases phase with
          | receiving => exact absurd h (hreceive _)
          | waiting | handling | ended => cases h
      | poll call =>
          cases phase with
          | waiting => exact absurd h (hreceive _)
          | receiving | handling | ended => cases h
      | handle answer call =>
          cases phase with
          | receiving | waiting | ended => cases h
          | handling delivery =>
              simp only [LogConsumer.step, runSource, Prod.mk.injEq, RunEffect.settled.injEq] at h
              obtain ⟨⟨-, hnack⟩, rfl⟩ := h
              have hstop := decideMessage_nack hnack
              generalize decideMessage options router _ _ answer = decision at hnack hstop ⊢
              obtain ⟨settlement, stop⟩ := decision
              cases hnack
              rcases hstop with rfl | ⟨error, rfl, hretains⟩
              · exact .inl rfl
              · exact .inr ⟨error, rfl, hretains⟩

/-- For every log and every run of the system over it, restarts included: an entry the
offset passed was settled forward; every delivered entry is the first one past the offset;
deliveries go up in the log; and after a `nack` the next delivery is the same entry. Wherever
the run stands, the next read that the database answers delivers the first entry past the
offset, after a `nack` the same one again, unless the router stopped the run; then the next
subscriber gets it. -/
theorem sqlLogConsumer_neverSkips (subscription : LogSubscription) (options : RunOptions)
    (router : MessageRouter) (log : SqlLog) (ops : List LogOp)
    : (∀ row ∈ (LogConsumer.final subscription options router (.subscribe log)
          ops).source.log.rows,
        subscription.selects row = true → log.offset < row.seq →
        row.seq ≤ (LogConsumer.final subscription options router (.subscribe log)
          ops).source.log.offset →
        ∃ event ∈ LogConsumer.history subscription options router (.subscribe log) ops,
          SettledForward (.fromRow row) event.answer)
      ∧ (∀ event ∈ LogConsumer.history subscription options router (.subscribe log) ops,
          ∀ row, deliveredRow event.answer = some row →
          (event.after.source.log.pending subscription).head? = some row)
      ∧ ((LogConsumer.history subscription options router (.subscribe log) ops).filterMap
          (fun event => deliveredRow event.answer)).Pairwise
          (fun first second => first.seq ≤ second.seq)
      ∧ (∀ earlier event later received reason next,
          LogConsumer.history subscription options router (.subscribe log) ops
            = earlier ++ event :: later →
          event.answer = .settled received (some (.nack reason)) →
          (later.filterMap (fun event => deliveredRow event.answer)).head? = some next →
          next = received.row)
      ∧ (∀ call row, call.Answers →
          ((LogConsumer.final subscription options router (.subscribe log)
            ops).source.log.pending subscription).head? = some row →
          Positioned subscription row →
          ((LogConsumer.final subscription options router (.subscribe log) ops).phase
              = .receiving →
            deliveredRow (LogConsumer.step subscription options router (.run (.recv call))
              (LogConsumer.final subscription options router (.subscribe log) ops)).1
              = some row)
          ∧ ((LogConsumer.final subscription options router (.subscribe log) ops).phase
              = .waiting →
            deliveredRow (LogConsumer.step subscription options router (.run (.poll call))
              (LogConsumer.final subscription options router (.subscribe log) ops)).1
              = some row))
      ∧ ∀ event ∈ LogConsumer.history subscription options router (.subscribe log) ops,
          ∀ received reason, event.answer = .settled received (some (.nack reason)) →
          (event.after.phase = .receiving
            ∨ ∃ error, event.after.phase = .ended (.error error) ∧ error.retainAndStop = true)
          ∧ ∀ call, call.Answers →
            ValidName maxProjectionSourceNameBytes s!"{subscription.backend}.bus_log" →
            (event.after.phase = .receiving →
              deliveredRow (LogConsumer.step subscription options router (.run (.recv call))
                event.after).1 = some received.row)
            ∧ deliveredRow (LogConsumer.step subscription options router (.run (.recv call))
                (.subscribe event.after.source.log)).1 = some received.row := by
  have hstart : InStep subscription (.subscribe log) := .subscribe log
  refine ⟨?_, ?_, hstart.delivered_ascending ops, ?_, ?_, ?_⟩
  · intro row hrow hselected hoffset hpassed
    have hentry : ReceivedRow.fromRow row ∈ (LogConsumer.final subscription options router
        (.subscribe log) ops).source.log.entries subscription :=
      List.mem_map_of_mem (List.mem_filter.mpr ⟨hrow, hselected⟩)
    refine hstart.settledForward_of_passed ops hentry ?_ ?_
    · rwa [ReceivedRow.fromRow_seq]
    · rwa [ReceivedRow.fromRow_seq]
  · intro event hevent row hrow
    exact (hstart.history_effect event hevent).2.1.head_of_deliveredRow hrow
  · intro earlier event later received reason next hsplit hnack hnext
    have hevent : event ∈ LogConsumer.history subscription options router
        (.subscribe log) ops := by
      rw [hsplit]
      simp
    obtain ⟨hbefore, heffect, -⟩ := hstart.history_effect event hevent
    obtain ⟨hidle, hpending⟩ := (hnack ▸ heffect).of_nack hbefore
    obtain ⟨-, rest, -, -, -, rfl, -⟩ := history_split hsplit
    exact heffect.inStep.next_delivered rest hidle hpending hnext
  · intro call row hcall hpending hrow
    exact (hstart.final_inStep ops).delivers hcall hpending hrow
  · intro event hevent received reason hnack
    obtain ⟨hbefore, heffect, -⟩ := hstart.history_effect event hevent
    obtain ⟨-, hpending⟩ := (hnack ▸ heffect).of_nack hbefore
    refine ⟨LogConsumer.step_nack (hnack ▸ history_step hevent), fun call hcall hname => ?_⟩
    have hrow : Positioned subscription received.row :=
      ⟨hname, received.seq_nonneg, received.seq_le⟩
    exact ⟨(heffect.inStep.delivers hcall hpending hrow).1,
      ((InStep.subscribe event.after.source.log).delivers hcall hpending hrow).1 rfl⟩

/-- A log of two todo events, and its reader. -/
def todoLog : SqlLog where
  rows := [⟨1, some "todo.created", .ok (.new "todo.created" .event [1])⟩,
    ⟨4, some "todo.renamed", .ok (.new "todo.renamed" .event [2])⟩]
  lastSeq := none
  ascending := by decide
  offset_valid _ h := by cases h

def todoReader : LogSubscription where
  backend := "postgres"
  names := ["todo.created", "todo.renamed"]
  sourceEpoch := ⟨"epoch-1", by decide⟩
  idlePoll := 0

def answeringCall : LogCall := ⟨none, none, none⟩

/-- The first event is handed out, and the router fails on it. -/
def refusedOnce : List LogOp :=
  [.run (.recv answeringCall),
    .run (.handle (.error ⟨.retryable, "busy", false⟩) answeringCall)]

/-- The first event is handed out again, although both were read ahead. -/
theorem todoLog_redelivered
    : deliveredRow (LogConsumer.step todoReader ⟨false, .retry⟩ ⟨fun _ _ => true⟩
        (.run (.recv answeringCall)) (LogConsumer.final todoReader ⟨false, .retry⟩
          ⟨fun _ _ => true⟩ (.subscribe todoLog) refusedOnce)).1
      = some ⟨1, .new "todo.created" .event [1], none⟩ := by
  obtain ⟨-, -, -, -, hdelivers, -⟩ := sqlLogConsumer_neverSkips todoReader ⟨false, .retry⟩
    ⟨fun _ _ => true⟩ todoLog refusedOnce
  exact (hdelivers answeringCall _ ⟨rfl, rfl⟩ rfl ⟨by decide, by decide⟩).1 rfl

end Distributed.Bus
