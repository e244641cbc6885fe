import Distributed.Bus.Transport
import Distributed.Foundation.Log
import Mathlib.Algebra.Order.Ring.Int
import Distributed.Platform.Time

/-! The fan-out source over `bus_log` and the system it is part of.
One consumer group reads the log: publishers append, the process that subscribes may be
started again at any point, and its receive loop runs in between.
-/

namespace Distributed.Bus

open Distributed.Foundation Distributed.Platform Distributed.ProjectionProtocol

/-- A row of `bus_log`. `decoded` is what `message_from_row` makes of its columns. -/
structure LogRow where
  seq : Int
  name : Option String
  decoded : Except TransportError Message

structure ReceivedRow where
  seq : Int
  message : Message
  decodeError : Option TransportError
deriving DecidableEq

def ReceivedRow.fromRow (row : LogRow) : ReceivedRow :=
  match row.decoded with
  | .ok message => ⟨row.seq, message, none⟩
  | .error error => ⟨row.seq, Message.new "" .event [], some error⟩

@[simp]
theorem ReceivedRow.fromRow_seq (row : LogRow) : (ReceivedRow.fromRow row).seq = row.seq := by
  unfold ReceivedRow.fromRow
  split <;> rfl

/-- `bus_log` in the order of its key, and `last_seq` of the consumer in `bus_offset`.
Only positions of delivered entries are written there, which are never negative. -/
structure SqlLog where
  rows : List LogRow
  lastSeq : Option Int
  ascending : rows.Pairwise (fun first second => first.seq < second.seq)
  offset_valid : ∀ seq ∈ lastSeq, 0 ≤ seq

/-- The durable offset, `COALESCE(last_seq, 0)`. -/
def SqlLog.offset (log : SqlLog) : Int := log.lastSeq.getD 0

/-- What a subscriber is configured with. -/
structure LogSubscription where
  backend : String
  names : List String
  sourceEpoch : ProjectionEpoch
  idlePoll : Duration

/-- `name = ANY(names) OR name IS NULL`. -/
def LogSubscription.selects (subscription : LogSubscription) (row : LogRow) : Bool :=
  match row.name with
  | none => true
  | some name => subscription.names.contains name

/-- The entries a subscriber reads, in order. -/
def SqlLog.entries (subscription : LogSubscription) (log : SqlLog) : List ReceivedRow :=
  (log.rows.filter subscription.selects).map .fromRow

/-- The entries past the durable offset, in order. -/
def SqlLog.pending (subscription : LogSubscription) (log : SqlLog) : List ReceivedRow :=
  entriesPast ReceivedRow.seq log.offset (log.entries subscription)

def SqlLog.logRead (subscription : LogSubscription) (log : SqlLog) (limit : Nat)
    : List ReceivedRow :=
  (log.pending subscription).take limit

/-- `GREATEST(bus_offset.last_seq, EXCLUDED.last_seq)`, or the new value alone. -/
def SqlLog.greatest (seq : Int) : Option Int → Int
  | none => seq
  | some last => max last seq

def SqlLog.advanceOffset (seq : Int) (hseq : 0 ≤ seq) (log : SqlLog) : SqlLog where
  rows := log.rows
  lastSeq := some (SqlLog.greatest seq log.lastSeq)
  ascending := log.ascending
  offset_valid := by
    intro advanced hadvanced
    cases hadvanced
    cases log.lastSeq with
    | none => exact hseq
    | some last => exact le_trans hseq (le_max_right last seq)

/-- The largest key in use, zero on an empty log. -/
def SqlLog.highWater (log : SqlLog) : Int := (log.rows.getLast?.map LogRow.seq).getD 0

theorem SqlLog.seq_le_highWater {log : SqlLog} {row : LogRow} (h : row ∈ log.rows)
    : row.seq ≤ log.highWater := by
  obtain ⟨rest, last, hrows⟩ := (List.eq_nil_or_concat' log.rows).resolve_left
    (List.ne_nil_of_mem h)
  have hwater : log.highWater = last.seq := by simp [highWater, hrows]
  have hascending := log.ascending
  rw [hrows] at hascending h
  rw [hwater]
  rcases List.mem_append.mp h with h | h
  · exact Int.le_of_lt ((List.pairwise_append.mp hascending).2.2 row h last (by simp))
  · exact Int.le_of_eq (congrArg LogRow.seq (List.mem_singleton.mp h))

/-- `insert_log`: the database numbers the row, and may leave a gap. -/
def SqlLog.insertLog (gap : Nat) (name : Option String)
    (decoded : Except TransportError Message) (log : SqlLog) : SqlLog where
  rows := log.rows ++ [⟨log.highWater + 1 + gap, name, decoded⟩]
  lastSeq := log.lastSeq
  ascending := by
    refine List.pairwise_append.mpr ⟨log.ascending, List.pairwise_singleton _ _, ?_⟩
    intro row hrow next hnext
    rw [List.mem_singleton.mp hnext]
    have hbound := SqlLog.seq_le_highWater hrow
    simp only
    omega
  offset_valid := log.offset_valid

/-- `SqlLogSource` beside the tables it reads. -/
structure SqlLogSource where
  log : SqlLog
  buffer : List ReceivedRow
  lastDelivered : Option Int
  settledSeq : Int

structure SqlLogReceived where
  row : ReceivedRow
  ordered : OrderedDelivery
  positioned : (ordered.position : Int) = row.seq

theorem SqlLogReceived.seq_nonneg (received : SqlLogReceived) : 0 ≤ received.row.seq :=
  received.positioned ▸ Int.natCast_nonneg _

/-- What the database answers to the calls of one operation: a refusal of the epoch check
or the read, and for the offset update an error with whether it took effect. -/
structure LogCall where
  verify : Option TransportError
  read : Option TransportError
  advance : Option (TransportError × Bool)

def sourceBatch : Nat := 16

def corruptRow (backend message : String) : TransportError :=
  .permanent s!"{backend} bus corrupt row: {message}"

/-- An entry with its ordering evidence. -/
def SqlLogReceived.ofRow (subscription : LogSubscription) (row : ReceivedRow)
    : Except TransportError SqlLogReceived :=
  let corrupt (error : ValidationError) := corruptRow subscription.backend error.text
  if hseq : 0 ≤ row.seq then do
    let source ← (ProjectionSource.new s!"{subscription.backend}.bus_log"
      (utf8Bytes "global")).mapError corrupt
    let ordered ← (OrderedDelivery.new source subscription.sourceEpoch row.seq.toNat
      false).mapError corrupt
    .ok ⟨row, ordered.val, ordered.property.symm ▸ Int.toNat_of_nonneg hseq⟩
  else
    .error (corruptRow subscription.backend
      s!"bus_log seq {row.seq} is outside the projection cursor domain")

/-- Reads ahead when nothing is buffered. -/
def SqlLogSource.refill (subscription : LogSubscription) (call : LogCall)
    (source : SqlLogSource) : Except TransportError SqlLogSource :=
  if source.buffer.isEmpty then
    match call.read with
    | some error => .error error
    | none => .ok { source with buffer := source.log.logRead subscription sourceBatch }
  else .ok source

/-- Hands out the next buffered entry. -/
def SqlLogSource.takeNext (subscription : LogSubscription) (source : SqlLogSource)
    : RecvAnswer SqlLogReceived × SqlLogSource :=
  match source.buffer with
  | [] => (if subscription.idlePoll = 0 then .drained else .waiting, source)
  | row :: rest =>
      match SqlLogReceived.ofRow subscription row with
      | .error error => (.failed error, { source with buffer := rest })
      | .ok received =>
          (.delivered received,
            { source with buffer := rest, lastDelivered := some row.seq })

/-- One pass of the loop in `recv`. -/
def SqlLogSource.poll (subscription : LogSubscription) (call : LogCall)
    (source : SqlLogSource) : RecvAnswer SqlLogReceived × SqlLogSource :=
  match source.refill subscription call with
  | .error error => (.failed error, source)
  | .ok refilled => refilled.takeNext subscription

/-- The read-ahead is dropped when the entry delivered last was not settled forward: it
would skip past that entry. -/
def SqlLogSource.dropStaleBuffer (source : SqlLogSource) : SqlLogSource :=
  match source.lastDelivered with
  | none => source
  | some last => if source.settledSeq < last then { source with buffer := [] } else source

def SqlLogSource.recv (subscription : LogSubscription) (call : LogCall)
    (source : SqlLogSource) : RecvAnswer SqlLogReceived × SqlLogSource :=
  match call.verify with
  | some error => (.failed error, source)
  | none => source.dropStaleBuffer.poll subscription call

/-- The tables after the offset moved to an entry. -/
def SqlLogReceived.advance (received : SqlLogReceived) (log : SqlLog) : SqlLog :=
  log.advanceOffset received.row.seq received.seq_nonneg

def SqlLogSource.settleForward (call : LogCall) (received : SqlLogReceived)
    (source : SqlLogSource) : Except TransportError Unit × SqlLogSource :=
  match call.advance with
  | none =>
      (.ok (),
        { source with
          log := received.advance source.log
          settledSeq := received.row.seq })
  | some (error, true) => (.error error, { source with log := received.advance source.log })
  | some (error, false) => (.error error, source)

def SqlLogSource.settle (call : LogCall) (settlement : Settlement)
    (received : SqlLogReceived) (source : SqlLogSource)
    : Except TransportError Unit × SqlLogSource :=
  match settlement with
  | .ack => source.settleForward call received
  | .nack _ => (.ok (), source)
  | .deadLetter _ => source.settleForward call received
  | .park _ => source.settleForward call received

def sqlLogSource (subscription : LogSubscription)
    : MessageSource SqlLogSource SqlLogReceived LogCall where
  recv := SqlLogSource.recv subscription
  poll := SqlLogSource.poll subscription
  message received := received.row.message
  decodeError received := received.row.decodeError
  settle := SqlLogSource.settle

abbrev LogConsumer : Type := Runner SqlLogSource SqlLogReceived

/-- A source as `subscribe` makes it. -/
def LogConsumer.subscribe (log : SqlLog) : LogConsumer :=
  ⟨⟨log, [], none, 0⟩, .receiving⟩

/-- What happens to the tables and the process over them. `subscribe` also stands for a
process that died at any point of its loop and was started again. -/
inductive LogOp where
  | publish (gap : Nat) (name : Option String) (decoded : Except TransportError Message)
  | subscribe
  | run (step : RunStep LogCall)

def LogConsumer.step (subscription : LogSubscription) (options : RunOptions)
    (router : MessageRouter)
    : LogOp → LogConsumer → RunEffect SqlLogReceived × LogConsumer
  | .publish gap name decoded, ⟨source, phase⟩ =>
      (.none, ⟨{ source with log := source.log.insertLog gap name decoded }, phase⟩)
  | .subscribe, consumer => (.none, .subscribe consumer.source.log)
  | .run step, consumer => runSource (sqlLogSource subscription) options router step consumer

end Distributed.Bus
