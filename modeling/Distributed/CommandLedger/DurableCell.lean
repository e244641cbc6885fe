import Distributed.CommandLedger.CellKey

/-! The wire form of a ledger row in the private table of a cell host.
A row comes back with its times cut to whole milliseconds, and decides as before wherever
the clock is not within a millisecond of a deadline.
-/

namespace Distributed.CommandLedger

open Distributed.Foundation Distributed.Platform Distributed.ProjectionProtocol

structure DurableCellCommandRecordV1 where
  version : Nat
  serviceId : String
  principalPartition : String
  commandId : String
  commandName : String
  contractFingerprint : Bytes
  inputHash : Bytes
  state : String
  causationId : String
  attemptToken : Option String
  attemptNumber : Nat
  leaseExpiresAtMs : Option Nat
  outcomeJson : Option String
  createdAtMs : Nat
  updatedAtMs : Nat
  completedAtMs : Option Nat
  retentionExpiresAtMs : Nat
  compactedAtMs : Option Nat

/-- `serde_json` on the wire form. -/
structure CellSerde where
  toString : DurableCellCommandRecordV1 → Except String String
  fromStr : String → Except String DurableCellCommandRecordV1

/-- `serde_json` prints the row and reads it back. -/
def CellSerde.RoundTrips (serde : CellSerde) (wire : DurableCellCommandRecordV1) : Prop :=
  ∃ body, serde.toString wire = .ok body ∧ serde.fromStr body = .ok wire

def nanosPerMilli : Nat := 1000000

def systemTimeToUnixMillis (value : SystemTime) : Except CommandLedgerError Nat :=
  if value < 0 then
    .error (.corrupt "cell command ledger timestamp precedes the Unix epoch")
  else
    let millis := value.toNat / nanosPerMilli
    if millis < 2 ^ 64 then .ok millis
    else .error (.corrupt "cell command ledger timestamp exceeds u64 millis")

/-- `Duration::from_millis`. -/
def durationFromMillis (millis : Nat) : Duration := millis * nanosPerMilli

/-- `Option::ok_or`. -/
def okOr {α : Type} (error : CommandLedgerError) : Option α → Except CommandLedgerError α
  | some value => .ok value
  | none => .error error

def systemTimeFromUnixMillis (value : Nat) : Except CommandLedgerError SystemTime :=
  okOr (.corrupt "cell command ledger timestamp is out of range")
    (SystemTime.checkedAdd 0 (durationFromMillis value))

/-- `try_from_slice` of the two fixed hashes. -/
def fixedHash (description : String) (bytes : Bytes) : Except CommandLedgerError Digest :=
  if h : bytes.length = 32 then .ok ⟨bytes, h⟩
  else .error (.invalid s!"{description} must contain exactly 32 bytes")

def CommandLedgerState.parse (value : String) : Except CommandLedgerError CommandLedgerState :=
  match value with
  | "in_progress" => .ok .inProgress
  | "retryable_unknown" => .ok .retryableUnknown
  | "succeeded" => .ok .succeeded
  | "succeeded_pending_projection" => .ok .succeededPendingProjection
  | "atomic" => .ok .atomic
  | "rejected" => .ok .rejected
  | "projection_failed" => .ok .projectionFailed
  | "expired" => .ok .expired
  | other => .error (.corrupt s!"stored command ledger state `{other}` is invalid")

namespace CommandLedgerRecord

/-- The wire form; the times are converted in the order of the fields. -/
def cellWire (record : CommandLedgerRecord)
    : Except CommandLedgerError DurableCellCommandRecordV1 := do
  let leaseExpiresAtMs ← record.leaseExpiresAt.mapM systemTimeToUnixMillis
  let createdAtMs ← systemTimeToUnixMillis record.createdAt
  let updatedAtMs ← systemTimeToUnixMillis record.updatedAt
  let completedAtMs ← record.completedAt.mapM systemTimeToUnixMillis
  let retentionExpiresAtMs ← systemTimeToUnixMillis record.retentionExpiresAt
  let compactedAtMs ← record.compactedAt.mapM systemTimeToUnixMillis
  .ok {
    version := 1
    serviceId := record.key.serviceId
    principalPartition := record.key.principalPartition.value
    commandId := record.key.commandId
    commandName := record.commandName
    contractFingerprint := record.contractFingerprint.bytes
    inputHash := record.inputHash.bytes
    state := record.state.asStr
    causationId := record.causationId.value
    attemptToken := record.attemptToken.map AttemptToken.value
    attemptNumber := record.attemptNumber
    leaseExpiresAtMs
    outcomeJson := record.outcomeJson
    createdAtMs
    updatedAtMs
    completedAtMs
    retentionExpiresAtMs
    compactedAtMs
  }

def durableCellJson (serde : CellSerde) (record : CommandLedgerRecord)
    : Except CommandLedgerError String := do
  record.validateStoredShape
  let wire ← record.cellWire
  (serde.toString wire).mapError fun error =>
    .corrupt ("cell command ledger row could not be encoded: " ++ error)

/-- The row of a wire form, its parts checked in the order of the fields. -/
def ofCellWire (uuids : UuidCrate) (wire : DurableCellCommandRecordV1)
    : Except CommandLedgerError CommandLedgerRecord := do
  let key ← CommandLedgerKey.parse uuids wire.serviceId wire.principalPartition wire.commandId
  let contractFingerprint ← fixedHash "command contract fingerprint" wire.contractFingerprint
  let inputHash ← fixedHash "canonical command input hash" wire.inputHash
  let state ← CommandLedgerState.parse wire.state
  let causationId ← CausationId.parseStored uuids wire.causationId
  let attemptToken ← wire.attemptToken.mapM (AttemptToken.parseStored uuids)
  let leaseExpiresAt ← wire.leaseExpiresAtMs.mapM systemTimeFromUnixMillis
  let createdAt ← systemTimeFromUnixMillis wire.createdAtMs
  let updatedAt ← systemTimeFromUnixMillis wire.updatedAtMs
  let completedAt ← wire.completedAtMs.mapM systemTimeFromUnixMillis
  let retentionExpiresAt ← systemTimeFromUnixMillis wire.retentionExpiresAtMs
  let compactedAt ← wire.compactedAtMs.mapM systemTimeFromUnixMillis
  .ok {
    key
    commandName := wire.commandName
    contractFingerprint
    inputHash
    state
    causationId
    attemptToken
    attemptNumber := wire.attemptNumber
    leaseExpiresAt
    outcomeJson := wire.outcomeJson
    createdAt
    updatedAt
    completedAt
    retentionExpiresAt
    compactedAt
  }

def fromDurableCellJson (crates : Crates) (uuids : UuidCrate) (serde : CellSerde)
    (body : String) : Except CommandLedgerError CommandLedgerRecord := do
  let wire ← (serde.fromStr body).mapError fun error =>
    .corrupt ("cell command ledger row is invalid JSON: " ++ error)
  if wire.version ≠ 1 then
    let version := wire.version
    .error (.corrupt s!"cell command ledger row version `{version}` is unsupported")
  let record ← ofCellWire uuids wire
  record.validateStoredShape
  if record.state.isReplayable then
    let _ ← record.replay crates
  .ok record

end CommandLedgerRecord

/-- The last whole millisecond that is not after the time. -/
def cutToMillis (time : Int) : Int := time / nanosPerMilli * nanosPerMilli

/-- The time is not before the Unix epoch and its milliseconds fit a `u64`. -/
def FitsMillis (time : Int) : Prop :=
  0 ≤ time ∧ time.toNat / nanosPerMilli < 2 ^ 64

theorem cutToMillis_le (time : Int) : cutToMillis time ≤ time := by
  unfold cutToMillis nanosPerMilli
  omega

theorem lt_cutToMillis_add (time : Int) : time < cutToMillis time + nanosPerMilli := by
  unfold cutToMillis nanosPerMilli
  omega

theorem cutToMillis_cutToMillis (time : Int)
    : cutToMillis (cutToMillis time) = cutToMillis time := by
  unfold cutToMillis nanosPerMilli
  omega

section FitsMillis

variable {time : Int} (h : FitsMillis time)

include h

theorem FitsMillis.toUnixMillis
    : systemTimeToUnixMillis time = .ok (time.toNat / nanosPerMilli) := by
  unfold systemTimeToUnixMillis
  rw [if_neg (Int.not_lt.mpr h.1)]
  exact if_pos h.2

theorem FitsMillis.cast_millis
    : (durationFromMillis (time.toNat / nanosPerMilli) : Int) = cutToMillis time := by
  have hepoch := h.1
  unfold durationFromMillis cutToMillis nanosPerMilli
  omega

theorem FitsMillis.cutToMillis_lt
    : cutToMillis time < systemTimeLimit := by
  have hlimit : (2 : Int) ^ 64 * nanosPerMilli ≤ systemTimeLimit := by decide
  refine Int.lt_of_lt_of_le ?_ hlimit
  rw [← h.cast_millis]
  have hbound := Nat.mul_lt_mul_of_pos_right h.2 (show 0 < nanosPerMilli by decide)
  exact_mod_cast hbound

theorem FitsMillis.fromUnixMillis
    : systemTimeFromUnixMillis (time.toNat / nanosPerMilli) = .ok (cutToMillis time) := by
  have hsum : SystemTime.checkedAdd 0 (durationFromMillis (time.toNat / nanosPerMilli))
      = some (cutToMillis time) := by
    rw [SystemTime.checkedAdd_eq_some, h.cast_millis, Int.zero_add]
    exact ⟨h.cutToMillis_lt, rfl⟩
  rw [systemTimeFromUnixMillis, hsum, okOr]

end FitsMillis

/-- A conversion that succeeds on the value of an option succeeds on the option. -/
theorem mapM_map_eq {α β γ ε : Type} {write : α → β} {read : β → Except ε γ} {image : α → γ}
    {value : Option α} (h : ∀ a ∈ value, read (write a) = .ok (image a))
    : (value.map write).mapM read = .ok (value.map image) := by
  cases value with
  | none => rfl
  | some a => simp [h a rfl, Functor.map, Except.map]

theorem CommandLedgerState.parse_asStr (state : CommandLedgerState)
    : CommandLedgerState.parse state.asStr = .ok state := by
  cases state <;> rfl

theorem fixedHash_bytes (description : String) (hash : Digest)
    : fixedHash description hash.bytes = .ok hash := by
  simp [fixedHash, hash.length_eq]

theorem CommandLedgerKey.parse_self {uuids : UuidCrate} (key : CommandLedgerKey)
    (h : uuids.Spells key.commandId)
    : CommandLedgerKey.parse uuids key.serviceId key.principalPartition.value key.commandId
      = .ok key := by
  obtain ⟨service, ⟨principal, hprincipal⟩, id, hservice⟩ := key
  have hid : CommandId.parse uuids id.value = .ok id := h.commandId_parse
  simp [CommandLedgerKey.parse, PrincipalPartitionId.new, CommandLedgerKey.new,
    CommandLedgerKey.commandId, hid, hprincipal, hservice]

namespace CommandLedgerRecord

/-- The row with every time cut to whole milliseconds. -/
def cutTimes (record : CommandLedgerRecord) : CommandLedgerRecord :=
  { record with
    leaseExpiresAt := record.leaseExpiresAt.map cutToMillis
    createdAt := cutToMillis record.createdAt
    updatedAt := cutToMillis record.updatedAt
    completedAt := record.completedAt.map cutToMillis
    retentionExpiresAt := cutToMillis record.retentionExpiresAt
    compactedAt := record.compactedAt.map cutToMillis }

structure TimesFit (record : CommandLedgerRecord) : Prop where
  lease : ∀ time ∈ record.leaseExpiresAt, FitsMillis time
  created : FitsMillis record.createdAt
  updated : FitsMillis record.updatedAt
  completed : ∀ time ∈ record.completedAt, FitsMillis time
  retention : FitsMillis record.retentionExpiresAt
  compacted : ∀ time ∈ record.compactedAt, FitsMillis time

/-- The ids are spelled as the constructors of their types spell them. -/
structure IdsSpelled (uuids : UuidCrate) (record : CommandLedgerRecord) : Prop where
  command : uuids.Spells record.key.commandId
  causation : uuids.Spells record.causationId.value
  attempt : ∀ token ∈ record.attemptToken, uuids.Spells token.value

/-- The wire form of a row whose times fit. -/
def fittingWire (record : CommandLedgerRecord) : DurableCellCommandRecordV1 where
  version := 1
  serviceId := record.key.serviceId
  principalPartition := record.key.principalPartition.value
  commandId := record.key.commandId
  commandName := record.commandName
  contractFingerprint := record.contractFingerprint.bytes
  inputHash := record.inputHash.bytes
  state := record.state.asStr
  causationId := record.causationId.value
  attemptToken := record.attemptToken.map AttemptToken.value
  attemptNumber := record.attemptNumber
  leaseExpiresAtMs := record.leaseExpiresAt.map fun time => time.toNat / nanosPerMilli
  outcomeJson := record.outcomeJson
  createdAtMs := record.createdAt.toNat / nanosPerMilli
  updatedAtMs := record.updatedAt.toNat / nanosPerMilli
  completedAtMs := record.completedAt.map fun time => time.toNat / nanosPerMilli
  retentionExpiresAtMs := record.retentionExpiresAt.toNat / nanosPerMilli
  compactedAtMs := record.compactedAt.map fun time => time.toNat / nanosPerMilli

section RoundTrip

variable {crates : Crates} {uuids : UuidCrate} {serde : CellSerde}
  {record : CommandLedgerRecord}

theorem TimesFit.cellWire (h : record.TimesFit)
    : record.cellWire = .ok record.fittingWire := by
  have toMillis {value : Option SystemTime} (hfits : ∀ time ∈ value, FitsMillis time)
      : value.mapM systemTimeToUnixMillis
        = .ok (value.map fun time => time.toNat / nanosPerMilli) := by
    cases value with
    | none => rfl
    | some time => simp [(hfits time rfl).toUnixMillis, Functor.map, Except.map]
  simp only [CommandLedgerRecord.cellWire, toMillis h.lease, h.created.toUnixMillis,
    h.updated.toUnixMillis, toMillis h.completed, h.retention.toUnixMillis,
    toMillis h.compacted, Result.ok_bind, fittingWire]

theorem IdsSpelled.ofCellWire (hids : record.IdsSpelled uuids) (htimes : record.TimesFit)
    : ofCellWire uuids record.fittingWire = .ok record.cutTimes := by
  have hcausation : CausationId.parseStored uuids record.causationId.value
      = .ok record.causationId := by
    simp [CausationId.parseStored, hids.causation.parseStoredUuidV7]
  have htoken : (record.attemptToken.map AttemptToken.value).mapM
      (AttemptToken.parseStored uuids) = .ok record.attemptToken := by
    have hread : ∀ token ∈ record.attemptToken,
        AttemptToken.parseStored uuids token.value = .ok (id token) := by
      intro token htoken
      simp [AttemptToken.parseStored, (hids.attempt token htoken).parseStoredUuidV7]
    rw [mapM_map_eq hread, Option.map_id, id]
  have fromMillis {value : Option SystemTime} (hfits : ∀ time ∈ value, FitsMillis time)
      : (value.map fun time => time.toNat / nanosPerMilli).mapM systemTimeFromUnixMillis
        = .ok (value.map cutToMillis) :=
    mapM_map_eq fun time htime => (hfits time htime).fromUnixMillis
  simp only [CommandLedgerRecord.ofCellWire, fittingWire,
    CommandLedgerKey.parse_self record.key hids.command, fixedHash_bytes,
    CommandLedgerState.parse_asStr, hcausation, htoken, fromMillis htimes.lease,
    htimes.created.fromUnixMillis, htimes.updated.fromUnixMillis, fromMillis htimes.completed,
    htimes.retention.fromUnixMillis, fromMillis htimes.compacted, Result.ok_bind, cutTimes]

theorem fieldsMatchState_cutTimes (record : CommandLedgerRecord)
    : record.cutTimes.fieldsMatchState = record.fieldsMatchState := by
  simp only [fieldsMatchState, cutTimes, Option.isSome_map, Option.isNone_map]

theorem validateStoredShape_cutTimes (record : CommandLedgerRecord)
    : record.cutTimes.validateStoredShape = record.validateStoredShape := by
  simp only [validateStoredShape, fieldsMatchState_cutTimes]
  rfl

theorem durableCellJson_eq (hshape : record.validateStoredShape = .ok ())
    (htimes : record.TimesFit)
    : record.durableCellJson serde
      = (serde.toString record.fittingWire).mapError fun error =>
        .corrupt ("cell command ledger row could not be encoded: " ++ error) := by
  rw [durableCellJson, hshape, Result.ok_bind, htimes.cellWire, Result.ok_bind]

/-- What is read from the text of a well-shaped row whose times fit depends on its replay
alone. -/
theorem fromDurableCellJson_eq {body : String}
    (hread : serde.fromStr body = .ok record.fittingWire)
    (hshape : record.validateStoredShape = .ok ()) (hids : record.IdsSpelled uuids)
    (htimes : record.TimesFit)
    : fromDurableCellJson crates uuids serde body
      = if record.state.isReplayable then (record.replay crates).map fun _ => record.cutTimes
        else .ok record.cutTimes := by
  have hversion : record.fittingWire.version = 1 := rfl
  have hreplay : record.cutTimes.replay crates = record.replay crates := rfl
  simp only [fromDurableCellJson, hread, Except.mapError, Result.ok_bind, hversion,
    hids.ofCellWire htimes, validateStoredShape_cutTimes, hshape, hreplay]
  cases hstate : record.state.isReplayable with
  | false => simp [cutTimes, hstate]
  | true => cases hok : record.replay crates <;> simp [cutTimes, hstate, Except.map]

/-- A well-shaped row whose times fit and whose outcome can be replayed comes back from its
cell with its times cut. -/
theorem fromDurableCellJson_durableCellJson (hserde : serde.RoundTrips record.fittingWire)
    (hshape : record.validateStoredShape = .ok ()) (hids : record.IdsSpelled uuids)
    (htimes : record.TimesFit)
    (hreplay : record.state.isReplayable = true → ∃ replay, record.replay crates = .ok replay)
    : ∃ body, record.durableCellJson serde = .ok body
      ∧ fromDurableCellJson crates uuids serde body = .ok record.cutTimes := by
  obtain ⟨body, hwrite, hread⟩ := hserde
  refine ⟨body, ?_, ?_⟩
  · rw [durableCellJson_eq hshape htimes, hwrite]
    rfl
  · rw [fromDurableCellJson_eq hread hshape hids htimes]
    split
    · obtain ⟨replay, hok⟩ := hreplay ‹_›
      rw [hok]
      rfl
    · rfl

end RoundTrip

/-- The clock is at or after the deadline, or more than a millisecond before it. -/
def ClearOf (now deadline : Int) : Prop := deadline ≤ now ∨ now + nanosPerMilli < deadline

theorem ClearOf.cut_le_iff {now deadline : Int} (h : ClearOf now deadline)
    : cutToMillis deadline ≤ now ↔ deadline ≤ now := by
  have hle := cutToMillis_le deadline
  have hlt := lt_cutToMillis_add deadline
  rcases h with h | h <;> omega

theorem ClearOf.lt_cut_iff {now deadline : Int} (h : ClearOf now deadline)
    : now < cutToMillis deadline ↔ now < deadline := by
  rw [← Int.not_le, ← Int.not_le, h.cut_le_iff]

/-- The clock is clear of both deadlines of a row. -/
structure Clear (record : CommandLedgerRecord) (now : SystemTime) : Prop where
  retention : ClearOf now record.retentionExpiresAt
  lease : ∀ lease ∈ record.leaseExpiresAt, ClearOf now lease

/-- Two rows decide alike at a clock reading: every reservation, fenced transition, lookup
and replay has the same answer, and the rows written are the same in whole milliseconds. -/
structure DecidesAs (crates : Crates) (now : SystemTime)
    (restored record : CommandLedgerRecord) : Prop where
  expiry : restored.retentionExpiresAt ≤ now ↔ record.retentionExpiresAt ≤ now
  reservation : ∀ reservation, restored.classifyReservation reservation now
    = record.classifyReservation reservation now
  outcome : ∀ decision, restored.reservationOutcome crates decision
    = record.reservationOutcome crates decision
  reclaimed : ∀ reservation, (restored.reclaim reservation now).map cutTimes
    = (record.reclaim reservation now).map cutTimes
  fence : ∀ attempt, restored.matchesFence attempt = record.matchesFence attempt
  liveAttempt : ∀ attempt, restored.validateLiveAttempt attempt now
    = record.validateLiveAttempt attempt now
  marked : ∀ attempt, (restored.markRetryableUnknown attempt now).map cutTimes
    = (record.markRetryableUnknown attempt now).map cutTimes
  completed : ∀ completion, (restored.complete completion now).map cutTimes
    = (record.complete completion now).map cutTimes
  scope : ∀ scope, restored.matchesLookupScope scope = record.matchesLookupScope scope
  lookup : restored.lookup crates = record.lookup crates
  replay : restored.replay crates = record.replay crates

section Decisions

variable {record : CommandLedgerRecord} {now : SystemTime}

theorem Clear.classifyReservation (h : record.Clear now) (reservation : CommandReservation)
    : record.cutTimes.classifyReservation reservation now
      = record.classifyReservation reservation now := by
  have hretention : record.cutTimes.retentionExpiresAt ≤ now
      ↔ record.retentionExpiresAt ≤ now := h.retention.cut_le_iff
  unfold CommandLedgerRecord.classifyReservation
  simp only [hretention]
  cases hlease : record.leaseExpiresAt with
  | none => simp [cutTimes, hlease, differsFrom]
  | some lease =>
      have hcut := (h.lease lease hlease).cut_le_iff
      simp [cutTimes, hlease, differsFrom, hcut]

theorem Clear.validateLiveAttempt (h : record.Clear now) (attempt : AttemptFence)
    : record.cutTimes.validateLiveAttempt attempt now
      = record.validateLiveAttempt attempt now := by
  have hfence : record.cutTimes.matchesFence attempt = record.matchesFence attempt := rfl
  unfold CommandLedgerRecord.validateLiveAttempt
  rw [hfence]
  cases hlease : record.leaseExpiresAt with
  | none => simp [cutTimes, hlease]
  | some lease =>
      have hcut := (h.lease lease hlease).lt_cut_iff
      simp [cutTimes, hlease, hcut]

/-- Computations that agree after their first step agree. -/
theorem map_bind_congr {α β γ ε : Type} {first : Except ε α} {next next' : α → Except ε β}
    {image : β → γ} (h : ∀ a, (next a).map image = (next' a).map image)
    : (first >>= next).map image = (first >>= next').map image := by
  cases first with
  | error failure => rfl
  | ok a => exact h a

theorem reclaim_cutTimes (record : CommandLedgerRecord) (reservation : CommandReservation)
    (now : SystemTime)
    : (record.cutTimes.reclaim reservation now).map cutTimes
      = (record.reclaim reservation now).map cutTimes := by
  have hnumber : record.cutTimes.attemptNumber = record.attemptNumber := rfl
  unfold reclaim
  rw [hnumber]
  split
  · rfl
  · refine map_bind_congr fun lease => map_bind_congr fun retention => ?_
    simp [cutTimes, Except.map, cutToMillis_cutToMillis, Function.comp_def]

theorem markRetryableUnknown_cutTimes (record : CommandLedgerRecord) (attempt : AttemptFence)
    (now : SystemTime)
    : (record.cutTimes.markRetryableUnknown attempt now).map cutTimes
      = (record.markRetryableUnknown attempt now).map cutTimes := by
  have hfence : record.cutTimes.matchesFence attempt = record.matchesFence attempt := rfl
  unfold markRetryableUnknown
  rw [hfence]
  cases record.matchesFence attempt with
  | true => simp [cutTimes, Except.map, cutToMillis_cutToMillis, Function.comp_def]
  | false => rfl

theorem Clear.complete (h : record.Clear now) (completion : CommandCompletion)
    : (record.cutTimes.complete completion now).map cutTimes
      = (record.complete completion now).map cutTimes := by
  unfold CommandLedgerRecord.complete
  rw [h.validateLiveAttempt]
  refine map_bind_congr fun _ => map_bind_congr fun _ => map_bind_congr fun retention => ?_
  simp [cutTimes, Except.map, cutToMillis_cutToMillis, Function.comp_def]

theorem Clear.decidesAs (h : record.Clear now) (crates : Crates)
    : DecidesAs crates now record.cutTimes record where
  expiry := h.retention.cut_le_iff
  reservation := h.classifyReservation
  outcome decision := by cases decision <;> rfl
  reclaimed reservation := reclaim_cutTimes record reservation now
  fence _ := rfl
  liveAttempt := h.validateLiveAttempt
  marked attempt := markRetryableUnknown_cutTimes record attempt now
  completed := h.complete
  scope scope := by cases scope <;> rfl
  lookup := rfl
  replay := rfl

end Decisions

end CommandLedgerRecord

end Distributed.CommandLedger
