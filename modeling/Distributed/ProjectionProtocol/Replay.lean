import Distributed.Platform.Json
import Distributed.ProjectionProtocol.Store

/-! The replay form of same-transaction projection evidence.
The command ledger stores the JSON of `replayValue` and reads it back with
`fromReplayValue`, which accepts only the canonical form.
-/

namespace Distributed.ProjectionProtocol

open Distributed.Platform Distributed.Platform.Serde

structure SameTransactionProjectionEvidence where
  records : List ProjectionRecordMetadata
  changes : List ProjectionChange
  observations : List ProjectionObservation
deriving DecidableEq

def replayScope (crates : Crates) (scope : ProjectionRecordScope) : Json :=
  .ofFields [
    ("topology_version", .ofNat scope.topology.version),
    ("topology_name", .string scope.topology.name),
    ("topology_digest", .string (bytesHex scope.topology.digest.bytes)),
    ("partition", .string (bytesHex scope.projectionPartition.canonicalBytes)),
    ("partition_digest", .string (bytesHex (scope.projectionPartition.digest crates).bytes)),
    ("model", .string scope.model),
    ("key", .string (bytesHex scope.canonicalKeyBytes)),
    ("key_digest", .string (bytesHex (scope.keyDigest crates).bytes))
  ]

def replayRevision (crates : Crates) (revision : RecordRevision) : Json :=
  .ofFields [
    ("scope", replayScope crates revision.scope),
    ("incarnation", .ofNat revision.incarnation),
    ("revision", .ofNat revision.revision)
  ]

def replayCursor (crates : Crates) (cursor : ProjectionChangeCursor) : Json :=
  .ofFields [
    ("topology_version", .ofNat cursor.topology.version),
    ("topology_name", .string cursor.topology.name),
    ("topology_digest", .string (bytesHex cursor.topology.digest.bytes)),
    ("partition", .string (bytesHex cursor.projectionPartition.canonicalBytes)),
    ("partition_digest", .string (bytesHex (cursor.projectionPartition.digest crates).bytes)),
    ("epoch", .string cursor.epoch.value),
    ("position", .ofNat cursor.position)
  ]

def replayRecord (crates : Crates) (record : ProjectionRecordMetadata) : Json :=
  .ofFields [
    ("revision", replayRevision crates record.revision),
    ("tombstone", .bool record.tombstone),
    ("change", replayCursor crates record.change)
  ]

def replayChange (crates : Crates) (change : ProjectionChange) : Json :=
  .ofFields [
    ("cursor", replayCursor crates change.cursor),
    ("kind", .string change.kind.asStorageStr),
    ("causation_id", .string change.causationId),
    ("observation_kind",
      ofOption (fun kind => .string kind.asStorageStr) change.observationKind),
    ("scope", ofOption (replayScope crates) change.scope),
    ("revision", ofOption (replayRevision crates) change.revision),
    ("failure_id", ofOption .string change.failureId)
  ]

def replayObservation (crates : Crates) (observation : ProjectionObservation) : Json :=
  .ofFields [
    ("causation_id", .string observation.causationId),
    ("kind", .string observation.kind.asStorageStr),
    ("revision", ofOption (replayRevision crates) observation.revision),
    ("scope", replayScope crates observation.scope),
    ("change", replayCursor crates observation.change)
  ]

def SameTransactionProjectionEvidence.replayValue (crates : Crates)
    (evidence : SameTransactionProjectionEvidence) : Json :=
  .ofFields [
    ("version", .ofNat 1),
    ("records", .array (evidence.records.map (replayRecord crates))),
    ("changes", .array (evidence.changes.map (replayChange crates))),
    ("observations", .array (evidence.observations.map (replayObservation crates)))
  ]

def replayValidationError (field : String) (error : String) : String :=
  s!"direct projection evidence {field} is invalid: {error}"

def decodeReplayHexNibble (value : UInt8) : Option Nat :=
  let n := value.toNat
  if 48 ≤ n && n ≤ 57 then some (n - 48)
  else if 97 ≤ n && n ≤ 102 then some (n - 97 + 10)
  else none

def decodeHexPairs : Bytes → Option Bytes
  | [] => some []
  | [_] => none
  | high :: low :: rest => do
      let high ← decodeReplayHexNibble high
      let low ← decodeReplayHexNibble low
      let decoded ← decodeHexPairs rest
      some (UInt8.ofNat (high * 16 + low) :: decoded)

def decodeReplayHex (field value : String) (maxBytes : Nat) : Except String Bytes :=
  if value.utf8ByteSize % 2 ≠ 0 ∨ maxBytes * 2 < value.utf8ByteSize then
    .error s!"direct projection evidence {field} is not bounded canonical hexadecimal"
  else
    match decodeHexPairs (utf8Bytes value) with
    | some bytes => .ok bytes
    | none => .error s!"direct projection evidence {field} is not lowercase hexadecimal"

def decodeReplayDigest (field value : String) : Except String Digest := do
  let bytes ← decodeReplayHex field value 32
  if h : bytes.length = 32 then .ok ⟨bytes, h⟩
  else .error s!"direct projection evidence {field} must contain exactly 32 bytes"

def decodeReplayTopology : { version : Nat // version < 2 ^ 32 } → String → String
    → Except String ProjectorTopologyId
  | ⟨version, hversion⟩, name, digest => do
    let digest ← decodeReplayDigest "topology digest" digest
    (ProjectorTopologyId.new version hversion name digest).mapError
      fun error => replayValidationError "topology" error.text

def decodeReplayPartition (crates : Crates) (canonical digest : String)
    : Except String ProjectionPartition := do
  let bytes ← decodeReplayHex "partition" canonical maxProjectionPartitionBytes
  let partition ← (ProjectionPartition.new bytes).mapError
    fun error => replayValidationError "partition" error.text
  if bytesHex (partition.digest crates).bytes ≠ digest then
    .error "direct projection evidence partition digest does not match its canonical bytes"
  .ok partition

/-- The first three fields of a scope or a cursor. -/
def readReplayTopology (fields : JsonFields) : Except String ProjectorTopologyId := do
  let version ← required fields "topology_version" >>= asUnsigned 32
  let name ← required fields "topology_name" >>= asString
  let digest ← required fields "topology_digest" >>= asString
  decodeReplayTopology version name digest

def readReplayPartition (crates : Crates) (fields : JsonFields)
    : Except String ProjectionPartition := do
  let canonical ← required fields "partition" >>= asString
  let digest ← required fields "partition_digest" >>= asString
  decodeReplayPartition crates canonical digest

/-- `ReplayScope::into_scope`. -/
def readReplayScope (crates : Crates) (value : Json)
    : Except String ProjectionRecordScope := do
  let fields ← asObject value
  denyUnknown fields ["topology_version", "topology_name", "topology_digest", "partition",
    "partition_digest", "model", "key", "key_digest"]
  let model ← required fields "model" >>= asString
  let key ← required fields "key" >>= asString
  let keyDigest ← required fields "key_digest" >>= asString
  let topology ← readReplayTopology fields
  let partition ← readReplayPartition crates fields
  let key ← decodeReplayHex "record key" key maxProjectionRecordKeyBytes
  let scope ← (ProjectionRecordScope.new topology partition model key).mapError
    fun error => replayValidationError "record scope" error.text
  if bytesHex (scope.keyDigest crates).bytes ≠ keyDigest then
    .error ("direct projection evidence record key digest does not match "
      ++ "its canonical bytes")
  .ok scope

/-- `ReplayRevision::into_revision`. -/
def readReplayRevision (crates : Crates) (value : Json) : Except String RecordRevision := do
  let fields ← asObject value
  denyUnknown fields ["scope", "incarnation", "revision"]
  let incarnation ← required fields "incarnation" >>= asUnsigned 64
  let revision ← required fields "revision" >>= asUnsigned 64
  let scope ← required fields "scope" >>= readReplayScope crates
  (RecordRevision.new scope incarnation.val revision.val).mapError
    fun error => replayValidationError "record revision" error.text

/-- `ReplayCursor::into_cursor`. -/
def readReplayCursor (crates : Crates) (value : Json)
    : Except String ProjectionChangeCursor := do
  let fields ← asObject value
  denyUnknown fields ["topology_version", "topology_name", "topology_digest", "partition",
    "partition_digest", "epoch", "position"]
  let epoch ← required fields "epoch" >>= asString
  let position ← required fields "position" >>= asUnsigned 64
  let topology ← readReplayTopology fields
  let partition ← readReplayPartition crates fields
  let epoch ← (ProjectionEpoch.new epoch).mapError
    fun error => replayValidationError "change epoch" error.text
  (ProjectionChangeCursor.new topology partition epoch position.val).mapError
    fun error => replayValidationError "change cursor" error.text

def readReplayRecord (crates : Crates) (value : Json)
    : Except String ProjectionRecordMetadata := do
  let fields ← asObject value
  denyUnknown fields ["revision", "tombstone", "change"]
  let tombstone ← required fields "tombstone" >>= asBool
  let revision ← required fields "revision" >>= readReplayRevision crates
  let change ← required fields "change" >>= readReplayCursor crates
  .ok ⟨revision, tombstone, change⟩

def decodeReplayChangeKind (value : String) : Except String ProjectionChangeKind :=
  match [.checkpoint, .recordUpsert, .recordDelete, .recordRecreate, .observation,
      .failure].find? fun kind : ProjectionChangeKind => kind.asStorageStr = value with
  | some kind => .ok kind
  | none => .error s!"direct projection evidence has unknown change kind `{value}`"

def decodeReplayObservationKind (value : String)
    : Except String ProjectionObservationKind :=
  match [.record, .dependency].find?
      fun kind : ProjectionObservationKind => kind.asStorageStr = value with
  | some kind => .ok kind
  | none => .error s!"direct projection evidence has unknown observation kind `{value}`"

def readReplayOpaque (subject field value : String) (max : Nat) : Except String String := do
  let text ← (boundedOpaque field value max).mapError
    fun error => replayValidationError subject error.text
  .ok text.val

def readReplayChange (crates : Crates) (value : Json) : Except String ProjectionChange := do
  let fields ← asObject value
  denyUnknown fields ["cursor", "kind", "causation_id", "observation_kind", "scope",
    "revision", "failure_id"]
  let kind ← required fields "kind" >>= asString
  let causationId ← required fields "causation_id" >>= asString
  let observationKind ← asOption asString (fields.get? "observation_kind")
  let failureId ← asOption asString (fields.get? "failure_id")
  let cursor ← required fields "cursor" >>= readReplayCursor crates
  let kind ← decodeReplayChangeKind kind
  let causationId ← readReplayOpaque "change causation" "projection causation ID"
    causationId maxCausationIdBytes
  let observationKind ← observationKind.mapM decodeReplayObservationKind
  let scope ← asOption (readReplayScope crates) (fields.get? "scope")
  let revision ← asOption (readReplayRevision crates) (fields.get? "revision")
  let failureId ← failureId.mapM fun failureId =>
    readReplayOpaque "change failure ID" "projection failure ID" failureId maxFailureIdBytes
  .ok { cursor, kind, causationId, observationKind, scope, revision, failureId }

def readReplayObservation (crates : Crates) (value : Json)
    : Except String ProjectionObservation := do
  let fields ← asObject value
  denyUnknown fields ["causation_id", "kind", "revision", "scope", "change"]
  let causationId ← required fields "causation_id" >>= asString
  let kind ← required fields "kind" >>= asString
  let causationId ← readReplayOpaque "observation causation" "projection causation ID"
    causationId maxCausationIdBytes
  let kind ← decodeReplayObservationKind kind
  let revision ← asOption (readReplayRevision crates) (fields.get? "revision")
  let scope ← required fields "scope" >>= readReplayScope crates
  let change ← required fields "change" >>= readReplayCursor crates
  .ok { causationId, kind, revision, scope, change }

/-- `validate_same_transaction_replay_evidence`. -/
def validateReplayEvidence (evidence : SameTransactionProjectionEvidence)
    : Except String Unit :=
  match evidence.records, evidence.changes, evidence.observations with
  | [record], [change], [observation] =>
      if record.tombstone then
        .error "direct projection evidence cannot replay a tombstone"
      else if change.kind ≠ .recordUpsert ∨ change.observationKind.isSome
          ∨ change.failureId.isSome then
        .error "direct projection evidence change must be a plain record upsert"
      else if change.scope ≠ some record.revision.scope
          ∨ change.revision ≠ some record.revision then
        .error ("direct projection evidence change does not match "
          ++ "the projected record revision")
      else if change.cursor.topology ≠ record.revision.scope.topology
          ∨ change.cursor.projectionPartition
            ≠ record.revision.scope.projectionPartition then
        .error "direct projection evidence change cursor does not match its record scope"
      else if record.change ≠ change.cursor then
        .error "direct projection evidence record and change cursors do not match"
      else if observation.kind ≠ .record ∨ observation.scope ≠ record.revision.scope
          ∨ observation.revision ≠ some record.revision then
        .error ("direct projection evidence observation does not match "
          ++ "the projected record revision")
      else if observation.change ≠ change.cursor
          ∨ observation.causationId ≠ change.causationId then
        .error "direct projection evidence observation does not match its record change"
      else .ok ()
  | [_], [_], _ =>
      .error "direct projection evidence must contain exactly one record observation"
  | [_], _, _ => .error "direct projection evidence must contain exactly one record change"
  | _, _, _ =>
      .error "direct projection evidence must contain exactly one projected record"

/-- `SameTransactionReplayEnvelope::into_evidence` after deserialization. -/
def readReplayEnvelope (crates : Crates) (value : Json)
    : Except String SameTransactionProjectionEvidence := do
  let fields ← asObject value
  denyUnknown fields ["version", "records", "changes", "observations"]
  let version ← required fields "version" >>= asUnsigned 16
  let records ← required fields "records" >>= asArray
  let changes ← required fields "changes" >>= asArray
  let observations ← required fields "observations" >>= asArray
  if version.val ≠ 1 then
    .error s!"direct projection evidence version {version.val} is unsupported"
  let records ← records.mapM (readReplayRecord crates)
  let changes ← changes.mapM (readReplayChange crates)
  let observations ← observations.mapM (readReplayObservation crates)
  validateReplayEvidence ⟨records, changes, observations⟩
  .ok ⟨records, changes, observations⟩

def SameTransactionProjectionEvidence.fromReplayValue (crates : Crates) (value : Json)
    : Except String SameTransactionProjectionEvidence := do
  let evidence ← readReplayEnvelope crates value
  if evidence.replayValue crates ≠ value then
    .error "direct projection evidence contains unknown or non-canonical fields"
  .ok evidence

def validateReplayValue (crates : Crates) (value : Json) : Except String Unit := do
  let _ ← SameTransactionProjectionEvidence.fromReplayValue crates value
  .ok ()

end Distributed.ProjectionProtocol
