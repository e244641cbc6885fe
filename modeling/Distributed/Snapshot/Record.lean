import Distributed.Foundation.PrefixCodes
import Distributed.Repository.Error

/-! Snapshot cache records.
-/

namespace Distributed.Repository

open Distributed.Foundation Distributed.Platform

def storageKeyDelimiter : Char := '\x1f'

/-- A validated aggregate type and id: neither is blank nor holds the delimiter. -/
structure StreamIdentity where
  aggregateType : String
  aggregateId : String
  type_not_blank : isBlank aggregateType = false
  id_not_blank : isBlank aggregateId = false
  type_no_delimiter : storageKeyDelimiter ∉ aggregateType.toList
  id_no_delimiter : storageKeyDelimiter ∉ aggregateId.toList

instance : DecidableEq StreamIdentity := fun left right =>
  decidable_of_iff
    (left.aggregateType = right.aggregateType ∧ left.aggregateId = right.aggregateId)
    (by cases left; cases right; simp)

def StreamIdentity.storageKey (identity : StreamIdentity) : String :=
  identity.aggregateType ++ String.singleton storageKeyDelimiter ++ identity.aggregateId

/-- The `Display` form. -/
def StreamIdentity.text (identity : StreamIdentity) : String :=
  identity.aggregateType ++ ":" ++ identity.aggregateId

end Distributed.Repository

namespace Distributed.Snapshot

open Distributed.Entities Distributed.Platform Distributed.Repository

structure SnapshotRecord where
  aggregateType : String
  aggregateId : String
  version : Nat
  snapshotVersion : Nat
  payloadCodec : String
  payloadCodecVersion : Nat
  payload : Bytes
  metadata : Metadata
  recordedAt : SystemTime

def SnapshotRecord.new (aggregateType aggregateId : String) (version snapshotVersion : Nat)
    (payload : Bytes) (now : SystemTime) : SnapshotRecord where
  aggregateType
  aggregateId
  version
  snapshotVersion
  payloadCodec := bitcodePayloadCodec
  payloadCodecVersion := bitcodePayloadCodecVersion
  payload
  metadata := ∅
  recordedAt := now

def SnapshotRecord.validate (record : SnapshotRecord) : Except RepositoryError Unit :=
  if isBlank record.aggregateType then
    .error (.model "snapshot aggregate type must not be empty")
  else if isBlank record.aggregateId then
    .error (.model "snapshot aggregate id must not be empty")
  else if record.version = 0 then
    .error (.model "snapshot version must be greater than zero")
  else if record.snapshotVersion = 0 then
    .error (.model "snapshot payload version must be greater than zero")
  else if isBlank record.payloadCodec then
    .error (.model "snapshot payload codec must not be empty")
  else if record.payloadCodecVersion = 0 then
    .error (.model "snapshot payload codec version must be greater than zero")
  else .ok ()

def SnapshotRecord.validateForIdentity (record : SnapshotRecord) (identity : StreamIdentity)
    : Except RepositoryError Unit := do
  record.validate
  let stream := identity.text
  if record.aggregateType ≠ identity.aggregateType then
    .error (.model
      (s!"snapshot aggregate type `{record.aggregateType}` does not match stream identity "
        ++ s!"`{stream}`"))
  if record.aggregateId ≠ identity.aggregateId then
    .error (.model
      (s!"snapshot aggregate id `{record.aggregateId}` does not match stream identity "
        ++ s!"`{stream}`"))

def SnapshotRecord.hasSupportedPayloadCodec (record : SnapshotRecord) : Bool :=
  record.payloadCodec = bitcodePayloadCodec
    && record.payloadCodecVersion = bitcodePayloadCodecVersion

end Distributed.Snapshot
