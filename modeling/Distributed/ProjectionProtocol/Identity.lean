import Distributed.Foundation.Result
import Distributed.ProjectionProtocol.Validation

/-! Identities and cursors of the projection protocol.
Every type carries the facts its constructor checked. Digest fields of the source are
functions of the canonical bytes beside them, so they are computed and not stored.
-/

namespace Distributed.ProjectionProtocol

open Distributed.Foundation Distributed.Platform

/-- `domain_separated_digest`: domain, big-endian length and bytes. -/
def domainSeparatedDigest (crates : Crates) (domain : String) (bytes : Bytes) : Digest :=
  crates.sha256 (utf8Bytes domain ++ u64BeBytes bytes.length ++ bytes)

def projectionPartitionDigestDomain : String := "distributed.projection.partition.v1\x00"

def projectionRecordKeyDigestDomain : String := "distributed.projection.record-key.v1\x00"

structure ProjectorTopologyId where
  version : Nat
  name : String
  digest : Digest
  version_valid : 1 ≤ version ∧ version < 2 ^ 32
  name_valid : ValidName maxProjectorNameBytes name
deriving DecidableEq

/-- `version` is a `u32`; larger values do not exist in the source. -/
def ProjectorTopologyId.new (version : Nat) (hversion : version < 2 ^ 32) (name : String)
    (digest : Digest) : Except ValidationError ProjectorTopologyId :=
  if hzero : version = 0 then .error (.zero "projector topology version")
  else do
    let name ← validateName "projector topology name" name maxProjectorNameBytes
    .ok {
      version
      name := name.val
      digest
      version_valid := ⟨Nat.one_le_iff_ne_zero.mpr hzero, hversion⟩
      name_valid := name.property
    }

structure ProjectionPartition where
  canonicalBytes : Bytes
  valid : ValidCanonicalBytes maxProjectionPartitionBytes canonicalBytes
deriving DecidableEq

def ProjectionPartition.new (canonicalBytes : Bytes)
    : Except ValidationError ProjectionPartition := do
  let bytes ← validateCanonicalBytes "projection partition" canonicalBytes
    maxProjectionPartitionBytes
  .ok ⟨bytes.val, bytes.property⟩

def ProjectionPartition.digest (crates : Crates) (partition : ProjectionPartition) : Digest :=
  domainSeparatedDigest crates projectionPartitionDigestDomain partition.canonicalBytes

structure ProjectionSource where
  name : String
  canonicalPartitionBytes : Bytes
  name_valid : ValidName maxProjectionSourceNameBytes name
  partition_valid
    : ValidCanonicalBytes maxProjectionSourcePartitionBytes canonicalPartitionBytes
deriving DecidableEq

def ProjectionSource.new (name : String) (canonicalPartitionBytes : Bytes)
    : Except ValidationError ProjectionSource := do
  let name ← validateName "projection source name" name maxProjectionSourceNameBytes
  let bytes ← validateCanonicalBytes "projection source partition" canonicalPartitionBytes
    maxProjectionSourcePartitionBytes
  .ok ⟨name.val, bytes.val, name.property, bytes.property⟩

structure ProjectionEpoch where
  value : String
  valid : ValidOpaque maxProjectionEpochBytes value
deriving DecidableEq

def ProjectionEpoch.new (value : String) : Except ValidationError ProjectionEpoch := do
  let epoch ← validateOpaque "projection cursor epoch" value maxProjectionEpochBytes
  .ok ⟨epoch.val, epoch.property⟩

inductive RevisionComparison where
  | older
  | equal
  | newer
  | incomparable
deriving DecidableEq

def compareOrdering : Ordering → RevisionComparison
  | .lt => .older
  | .eq => .equal
  | .gt => .newer

structure ProjectionInputCursor where
  topology : ProjectorTopologyId
  projectionPartition : ProjectionPartition
  source : ProjectionSource
  epoch : ProjectionEpoch
  position : Nat
  position_valid : position ≤ maxProjectionPosition
deriving DecidableEq

def ProjectionInputCursor.comparePosition (cursor other : ProjectionInputCursor)
    : RevisionComparison :=
  if cursor.topology ≠ other.topology
      ∨ cursor.projectionPartition ≠ other.projectionPartition
      ∨ cursor.source ≠ other.source ∨ cursor.epoch ≠ other.epoch then
    .incomparable
  else compareOrdering (compare cursor.position other.position)

structure ProjectionRecordScope where
  topology : ProjectorTopologyId
  projectionPartition : ProjectionPartition
  model : String
  canonicalKeyBytes : Bytes
  model_valid : ValidName maxProjectionModelNameBytes model
  key_valid : ValidCanonicalBytes maxProjectionRecordKeyBytes canonicalKeyBytes
deriving DecidableEq

def ProjectionRecordScope.new (topology : ProjectorTopologyId)
    (projectionPartition : ProjectionPartition) (model : String) (canonicalKeyBytes : Bytes)
    : Except ValidationError ProjectionRecordScope := do
  let model ← validateName "projection model" model maxProjectionModelNameBytes
  let key ← validateCanonicalBytes "projection record key" canonicalKeyBytes
    maxProjectionRecordKeyBytes
  .ok {
    topology
    projectionPartition
    model := model.val
    canonicalKeyBytes := key.val
    model_valid := model.property
    key_valid := key.property
  }

def ProjectionRecordScope.keyDigestFor (crates : Crates) (canonicalKeyBytes : Bytes)
    : Digest :=
  domainSeparatedDigest crates projectionRecordKeyDigestDomain canonicalKeyBytes

def ProjectionRecordScope.keyDigest (crates : Crates) (scope : ProjectionRecordScope)
    : Digest :=
  keyDigestFor crates scope.canonicalKeyBytes

structure RecordRevision where
  scope : ProjectionRecordScope
  incarnation : Nat
  revision : Nat
  incarnation_valid : ValidPosition incarnation
  revision_valid : ValidPosition revision
deriving DecidableEq

/-- The incarnation's and the revision's upper bounds are both checked before either is
checked for zero. -/
def RecordRevision.new (scope : ProjectionRecordScope) (incarnation revision : Nat)
    : Except ValidationError RecordRevision := do
  let _ ← validatePortablePosition "projection record incarnation" incarnation
  let _ ← validatePortablePosition "projection record revision" revision
  let incarnation ← validatePosition "projection record incarnation" incarnation
  let revision ← validatePosition "projection record revision" revision
  .ok ⟨scope, incarnation.val, revision.val, incarnation.property, revision.property⟩

structure ProjectionChangeCursor where
  topology : ProjectorTopologyId
  projectionPartition : ProjectionPartition
  epoch : ProjectionEpoch
  position : Nat
  position_valid : ValidPosition position
deriving DecidableEq

def ProjectionChangeCursor.new (topology : ProjectorTopologyId)
    (projectionPartition : ProjectionPartition) (epoch : ProjectionEpoch) (position : Nat)
    : Except ValidationError ProjectionChangeCursor := do
  let position ← validatePosition "projection change position" position
  .ok ⟨topology, projectionPartition, epoch, position.val, position.property⟩

structure ProjectionCheckpoint where
  input : ProjectionInputCursor
  change : ProjectionChangeCursor
  gapFree : Bool
  topology_eq : input.topology = change.topology
  partition_eq : input.projectionPartition = change.projectionPartition
deriving DecidableEq

def ProjectionCheckpoint.new (input : ProjectionInputCursor)
    (change : ProjectionChangeCursor) (gapFree : Bool)
    : Except ValidationError ProjectionCheckpoint :=
  if htopology : input.topology = change.topology then
    if hpartition : input.projectionPartition = change.projectionPartition then
      .ok ⟨input, change, gapFree, htopology, hpartition⟩
    else .error (.scopeMismatch "projection checkpoint partition")
  else .error (.scopeMismatch "projection checkpoint topology")

theorem ProjectorTopologyId.new_self (topology : ProjectorTopologyId)
    : ProjectorTopologyId.new topology.version topology.version_valid.2 topology.name
        topology.digest
      = .ok topology := by
  have hzero : topology.version ≠ 0 := Nat.one_le_iff_ne_zero.mp topology.version_valid.1
  rw [new, dif_neg hzero, validateName_eq_ok topology.name_valid]
  rfl

theorem ProjectionPartition.new_self (partition : ProjectionPartition)
    : ProjectionPartition.new partition.canonicalBytes = .ok partition := by
  rw [new, validateCanonicalBytes_eq_ok partition.valid]
  rfl

theorem ProjectionRecordScope.new_self (scope : ProjectionRecordScope)
    : ProjectionRecordScope.new scope.topology scope.projectionPartition scope.model
        scope.canonicalKeyBytes
      = .ok scope := by
  rw [new, validateName_eq_ok scope.model_valid, Result.ok_bind,
    validateCanonicalBytes_eq_ok scope.key_valid]
  rfl

theorem RecordRevision.new_ok {scope : ProjectionRecordScope} {incarnation revision : Nat}
    {built : RecordRevision} (h : RecordRevision.new scope incarnation revision = .ok built)
    : built.scope = scope ∧ built.incarnation = incarnation ∧ built.revision = revision := by
  simp only [RecordRevision.new, Result.bind_eq_ok_iff] at h
  obtain ⟨_, -, _, -, checkedIncarnation, hincarnation, checkedRevision, hrevision, h⟩ := h
  cases h
  exact ⟨rfl, validatePosition_ok hincarnation, validatePosition_ok hrevision⟩

theorem ProjectionChangeCursor.new_ok {topology : ProjectorTopologyId}
    {partition : ProjectionPartition} {epoch : ProjectionEpoch} {position : Nat}
    {cursor : ProjectionChangeCursor}
    (h : ProjectionChangeCursor.new topology partition epoch position = .ok cursor)
    : cursor.topology = topology ∧ cursor.projectionPartition = partition
      ∧ cursor.epoch = epoch ∧ cursor.position = position := by
  simp only [ProjectionChangeCursor.new, Result.bind_eq_ok_iff] at h
  obtain ⟨checked, hposition, h⟩ := h
  cases h
  exact ⟨rfl, rfl, rfl, validatePosition_ok hposition⟩

end Distributed.ProjectionProtocol
