import Distributed.Foundation.Map
import Distributed.Foundation.SortedMap
import Distributed.ProjectionProtocol.Store
import Mathlib.Data.Finset.Insert

/-! The in-memory state of the projection protocol and its checks.
-/

namespace Distributed.InMemoryRepo

open Distributed.Foundation Distributed.Platform Distributed.ProjectionProtocol

structure PartitionKey where
  topology : ProjectorTopologyId
  partition : ProjectionPartition
deriving DecidableEq

def PartitionKey.fromInput (cursor : ProjectionInputCursor) : PartitionKey :=
  ⟨cursor.topology, cursor.projectionPartition⟩

structure SourceCapabilityKey where
  partition : PartitionKey
  source : ProjectionSource
deriving DecidableEq

def SourceCapabilityKey.new (cursor : ProjectionInputCursor) : SourceCapabilityKey :=
  ⟨.fromInput cursor, cursor.source⟩

structure InputKey where
  partition : PartitionKey
  source : ProjectionSource
  generation : ProjectionGeneration
deriving DecidableEq

def InputKey.new (cursor : ProjectionInputCursor) (generation : ProjectionGeneration)
    : InputKey :=
  ⟨.fromInput cursor, cursor.source, generation⟩

structure CursorIdentityKey where
  partition : PartitionKey
  source : ProjectionSource
  sourceEpoch : ProjectionEpoch
  sourcePosition : Nat
deriving DecidableEq

def CursorIdentityKey.new (cursor : ProjectionInputCursor) : CursorIdentityKey :=
  ⟨.fromInput cursor, cursor.source, cursor.epoch, cursor.position⟩

structure CursorReceiptKey where
  cursor : CursorIdentityKey
  generation : ProjectionGeneration
deriving DecidableEq

def CursorReceiptKey.new (cursor : ProjectionInputCursor)
    (generation : ProjectionGeneration) : CursorReceiptKey :=
  ⟨.new cursor, generation⟩

structure MessageKey where
  topology : ProjectorTopologyId
  messageId : String
deriving DecidableEq

def MessageKey.new (cursor : ProjectionInputCursor) (messageId : String) : MessageKey :=
  ⟨cursor.topology, messageId⟩

structure GenerationKey where
  partition : PartitionKey
  generation : ProjectionGeneration
deriving DecidableEq

structure OwnershipKey where
  partition : PartitionKey
  model : String
deriving DecidableEq

structure RegisteredModelKey where
  topology : ProjectorTopologyId
  model : String
deriving DecidableEq

structure ObservationKey where
  causationId : String
  scope : ProjectionRecordScope
  kind : ProjectionObservationKind
deriving DecidableEq

structure StoredInput where
  cursor : ProjectionInputCursor
  fingerprint : Digest
  messageId : String
  causationId : String
  checkpoint : ProjectionCheckpoint
  gapFree : Bool

structure MessageIdentity where
  cursor : ProjectionInputCursor
  fingerprint : Digest
  causationId : String
  gapFree : Bool

structure InputIdentity where
  fingerprint : Digest
  messageId : String
  causationId : String
  gapFree : Bool

structure AppliedInputReceipt where
  fingerprint : Digest
  messageId : String
  causationId : String
  gapFree : Bool
  checkpoint : ProjectionCheckpoint

structure GenerationLineage where
  retryOfGeneration : Option ProjectionGeneration
  retryOfFailureId : Option String

def GenerationLineage.initial : GenerationLineage := ⟨none, none⟩

structure FailedInputFence where
  cursor : ProjectionInputCursor
  fingerprint : Digest
  messageId : String
  causationId : String
  generation : ProjectionGeneration
  gapFree : Bool

def FailedInputFence.fromInput (input : TrustedProjectionInput) : FailedInputFence where
  cursor := input.cursor
  fingerprint := input.fingerprint
  messageId := input.messageId
  causationId := input.causationId
  generation := input.generation
  gapFree := input.gapFree

def FailedInputFence.matchesRetry (fence : FailedInputFence)
    (input : TrustedProjectionInput) : Bool :=
  fence.cursor = input.cursor && fence.fingerprint = input.fingerprint
    && fence.messageId = input.messageId && fence.causationId = input.causationId
    && fence.gapFree = input.gapFree

structure PartitionState where
  activeGeneration : ProjectionGeneration
  changeEpoch : ProjectionEpoch
  changeHead : Nat
  compactedThrough : Nat
  stoppedFailureId : Option String
  pendingRetryFailureId : Option String
  changes : SortedMap Nat ProjectionChange

def PartitionState.new (changeEpoch : ProjectionEpoch) : PartitionState where
  activeGeneration := .initial
  changeEpoch
  changeHead := 0
  compactedThrough := 0
  stoppedFailureId := none
  pendingRetryFailureId := none
  changes := .empty

/-- A change before its position is allocated. -/
structure PendingChange where
  kind : ProjectionChangeKind
  causationId : String
  observationKind : Option ProjectionObservationKind := none
  scope : Option ProjectionRecordScope := none
  revision : Option RecordRevision := none
  failureId : Option String := none

structure InMemoryProjectionProtocolState where
  partitions : Map PartitionKey PartitionState := ∅
  generations : Map GenerationKey GenerationLineage := ∅
  inputs : Map InputKey StoredInput := ∅
  inputIdentities : Map CursorIdentityKey InputIdentity := ∅
  messages : Map MessageKey MessageIdentity := ∅
  appliedReceipts : Map CursorReceiptKey AppliedInputReceipt := ∅
  registeredTopologies : Finset ProjectorTopologyId := ∅
  registeredModels : Map RegisteredModelKey String := ∅
  authoritativeTableOwners : Map String RegisteredModelKey := ∅
  ownership : Map OwnershipKey String := ∅
  gapFreeCapabilities : Map SourceCapabilityKey Bool := ∅
  records : Map ProjectionRecordScope ProjectionRecordMetadata := ∅
  observations : Map ObservationKey ProjectionObservation := ∅
  failures : Map String ProjectionFailure := ∅
  failureInputs : Map String FailedInputFence := ∅

inductive InputDisposition where
  | new
  | duplicate (checkpoint : ProjectionCheckpoint)
  | stale (checkpoint : ProjectionCheckpoint)

namespace InMemoryProjectionProtocolState

def requireRegisteredTopology (protocol : InMemoryProjectionProtocolState)
    (topology : ProjectorTopologyId) : Except ProjectionProtocolError Unit :=
  if topology ∈ protocol.registeredTopologies then .ok ()
  else
    .error (.invalidBatch
      "projector topology was not bootstrapped before projector traffic")

def validateGapFree (protocol : InMemoryProjectionProtocolState)
    (cursor : ProjectionInputCursor) (gapFree : Bool)
    : Except ProjectionProtocolError Unit :=
  if (protocol.gapFreeCapabilities.lookup (.new cursor)).any
      fun registered => registered ≠ gapFree then
    .error .inputCorruption
  else .ok ()

def rejectReusedMessage (protocol : InMemoryProjectionProtocolState)
    (input : TrustedProjectionInput) : Except ProjectionProtocolError Unit :=
  match protocol.messages.lookup (.new input.cursor input.messageId) with
  | some previous =>
      if previous.cursor ≠ input.cursor ∨ previous.fingerprint ≠ input.fingerprint
          ∨ previous.causationId ≠ input.causationId
          ∨ previous.gapFree ≠ input.gapFree then
        .error (.messageIdReuse input.messageId)
      else .ok ()
  | none => .ok ()

def validateInputIdentity (protocol : InMemoryProjectionProtocolState)
    (input : TrustedProjectionInput) : Except ProjectionProtocolError Unit := do
  if (protocol.inputIdentities.lookup (.new input.cursor)).any fun identity =>
      identity.fingerprint ≠ input.fingerprint ∨ identity.messageId ≠ input.messageId
        ∨ identity.causationId ≠ input.causationId
        ∨ identity.gapFree ≠ input.gapFree then
    .error .inputCorruption
  protocol.rejectReusedMessage input

def validateKnownInputIdentity (protocol : InMemoryProjectionProtocolState)
    (input : TrustedProjectionInput) : Except ProjectionProtocolError Unit :=
  let cursorKnown := protocol.inputIdentities.contains (.new input.cursor)
  let messageKnown := protocol.messages.contains (.new input.cursor input.messageId)
  let capabilityKnown := protocol.gapFreeCapabilities.contains (.new input.cursor)
  if cursorKnown || messageKnown || capabilityKnown then do
    protocol.validateInputIdentity input
    protocol.validateGapFree input.cursor input.gapFree
  else .ok ()

def hasExactMessageIdentity (protocol : InMemoryProjectionProtocolState)
    (input : TrustedProjectionInput) : Bool :=
  (protocol.messages.lookup (.new input.cursor input.messageId)).any fun identity =>
    identity.cursor = input.cursor ∧ identity.fingerprint = input.fingerprint
      ∧ identity.causationId = input.causationId ∧ identity.gapFree = input.gapFree

def persistInputIdentity (protocol : InMemoryProjectionProtocolState)
    (input : TrustedProjectionInput) : InMemoryProjectionProtocolState :=
  { protocol with
    inputIdentities :=
      if protocol.inputIdentities.contains (.new input.cursor) then protocol.inputIdentities
      else protocol.inputIdentities.insert (.new input.cursor) {
        fingerprint := input.fingerprint
        messageId := input.messageId
        causationId := input.causationId
        gapFree := input.gapFree
      }
    messages :=
      if protocol.messages.contains (.new input.cursor input.messageId) then
        protocol.messages
      else protocol.messages.insert (.new input.cursor input.messageId) {
        cursor := input.cursor
        fingerprint := input.fingerprint
        causationId := input.causationId
        gapFree := input.gapFree
      } }

/-- The capability entry of the input's source, added once. -/
def registerGapFree (protocol : InMemoryProjectionProtocolState)
    (input : TrustedProjectionInput) : InMemoryProjectionProtocolState :=
  { protocol with
    gapFreeCapabilities :=
      if protocol.gapFreeCapabilities.contains (.new input.cursor) then
        protocol.gapFreeCapabilities
      else protocol.gapFreeCapabilities.insert (.new input.cursor) input.gapFree }

def ensurePartition (protocol : InMemoryProjectionProtocolState) (key : PartitionKey)
    (changeEpoch : ProjectionEpoch)
    : Except ProjectionProtocolError InMemoryProjectionProtocolState :=
  match protocol.partitions.lookup key with
  | some partition =>
      if partition.changeEpoch ≠ changeEpoch then
        .error (.scopeMismatch "projection change epoch")
      else .ok protocol
  | none =>
      .ok {
        protocol with
        partitions := protocol.partitions.insert key (.new changeEpoch)
        generations := protocol.generations.insert ⟨key, .initial⟩ .initial
      }

def validatePartition (protocol : InMemoryProjectionProtocolState) (key : PartitionKey)
    (input : TrustedProjectionInput) (changeEpoch : ProjectionEpoch)
    : Except ProjectionProtocolError Unit := do
  protocol.requireRegisteredTopology input.cursor.topology
  protocol.validateKnownInputIdentity input
  match protocol.partitions.lookup key with
  | none => do
      if input.generation ≠ .initial then
        .error (.generationFenced ProjectionGeneration.initial.value
          input.generation.value)
      protocol.validateGapFree input.cursor input.gapFree
      protocol.validateInputIdentity input
  | some partition => do
      if partition.changeEpoch ≠ changeEpoch then
        .error (.scopeMismatch "projection change epoch")
      if input.generation ≠ partition.activeGeneration then
        .error (.generationFenced partition.activeGeneration.value input.generation.value)
      if !protocol.generations.contains ⟨key, input.generation⟩ then
        .error (.invalidBatch
          s!"active projection generation {input.generation.value} has no durable lineage")
      protocol.validateGapFree input.cursor input.gapFree
      protocol.validateInputIdentity input
      match partition.stoppedFailureId with
      | some failureId => .error (.partitionStopped failureId)
      | none => .ok ()

def validatePendingRetry (protocol : InMemoryProjectionProtocolState) (key : PartitionKey)
    (input : TrustedProjectionInput) : Except ProjectionProtocolError Unit :=
  match (protocol.partitions.lookup key).bind PartitionState.pendingRetryFailureId with
  | none => .ok ()
  | some failureId =>
      match protocol.failureInputs.lookup failureId with
      | none =>
          .error (.invalidBatch
            s!"pending projection retry `{failureId}` has no exact input fence")
      | some fence =>
          if fence.cursor ≠ input.cursor then .error .incomparableInput
          else if fence.matchesRetry input then .ok ()
          else .error .inputCorruption

/-- `classify_input` once the input's identity is validated and no receipt exists. -/
def classifyAfter (protocol : InMemoryProjectionProtocolState)
    (input : TrustedProjectionInput) (previous : StoredInput)
    : Except ProjectionProtocolError InputDisposition :=
  match input.cursor.comparePosition previous.cursor with
  | .equal =>
      if input.fingerprint ≠ previous.fingerprint ∨ input.messageId ≠ previous.messageId
          ∨ input.causationId ≠ previous.causationId
          ∨ input.gapFree ≠ previous.gapFree then
        .error .inputCorruption
      else .ok (.duplicate previous.checkpoint)
  | .older => do
      protocol.rejectReusedMessage input
      .ok (.stale previous.checkpoint)
  | .incomparable => .error .incomparableInput
  | .newer => do
      protocol.rejectReusedMessage input
      if input.gapFree then
        let next ← checkedNext previous.cursor.position "gap-free projection input"
        if input.cursor.position ≠ next then .error .incomparableInput
      .ok .new

def classifyInput (protocol : InMemoryProjectionProtocolState)
    (input : TrustedProjectionInput) : Except ProjectionProtocolError InputDisposition := do
  protocol.validateGapFree input.cursor input.gapFree
  protocol.validateInputIdentity input
  match protocol.appliedReceipts.lookup (.new input.cursor input.generation) with
  | some receipt =>
      if receipt.fingerprint = input.fingerprint ∧ receipt.messageId = input.messageId
          ∧ receipt.causationId = input.causationId
          ∧ receipt.gapFree = input.gapFree then
        .ok (.duplicate receipt.checkpoint)
      else .error .inputCorruption
  | none =>
      match protocol.inputs.lookup (.new input.cursor input.generation) with
      | none => do
          protocol.rejectReusedMessage input
          .ok .new
      | some previous => protocol.classifyAfter input previous

end InMemoryProjectionProtocolState

end Distributed.InMemoryRepo
