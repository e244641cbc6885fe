import Distributed.ProjectionProtocol.Identity
import Distributed.ProjectionProtocol.Validation
import Distributed.Repository.Batch

/-! Inputs, mutations, observations, changes and failures of the projection store, and
the validation of the batches that carry them.
-/

namespace Distributed.ProjectionProtocol

open Distributed.Platform Distributed.Repository Distributed.Table

def maxMessageIdBytes : Nat := 255
def maxCausationIdBytes : Nat := 128
def maxFailureIdBytes : Nat := 255
def maxFailureCodeBytes : Nat := 255
def maxFailureDetailBytes : Nat := 1024 * 1024

/-- `checked_next`: the position after `value` within the portable range. -/
def checkedNext (value : Nat) (domain : String) : Except ProjectionProtocolError Nat :=
  if value < maxProjectionPosition then .ok (value + 1)
  else .error (.positionOverflow domain)

structure ProjectionChangeRetention where
  maxRetainedChanges : Nat
  valid : ValidPosition maxRetainedChanges

structure ProjectionGeneration where
  value : Nat
  valid : ValidPosition value

instance : DecidableEq ProjectionGeneration := fun left right =>
  decidable_of_iff (left.value = right.value) (by cases left; cases right; simp)

def ProjectionGeneration.initial : ProjectionGeneration := ⟨1, by decide⟩

def ProjectionGeneration.checkedNext (generation : ProjectionGeneration)
    : Except ProjectionProtocolError ProjectionGeneration :=
  if h : generation.value + 1 ≤ maxProjectionPosition then
    .ok ⟨generation.value + 1, Nat.le_add_left 1 _, h⟩
  else .error (.positionOverflow "projection generation")

/-- An authenticated input. `fingerprint` is the digest of its canonical bytes. -/
structure TrustedProjectionInput where
  cursor : ProjectionInputCursor
  fingerprint : Digest
  messageId : String
  causationId : String
  generation : ProjectionGeneration
  gapFree : Bool
  message_valid : ValidOpaque maxMessageIdBytes messageId
  causation_valid : ValidOpaque maxCausationIdBytes causationId
deriving DecidableEq

def TrustedProjectionInput.consumerName (crates : Crates) (input : TrustedProjectionInput)
    : String :=
  let topology := bytesHex input.cursor.topology.digest.bytes
  let partition := bytesHex (input.cursor.projectionPartition.digest crates).bytes
  s!"projection:v1:{topology}:{partition}:{input.generation.value}"

def TrustedProjectionInput.inboxReceipt (crates : Crates) (input : TrustedProjectionInput)
    : InboxReceipt :=
  ⟨input.consumerName crates, input.messageId⟩

structure ProjectionModelOwnership where
  model : String
  table : String
  model_valid : ValidName 255 model
  table_valid : ValidName 255 table

inductive ProjectionRecordExpectation where
  | missing
  | exact (revision : RecordRevision)
deriving DecidableEq

inductive ProjectionMutationKind where
  | upsert
  | delete
  | recreate
deriving DecidableEq

/-- A record mutation as `ProjectionRecordMutation::new` builds it. -/
structure ProjectionRecordMutation where
  scope : ProjectionRecordScope
  mutation : TableMutation
  expectation : ProjectionRecordExpectation
  kind : ProjectionMutationKind
  expectation_scope : ∀ revision, expectation = .exact revision → revision.scope = scope
  kind_delete : mutation.isDelete = decide (kind = .delete)
  needs_exact : kind ≠ .upsert → expectation ≠ .missing

inductive ProjectionObservationKind where
  | record
  | dependency
deriving DecidableEq

def ProjectionObservationKind.asStorageStr : ProjectionObservationKind → String
  | .record => "record"
  | .dependency => "dependency"

def ProjectionObservationKind.debug : ProjectionObservationKind → String
  | .record => "Record"
  | .dependency => "Dependency"

inductive ProjectionObservationTarget where
  | stagedRecord (scope : ProjectionRecordScope)
  | existingRecord (revision : RecordRevision)
  | dependency (scope : ProjectionRecordScope)
deriving DecidableEq

structure ProjectionObservationRequest where
  kind : ProjectionObservationKind
  target : ProjectionObservationTarget
deriving DecidableEq

def ProjectionObservationRequest.scope (request : ProjectionObservationRequest)
    : ProjectionRecordScope :=
  match request.target with
  | .stagedRecord scope => scope
  | .existingRecord revision => revision.scope
  | .dependency scope => scope

structure ProjectionRecordMetadata where
  revision : RecordRevision
  tombstone : Bool
  change : ProjectionChangeCursor
deriving DecidableEq

structure ProjectionObservation where
  causationId : String
  kind : ProjectionObservationKind
  revision : Option RecordRevision
  scope : ProjectionRecordScope
  change : ProjectionChangeCursor
deriving DecidableEq

structure ProjectionFailure where
  failureId : String
  input : ProjectionInputCursor
  inputFingerprint : Digest
  messageId : String
  causationId : String
  generation : ProjectionGeneration
  gapFree : Bool
  failureCode : String
  failureBytes : Bytes
  failureDigest : Digest
  change : ProjectionChangeCursor
deriving DecidableEq

inductive ProjectionChangeKind where
  | checkpoint
  | recordUpsert
  | recordDelete
  | recordRecreate
  | observation
  | failure
deriving DecidableEq

def ProjectionChangeKind.asStorageStr : ProjectionChangeKind → String
  | .checkpoint => "checkpoint"
  | .recordUpsert => "record_upsert"
  | .recordDelete => "record_delete"
  | .recordRecreate => "record_recreate"
  | .observation => "observation"
  | .failure => "failure"

structure ProjectionChange where
  cursor : ProjectionChangeCursor
  kind : ProjectionChangeKind
  causationId : String
  observationKind : Option ProjectionObservationKind
  scope : Option ProjectionRecordScope
  revision : Option RecordRevision
  failureId : Option String
deriving DecidableEq

inductive ProjectionCommitOutcome where
  | applied
  | duplicate
  | staleInput
deriving DecidableEq

structure ProjectionCommitResult where
  outcome : ProjectionCommitOutcome
  checkpoint : Option ProjectionCheckpoint
  records : List ProjectionRecordMetadata := []
  changes : List ProjectionChange := []

structure ProjectionCommitBatch where
  input : TrustedProjectionInput
  changeEpoch : ProjectionEpoch
  ownership : List ProjectionModelOwnership
  mutations : List ProjectionRecordMutation
  observations : List ProjectionObservationRequest

structure SameTransactionProjectionMutation where
  scope : ProjectionRecordScope
  mutation : TableMutation

structure SameTransactionProjectionBatch where
  topology : ProjectorTopologyId
  partition : ProjectionPartition
  changeEpoch : ProjectionEpoch
  ownership : List ProjectionModelOwnership
  causationId : String
  mutations : List SameTransactionProjectionMutation
  observations : List ProjectionObservationRequest

structure ProjectionFailureBatch where
  input : TrustedProjectionInput
  changeEpoch : ProjectionEpoch
  failureId : String
  failureCode : String
  failureBytes : Bytes
  failureDigest : Digest

def validateScope (topology : ProjectorTopologyId) (partition : ProjectionPartition)
    (scope : ProjectionRecordScope) : Except ProjectionProtocolError Unit :=
  if scope.topology ≠ topology then .error (.scopeMismatch "projection record topology")
  else if scope.projectionPartition ≠ partition then
    .error (.scopeMismatch "projection record partition")
  else .ok ()

/-- The ownership loop of `ProjectionCommitBatch::validate`: the pairs accepted so far,
most recent first. -/
def collectOwnership
    : List (String × String) → List ProjectionModelOwnership →
      Except ProjectionProtocolError (List (String × String))
  | owned, [] => .ok owned
  | owned, ownership :: rest =>
      if ownership.model ∈ owned.map Prod.fst ∨ ownership.table ∈ owned.map Prod.snd then
        .error (.invalidBatch
          (s!"projection ownership repeats model `{ownership.model}` "
            ++ s!"or table `{ownership.table}`"))
      else collectOwnership ((ownership.model, ownership.table) :: owned) rest

/-- The mutation loop of `ProjectionCommitBatch::validate`; `seen` are earlier scopes. -/
def validateMutationScopes (topology : ProjectorTopologyId)
    (partition : ProjectionPartition) (owned : List (String × String))
    : List ProjectionRecordScope → List ProjectionRecordMutation →
      Except ProjectionProtocolError Unit
  | _, [] => .ok ()
  | seen, mutation :: rest => do
      validateScope topology partition mutation.scope
      let schema := mutation.mutation.schema
      let model := mutation.scope.model
      if model ≠ schema.modelName ∨ owned.lookup model ≠ some schema.tableName then
        .error (.invalidBatch
          (s!"projection record scope `{model}` is not registered to table "
            ++ s!"`{schema.tableName}`"))
      if mutation.scope ∈ seen then
        .error (.invalidBatch s!"projection batch repeats model `{model}` record scope")
      validateMutationScopes topology partition owned (mutation.scope :: seen) rest

/-- The kind of an observation and its target must agree, and a staged target must be
staged. -/
def validateObservationTarget (scopes : List ProjectionRecordScope)
    (observation : ProjectionObservationRequest) : Except ProjectionProtocolError Unit :=
  match observation.kind, observation.target with
  | .record, .stagedRecord scope =>
      if scope ∈ scopes then .ok ()
      else
        .error (.invalidBatch
          (s!"projection observation for model `{scope.model}` "
            ++ "references an unstaged record"))
  | .record, .existingRecord _ => .ok ()
  | .dependency, .dependency _ => .ok ()
  | _, _ => .error (.invalidBatch "projection observation kind and target disagree")

/-- The observation loop of `ProjectionCommitBatch::validate`. -/
def validateObservations (topology : ProjectorTopologyId) (partition : ProjectionPartition)
    (owned : List (String × String)) (scopes : List ProjectionRecordScope)
    : List (ProjectionObservationKind × ProjectionRecordScope) →
      List ProjectionObservationRequest → Except ProjectionProtocolError Unit
  | _, [] => .ok ()
  | seen, observation :: rest => do
      validateScope topology partition observation.scope
      let model := observation.scope.model
      if model ∉ owned.map Prod.fst then
        .error (.invalidBatch s!"projection observation scope `{model}` is not registered")
      if (observation.kind, observation.scope) ∈ seen then
        let kind := observation.kind.debug
        .error (.invalidBatch
          s!"projection batch repeats {kind} observation for model `{model}`")
      validateObservationTarget scopes observation
      validateObservations topology partition owned scopes
        ((observation.kind, observation.scope) :: seen) rest

def ProjectionCommitBatch.validate (crates : Crates) (batch : ProjectionCommitBatch)
    : Except ProjectionProtocolError Unit := do
  let topology := batch.input.cursor.topology
  let partition := batch.input.cursor.projectionPartition
  liftRepository (batch.input.inboxReceipt crates).validate
  let owned ← collectOwnership [] batch.ownership
  validateMutationScopes topology partition owned [] batch.mutations
  liftTable (validateWritePlan (batch.mutations.map ProjectionRecordMutation.mutation))
  validateObservations topology partition owned
    (batch.mutations.map ProjectionRecordMutation.scope) [] batch.observations

/-- `SameTransactionProjectionBatch::validate`: one owner, one unfenced full-row upsert
and one observation of exactly the staged record. -/
def SameTransactionProjectionBatch.validate (batch : SameTransactionProjectionBatch)
    : Except ProjectionProtocolError Unit :=
  match batch.mutations, batch.observations with
  | [staged], [observation] =>
      match batch.ownership with
      | [ownership] => do
          let _ ← boundedOpaque "projection causation ID" batch.causationId
            maxCausationIdBytes
          validateScope batch.topology batch.partition staged.scope
          match staged.mutation with
          | .upsertRow row => do
              if row.mode ≠ .upsert ∨ row.expectedVersion ≠ .any then
                .error (.invalidBatch
                  ("a direct projected command requires an unfenced full-row upsert; "
                    ++ "the projection protocol owns its revision fence"))
              let model := row.schema.modelName
              if staged.scope.model ≠ model ∨ ownership.model ≠ model
                  ∨ ownership.table ≠ row.schema.tableName then
                .error (.invalidBatch
                  (s!"direct projection scope/ownership does not match model `{model}` "
                    ++ s!"table `{row.schema.tableName}`"))
              liftTable (validateWritePlan [staged.mutation])
              if observation.kind = .record
                  ∧ observation.target = .stagedRecord staged.scope then .ok ()
              else
                .error (.invalidBatch
                  "a direct projected command must observe the exact staged record scope")
          | _ =>
              .error (.invalidBatch
                "a direct projected command must seal one full-row upsert")
      | _ =>
          .error (.invalidBatch
            "a direct projected command must declare exactly one output model owner")
  | _, _ =>
      .error (.invalidBatch
        ("a direct projected command must contain exactly one row upsert "
          ++ "and one exact record observation"))

def failureFingerprintDomain : String := "distributed.projection.failure.v1\x00"

def ProjectionFailureBatch.fingerprintBytes (crates : Crates) (failureBytes : Bytes)
    : Digest :=
  domainSeparatedDigest crates failureFingerprintDomain failureBytes

def ProjectionFailureBatch.validate (crates : Crates) (batch : ProjectionFailureBatch)
    : Except ProjectionProtocolError Unit := do
  let _ ← boundedOpaque "projection failure ID" batch.failureId maxFailureIdBytes
  let _ ← boundedName "projection failure code" batch.failureCode maxFailureCodeBytes
  if batch.failureBytes = [] ∨ maxFailureDetailBytes < batch.failureBytes.length then
    .error (.invalidBatch
      s!"projection failure details must contain 1..={maxFailureDetailBytes} bytes")
  if fingerprintBytes crates batch.failureBytes ≠ batch.failureDigest then
    .error (.invalidBatch "projection failure digest does not match its exact bytes")
  let _ ← boundedOpaque "projection message ID" batch.input.messageId maxMessageIdBytes
  let _ ← boundedOpaque "projection causation ID" batch.input.causationId
    maxCausationIdBytes
  liftRepository (batch.input.inboxReceipt crates).validate

end Distributed.ProjectionProtocol
