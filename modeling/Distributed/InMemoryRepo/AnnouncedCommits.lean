import Distributed.InMemoryRepo.InputReceipts

/-! The disposition of an input announces what its commit does.
-/

namespace Distributed.InMemoryRepo

open Distributed.Foundation Distributed.Platform Distributed.ProjectionProtocol

open InMemoryProjectionProtocolState

/-- The digests of the registered topologies tell them apart. -/
def DistinctDigests (protocol : InMemoryProjectionProtocolState) : Prop :=
  ∀ left ∈ protocol.registeredTopologies, ∀ right ∈ protocol.registeredTopologies,
    left.digest = right.digest → left = right

section Agreement

variable {crates : Crates} {repository : InMemoryRepository}
  {batch : ProjectionCommitBatch}

theorem ReceiptsInv.unvisited (h : ReceiptsInv crates repository)
    {input : TrustedProjectionInput}
    (hunknown : repository.projectionProtocol.partitions.lookup (.fromInput input.cursor)
      = none)
    : Unvisited repository.projectionProtocol input where
  unreceived := by
    cases hreceipt : repository.projectionProtocol.appliedReceipts.lookup
        (.new input.cursor input.generation) with
    | none => rfl
    | some receipt =>
        obtain ⟨generation, stopped, hflags, -⟩ := h.receipts _ receipt hreceipt
        change partitionFlags? _ (.fromInput input.cursor) = _ at hflags
        rw [partitionFlags?, hunknown] at hflags
        cases hflags
  unstored := by
    cases hstored : repository.projectionProtocol.inputs.lookup
        (.new input.cursor input.generation) with
    | none => rfl
    | some stored =>
        obtain ⟨-, generation, hgeneration, -⟩ := h.inputs _ stored hstored
        change activeGeneration? _ (.fromInput input.cursor) = _ at hgeneration
        rw [activeGeneration?, hunknown] at hgeneration
        cases hgeneration

/-- An admitted input has no receipt in the inbox. A receipt under its name would belong to
a settled input of the same topology, message and generation, and a message has one
cursor. -/
theorem ReceiptsInv.fresh (h : ReceiptsInv crates repository)
    (hdigests : DistinctDigests repository.projectionProtocol)
    {input : TrustedProjectionInput} (hadmitted : Admitted repository.projectionProtocol input)
    : (input.inboxReceipt crates).key ∉ repository.inboxStore := by
  intro hmem
  obtain ⟨settled, hkey, hsettled⟩ := h.inbox input hmem
  obtain ⟨hname, hmessage⟩ := Prod.mk.inj hkey
  obtain ⟨hdigest, hgeneration⟩ := TrustedProjectionInput.consumerName_inj hname
  have htopology := hdigests _ hsettled.topology _ hadmitted.topology hdigest
  have hknown := hsettled.message
  rw [show MessageKey.new settled.cursor settled.messageId
    = .new input.cursor input.messageId from congrArg₂ MessageKey.mk htopology hmessage] at hknown
  have hcursor := congrArg MessageIdentity.cursor (hadmitted.message _ hknown)
  exact hsettled.not_admitted hcursor.symm hgeneration.symm hadmitted

theorem ReceiptsInv.admitted (h : ReceiptsInv crates repository)
    (hepoch : ∀ state, repository.projectionProtocol.partitions.lookup
      (.fromInput batch.input.cursor) = some state → batch.changeEpoch = state.changeEpoch)
    (hpending : projectionInputDisposition repository.projectionProtocol batch.input
      = .ok .pending)
    : Admitted repository.projectionProtocol batch.input := by
  obtain ⟨hpartition, hclassify, hretry⟩ := checks_of_pending h.unvisited hepoch hpending
  exact .of_checks hpartition hclassify hretry

theorem ReceiptsInv.commitProjection (h : ReceiptsInv crates repository)
    (hdigests : DistinctDigests repository.projectionProtocol)
    (hvalid : batch.validate crates = .ok ())
    (hepoch : ∀ state, repository.projectionProtocol.partitions.lookup
      (.fromInput batch.input.cursor) = some state → batch.changeEpoch = state.changeEpoch)
    : commitProjection crates batch repository
      = announcedCommit crates batch repository
        (projectionInputDisposition repository.projectionProtocol batch.input) :=
  commitProjection_eq_announced hvalid h.unvisited hepoch fun hpending =>
    h.fresh hdigests (h.admitted hepoch hpending)

/-- A new input is applied, or the commit fails for another reason than its input. -/
theorem applyNewInput_answer (crates : Crates) (batch : ProjectionCommitBatch)
    (repository : InMemoryRepository)
    : (∀ result, (applyNewInput crates batch repository).1 = .ok result →
        result.outcome = .applied)
      ∧ ∀ error, (applyNewInput crates batch repository).1 = .error error →
        refusesInput error = false := by
  rcases hrun : applyNewInput crates batch repository with ⟨error | result, next⟩
  · rw [applyNewInput, Txn.staged_eq_error] at hrun
    refine ⟨fun _ hresult => (by cases hresult), fun other hother => ?_⟩
    cases hother
    exact (stageProjectionCommit_unrefused _ _ _ _ _).bind (fun _ => Result.failsWith_ok _)
      error hrun.1
  · rw [applyNewInput, Txn.staged_eq_ok, Result.bind_eq_ok_iff] at hrun
    obtain ⟨⟨answer, touched, rows, protocol⟩, hstage, hanswer⟩ := hrun
    obtain ⟨_, _, _, _, _, hstaged⟩ := stageProjectionCommit_ok hstage
    cases hanswer
    refine ⟨fun other hother => ?_, fun _ herror => (by cases herror)⟩
    cases hother
    rw [hstaged.answers]

/-- A pending input is never turned away, whatever the epoch of the batch. -/
theorem ReceiptsInv.unrefused (h : ReceiptsInv crates repository)
    (hdigests : DistinctDigests repository.projectionProtocol)
    (hvalid : batch.validate crates = .ok ())
    (hpending : projectionInputDisposition repository.projectionProtocol batch.input
      = .ok .pending)
    : (∀ result, (InMemoryRepo.commitProjection crates batch repository).1 = .ok result →
        result.outcome = .applied)
      ∧ ∀ error, (InMemoryRepo.commitProjection crates batch repository).1 = .error error →
        refusesInput error = false := by
  by_cases hepoch : ∀ state, repository.projectionProtocol.partitions.lookup
      (.fromInput batch.input.cursor) = some state → batch.changeEpoch = state.changeEpoch
  · rw [h.commitProjection hdigests hvalid hepoch, hpending]
    exact applyNewInput_answer crates batch repository
  · simp only [not_forall] at hepoch
    obtain ⟨state, hstate, hother⟩ := hepoch
    simp only [projectionInputDisposition, Result.bind_eq_ok_iff] at hpending
    obtain ⟨_, htopology, _, hknown, -⟩ := hpending
    have hmismatch : repository.projectionProtocol.validatePartition
        (.fromInput batch.input.cursor) batch.input batch.changeEpoch
        = .error (.scopeMismatch "projection change epoch") := by
      simp [validatePartition, htopology, hknown, hstate, Ne.symm hother]
    have hcommit : InMemoryRepo.commitProjection crates batch repository
        = (.error (.scopeMismatch "projection change epoch"), repository) := by
      simp [InMemoryRepo.commitProjection, Txn.staged, hvalid, hmismatch]
    rw [hcommit]
    refine ⟨fun _ hresult => (by cases hresult), fun error herror => ?_⟩
    cases herror
    rfl

end Agreement

/-- In every reachable state the commit of a batch does what the disposition of its input
announced: it answers the same checkpoint or the same error and changes nothing, or, for a
pending input, goes on to apply the batch as if its input had not to be checked. -/
theorem disposition_announces_commit (crates : Crates)
    {retention : ProjectionChangeRetention} {repository : InMemoryRepository}
    (hreach : Reachable (step crates) (OwnReceipts crates) (.new retention) repository)
    (hdigests : DistinctDigests repository.projectionProtocol)
    (batch : ProjectionCommitBatch) (hvalid : batch.validate crates = .ok ())
    (hepoch : ∀ state, repository.projectionProtocol.partitions.lookup
      (.fromInput batch.input.cursor) = some state → batch.changeEpoch = state.changeEpoch)
    : match projectionInputDisposition repository.projectionProtocol batch.input with
      | .ok (.duplicate checkpoint) =>
          commitProjection crates batch repository
            = (.ok ⟨.duplicate, some checkpoint, [], []⟩, repository)
      | .ok (.stale checkpoint) =>
          commitProjection crates batch repository
            = (.ok ⟨.staleInput, some checkpoint, [], []⟩, repository)
      | .error error => commitProjection crates batch repository = (.error error, repository)
      | .ok .pending =>
          commitProjection crates batch repository = applyNewInput crates batch repository
          ∧ (∀ result, (commitProjection crates batch repository).1 = .ok result →
            result.outcome = .applied)
          ∧ ∀ error, (commitProjection crates batch repository).1 = .error error →
            refusesInput error = false := by
  have hcommit := (receiptsInv_of_reachable hreach).commitProjection hdigests hvalid hepoch
  rw [hcommit]
  cases projectionInputDisposition repository.projectionProtocol batch.input with
  | error error => rfl
  | ok disposition =>
      cases disposition with
      | pending => exact ⟨rfl, applyNewInput_answer crates batch repository⟩
      | duplicate checkpoint => rfl
      | stale checkpoint => rfl

/-- In the state after the first todo the disposition of the second announces its commit. -/
theorem secondTodo_announced
    : projectionInputDisposition firstTodoApplied.projectionProtocol secondTodo = .ok .pending
      ∧ ∃ result, (commitProjection nullOutcomeCrates (checkpointCommit secondTodo)
        firstTodoApplied).1 = .ok result ∧ result.outcome = .applied := by
  have hreach : Reachable (step nullOutcomeCrates) (OwnReceipts nullOutcomeCrates)
      (.new defaultProjectionChangeRetention) firstTodoApplied := by
    have hrun : firstTodoApplied = finalState (step nullOutcomeCrates)
        (.new defaultProjectionChangeRetention)
        [.registerProjectionModels todoTopology [todoOwner],
          .commitProjection (checkpointCommit firstTodo)] := rfl
    rw [hrun]
    exact reachable_of_no_receipts (by simp [receivedBy])
  have hpending : projectionInputDisposition firstTodoApplied.projectionProtocol
      (checkpointCommit secondTodo).input = .ok .pending := rfl
  have hdigests : DistinctDigests firstTodoApplied.projectionProtocol := by
    have hone : firstTodoApplied.projectionProtocol.registeredTopologies = {todoTopology} := rfl
    intro left hleft right hright _
    rw [hone, Finset.mem_singleton] at hleft hright
    rw [hleft, hright]
  have hepoch : ∀ state, firstTodoApplied.projectionProtocol.partitions.lookup
      (.fromInput (checkpointCommit secondTodo).input.cursor) = some state →
        (checkpointCommit secondTodo).changeEpoch = state.changeEpoch := by
    intro state hstate
    have hknown : (firstTodoApplied.projectionProtocol.partitions.lookup
        (.fromInput (checkpointCommit secondTodo).input.cursor)).map PartitionState.changeEpoch
        = some todoEpoch := rfl
    rw [hstate] at hknown
    exact (Option.some.inj hknown).symm
  have hannounced := disposition_announces_commit nullOutcomeCrates hreach hdigests
    (checkpointCommit secondTodo) rfl hepoch
  rw [hpending] at hannounced
  have hsome : (commitProjection nullOutcomeCrates (checkpointCommit secondTodo)
      firstTodoApplied).1.toOption.isSome = true := by decide +kernel
  obtain ⟨result, hresult⟩ := Option.isSome_iff_exists.mp hsome
  have hrun := Result.toOption_eq_some_iff.mp hresult
  exact ⟨hpending, result, hrun, hannounced.2.1 result hrun⟩

theorem twinVersion_valid : 1 ≤ 1 ∧ 1 < 2 ^ 32 := by decide

theorem twinName_valid : ValidName maxProjectorNameBytes "notes" := by decide

theorem twinPosition_valid : 1 ≤ maxProjectionPosition := by decide

/-- Another topology under the digest of the todos. -/
def twinTopology : ProjectorTopologyId :=
  ⟨1, "notes", .replicate 3, twinVersion_valid, twinName_valid⟩

def twinOwner : ProjectionModelOwnership := ⟨"Note", "notes", by decide, by decide⟩

/-- The input of the twin with the same message. -/
def twinInput : TrustedProjectionInput :=
  { firstTodo with
    cursor := ⟨twinTopology, todoPartition, todoSource, todoEpoch, 1, twinPosition_valid⟩ }

def twinCommit : ProjectionCommitBatch :=
  { checkpointCommit twinInput with ownership := [twinOwner] }

/-- Both topologies are registered and the todo was applied. -/
def twinDeliveries : List RepositoryOp :=
  [.registerProjectionModels todoTopology [todoOwner],
    .registerProjectionModels twinTopology [twinOwner],
    .commitProjection (checkpointCommit firstTodo)]

def afterTwins : InMemoryRepository :=
  finalState (step nullOutcomeCrates) (.new defaultProjectionChangeRetention) twinDeliveries

/-- A caller's batch carried a receipt under the projector's name. -/
def afterForeignReceipt : InMemoryRepository :=
  finalState (step nullOutcomeCrates) (.new defaultProjectionChangeRetention)
    [.registerProjectionModels todoTopology [todoOwner],
      .commitBatch createTodoClock
        { streams := [], inboxReceipts := [firstTodo.inboxReceipt nullOutcomeCrates] }]

/-- The name of a receipt holds the digest of the topology and not the topology, so the
receipt of the todo stands in the way of an input that is pending; and so does a receipt
under the projector's name that another caller wrote, with one topology registered. -/
theorem shared_digest_refuses_pending_input
    : (Reachable (step nullOutcomeCrates) (OwnReceipts nullOutcomeCrates)
          (.new defaultProjectionChangeRetention) afterTwins
        ∧ twinCommit.validate nullOutcomeCrates = .ok ()
        ∧ afterTwins.projectionProtocol.partitions.lookup (.fromInput twinInput.cursor) = none
        ∧ projectionInputDisposition afterTwins.projectionProtocol twinInput = .ok .pending
        ∧ (commitProjection nullOutcomeCrates twinCommit afterTwins).1
          = .error (.messageIdReuse "message-1"))
      ∧ afterForeignReceipt.projectionProtocol.registeredTopologies = {todoTopology}
      ∧ (checkpointCommit firstTodo).validate nullOutcomeCrates = .ok ()
      ∧ afterForeignReceipt.projectionProtocol.partitions.lookup (.fromInput firstTodo.cursor)
        = none
      ∧ projectionInputDisposition afterForeignReceipt.projectionProtocol firstTodo
        = .ok .pending
      ∧ (commitProjection nullOutcomeCrates (checkpointCommit firstTodo)
          afterForeignReceipt).1
        = .error (.messageIdReuse "message-1") := by
  have hreach : Reachable (step nullOutcomeCrates) (OwnReceipts nullOutcomeCrates)
      (.new defaultProjectionChangeRetention) afterTwins :=
    reachable_of_no_receipts (by simp [twinDeliveries, receivedBy])
  have hunknown : afterTwins.projectionProtocol.partitions.lookup (.fromInput twinInput.cursor)
      = none := rfl
  have hreceived : (twinCommit.input.inboxReceipt nullOutcomeCrates).key
      ∈ afterTwins.inboxStore := by decide +kernel
  have hcommit := commitProjection_received rfl (receiptsInv_of_reachable hreach).unvisited
    (fun state hstate => by cases hunknown.symm.trans hstate) rfl hreceived
  have hforeign : ((checkpointCommit firstTodo).input.inboxReceipt nullOutcomeCrates).key
      ∈ afterForeignReceipt.inboxStore := by decide +kernel
  have hvalid : (checkpointCommit firstTodo).validate nullOutcomeCrates = .ok () := rfl
  have hrefused := commitProjection_received hvalid (fun _ => ⟨rfl, rfl⟩)
    (fun state hstate => by cases hstate) rfl hforeign
  exact ⟨⟨hreach, rfl, hunknown, rfl, congrArg Prod.fst hcommit⟩, rfl, hvalid, rfl,
    rfl, congrArg Prod.fst hrefused⟩

end Distributed.InMemoryRepo
