import Distributed.InMemoryRepo.AtMostOnce
import Distributed.InMemoryRepo.ProtocolSteps
import Distributed.Repository.Batch
import Distributed.Table.RowEffects

/-! A commit stores its whole batch or nothing.
-/

namespace Distributed.InMemoryRepo

open Distributed.CommandLedger Distributed.Entities Distributed.Foundation

open Distributed.Outbox Distributed.Platform Distributed.ProjectionProtocol

open Distributed.Repository Distributed.Snapshot Distributed.Table

section Appends

variable {storage : Map String (List EventRecord)} {appends : List PreparedEventAppend}
  {key : String}

theorem lookup_foldl_appendEvents_of_notMem
    (h : key ∉ appends.map fun append => append.identity.storageKey)
    : AList.lookup key (appends.foldl appendEvents storage) = storage.lookup key := by
  induction appends generalizing storage with
  | nil => rfl
  | cons append appends ih =>
      simp only [List.map_cons, List.mem_cons, not_or] at h
      obtain ⟨hfirst, hrest⟩ := h
      rw [List.foldl_cons, ih hrest, appendEvents, Map.lookup_insert_eq, if_neg hfirst]

/-- Appends to distinct streams each extend their own. -/
theorem lookup_foldl_appendEvents_of_mem {append : PreparedEventAppend}
    (hnodup : (appends.map fun append => append.identity.storageKey).Nodup)
    (h : append ∈ appends)
    : AList.lookup append.identity.storageKey (appends.foldl appendEvents storage)
      = some ((storage.lookup append.identity.storageKey).getD [] ++ append.events) := by
  induction appends generalizing storage with
  | nil => exact absurd h List.not_mem_nil
  | cons other appends ih =>
      obtain ⟨hfresh, hrest⟩ := List.nodup_cons.mp hnodup
      rw [List.foldl_cons]
      rcases List.mem_cons.mp h with rfl | h
      · rw [lookup_foldl_appendEvents_of_notMem hfresh, appendEvents, Map.lookup_insert_eq,
          if_pos rfl]
      · have hne : append.identity.storageKey ≠ other.identity.storageKey :=
          fun heq => hfresh (List.mem_map.mpr ⟨append, h, heq⟩)
        rw [ih hrest h, appendEvents, Map.lookup_insert_eq, if_neg hne]

end Appends

theorem subset_foldl_insert (receipts : List InboxReceipt) (inbox : Finset (String × String))
    : inbox ⊆ receipts.foldl (fun inbox receipt => insert receipt.key inbox) inbox := by
  induction receipts generalizing inbox with
  | nil => exact Finset.Subset.refl inbox
  | cons first receipts ih => exact (Finset.subset_insert _ _).trans (ih _)

theorem mem_foldl_insert {receipts : List InboxReceipt} {receipt : InboxReceipt}
    {inbox : Finset (String × String)} (h : receipt ∈ receipts)
    : receipt.key ∈ receipts.foldl (fun inbox receipt => insert receipt.key inbox) inbox := by
  induction receipts generalizing inbox with
  | nil => exact absurd h List.not_mem_nil
  | cons first receipts ih =>
      rcases List.mem_cons.mp h with rfl | h
      · exact subset_foldl_insert receipts _ (Finset.mem_insert_self _ _)
      · exact ih h

/-- Every plan a commit applies, in order. -/
def writtenPlans (batch : CommitBatch) (direct : Option SameTransactionProjectionBatch)
    : List TableWritePlan :=
  batch.readModelPlans
    ++ direct.toList.map fun projection =>
      projection.mutations.map SameTransactionProjectionMutation.mutation

section Rows

variable {crates : Crates} {rows next other : RelationalRows}

/-- Plans do to all rows what they do to a copy of those they touch. -/
theorem applyPlans_agree {keys : List String} {plans : List TableWritePlan}
    (h : applyPlans crates plans rows = .ok next)
    (hkeys : ∀ mutation ∈ plans.flatten, mutation.lockKey crates ∈ keys)
    (hagree : AgreeOn keys rows other)
    : ∃ final, applyPlans crates plans other = .ok final
      ∧ AgreeOn keys next final
      ∧ ∀ key, key ∉ keys → final.lookup key = other.lookup key := by
  induction plans generalizing rows other with
  | nil =>
      cases h
      exact ⟨other, rfl, hagree, fun _ _ => rfl⟩
  | cons plan plans ih =>
      rw [applyPlans, List.foldlM_cons, Result.bind_eq_ok_iff] at h
      obtain ⟨middle, hfirst, hrest⟩ := h
      rw [List.flatten_cons] at hkeys
      obtain ⟨second, hsecond, hmiddle, hothers⟩ := applyReadModelWritePlan_agree hfirst
        (fun mutation hmem => hkeys mutation (List.mem_append_left _ hmem)) hagree
      obtain ⟨final, hfinal, hnext, hkept⟩ := ih hrest
        (fun mutation hmem => hkeys mutation (List.mem_append_right _ hmem)) hmiddle
      refine ⟨final, ?_, hnext, fun key hnot => ?_⟩
      · rw [applyPlans, List.foldlM_cons, hsecond, Result.ok_bind]
        exact hfinal
      · rw [hkept key hnot, hothers key hnot]

theorem lockKey_mem_touchedRows {batch : CommitBatch}
    {direct : Option SameTransactionProjectionBatch} {mutation : TableMutation}
    (h : mutation ∈ (writtenPlans batch direct).flatten)
    : mutation.lockKey crates ∈ touchedRows crates batch direct := by
  rw [writtenPlans, List.flatten_append, List.mem_append] at h
  rw [touchedRows, List.mem_append]
  rcases h with h | h
  · exact .inl (List.mem_map_of_mem h)
  · right
    cases direct with
    | none => simp at h
    | some projection =>
        simp only [Option.toList_some, List.map_cons, List.map_nil, List.flatten_cons,
          List.flatten_nil, List.append_nil] at h
        obtain ⟨staged, hstaged, rfl⟩ := List.mem_map.mp h
        exact List.mem_map.mpr ⟨staged, by simpa using hstaged, rfl⟩

theorem stageRows_agree (rows : RelationalRows) (touched : List String)
    : AgreeOn touched (stageRows rows touched) rows := by
  intro key hkey
  rw [lookup_stageRows, if_pos hkey]

end Rows

section Staged

variable {crates : Crates} {clock : CommitClock} {batch : CommitBatch}
  {completion : Option CommandCompletion} {direct : Option SameTransactionProjectionBatch}
  {repository : InMemoryRepository} {staged : StagedBatch}

/-- The staged rows are the touched rows after every plan of the commit. -/
theorem StagedFrom.applies
    (h : StagedFrom crates clock batch completion direct repository staged)
    : applyPlans crates (writtenPlans batch direct)
        (stageRows repository.relationalRows staged.touchedRows) = .ok staged.stagedRows := by
  cases direct with
  | none =>
      obtain ⟨hplans, -⟩ := h.direct_none
      simpa [writtenPlans] using hplans
  | some projection =>
      obtain ⟨planned, evidence, protocol, hplans, hstage, -⟩ := h.direct_some
      obtain ⟨_, _, _, _, mutation, _, _, _, hdirect⟩ :=
        stageSameTransactionProjection_ok hstage
      have hplan : projection.mutations.map SameTransactionProjectionMutation.mutation
          = [mutation.mutation] := by
        rw [hdirect.valid.mutations]
        rfl
      simp only [writtenPlans, Option.toList_some, List.map_cons, List.map_nil, hplan]
      rw [applyPlans, List.foldlM_append]
      simp only [applyPlans] at hplans
      rw [hplans, Result.ok_bind, List.foldlM_cons, hdirect.writes, Result.ok_bind]
      rfl

/-- Publishing leaves the rows that the plans make of all the old rows. -/
theorem StagedFrom.rows
    (h : StagedFrom crates clock batch completion direct repository staged)
    : ∃ final,
      applyPlans crates (writtenPlans batch direct) repository.relationalRows = .ok final
      ∧ ∀ key, (staged.publish batch repository).relationalRows.lookup key
        = final.lookup key := by
  have htouched : ∀ mutation ∈ (writtenPlans batch direct).flatten,
      mutation.lockKey crates ∈ staged.touchedRows := by
    intro mutation hmutation
    rw [h.touched]
    exact lockKey_mem_touchedRows hmutation
  obtain ⟨final, hfinal, hagree, hothers⟩ :=
    applyPlans_agree h.applies htouched (stageRows_agree _ _)
  refine ⟨final, hfinal, fun key => ?_⟩
  rw [StagedBatch.publish, lookup_mergeRows]
  by_cases hkey : key ∈ staged.touchedRows
  · rw [if_pos hkey, hagree key hkey]
  · rw [if_neg hkey, hothers key hkey]

end Staged

/-- Every part of a committed batch, as the stores hold it afterwards. -/
structure BatchPresent (crates : Crates) (clock : CommitClock) (batch : CommitBatch)
    (completion : Option CommandCompletion)
    (direct : Option SameTransactionProjectionBatch) (before after : InMemoryRepository)
    : Prop where
  streams : ∀ stream ∈ batch.streams,
    after.eventStore.lookup stream.identity.storageKey
      = some ((before.eventStore.lookup stream.identity.storageKey).getD []
        ++ stream.entity.newEvents)
  outbox : ∀ message ∈ batch.outboxMessages,
    after.outboxStore.lookup message.id = some message
  rows : ∃ final,
    applyPlans crates (writtenPlans batch direct) before.relationalRows = .ok final
      ∧ ∀ key, after.relationalRows.lookup key = final.lookup key
  snapshots : ∀ earlier write later, batch.snapshots = earlier ++ write :: later →
    (∀ other ∈ later, other.identity.storageKey ≠ write.identity.storageKey) →
    after.snapshotStore.lookup write.identity.storageKey = some write.record
  inbox : ∀ receipt ∈ batch.inboxReceipts, receipt.key ∈ after.inboxStore
  ledger : ∀ accepted, completion = some accepted →
    ∃ stored row,
      (stored = accepted
        ∨ ∃ evidence, accepted.attachDirectProjection crates evidence = .ok stored)
      ∧ after.commandLedger.lookup accepted.attempt.key = some row
      ∧ row.state = accepted.state.toLedgerState
      ∧ row.outcomeJson = some stored.replay
      ∧ row.completedAt = some clock.completion
  projection : ∀ projection, direct = some projection →
    ∃ mutation change metadata, projection.mutations = [mutation]
      ∧ DirectEffect projection mutation before.projectionProtocol after.projectionProtocol
        change metadata

section Present

variable {crates : Crates} {clock : CommitClock} {batch : CommitBatch}
  {completion : Option CommandCompletion} {direct : Option SameTransactionProjectionBatch}
  {repository : InMemoryRepository} {staged : StagedBatch}

theorem StagedFrom.validatedBatch
    (h : StagedFrom crates clock batch completion direct repository staged)
    : ValidatedBatch batch staged.prepared := by
  have hvalidated := h.validated
  simp only [validateBatch, Result.bind_eq_ok_iff, ofRepository, Result.mapError_eq_ok_iff]
    at hvalidated
  obtain ⟨prepared, hprepared, hrest⟩ := hvalidated
  have hsame : prepared = staged.prepared := by
    cases direct with
    | none =>
        cases hrest
        rfl
    | some projection =>
        simp only [Result.bind_eq_ok_iff] at hrest
        obtain ⟨_, -, _, -, hrest⟩ := hrest
        cases hrest
        rfl
  exact hsame ▸ validateCommitBatch_ok hprepared

theorem StagedFrom.ledgerRow {accepted : CommandCompletion}
    (h : StagedFrom crates clock batch (some accepted) direct repository staged)
    : ∃ stored row,
      (stored = accepted
        ∨ ∃ evidence, accepted.attachDirectProjection crates evidence = .ok stored)
      ∧ staged.stagedRecord = some row
      ∧ row.key = accepted.attempt.key
      ∧ row.state = accepted.state.toLedgerState
      ∧ row.outcomeJson = some stored.replay
      ∧ row.completedAt = some clock.completion := by
  obtain ⟨stored, record, row, horigin, -, hcomplete, hstaged⟩ := h.stagedRecord_some
  have hsame : stored.attempt = accepted.attempt ∧ stored.state = accepted.state := by
    rcases horigin with rfl | ⟨evidence, hattach⟩
    · exact ⟨rfl, rfl⟩
    · obtain ⟨-, -, _, -, rfl⟩ := CommandCompletion.attachDirectProjection_ok hattach
      exact ⟨rfl, rfl⟩
  obtain ⟨-, hfence, -, retention, rfl⟩ := CommandLedgerRecord.complete_ok hcomplete
  obtain ⟨-, hidentity, -⟩ := CommandLedgerRecord.matchesFence_iff.mp hfence
  refine ⟨stored, _, horigin, hstaged, ?_, ?_, rfl, rfl⟩
  · rw [← hsame.1, hidentity]
  · rw [← hsame.2]

theorem StagedFrom.direct_effect {projection : SameTransactionProjectionBatch}
    (h : StagedFrom crates clock batch completion (some projection) repository staged)
    : ∃ protocol mutation change metadata, staged.stagedProtocol = some protocol
      ∧ projection.mutations = [mutation]
      ∧ DirectEffect projection mutation repository.projectionProtocol protocol change
        metadata := by
  obtain ⟨planned, evidence, protocol, -, hstage, hprotocol⟩ := h.direct_some
  obtain ⟨_, _, _, _, mutation, _, _, change, hdirect⟩ :=
    stageSameTransactionProjection_ok hstage
  exact ⟨protocol, mutation, change, _, hprotocol, hdirect.valid.mutations, hdirect.effect⟩

theorem StagedFrom.present
    (h : StagedFrom crates clock batch completion direct repository staged)
    : BatchPresent crates clock batch completion direct repository
        (staged.publish batch repository) where
  streams := by
    intro stream hstream
    have hbatch := h.validatedBatch
    have hprepared : PreparedEventAppend.fromStreamWrite stream ∈ staged.prepared := by
      rw [hbatch.prepared_eq]
      exact List.mem_map_of_mem hstream
    refine lookup_foldl_appendEvents_of_mem ?_ hprepared
    rw [hbatch.prepared_eq, List.map_map]
    exact hbatch.streams
  outbox := by
    intro message hmessage
    rw [StagedBatch.publish]
    refine Map.lookup_insertAll_of_mem ?_ (List.mem_map_of_mem hmessage)
    rw [List.map_map]
    exact h.validatedBatch.messages
  rows := h.rows
  snapshots := by
    intro earlier write later hsplit hlast
    rw [StagedBatch.publish, hsplit, List.map_append, List.map_cons]
    refine Map.lookup_insertAll_last ?_
    rw [List.map_map]
    intro hmem
    obtain ⟨other, hother, heq⟩ := List.mem_map.mp hmem
    exact hlast other hother heq
  inbox := by
    intro receipt hreceipt
    rw [StagedBatch.publish]
    exact mem_foldl_insert hreceipt
  ledger := by
    rintro accepted rfl
    obtain ⟨stored, row, horigin, hstaged, hkey, hrow⟩ := h.ledgerRow
    refine ⟨stored, row, horigin, ?_, hrow⟩
    rw [StagedBatch.publish, hstaged, ← hkey]
    exact AList.lookup_insert _
  projection := by
    rintro projection rfl
    obtain ⟨protocol, mutation, change, metadata, hprotocol, hmutation, heffect⟩ :=
      h.direct_effect
    refine ⟨mutation, change, metadata, hmutation, ?_⟩
    rw [StagedBatch.publish, hprotocol]
    exact heffect

end Present

/-- A commit that fails leaves every store as it was, and one that succeeds stored every
part of its batch. -/
theorem commit_stores_all_or_nothing (crates : Crates) (clock : CommitClock)
    (batch : CommitBatch) (completion : Option CommandCompletion)
    (direct : Option SameTransactionProjectionBatch) (repository : InMemoryRepository)
    : match commitBatchInner crates clock batch completion direct repository with
      | (.error _, after) => after = repository
      | (.ok _, after) =>
          BatchPresent crates clock batch completion direct repository after := by
  cases hrun : commitBatchInner crates clock batch completion direct repository with
  | mk answer after =>
      cases answer with
      | error error =>
          have hkept := commitBatchInner_allOrNothing repository error
            (congrArg Prod.fst hrun)
          rwa [hrun] at hkept
      | ok streams =>
          obtain ⟨staged, hstaged, rfl, -⟩ := commitBatchInner_ok hrun
          exact hstaged.present

def todoStream : StreamIdentity where
  aggregateType := "todo"
  aggregateId := "1"
  type_not_blank := by decide
  id_not_blank := by decide
  type_no_delimiter := by decide
  id_no_delimiter := by decide

/-- A snapshot of the stream at version one with the given payload. -/
def todoSnapshot (payload : Bytes) : SnapshotWrite where
  identity := todoStream
  record := .new "todo" "1" 1 1 payload 0

/-- Nothing refuses two snapshots of one stream in a batch, and the first is lost. -/
theorem repeated_snapshot_replaces_first
    : let result := commitBatchInner nullOutcomeCrates createTodoClock
        { streams := [], snapshots := [todoSnapshot [1], todoSnapshot [2]] } none none
        (.new defaultProjectionChangeRetention)
      result.1.toOption.isSome = true
      ∧ result.2.snapshotStore.lookup todoStream.storageKey = some (todoSnapshot [2]).record
      ∧ (todoSnapshot [1]).record.payload ≠ (todoSnapshot [2]).record.payload := by
  refine ⟨rfl, rfl, ?_⟩
  decide

/-- Two runs fail with one error or end with the same rows. -/
def SameOutcome {ε : Type} : Except ε RelationalRows → Except ε RelationalRows → Prop
  | .error error, .error other => error = other
  | .ok rows, .ok other => ∀ key, rows.lookup key = other.lookup key
  | _, _ => False

section Plans

variable {crates : Crates} {keys : List String} {plans : List TableWritePlan}
  {rows other : RelationalRows} {error : TableStoreError}

/-- Plans fail on all rows as they fail on a copy of those they touch. -/
theorem applyPlans_error (h : applyPlans crates plans rows = .error error)
    (hkeys : ∀ mutation ∈ plans.flatten, mutation.lockKey crates ∈ keys)
    (hagree : AgreeOn keys rows other)
    : applyPlans crates plans other = .error error := by
  induction plans generalizing rows other with
  | nil => cases h
  | cons plan plans ih =>
      rw [List.flatten_cons] at hkeys
      have hplan : ∀ mutation ∈ plan, mutation.lockKey crates ∈ keys :=
        fun mutation hmem => hkeys mutation (List.mem_append_left _ hmem)
      rw [applyPlans, List.foldlM_cons, Result.bind_eq_error_iff] at h ⊢
      rcases h with h | ⟨middle, hfirst, h⟩
      · exact .inl (applyReadModelWritePlan_error h hplan hagree)
      · obtain ⟨second, hsecond, hmiddle, -⟩ :=
          applyReadModelWritePlan_agree hfirst hplan hagree
        exact .inr ⟨second, hsecond, ih h
          (fun mutation hmem => hkeys mutation (List.mem_append_right _ hmem)) hmiddle⟩

/-- Plans staged on the touched rows and merged back. -/
def applyStaged (crates : Crates) (plans : List TableWritePlan) (touched : List String)
    (rows : RelationalRows) : Except TableStoreError RelationalRows := do
  let staged ← applyPlans crates plans (stageRows rows touched)
  .ok (mergeRows rows staged touched)

theorem applyStaged_exact (rows : RelationalRows)
    (hkeys : ∀ mutation ∈ plans.flatten, mutation.lockKey crates ∈ keys)
    : SameOutcome (applyStaged crates plans keys rows) (applyPlans crates plans rows) := by
  have hagree := stageRows_agree rows keys
  cases hstaged : applyPlans crates plans (stageRows rows keys) with
  | error error =>
      rw [applyStaged, hstaged, applyPlans_error hstaged hkeys hagree]
      rfl
  | ok staged =>
      obtain ⟨final, hfinal, hsame, hothers⟩ := applyPlans_agree hstaged hkeys hagree
      rw [applyStaged, hstaged, hfinal]
      intro key
      rw [lookup_mergeRows]
      by_cases hkey : key ∈ keys
      · rw [if_pos hkey, hsame key hkey]
      · rw [if_neg hkey, hothers key hkey]

end Plans

/-- The plans of a batch, staged on the rows the commit touches and merged back, fail as
they do on all rows, with the same error, and otherwise end with the same rows. -/
theorem touched_row_staging_exact (crates : Crates) (batch : CommitBatch)
    (direct : Option SameTransactionProjectionBatch) (rows : RelationalRows)
    : SameOutcome
        (applyStaged crates batch.readModelPlans (touchedRows crates batch direct) rows)
        (applyPlans crates batch.readModelPlans rows) :=
  applyStaged_exact rows fun _ hmutation => List.mem_append_left _ (List.mem_map_of_mem hmutation)

end Distributed.InMemoryRepo
