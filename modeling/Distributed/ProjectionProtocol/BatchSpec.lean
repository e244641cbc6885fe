import Distributed.Foundation.Result
import Distributed.ProjectionProtocol.Store

/-! What a validated projection batch satisfies.
-/

namespace Distributed.ProjectionProtocol

open Distributed.Foundation Distributed.Platform Distributed.Repository Distributed.Table

theorem ProjectionGeneration.checkedNext_ok {generation next : ProjectionGeneration}
    (h : generation.checkedNext = .ok next)
    : next.value = generation.value + 1 := by
  unfold ProjectionGeneration.checkedNext at h
  split at h
  · cases h
    rfl
  · cases h

variable {topology : ProjectorTopologyId} {partition : ProjectionPartition}

/-- The scope belongs to the partition of the topology. -/
def InPartition (topology : ProjectorTopologyId) (partition : ProjectionPartition)
    (scope : ProjectionRecordScope) : Prop :=
  scope.topology = topology ∧ scope.projectionPartition = partition

theorem validateScope_ok {scope : ProjectionRecordScope}
    (h : validateScope topology partition scope = .ok ())
    : InPartition topology partition scope := by
  simp only [validateScope, Result.guard_eq_ok_iff, not_not, and_true] at h
  exact h

theorem validateMutationScopes_ok {owned : List (String × String)}
    {seen : List ProjectionRecordScope} {mutations : List ProjectionRecordMutation}
    (h : validateMutationScopes topology partition owned seen mutations = .ok ())
    : (mutations.map ProjectionRecordMutation.scope).Nodup
      ∧ ∀ mutation ∈ mutations, InPartition topology partition mutation.scope
        ∧ mutation.scope.model = mutation.mutation.schema.modelName
        ∧ mutation.scope ∉ seen := by
  induction mutations generalizing seen with
  | nil => simp
  | cons mutation mutations ih =>
      simp only [validateMutationScopes, Result.bind_eq_ok_iff, Result.error_bind,
        Result.guard_eq_ok_iff, not_or, not_not] at h
      obtain ⟨_, hscope, ⟨hmodel, -⟩, hfresh, hrest⟩ := h
      obtain ⟨hnodup, hmutations⟩ := ih hrest
      constructor
      · refine List.nodup_cons.mpr ⟨fun hmem => ?_, hnodup⟩
        obtain ⟨other, hother, heq⟩ := List.mem_map.mp hmem
        exact (hmutations other hother).2.2 (heq ▸ List.mem_cons_self ..)
      · intro other hother
        rcases List.mem_cons.mp hother with rfl | hother
        · exact ⟨validateScope_ok hscope, hmodel, hfresh⟩
        · obtain ⟨hin, hname, hunseen⟩ := hmutations other hother
          exact ⟨hin, hname, fun hmem => hunseen (List.mem_cons_of_mem _ hmem)⟩

theorem validateObservations_ok {owned : List (String × String)}
    {scopes : List ProjectionRecordScope}
    {seen : List (ProjectionObservationKind × ProjectionRecordScope)}
    {observations : List ProjectionObservationRequest}
    (h : validateObservations topology partition owned scopes seen observations = .ok ())
    : ∀ observation ∈ observations, InPartition topology partition observation.scope := by
  induction observations generalizing seen with
  | nil => simp
  | cons observation observations ih =>
      simp only [validateObservations, Result.bind_eq_ok_iff, Result.error_bind,
        Result.guard_eq_ok_iff] at h
      obtain ⟨_, hscope, -, -, _, -, hrest⟩ := h
      intro other hother
      rcases List.mem_cons.mp hother with rfl | hother
      · exact validateScope_ok hscope
      · exact ih hrest other hother

/-- Every observation's target fits its kind. -/
theorem validateObservations_targets {owned : List (String × String)}
    {scopes : List ProjectionRecordScope}
    {seen : List (ProjectionObservationKind × ProjectionRecordScope)}
    {observations : List ProjectionObservationRequest}
    (h : validateObservations topology partition owned scopes seen observations = .ok ())
    : ∀ observation ∈ observations, validateObservationTarget scopes observation = .ok () := by
  induction observations generalizing seen with
  | nil => simp
  | cons observation observations ih =>
      simp only [validateObservations, Result.bind_eq_ok_iff, Result.error_bind,
        Result.guard_eq_ok_iff] at h
      obtain ⟨_, -, -, -, _, htarget, hrest⟩ := h
      intro other hother
      rcases List.mem_cons.mp hother with rfl | hother
      · exact htarget
      · exact ih hrest other hother

/-- What `ProjectionCommitBatch::validate` establishes. -/
structure ProjectionCommitBatch.Valid (batch : ProjectionCommitBatch) : Prop where
  scopes : (batch.mutations.map ProjectionRecordMutation.scope).Nodup
  mutations : ∀ mutation ∈ batch.mutations,
    InPartition batch.input.cursor.topology batch.input.cursor.projectionPartition
      mutation.scope
  models : ∀ mutation ∈ batch.mutations,
    mutation.scope.model = mutation.mutation.schema.modelName
  plan : ∀ mutation ∈ batch.mutations, mutation.mutation.validate = .ok ()
  observations : ∀ observation ∈ batch.observations,
    InPartition batch.input.cursor.topology batch.input.cursor.projectionPartition
      observation.scope

theorem ProjectionCommitBatch.validate_ok {crates : Crates} {batch : ProjectionCommitBatch}
    (h : batch.validate crates = .ok ())
    : batch.Valid := by
  simp only [ProjectionCommitBatch.validate, Result.bind_eq_ok_iff, liftTable,
    Result.mapError_eq_ok_iff] at h
  obtain ⟨_, -, owned, -, _, hmutations, _, hplan, hobservations⟩ := h
  obtain ⟨hnodup, hall⟩ := validateMutationScopes_ok hmutations
  refine ⟨hnodup, fun mutation hmem => (hall mutation hmem).1,
    fun mutation hmem => (hall mutation hmem).2.1, fun mutation hmem => ?_,
    validateObservations_ok hobservations⟩
  exact Result.forM_eq_ok_iff.mp hplan _ (List.mem_map_of_mem hmem)

theorem ProjectionCommitBatch.validate_targets {crates : Crates}
    {batch : ProjectionCommitBatch} (h : batch.validate crates = .ok ())
    : ∀ observation ∈ batch.observations,
      validateObservationTarget (batch.mutations.map ProjectionRecordMutation.scope) observation
        = .ok () := by
  simp only [ProjectionCommitBatch.validate, Result.bind_eq_ok_iff] at h
  obtain ⟨_, -, owned, -, _, -, _, -, hobservations⟩ := h
  exact validateObservations_targets hobservations

/-- What `SameTransactionProjectionBatch::validate` establishes. -/
structure SameTransactionProjectionBatch.Valid (batch : SameTransactionProjectionBatch)
    (declaration : ProjectionModelOwnership) (staged : SameTransactionProjectionMutation)
    (row : TableRowMutation) : Prop where
  ownership : batch.ownership = [declaration]
  mutations : batch.mutations = [staged]
  scope : InPartition batch.topology batch.partition staged.scope
  upsert : staged.mutation = .upsertRow row
  model : staged.scope.model = row.schema.modelName
  owner : declaration.model = row.schema.modelName ∧ declaration.table = row.schema.tableName
  plan : staged.mutation.validate = .ok ()

theorem SameTransactionProjectionBatch.validate_ok {batch : SameTransactionProjectionBatch}
    (h : batch.validate = .ok ())
    : ∃ declaration staged row, batch.Valid declaration staged row := by
  unfold SameTransactionProjectionBatch.validate at h
  split at h
  · rename_i staged observation hmutations hobservations
    split at h
    · rename_i declaration hownership
      simp only [Result.bind_eq_ok_iff] at h
      obtain ⟨_, -, _, hscope, h⟩ := h
      split at h
      · rename_i row hrow
        simp only [Result.bind_eq_ok_iff, Result.error_bind, Result.guard_eq_ok_iff, not_or,
          not_not, liftTable, Result.mapError_eq_ok_iff] at h
        obtain ⟨-, ⟨hmodel, hname, htable⟩, _, hplan, -⟩ := h
        exact ⟨declaration, staged, row, hownership, hmutations, validateScope_ok hscope, hrow,
          hmodel, ⟨hname, htable⟩, Result.forM_eq_ok_iff.mp hplan _ (List.mem_singleton_self _)⟩
      · cases h
    · cases h
  · cases h

end Distributed.ProjectionProtocol
