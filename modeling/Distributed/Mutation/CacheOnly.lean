import Distributed.Mutation.Bind

/-! Cache-only operations of a program and the projection arm it binds to.
Invalidations write no row and are left out of the arm, but the operations that remain
keep their staging ordinals.
-/

namespace Distributed.Mutation

open Distributed.Foundation Distributed.Platform Distributed.Projection

/-- The operations that write rows. -/
def MutationProgram.rowOperations (program : MutationProgram) : List MutationOperation :=
  program.operations.filter fun operation => operation.kind ≠ .invalidate

/-- The operations numbered by their positions from `start` on. -/
def renumberFrom (start : Nat) (operations : List MutationOperation)
    : List MutationOperation :=
  (operations.zipIdx start).map fun (operation, index) =>
    { operation with stagingOrdinal := index }

/-- The program without its invalidations, the remaining operations renumbered. -/
def MutationProgram.withoutInvalidations (program : MutationProgram) : MutationProgram :=
  { program with operations := renumberFrom 0 program.rowOperations }

/-- No row operation is staged after an invalidation. -/
def InvalidationsLast (operations : List MutationOperation) : Prop :=
  operations.Pairwise fun earlier later => earlier.kind = .invalidate → later.kind = .invalidate

/-- The operations apart from where they are staged. -/
def unstaged (operations : List ProjectionOperation) : List ProjectionOperation :=
  operations.map fun operation => { operation with stagingOrdinal := 0 }

theorem unstaged_operationIds (operations : List ProjectionOperation)
    : (unstaged operations).map ProjectionOperation.operationId
      = operations.map ProjectionOperation.operationId := by
  rw [unstaged, List.map_map]
  rfl

theorem renumberFrom_eq_self {start : Nat} {operations : List MutationOperation}
    (h : operations.map MutationOperation.stagingOrdinal
      = List.range' start operations.length)
    : renumberFrom start operations = operations := by
  induction operations generalizing start with
  | nil => rfl
  | cons operation rest ih =>
      simp only [List.map_cons, List.length_cons, List.range'_succ, List.cons.injEq] at h
      obtain ⟨hordinal, hrest⟩ := h
      have htail : renumberFrom (start + 1) rest = rest := ih hrest
      rw [renumberFrom] at htail ⊢
      rw [List.zipIdx_cons, List.map_cons, htail, ← hordinal]

theorem rowOperations_ordinals {start : Nat} {operations : List MutationOperation}
    (h : operations.map MutationOperation.stagingOrdinal
      = List.range' start operations.length)
    (hlast : InvalidationsLast operations)
    : let kept := operations.filter fun operation => operation.kind ≠ .invalidate
      kept.map MutationOperation.stagingOrdinal = List.range' start kept.length := by
  induction operations generalizing start with
  | nil => rfl
  | cons operation rest ih =>
      simp only [List.map_cons, List.length_cons, List.range'_succ, List.cons.injEq] at h
      obtain ⟨hordinal, hrest⟩ := h
      obtain ⟨hhead, htail⟩ := List.pairwise_cons.mp hlast
      by_cases hkind : operation.kind = .invalidate
      · have hnone : (operation :: rest).filter (fun operation => operation.kind ≠ .invalidate)
            = [] := by
          rw [List.filter_eq_nil_iff]
          intro other hother
          rcases List.mem_cons.mp hother with rfl | hother
          · simpa using hkind
          · simpa using hhead other hother hkind
        simp only [hnone]
        rfl
      · have hkept := ih hrest htail
        simp [hkind, List.range'_succ, hordinal] at hkept ⊢
        exact hkept

theorem tryNew_ordinals {name : String} {version : Nat} {operations : List MutationOperation}
    {program : MutationProgram}
    (h : MutationProgram.tryNew name version operations = .ok program)
    : program.operations.map MutationOperation.stagingOrdinal
      = List.range program.operations.length := by
  simp only [MutationProgram.tryNew, Result.bind_eq_ok_iff, Result.error_bind,
    Result.guard_eq_ok_iff, validateNamedItems] at h
  obtain ⟨_, _, _, _, _, _, ⟨_, hordinals, _⟩, _, _, hprogram⟩ := h
  cases hprogram
  exact validateItemOrdinals_eq_ok_iff.mp hordinals

theorem withoutInvalidations_operations {program : MutationProgram}
    (hordinals : program.operations.map MutationOperation.stagingOrdinal
      = List.range program.operations.length)
    (hlast : InvalidationsLast program.operations)
    : program.withoutInvalidations.operations = program.rowOperations := by
  rw [List.range_eq_range'] at hordinals
  exact renumberFrom_eq_self (rowOperations_ordinals hordinals hlast)

theorem rowOperations_withoutInvalidations (program : MutationProgram)
    : program.withoutInvalidations.rowOperations = program.withoutInvalidations.operations := by
  rw [MutationProgram.rowOperations, List.filter_eq_self]
  intro operation hoperation
  obtain ⟨⟨original, index⟩, hmem, rfl⟩ := List.mem_map.mp hoperation
  exact (List.mem_filter.mp (List.fst_mem_of_mem_zipIdx hmem)).2

theorem rewriteToProjection_ordinal {bindInputPath : InputPathBinding}
    {operation : MutationOperation} {projected : ProjectionOperation}
    (h : operation.rewriteToProjection bindInputPath = .ok projected)
    : projected.stagingOrdinal = operation.stagingOrdinal := by
  unfold MutationOperation.rewriteToProjection at h
  split at h
  · cases h
  · simp only [Result.bind_eq_ok_iff, adapted, Result.mapError_eq_ok_iff,
      ProjectionOperation.tryNew, Result.optional_eq_ok_iff, Result.error_bind,
      Result.guard_eq_ok_iff] at h
    obtain ⟨_, -, _, -, _, -, _, -, _, -, _, -, -, -, -, -, -, _, -, -, _, -, h⟩ := h
    cases h
    rfl

/-- The operations of an arm are those of its program that write rows, numbered without a
gap. -/
theorem rowOperations_of_bound {binding : MutationEventBinding} {armId : String}
    {bound : ProjectionArm} (h : binding.toProjectionArm armId = .ok bound)
    : (binding.program.rowOperations.map MutationOperation.stagingOrdinal).Perm
        (List.range binding.program.rowOperations.length) := by
  simp only [MutationEventBinding.toProjectionArm, Result.bind_eq_ok_iff,
    MutationProgram.rewriteToProjectionOperations, adapted, Result.mapError_eq_ok_iff,
    ProjectionArm.tryNew, Result.error_bind, Result.guard_eq_ok_iff] at h
  obtain ⟨projected, hprojected, _, -, -, _, hordinals, -⟩ := h
  have hrows := Result.mapM_eq_ok_iff.mp hprojected
  have hsame : binding.program.rowOperations.map MutationOperation.stagingOrdinal
      = projected.map ProjectionOperation.stagingOrdinal := by
    rw [← List.forall₂_eq_eq_eq, List.forall₂_map_left_iff, List.forall₂_map_right_iff]
    exact hrows.imp fun _ _ h => (rewriteToProjection_ordinal h).symm
  have hsorted := sortBy_perm (fun left right : ProjectionOperation =>
    left.stagingOrdinal < right.stagingOrdinal) projected
  have hcounted := (validateNamedOrdinals_eq_ok_iff.mp hordinals).1
  rw [sortByOrdinal, hsorted.length_eq, ← hrows.length_eq] at hcounted
  rw [hsame]
  exact hcounted ▸ (hsorted.map _).symm

/-- A row operation after an invalidation would leave a gap where that one is staged. -/
theorem invalidationsLast_of_rowOperations {program : MutationProgram}
    (hordinals : program.operations.map MutationOperation.stagingOrdinal
      = List.range program.operations.length)
    (hrows : (program.rowOperations.map MutationOperation.stagingOrdinal).Perm
      (List.range program.rowOperations.length))
    : InvalidationsLast program.operations := by
  have hstaged (index : Nat) (hindex : index < program.operations.length)
      : program.operations[index].stagingOrdinal = index := by
    have hitem := congrArg (fun ordinals => ordinals[index]?) hordinals
    simpa [hindex] using hitem
  refine List.pairwise_iff_getElem.mpr fun earlier later hearlier hlater hlt hkind => ?_
  by_contra hrow
  have hmem : later ∈ program.rowOperations.map MutationOperation.stagingOrdinal := by
    refine List.mem_map.mpr ⟨program.operations[later], ?_, hstaged later hlater⟩
    exact List.mem_filter.mpr ⟨List.getElem_mem _, by simpa using hrow⟩
  have hbefore : earlier ∈ program.rowOperations.map MutationOperation.stagingOrdinal := by
    have hbound := List.mem_range.mp (hrows.mem_iff.mp hmem)
    exact hrows.mem_iff.mpr (List.mem_range.mpr (hlt.trans hbound))
  obtain ⟨operation, hoperation, hstage⟩ := List.mem_map.mp hbefore
  obtain ⟨hany, hwrites⟩ := List.mem_filter.mp hoperation
  obtain ⟨index, hindex, rfl⟩ := List.getElem_of_mem hany
  rw [hstaged index hindex] at hstage
  subst hstage
  simp [hkind] at hwrites

/-- Where a program without its invalidations binds, the program itself binds to the same
operations if and only if every invalidation is staged after all row operations. -/
theorem invalidations_last_keep_projection_arm {name : String} {version : Nat}
    {operations : List MutationOperation} {program : MutationProgram}
    (hprogram : MutationProgram.tryNew name version operations = .ok program)
    (selector : ProjectionEventSelector) (inputs : List MutationInputBinding) (armId : String)
    {arm : ProjectionArm}
    (hwithout : MutationEventBinding.toProjectionArm
      ⟨selector, inputs, program.withoutInvalidations⟩ armId = .ok arm)
    : (∃ bound, MutationEventBinding.toProjectionArm ⟨selector, inputs, program⟩ armId = .ok bound
        ∧ unstaged bound.operations = unstaged arm.operations)
      ↔ InvalidationsLast program.operations := by
  constructor
  · rintro ⟨bound, hbound, -⟩
    exact invalidationsLast_of_rowOperations (tryNew_ordinals hprogram)
      (rowOperations_of_bound hbound)
  · intro hlast
    have hsame : program.withoutInvalidations.rowOperations = program.rowOperations := by
      rw [rowOperations_withoutInvalidations,
        withoutInvalidations_operations (tryNew_ordinals hprogram) hlast]
    have hrewrite : ∀ bindInputPath,
        program.withoutInvalidations.rewriteToProjectionOperations bindInputPath
          = program.rewriteToProjectionOperations bindInputPath := by
      intro bindInputPath
      exact congrArg (List.mapM (MutationOperation.rewriteToProjection bindInputPath)) hsame
    refine ⟨arm, ?_, rfl⟩
    rw [MutationEventBinding.toProjectionArm] at hwithout ⊢
    rw [← hrewrite]
    exact hwithout

/-- Row operations of a program that upserts a todo and invalidates its list. -/
def saveTodo (stagingOrdinal : Nat) : MutationOperation where
  operationId := "save"
  stagingOrdinal
  kind := .upsert
  target := ⟨"Todos", "todos"⟩
  key := [⟨0, "todo_id", .inputPath ["todo_id"] .string⟩]
  fields := [⟨0, "title", .set (.inputPath ["title"] .string)⟩]
  conflict := some .primaryKey
  relationshipEffects := []
  invalidations := []
  returning := none

def refreshLists (stagingOrdinal : Nat) : MutationOperation where
  operationId := "refresh"
  stagingOrdinal
  kind := .invalidate
  target := ⟨"Lists", "lists"⟩
  key := []
  fields := []
  conflict := none
  relationshipEffects := []
  invalidations := [.model "Lists"]
  returning := none

def todoInputs : List MutationInputBinding :=
  [⟨["todo_id"], .bodyPath ["todo_id"] .string⟩, ⟨["title"], .bodyPath ["title"] .string⟩]

def todoSavedSelector : ProjectionEventSelector where
  occurrenceVersion := 1
  eventName := "todo.saved"
  eventVersion := 1
  bodyKind := .state
  bodyTypeName := "TodoState"
  bodyVersion := 1
  bodySchema := "schema"
  bodyFingerprint := "fingerprint"
  bodyCodec := "distributed-json"
  bodyCodecVersion := 1

theorem refresh_after_save_binds
    : ∃ program bound,
        MutationProgram.tryNew "save_todo" 1 [saveTodo 0, refreshLists 1] = .ok program
      ∧ MutationEventBinding.toProjectionArm ⟨todoSavedSelector, todoInputs, program⟩ "save"
        = .ok bound
      ∧ bound.operations.map ProjectionOperation.operationId = ["save"] := by
  have hprogram : MutationProgram.tryNew "save_todo" 1 [saveTodo 0, refreshLists 1]
      = .ok ⟨"save_todo", 1, [saveTodo 0, refreshLists 1]⟩ := rfl
  obtain ⟨bound, hbound, hsame⟩ := (invalidations_last_keep_projection_arm hprogram
    todoSavedSelector todoInputs "save" rfl).mpr (by simp [InvalidationsLast, saveTodo])
  refine ⟨_, bound, hprogram, hbound, ?_⟩
  rw [← unstaged_operationIds, hsame]
  rfl

/-- The same operations with the invalidation staged first: the program is accepted, and
without the invalidation it binds, but it never binds itself. -/
theorem refresh_before_save_rejected
    : ∃ program arm,
        MutationProgram.tryNew "save_todo" 1 [refreshLists 0, saveTodo 1] = .ok program
      ∧ MutationEventBinding.toProjectionArm
          ⟨todoSavedSelector, todoInputs, program.withoutInvalidations⟩ "save" = .ok arm
      ∧ MutationEventBinding.toProjectionArm ⟨todoSavedSelector, todoInputs, program⟩ "save"
        = .error (.ofProjection (.nonContiguousOrdinal "projection operation" 0 1)) :=
  ⟨_, _, rfl, rfl, rfl⟩

end Distributed.Mutation
