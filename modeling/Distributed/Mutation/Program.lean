import Distributed.Mutation.Expression
import Distributed.Projection.Program

/-! Event-independent mutation programs, as their constructors validate them, and their
rewriting into projection operations.
-/

namespace Distributed.Mutation

open Distributed.Foundation Distributed.Platform Distributed.Projection

def maxMutationOperations : Nat := maxProjectionOperationsPerOccurrence

/-- How a complete-row write resolves primary-key conflicts. -/
inductive MutationConflictTarget where
  | primaryKey
deriving DecidableEq

structure MutationKeyField where
  ordinal : Nat
  name : String
  expression : MutationExpression
deriving DecidableEq

structure MutationField where
  ordinal : Nat
  name : String
  assignment : MutationAssignment
deriving DecidableEq

/-- The field names an authoritative execution returns. -/
structure MutationReturning where
  fields : List String
deriving DecidableEq

/-- The closed set of logical mutations. `invalidate` is cache-only: it writes no row. -/
inductive MutationKind where
  | insert
  | upsert
  | patch
  | upsertPatch
  | delete
  | recreate
  | insertRelated
  | upsertRelated
  | invalidate
deriving DecidableEq

namespace MutationKind

def isPatch : MutationKind → Bool
  | .patch | .upsertPatch => true
  | _ => false

def toProjectionKind : MutationKind → Option ProjectionMutationKind
  | .insert => some .insert
  | .upsert => some .upsert
  | .patch => some .patch
  | .upsertPatch => some .upsertPatch
  | .delete => some .delete
  | .recreate => some .recreate
  | .insertRelated => some .insertRelated
  | .upsertRelated => some .upsertRelated
  | .invalidate => none

end MutationKind

structure MutationOperation where
  operationId : String
  stagingOrdinal : Nat
  kind : MutationKind
  target : ProjectionTarget
  key : List MutationKeyField
  fields : List MutationField
  conflict : Option MutationConflictTarget
  relationshipEffects : List ProjectionRelationshipEffect
  invalidations : List ProjectionInvalidation
  returning : Option MutationReturning
deriving DecidableEq

structure MutationProgram where
  name : String
  version : Nat
  operations : List MutationOperation

section Ordinals

variable {α : Type}

/-- The contiguity loop. -/
def contiguousFrom (kind : String) (ordinal : α → Nat)
    : Nat → List α → Except MutationProgramError Unit
  | _, [] => .ok ()
  | expected, item :: rest => do
      if ordinal item ≠ expected then
        .error (.nonContiguousOrdinal kind expected (ordinal item))
      contiguousFrom kind ordinal (expected + 1) rest

/-- The loop that compares each ordinal with the one before it. -/
def noRepeatFrom (kind : String) (ordinal : α → Nat)
    : Option Nat → List α → Except MutationProgramError Unit
  | _, [] => .ok ()
  | previous, item :: rest => do
      if previous = some (ordinal item) then
        .error (.duplicateOrdinal kind (ordinal item))
      noRepeatFrom kind ordinal (some (ordinal item)) rest

def validateItemOrdinals (items : List α) (kind : String) (ordinal : α → Nat)
    : Except MutationProgramError Unit := do
  contiguousFrom kind ordinal 0 items
  noRepeatFrom kind ordinal none items

/-- The first item whose key an earlier one has; `seen` are the keys before. -/
def firstRepeated (key : α → String) : List String → List α → Option String
  | _, [] => none
  | seen, item :: rest =>
      if key item ∈ seen then some (key item)
      else firstRepeated key (key item :: seen) rest

def validateDistinct (items : List α) (kind : String) (name : α → String)
    : Except MutationProgramError Unit :=
  match firstRepeated name [] items with
  | some repeated => .error (.duplicateName kind repeated)
  | none => .ok ()

/-- `validate_named_ordinals` of the mutation module. -/
def validateNamedItems (items : List α) (kind : String) (ordinal : α → Nat)
    (name : α → String) : Except MutationProgramError Unit := do
  validateItemOrdinals items kind ordinal
  validateDistinct items kind name

variable {kind : String} {ordinal : α → Nat} {name : α → String}

theorem contiguousFrom_eq_ok_iff {expected : Nat} {items : List α}
    : contiguousFrom kind ordinal expected items = .ok ()
      ↔ items.map ordinal = List.range' expected items.length := by
  induction items generalizing expected with
  | nil => simp [contiguousFrom]
  | cons item rest ih =>
      simp only [contiguousFrom, Result.error_bind, Result.guard_eq_ok_iff, ih,
        List.map_cons, List.length_cons, List.range'_succ, List.cons.injEq, not_not]

/-- Consecutive ordinals never repeat, so the second loop accepts what the first does. -/
theorem noRepeatFrom_of_contiguous {expected : Nat} {items : List α} {previous : Option Nat}
    (hbelow : ∀ ordinal ∈ previous, ordinal < expected)
    (h : items.map ordinal = List.range' expected items.length)
    : noRepeatFrom kind ordinal previous items = .ok () := by
  induction items generalizing expected previous with
  | nil => rfl
  | cons item rest ih =>
      simp only [List.map_cons, List.length_cons, List.range'_succ, List.cons.injEq] at h
      obtain ⟨hitem, hrest⟩ := h
      have hfresh : previous ≠ some (ordinal item) := by
        intro hprevious
        have := hbelow _ (by rw [hprevious]; rfl)
        omega
      have hitemBelow : ∀ value ∈ some (ordinal item), value < expected + 1 := by
        intro value hvalue
        cases hvalue
        omega
      have hnext : noRepeatFrom kind ordinal (some (ordinal item)) rest = .ok () :=
        ih hitemBelow hrest
      simp only [noRepeatFrom, Result.error_bind, Result.guard_eq_ok_iff]
      exact ⟨hfresh, hnext⟩

theorem validateItemOrdinals_eq_ok_iff {items : List α}
    : validateItemOrdinals items kind ordinal = .ok ()
      ↔ items.map ordinal = List.range items.length := by
  rw [validateItemOrdinals, Result.seq_eq_ok_iff, contiguousFrom_eq_ok_iff,
    ← List.range_eq_range']
  refine ⟨And.left, fun h => ⟨h, ?_⟩⟩
  rw [List.range_eq_range'] at h
  exact noRepeatFrom_of_contiguous (by simp) h

theorem firstRepeated_eq_none_iff {seen : List String} {items : List α}
    : firstRepeated name seen items = none
      ↔ (items.map name).Nodup ∧ ∀ item ∈ items, name item ∉ seen := by
  induction items generalizing seen with
  | nil => simp [firstRepeated]
  | cons item rest ih =>
      unfold firstRepeated
      split
      · simp [*]
      · rename_i hfresh
        rw [ih, Result.nodup_unseen_cons, and_iff_right hfresh]

theorem validateDistinct_eq_ok_iff {items : List α}
    : validateDistinct items kind name = .ok () ↔ (items.map name).Nodup := by
  have hnone : firstRepeated name [] items = none
      ↔ (items.map name).Nodup ∧ ∀ item ∈ items, name item ∉ [] := firstRepeated_eq_none_iff
  unfold validateDistinct
  cases hfirst : firstRepeated name [] items with
  | none =>
      simp only [true_iff]
      exact (hnone.mp hfirst).1
  | some repeated =>
      simp only [reduceCtorEq, false_iff]
      intro hnodup
      rw [hnone.mpr ⟨hnodup, by simp⟩] at hfirst
      cases hfirst

end Ordinals

namespace MutationOperation

/-- The rewritten fields without the unknown ones. -/
def rewriteFields (bindInputPath : InputPathBinding)
    : List MutationField → Except MutationProgramError (List ProjectionField)
  | [] => .ok []
  | field :: rest => do
      match ← field.assignment.rewriteWith bindInputPath with
      | some assignment => do
          let first ← adapted (ProjectionField.tryNew field.ordinal field.name assignment)
          let others ← rewriteFields bindInputPath rest
          .ok (first :: others)
      | none => rewriteFields bindInputPath rest

def rewriteKeyField (bindInputPath : InputPathBinding) (field : MutationKeyField)
    : Except MutationProgramError ProjectionKeyField := do
  let expression ← field.expression.rewriteWith bindInputPath
  adapted (ProjectionKeyField.tryNew field.ordinal field.name expression)

/-- Rewrite this operation into a projection operation. -/
def rewriteToProjection (bindInputPath : InputPathBinding) (operation : MutationOperation)
    : Except MutationProgramError ProjectionOperation := do
  match operation.kind.toProjectionKind with
  | none =>
      .error (.invalidOperation operation.operationId
        "invalidate is cache-only and has no projection row operation")
  | some kind => do
      let key ← operation.key.mapM (rewriteKeyField bindInputPath)
      let fields ← rewriteFields bindInputPath operation.fields
      -- Fields are renumbered after the unknown ones are left out.
      let fields ← (sortByOrdinal ProjectionField.ordinal fields).zipIdx.mapM
        fun (field, index) =>
          adapted (ProjectionField.tryNew index field.name field.assignment)
      adapted (ProjectionOperation.tryNew operation.operationId operation.stagingOrdinal kind
        operation.target key fields operation.relationshipEffects operation.invalidations)

end MutationOperation

/-- Whether two operations on one key may stand in one program. -/
def MutationOperation.compatible (left right : MutationOperation) : Bool :=
  left.kind = right.kind
    && left.relationshipEffects = right.relationshipEffects
    && if left.kind.isPatch then
        left.fields.all fun leftField =>
          match right.fields.find? fun rightField => rightField.name = leftField.name with
          | none => true
          | some rightField => rightField.assignment = leftField.assignment
      else left.fields = right.fields

/-- One pair of `validate_static_ambiguity` of the mutation module. -/
def validateOperationPair (left right : MutationOperation)
    : Except MutationProgramError Unit :=
  if left.target ≠ right.target then .ok ()
  else if left.key = right.key && !left.compatible right then
    .error (.ambiguousMutation left.target.model
      (s!"operations `{left.operationId}` and `{right.operationId}` statically target "
        ++ "the same key with order-dependent semantics"))
  else .ok ()

def validateOperationPairs : List MutationOperation → Except MutationProgramError Unit
  | [] => .ok ()
  | left :: rest => do
      rest.forM (validateOperationPair left)
      validateOperationPairs rest

namespace MutationProgram

def tryNew (name : String) (version : Nat) (operations : List MutationOperation)
    : Except MutationProgramError MutationProgram := do
  let name ← nonEmptyName name "mutation program name"
  if version = 0 then
    .error (.zeroVersion "mutation program version")
  if operations.isEmpty then
    .error (.invalidOperation name "a program requires at least one operation")
  if maxMutationOperations < operations.length then
    .error (.tooManyOperations operations.length maxMutationOperations)
  let operations := sortByOrdinal MutationOperation.stagingOrdinal operations
  validateNamedItems operations "mutation operation" MutationOperation.stagingOrdinal
    MutationOperation.operationId
  validateOperationPairs operations
  .ok { name, version, operations }

/-- Rewrite every operation that writes a row. -/
def rewriteToProjectionOperations (program : MutationProgram)
    (bindInputPath : InputPathBinding)
    : Except MutationProgramError (List ProjectionOperation) :=
  (program.operations.filter fun operation => operation.kind ≠ .invalidate).mapM
    (MutationOperation.rewriteToProjection bindInputPath)

end MutationProgram

end Distributed.Mutation
