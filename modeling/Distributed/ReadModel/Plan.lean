import Distributed.Foundation.Map
import Distributed.Foundation.Sorting
import Distributed.Table.WritePlan

/-! The builder that stages row mutations and sorts them into a write plan.
-/

namespace Distributed.ReadModel

open Distributed.Foundation Distributed.Platform Distributed.Table

structure RowIdentity where
  tableName : String
  key : String
deriving DecidableEq

def RowIdentity.of (crates : Crates) (schema : TableSchema) (key : RowKey) : RowIdentity :=
  ⟨schema.tableName, keyFingerprint crates key⟩

structure StagedMutation where
  sequence : Nat
  mutation : TableMutation

structure ReadModelWritePlanBuilder where
  mutations : List StagedMutation := []
  expectedVersions : Map RowIdentity Nat := ∅
  nextSequence : Nat := 0

/-- A `u64` counter that stops at its largest value. -/
def saturatingSuccessor (value : Nat) : Nat := min (value + 1) (2 ^ 64 - 1)

namespace ReadModelWritePlanBuilder

def new : ReadModelWritePlanBuilder := {}

def push (builder : ReadModelWritePlanBuilder) (mutation : TableMutation)
    : ReadModelWritePlanBuilder :=
  { builder with
    mutations := builder.mutations ++ [⟨builder.nextSequence, mutation⟩]
    nextSequence := saturatingSuccessor builder.nextSequence }

def expectVersion (crates : Crates) (schema : TableSchema) (key : RowKey) (version : Nat)
    (builder : ReadModelWritePlanBuilder) : Except TableStoreError ReadModelWritePlanBuilder := do
  schema.validate
  validateKey schema key
  validateExpectedVersion (.exact version) schema
  .ok { builder with
    expectedVersions := builder.expectedVersions.insert (.of crates schema key) version }

def expectedFor (crates : Crates) (builder : ReadModelWritePlanBuilder) (schema : TableSchema)
    (key : RowKey) : ExpectedVersion :=
  match builder.expectedVersions.lookup (.of crates schema key) with
  | some version => .exact version
  | none => .any

/-- `stage_full_row` of a model with this schema, key and row. -/
def stageFullRow (crates : Crates) (schema : TableSchema) (key : RowKey) (values : RowValues)
    (mode : RowWriteMode) (expectedVersion : Option ExpectedVersion)
    (builder : ReadModelWritePlanBuilder)
    : Except TableStoreError ReadModelWritePlanBuilder := do
  schema.validate
  validateKey schema key
  .ok (builder.push (.upsertRow {
    schema
    key
    values
    expectedVersion := expectedVersion.getD (builder.expectedFor crates schema key)
    mode }))

def stagePatch (crates : Crates) (schema : TableSchema) (key : RowKey) (patch : RowValues)
    (mode : PatchMode) (builder : ReadModelWritePlanBuilder)
    : Except TableStoreError ReadModelWritePlanBuilder := do
  schema.validate
  validateKey schema key
  .ok (builder.push (.patchRow {
    schema
    key
    patch
    expectedVersion := builder.expectedFor crates schema key
    mode }))

def delete (crates : Crates) (schema : TableSchema) (key : RowKey)
    (builder : ReadModelWritePlanBuilder)
    : Except TableStoreError ReadModelWritePlanBuilder := do
  schema.validate
  validateKey schema key
  .ok (builder.push (.deleteRow {
    schema
    key
    expectedVersion := builder.expectedFor crates schema key }))

/-- Strings in the order of their characters. -/
def compareText (left right : String) : Ordering :=
  compareOfLessAndEq left.toList right.toList

/-- The comparator `into_write_plan` sorts with. -/
def compareStaged (crates : Crates) (left right : StagedMutation) : Ordering :=
  (compare left.mutation.operationRank right.mutation.operationRank).then <|
    ((left.mutation.dependencyOrder right.mutation).getD .eq).then <|
      (compareText (left.mutation.sortKey crates) (right.mutation.sortKey crates)).then <|
        compare left.sequence right.sequence

def lessStaged (crates : Crates) (left right : StagedMutation) : Bool :=
  compareStaged crates left right = .lt

/-- Nothing is returned where `sort_by` leaves open what it does. -/
def intoWritePlan (crates : Crates) (builder : ReadModelWritePlanBuilder)
    : Option (Except TableStoreError TableWritePlan) :=
  (sortSlice (lessStaged crates) builder.mutations).map fun sorted => do
    let plan := sorted.map StagedMutation.mutation
    validateWritePlan plan
    .ok plan

end ReadModelWritePlanBuilder

end Distributed.ReadModel
