import Distributed.Foundation.Map
import Distributed.Table.Mutation

/-! Applying a write plan to the in-memory rows.
-/

namespace Distributed.Table

open Distributed.Foundation Distributed.Platform

abbrev TableWritePlan : Type := List TableMutation

structure StoredRow where
  values : RowValues
  version : Nat

/-- The rows of every table, under their storage keys. -/
abbrev RelationalRows : Type := Map String StoredRow

def initialModelVersion : Nat := 1

/-- `next_model_version`; versions are `u64`. -/
def nextModelVersion (key : String) (currentVersion : Option Nat)
    : Except TableStoreError Nat :=
  match currentVersion with
  | some version =>
      if version + 1 < 2 ^ 64 then .ok (version + 1)
      else .error (.storage s!"read model version overflow for {key}")
  | none => .ok initialModelVersion

def concurrencyConflict (crates : Crates) (schema : TableSchema) (key : RowKey)
    (expected actual : Nat) : TableStoreError :=
  .concurrencyConflict schema.tableName (keyFingerprint crates key) expected actual

def validateRowExpectedVersion (crates : Crates) (schema : TableSchema) (key : RowKey)
    (expectedVersion : ExpectedVersion) (currentVersion : Option Nat)
    : Except TableStoreError Unit :=
  match expectedVersion, currentVersion with
  | .any, _ => .ok ()
  | .exact expected, some actual =>
      if expected = actual then .ok ()
      else .error (concurrencyConflict crates schema key expected actual)
  | .exact _, none => .error (.notFound schema.tableName (keyFingerprint crates key))
  | .notExists, none => .ok ()
  | .notExists, some actual => .error (concurrencyConflict crates schema key 0 actual)

/-- Equality of row values; a NaN differs from itself and the two zeros are equal. -/
def RowValue.same : RowValue → RowValue → Bool
  | .f64 left, .f64 right =>
      let isNan (bits : UInt64) := 0x7FF0000000000000 < bits.toNat % 2 ^ 63
      !isNan left && !isNan right
        && (left = right || (isZeroFloat left && isZeroFloat right))
  | .json left, .json right => left.same right
  | left, right => left = right

/-- `apply_patch_values_preserving_key`. -/
def applyPatchValuesPreservingKey (schema : TableSchema) (key : RowKey)
    : RowValues → List (String × RowValue) → Except TableStoreError RowValues
  | values, [] => .ok values
  | values, (column, value) :: rest =>
      if column ∈ schema.primaryKey then
        match key.get? column with
        | none =>
            .error (.metadata
              (s!"read model `{schema.modelName}` row key is missing primary-key column "
                ++ s!"`{column}`"))
        | some keyValue =>
            if keyValue.same value then
              applyPatchValuesPreservingKey schema key (values.insert column value) rest
            else
              .error (.metadata
                (s!"read model `{schema.modelName}` patch cannot change primary-key column "
                  ++ s!"`{column}`"))
      else applyPatchValuesPreservingKey schema key (values.insert column value) rest

def rowValuesFromKeyAndPatch (schema : TableSchema) (key : RowKey) (patch : RowValues)
    : Except TableStoreError RowValues := do
  let values ← applyPatchValuesPreservingKey schema key key patch.entries
  validateRowValues schema values true
  .ok values

/-- One iteration of `apply_read_model_write_plan`. -/
def applyMutation (crates : Crates) (rows : RelationalRows)
    : TableMutation → Except TableStoreError RelationalRows
  | .upsertRow mutation => do
      let key := relationalStorageKey crates mutation.schema.tableName mutation.key
      let currentVersion := (rows.lookup key).map StoredRow.version
      validateRowExpectedVersion crates mutation.schema mutation.key
        mutation.expectedVersion currentVersion
      match mutation.mode, currentVersion with
      | .insert, some actual =>
          .error (concurrencyConflict crates mutation.schema mutation.key 0 actual)
      | _, _ => .ok ()
      let version ← nextModelVersion key currentVersion
      .ok (rows.insert key ⟨mutation.values, version⟩)
  | .patchRow mutation => do
      let key := relationalStorageKey crates mutation.schema.tableName mutation.key
      let currentVersion := (rows.lookup key).map StoredRow.version
      validateRowExpectedVersion crates mutation.schema mutation.key
        mutation.expectedVersion currentVersion
      match rows.lookup key with
      | some row => do
          let values ← applyPatchValuesPreservingKey mutation.schema mutation.key
            row.values mutation.patch.entries
          let version ← nextModelVersion key currentVersion
          .ok (rows.insert key ⟨values, version⟩)
      | none =>
          match mutation.mode with
          | .insertMissing => do
              let values ← rowValuesFromKeyAndPatch mutation.schema mutation.key
                mutation.patch
              .ok (rows.insert key ⟨values, initialModelVersion⟩)
          | .updateExisting =>
              .error (.notFound mutation.schema.tableName
                (keyFingerprint crates mutation.key))
  | .deleteRow mutation => do
      let key := relationalStorageKey crates mutation.schema.tableName mutation.key
      let currentVersion := (rows.lookup key).map StoredRow.version
      validateRowExpectedVersion crates mutation.schema mutation.key
        mutation.expectedVersion currentVersion
      .ok (rows.erase key)

/-- `apply_read_model_write_plan` on the staged rows. -/
def applyReadModelWritePlan (crates : Crates) (plan : TableWritePlan)
    (rows : RelationalRows) : Except TableStoreError RelationalRows := do
  validateWritePlan plan
  plan.foldlM (applyMutation crates) rows

/-- Write plans applied one after the other. -/
def applyPlans (crates : Crates) (plans : List TableWritePlan) (rows : RelationalRows)
    : Except TableStoreError RelationalRows :=
  plans.foldlM (fun rows plan => applyReadModelWritePlan crates plan rows) rows

end Distributed.Table
