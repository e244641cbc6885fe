import Distributed.Table.Schema

/-! Staged row mutations, their storage keys and their validation.
-/

namespace Distributed.Table

open Distributed.Foundation Distributed.Platform

inductive ExpectedVersion where
  | any
  | exact (version : Nat)
  | notExists
deriving DecidableEq

inductive RowWriteMode where
  | insert
  | upsert
deriving DecidableEq

inductive PatchMode where
  | updateExisting
  | insertMissing
deriving DecidableEq

structure TableRowMutation where
  schema : TableSchema
  key : RowKey
  values : RowValues
  expectedVersion : ExpectedVersion
  mode : RowWriteMode

structure PatchTableRowMutation where
  schema : TableSchema
  key : RowKey
  patch : RowValues
  expectedVersion : ExpectedVersion
  mode : PatchMode

structure DeleteTableRowMutation where
  schema : TableSchema
  key : RowKey
  expectedVersion : ExpectedVersion

inductive TableMutation where
  | upsertRow (mutation : TableRowMutation)
  | patchRow (mutation : PatchTableRowMutation)
  | deleteRow (mutation : DeleteTableRowMutation)

def TableMutation.schema : TableMutation → TableSchema
  | .upsertRow mutation => mutation.schema
  | .patchRow mutation => mutation.schema
  | .deleteRow mutation => mutation.schema

def TableMutation.key : TableMutation → RowKey
  | .upsertRow mutation => mutation.key
  | .patchRow mutation => mutation.key
  | .deleteRow mutation => mutation.key

def TableMutation.tableName (mutation : TableMutation) : String := mutation.schema.tableName

def TableMutation.isDelete : TableMutation → Bool
  | .deleteRow _ => true
  | _ => false

/-- The `Debug` form of a byte vector. -/
def bytesDebug (bytes : Bytes) : String :=
  "[" ++ String.intercalate ", " (bytes.map fun byte => toString byte.toNat) ++ "]"

def valueFingerprint (crates : Crates) : RowValue → String
  | .null => "null"
  | .bool value => "bool:" ++ (if value then "true" else "false")
  | .i64 value => "i64:" ++ toString value.toInt
  | .u64 value => "u64:" ++ toString value.toNat
  | .f64 bits => "f64:" ++ crates.f64Debug bits
  | .string value => "string:" ++ value
  | .bytes value => "bytes:" ++ bytesDebug value
  | .json value => "json:" ++ crates.jsonToString value

/-- `push_fingerprint_part`: a part with its UTF-8 length before it. -/
def fingerprintPart (part : String) : String :=
  toString part.utf8ByteSize ++ ":" ++ part ++ ";"

def keyFingerprint (crates : Crates) (key : RowKey) : String :=
  key.entries.foldl
    (fun fingerprint entry =>
      fingerprint ++ fingerprintPart entry.1
        ++ fingerprintPart (valueFingerprint crates entry.2))
    ""

/-- `relational_storage_key`, which `TableMutation::lock_key` spells the same way. -/
def relationalStorageKey (crates : Crates) (tableName : String) (key : RowKey) : String :=
  tableName ++ ":" ++ keyFingerprint crates key

def TableMutation.lockKey (crates : Crates) (mutation : TableMutation) : String :=
  relationalStorageKey crates mutation.tableName mutation.key

def TableMutation.operationRank : TableMutation → Nat
  | .upsertRow _ => 1
  | .patchRow _ => 2
  | .deleteRow _ => 3

def TableMutation.dependsOnTable (mutation : TableMutation) (tableName : String) : Bool :=
  mutation.schema.foreignKeys.any (fun foreignKey => foreignKey.table = tableName)
    || mutation.schema.columns.any fun column =>
      column.foreignKey.any fun foreignKey => foreignKey.table = tableName

def TableMutation.dependencyOrder (mutation other : TableMutation) : Option Ordering :=
  let deletes := mutation.operationRank = 3 ∧ other.operationRank = 3
  match mutation.dependsOnTable other.tableName, other.dependsOnTable mutation.tableName with
  | true, false => if deletes then some .lt else some .gt
  | false, true => if deletes then some .gt else some .lt
  | _, _ => none

def TableMutation.sortKey (crates : Crates) (mutation : TableMutation) : String :=
  toString mutation.operationRank ++ "|" ++ mutation.tableName ++ "|"
    ++ keyFingerprint crates mutation.key

def validateExpectedVersion (expectedVersion : ExpectedVersion) (schema : TableSchema)
    : Except TableStoreError Unit :=
  match expectedVersion with
  | .exact 0 =>
      .error (.metadata
        s!"model `{schema.modelName}` expected version must be greater than zero")
  | _ => .ok ()

def validateKeyColumn (schema : TableSchema) (key : RowKey) (column : String)
    : Except TableStoreError Unit :=
  match key.get? column with
  | some .null =>
      .error (.metadata
        s!"model `{schema.modelName}` primary-key column `{column}` cannot be null")
  | some _ => .ok ()
  | none =>
      .error (.metadata
        s!"model `{schema.modelName}` row key is missing primary-key column `{column}`")

def validateKey (schema : TableSchema) (key : RowKey) : Except TableStoreError Unit := do
  if key.entries = [] then
    .error (.metadata s!"model `{schema.modelName}` row key cannot be empty")
  schema.primaryKey.forM (validateKeyColumn schema key)
  match key.keys.find? fun column => column ∉ schema.primaryKey with
  | some column =>
      .error (.metadata
        s!"model `{schema.modelName}` row key includes non-primary-key column `{column}`")
  | none => .ok ()

def validateRowValue (schema : TableSchema) (entry : String × RowValue)
    : Except TableStoreError Unit :=
  let (columnName, value) := entry
  match schema.columns.find? fun column => column.columnName = columnName with
  | none =>
      .error (.metadata
        s!"model `{schema.modelName}` write references missing column `{columnName}`")
  | some column =>
      if value = .null ∧ column.primaryKey then
        .error (.metadata
          s!"model `{schema.modelName}` primary-key column `{columnName}` cannot be null")
      else if value = .null ∧ !column.nullable ∧ !column.hasDefault then
        .error (.metadata
          s!"model `{schema.modelName}` column `{columnName}` is not nullable")
      else .ok ()

def validateRequiredColumn (schema : TableSchema) (values : RowValues)
    (column : TableColumn) : Except TableStoreError Unit :=
  if column.skipped || column.nullable || column.hasDefault then .ok ()
  else if values.contains column.columnName then .ok ()
  else
    .error (.metadata
      s!"model `{schema.modelName}` row is missing required column `{column.columnName}`")

def validateDelegatedColumn (schema : TableSchema) (values : RowValues)
    (column : TableColumn) : Except TableStoreError Unit :=
  match values.get? column.columnName with
  | some .null | none =>
      .error (.metadata
        (s!"model `{schema.modelName}` delegated column `{column.columnName}` "
          ++ "must be populated before write"))
  | some _ => .ok ()

def validateRowValues (schema : TableSchema) (values : RowValues) (fullRow : Bool)
    : Except TableStoreError Unit := do
  values.entries.forM (validateRowValue schema)
  if fullRow then
    schema.columns.forM (validateRequiredColumn schema values)
    (schema.columns.filter fun column => column.delegatedFrom.isSome).forM
      (validateDelegatedColumn schema values)

def validateRowMutation (mutation : TableRowMutation) : Except TableStoreError Unit := do
  mutation.schema.validate
  validateKey mutation.schema mutation.key
  validateExpectedVersion mutation.expectedVersion mutation.schema
  validateRowValues mutation.schema mutation.values true

def validatePatchMutation (mutation : PatchTableRowMutation)
    : Except TableStoreError Unit := do
  mutation.schema.validate
  validateKey mutation.schema mutation.key
  validateExpectedVersion mutation.expectedVersion mutation.schema
  if mutation.patch.entries = [] then
    .error (.metadata
      s!"model `{mutation.schema.modelName}` patch must set at least one column")
  validateRowValues mutation.schema mutation.patch false

def validateDeleteMutation (mutation : DeleteTableRowMutation)
    : Except TableStoreError Unit := do
  mutation.schema.validate
  validateKey mutation.schema mutation.key
  validateExpectedVersion mutation.expectedVersion mutation.schema

def TableMutation.validate : TableMutation → Except TableStoreError Unit
  | .upsertRow mutation => validateRowMutation mutation
  | .patchRow mutation => validatePatchMutation mutation
  | .deleteRow mutation => validateDeleteMutation mutation

/-- `TableWritePlan::validate`; every adapter capability is on by default. -/
def validateWritePlan (mutations : List TableMutation) : Except TableStoreError Unit :=
  mutations.forM TableMutation.validate

end Distributed.Table
