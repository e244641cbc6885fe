import Distributed.Foundation.SortedMap
import Distributed.Platform.Crates
import Mathlib.Data.String.Basic

/-! Table schemas, row keys and row values.
-/

namespace Distributed.Table

open Distributed.Foundation Distributed.Platform

inductive TableStoreError where
  | concurrencyConflict (collection id : String) (expected actual : Nat)
  | storage (message : String)
  | causalWriteRequired (table : String)
  | notFound (collection id : String)
  | metadata (message : String)
deriving DecidableEq

inductive ColumnType where
  | text
  | boolean
  | integer
  | unsignedInteger
  | float
  | bytes
  | json
  | timestamp
  | unsupported (typeName : String)
deriving DecidableEq

structure ForeignKey where
  table : String
  column : String
deriving DecidableEq

structure TableColumn where
  fieldName : String
  columnName : String
  columnType : ColumnType
  nullable : Bool := false
  hasDefault : Bool := false
  primaryKey : Bool := false
  foreignKey : Option ForeignKey := none
  delegatedFrom : Option String := none
  skipped : Bool := false
deriving DecidableEq

structure TableIndex where
  name : Option String
  columns : List String
deriving DecidableEq

inductive RelationshipKind where
  | hasMany
  | belongsTo
  | manyToMany
deriving DecidableEq

structure RelationshipDef where
  fieldName : String
  kind : RelationshipKind
  targetModel : String
  foreignKey : Option String
  targetForeignKey : Option String
  through : Option String := none
deriving DecidableEq

structure TableSchema where
  modelName : String
  tableName : String
  columns : List TableColumn
  primaryKey : List String
  versionColumn : Option String := none
  foreignKeys : List ForeignKey := []
  indexes : List TableIndex := []
  relationships : List RelationshipDef := []
deriving DecidableEq

/-- A typed value of a row. An `f64` is its IEEE bits. -/
inductive RowValue where
  | null
  | bool (value : Bool)
  | i64 (value : Int64)
  | u64 (value : UInt64)
  | f64 (bits : UInt64)
  | string (value : String)
  | bytes (value : Bytes)
  | json (value : Json)
deriving DecidableEq

abbrev RowKey : Type := SortedMap String RowValue

abbrev RowValues : Type := SortedMap String RowValue

def validateForeignKey (modelName : String) (foreignKey : ForeignKey)
    : Except TableStoreError Unit :=
  if foreignKey.table = "" ∨ foreignKey.column = "" then
    .error (.metadata s!"model `{modelName}` has an invalid foreign-key declaration")
  else .ok ()

/-- The column loop of `TableSchema::validate`; `seen` are the names inserted so far. -/
def TableSchema.validateColumns (modelName : String)
    : List String → List TableColumn → Except TableStoreError (List String)
  | seen, [] => .ok seen
  | seen, column :: rest => do
      if column.columnName = "" then
        .error (.metadata s!"model `{modelName}` has a column with an empty name")
      else if column.columnName ∈ seen then
        .error (.metadata
          s!"model `{modelName}` declares duplicate column `{column.columnName}`")
      else
        match column.columnType with
        | .unsupported typeName =>
            .error (.metadata
              (s!"model `{modelName}` field `{column.fieldName}` has unsupported field shape "
                ++ s!"`{typeName}`"))
        | _ =>
            if column.primaryKey && column.nullable then
              .error (.metadata
                (s!"model `{modelName}` primary-key column `{column.columnName}` "
                  ++ "must be non-null"))
            else do
              match column.foreignKey with
              | some foreignKey => validateForeignKey modelName foreignKey
              | none => .ok ()
              validateColumns modelName (column.columnName :: seen) rest

def TableSchema.validateVersionColumn (schema : TableSchema) (names : List String)
    : Except TableStoreError Unit :=
  match schema.versionColumn with
  | none => .ok ()
  | some versionColumn =>
      if versionColumn = "" then
        .error (.metadata s!"model `{schema.modelName}` declares an empty version column")
      else if versionColumn ∈ names then
        .error (.metadata
          (s!"model `{schema.modelName}` version column `{versionColumn}` "
            ++ "conflicts with a mapped column"))
      else .ok ()

def TableSchema.validatePrimaryKeyColumn (schema : TableSchema) (names : List String)
    (column : String) : Except TableStoreError Unit :=
  if column ∉ names then
    .error (.metadata
      s!"model `{schema.modelName}` primary key references missing column `{column}`")
  else if (schema.columns.find? fun candidate => candidate.columnName = column).any
      (fun candidate => candidate.nullable) then
    .error (.metadata
      (s!"model `{schema.modelName}` primary-key column `{column}` must be non-null"))
  else .ok ()

/-- The index loop of `TableSchema::validate`; `seen` are the index names so far. -/
def TableSchema.validateIndexes (modelName : String) (names : List String)
    : List String → List TableIndex → Except TableStoreError Unit
  | _, [] => .ok ()
  | seen, index :: rest =>
      match index.name.filter fun name => name ∈ seen with
      | some name =>
          .error (.metadata s!"model `{modelName}` declares duplicate index name `{name}`")
      | none =>
          if index.columns = [] then
            .error (.metadata s!"model `{modelName}` declares an index with no columns")
          else
            match index.columns.find? fun column => column ∉ names with
            | some column =>
                .error (.metadata
                  s!"model `{modelName}` index references missing column `{column}`")
            | none => validateIndexes modelName names (index.name.toList ++ seen) rest

def TableSchema.validateRelationship (modelName : String) (relationship : RelationshipDef)
    : Except TableStoreError Unit :=
  let named := s!"model `{modelName}` relationship `{relationship.fieldName}` "
  if relationship.targetModel = "" then
    .error (.metadata (named ++ "must declare a target model"))
  else
    match relationship.kind with
    | .hasMany | .belongsTo =>
        if relationship.foreignKey.all fun foreignKey => foreignKey = "" then
          .error (.metadata (named ++ "must declare a foreign key"))
        else .ok ()
    | .manyToMany =>
        if relationship.foreignKey = some "" then
          .error (.metadata (named ++ "foreign_key must not be empty"))
        else if relationship.targetForeignKey = some "" then
          .error (.metadata (named ++ "target_foreign_key must not be empty"))
        else .ok ()

def TableSchema.validate (schema : TableSchema) : Except TableStoreError Unit := do
  if schema.tableName = "" then
    .error (.metadata "table schema must declare a table name")
  let names ← validateColumns schema.modelName [] schema.columns
  schema.validateVersionColumn names
  if schema.primaryKey = [] then
    .error (.metadata
      s!"model `{schema.modelName}` must declare at least one primary-key column")
  schema.primaryKey.forM (schema.validatePrimaryKeyColumn names)
  schema.foreignKeys.forM (validateForeignKey schema.modelName)
  validateIndexes schema.modelName names [] schema.indexes
  schema.relationships.forM (validateRelationship schema.modelName)

end Distributed.Table
