import Distributed.Platform.Integers
import Distributed.Projection.Ambiguity
import Distributed.ProjectionProtocol.Validation
import Distributed.Table.RowKeys

/-! The two derivations of a row key from a resolved logical key: the lowering goes by the
type of the column, the executor by the tag of the value.
-/

namespace Distributed.Projection

open Distributed.DomainEvent Distributed.Foundation Distributed.Platform

open Distributed.ProjectionProtocol Distributed.Table

/-- An unsigned value is stored as `i64` where it fits. -/
def unsignedRowValue (value : Int) : RowValue :=
  if value < 2 ^ 63 then .i64 (Int64.ofInt value) else .u64 (UInt64.ofNat value.toNat)

/-- What `projection_value_to_row` and `resolved_key` read of a field's metadata. -/
structure ProjectionModelFieldMetadata where
  fieldName : String
  columnName : String

/-- A read model with its derived metadata: one entry for each column, in their order. -/
structure ProjectionReadModelMetadata where
  schema : TableSchema
  projectionFields : List ProjectionModelFieldMetadata
  derived : projectionFields = schema.columns.map fun column =>
    ⟨column.fieldName, column.columnName⟩

/-- The `Debug` form. -/
def columnTypeText (crates : Crates) : ColumnType → String
  | .text => "Text"
  | .boolean => "Boolean"
  | .integer => "Integer"
  | .unsignedInteger => "UnsignedInteger"
  | .float => "Float"
  | .bytes => "Bytes"
  | .json => "Json"
  | .timestamp => "Timestamp"
  | .unsupported typeName => "Unsupported(" ++ crates.strDebug typeName ++ ")"

section Derivations

variable (crates : Crates) (floats : Floats)

mutual

/-- `projection_value_to_json` of the lowering. -/
def loweredJson : ProjectionValue → Except TableStoreError Json
  | .null => .ok .null
  | .boolean value => .ok (.bool value)
  | .i64 text =>
      match parseI64 text with
      | some value =>
          .ok (.number (if value < 0 then .negInt value else .posInt value.toNat))
      | none => .error (.metadata "invalid canonical i64 projection value")
  | .u64 text =>
      match parseU64 text with
      | some value => .ok (.number (.posInt value.toNat))
      | none => .error (.metadata "invalid canonical u64 projection value")
  | .f64 text =>
      match floats.parse text with
      | some bits =>
          if f64IsFinite bits then .ok (.number (.float bits))
          else .error (.metadata "non-finite canonical f64 projection value")
      | none => .error (.metadata "invalid canonical f64 projection value")
  | .string text => .ok (.string text)
  | .enum _ variant => .ok (.string variant)
  | .list values => do
      let items ← loweredItems values
      .ok (.array items)
  | .object fields => do
      let members ← loweredMembers fields
      .ok (.ofFields members)

def loweredItems : List ProjectionValue → Except TableStoreError (List Json)
  | [] => .ok []
  | value :: rest => do
      let first ← loweredJson value
      let others ← loweredItems rest
      .ok (first :: others)

def loweredMembers : List (String × ProjectionValue) → Except TableStoreError JsonFields
  | [] => .ok []
  | (name, value) :: rest => do
      let first ← loweredJson value
      let others ← loweredMembers rest
      .ok ((name, first) :: others)

end

def incompatible (columnType : ColumnType) : TableStoreError :=
  .metadata
    ("portable projection value is incompatible with column type `"
      ++ columnTypeText crates columnType ++ "`")

/-- A byte of a `Bytes` column. -/
def loweredByte (value : ProjectionValue) : Except TableStoreError UInt8 :=
  match value with
  | .u64 text =>
      match parseU8 text with
      | some byte => .ok (UInt8.ofNat byte.toNat)
      | none => .error (incompatible crates .bytes)
  | _ => .error (incompatible crates .bytes)

def projectionValueToRow (value : ProjectionValue) (columnType : ColumnType)
    : Except TableStoreError RowValue :=
  match columnType, value with
  | _, .null => .ok .null
  | .boolean, .boolean value => .ok (.bool value)
  | .integer, .i64 text =>
      match parseI64 text with
      | some value => .ok (.i64 (Int64.ofInt value))
      | none => .error (incompatible crates columnType)
  | .unsignedInteger, .u64 text =>
      match parseU64 text with
      | some value => .ok (unsignedRowValue value)
      | none => .error (incompatible crates columnType)
  | .float, .f64 text =>
      match floats.parse text with
      | some bits => .ok (.f64 bits)
      | none => .error (incompatible crates columnType)
  | .text, .string text | .timestamp, .string text => .ok (.string text)
  | .text, .enum _ variant | .timestamp, .enum _ variant => .ok (.string variant)
  | .bytes, .list values => do
      let bytes ← values.mapM (loweredByte crates)
      .ok (.bytes bytes)
  | .json, value => do
      let json ← loweredJson floats value
      .ok (.json json)
  | _, _ => .error (incompatible crates columnType)

/-- One iteration of `resolved_key`. -/
def lowerKeyField (model : ProjectionReadModelMetadata) (row : RowKey)
    (field : ResolvedProjectionKeyField) : Except TableStoreError RowKey :=
  match model.projectionFields.find? fun metadata => metadata.fieldName = field.name with
  | none =>
      .error (.metadata
        s!"model `{model.schema.modelName}` has no projection key field `{field.name}`")
  | some metadata =>
      match model.schema.columns.find? fun column => column.columnName = metadata.columnName with
      | none =>
          .error (.metadata
            s!"model `{model.schema.modelName}` is missing column `{metadata.columnName}`")
      | some column => do
          let value ← projectionValueToRow crates floats field.value column.columnType
          .ok (row.insert metadata.columnName value)

def resolvedKey (model : ProjectionReadModelMetadata) (key : ResolvedProjectionKey)
    : Except TableStoreError RowKey := do
  model.schema.validate
  key.fields.foldlM (lowerKeyField crates floats model) .empty

/-- The row value of a key field, by the tag of the value. -/
def scalarRowValue (field : ResolvedProjectionKeyField)
    : Except ProjectionProtocolError RowValue :=
  match field.value with
  | .boolean value => .ok (.bool value)
  | .i64 text =>
      match parseI64 text with
      | some value => .ok (.i64 (Int64.ofInt value))
      | none => .error (.invalidBatch "projection key contains an invalid canonical i64")
  | .u64 text =>
      match parseU64 text with
      | some value => .ok (unsignedRowValue value)
      | none => .error (.invalidBatch "projection key contains an invalid canonical u64")
  | .f64 text =>
      match floats.parse text with
      | some bits => .ok (.f64 bits)
      | none => .error (.invalidBatch "projection key contains an invalid canonical f64")
  | .string text | .enum _ text => .ok (.string text)
  | .null | .list _ | .object _ =>
      .error (.invalidBatch s!"projection key field `{field.name}` is not a portable scalar")

/-- One iteration of `resolved_row_key`. -/
def insertKeyField (schema : TableSchema) (row : RowKey) (field : ResolvedProjectionKeyField)
    : Except ProjectionProtocolError RowKey :=
  match schema.columns.find? fun column => column.fieldName = field.name with
  | none =>
      .error (.invalidBatch
        s!"projection key field `{field.name}` is absent from model `{schema.modelName}`")
  | some column => do
      let value ← scalarRowValue floats field
      .ok (row.insert column.columnName value)

def resolvedRowKey (schema : TableSchema) (key : ResolvedProjectionKey)
    : Except ProjectionProtocolError RowKey := do
  let row ← key.fields.foldlM (insertKeyField floats schema) .empty
  (validateKey schema row).mapError .table
  .ok row

end Derivations

theorem validateColumns_nodup {modelName : String} {seen names : List String}
    {columns : List TableColumn}
    (h : TableSchema.validateColumns modelName seen columns = .ok names)
    : (columns.map TableColumn.columnName).Nodup
      ∧ ∀ column ∈ columns, column.columnName ∉ seen := by
  induction columns generalizing seen with
  | nil => simp
  | cons column rest ih =>
      unfold TableSchema.validateColumns at h
      split at h
      · cases h
      · split at h
        · cases h
        · rename_i hfresh
          split at h
          · cases h
          · split at h
            · cases h
            · have hrest : TableSchema.validateColumns modelName (column.columnName :: seen) rest
                  = .ok names := by
                split at h <;> (obtain ⟨_, -, h⟩ := Result.bind_eq_ok_iff.mp h; exact h)
              exact Result.nodup_unseen_cons.mpr ⟨hfresh, ih hrest⟩

theorem validate_columns_nodup {schema : TableSchema} (h : schema.validate = .ok ())
    : (schema.columns.map TableColumn.columnName).Nodup := by
  simp only [TableSchema.validate, Result.error_bind, Result.guard_eq_ok_iff,
    Result.bind_eq_ok_iff] at h
  obtain ⟨_, _, hcolumns, _⟩ := h
  exact (validateColumns_nodup hcolumns).1

theorem validate_primaryKey_ne_nil {schema : TableSchema} (h : schema.validate = .ok ())
    : schema.primaryKey ≠ [] := by
  simp only [TableSchema.validate, Result.error_bind, Result.guard_eq_ok_iff,
    Result.bind_eq_ok_iff] at h
  obtain ⟨_, _, _, _, _, hkey, _⟩ := h
  exact hkey

theorem find?_columnName {columns : List TableColumn}
    (hnodup : (columns.map TableColumn.columnName).Nodup) {column : TableColumn}
    (hmem : column ∈ columns)
    : columns.find? (fun other => other.columnName = column.columnName) = some column := by
  have hfound : (columns.find? fun other => other.columnName = column.columnName).isSome := by
    rw [List.find?_isSome]
    exact ⟨column, hmem, by simp⟩
  obtain ⟨found, hfound⟩ := Option.isSome_iff_exists.mp hfound
  have hname : found.columnName = column.columnName := by
    simpa using List.find?_some hfound
  rw [hfound, List.inj_on_of_nodup_map hnodup (List.mem_of_find?_eq_some hfound) hmem hname]

/-- The column of a key field. -/
def fieldColumn (schema : TableSchema) (name : String) : Option TableColumn :=
  schema.columns.find? fun column => column.fieldName = name

/-- Each iteration adds an entry of its item. -/
def Inserts {ε Item : Type} (step : RowKey → Item → Except ε RowKey)
    (Entry : Item → String → RowValue → Prop) : Prop :=
  ∀ row item next, step row item = .ok next →
    ∃ name value, Entry item name value ∧ next = row.insert name value

/-- A loop that inserts leaves an entry under the name of each item and no entry that is not
of an item. -/
theorem Inserts.foldlM {ε Item : Type} {step : RowKey → Item → Except ε RowKey}
    {Entry : Item → String → RowValue → Prop} (hinserts : Inserts step Entry)
    {items : List Item} {row final : RowKey} (h : items.foldlM step row = .ok final)
    : (∀ name value, final.get? name = some value →
        row.get? name = some value ∨ ∃ item ∈ items, Entry item name value)
      ∧ (∀ name, (row.get? name).isSome → (final.get? name).isSome)
      ∧ ∀ item ∈ items, ∃ name value, Entry item name value ∧ (final.get? name).isSome := by
  induction items generalizing row with
  | nil =>
      cases h
      exact ⟨fun _ _ => .inl, fun _ => id, by simp⟩
  | cons item rest ih =>
      rw [List.foldlM_cons, Result.bind_eq_ok_iff] at h
      obtain ⟨next, hnext, hrest⟩ := h
      obtain ⟨added, stored, hentry, rfl⟩ := hinserts row item next hnext
      obtain ⟨horigin, hkept, hnamed⟩ := ih hrest
      refine ⟨?_, ?_, ?_⟩
      · intro name value hvalue
        rcases horigin name value hvalue with hrow | ⟨other, hother, hvalue⟩
        · by_cases hname : name = added
          · subst hname
            rw [SortedMap.get?_insert_self] at hrow
            cases hrow
            exact .inr ⟨item, List.mem_cons_self .., hentry⟩
          · rw [SortedMap.get?_insert_ne _ _ hname] at hrow
            exact .inl hrow
        · exact .inr ⟨other, List.mem_cons_of_mem _ hother, hvalue⟩
      · intro name hname
        refine hkept name ?_
        by_cases hsame : name = added
        · simp [hsame]
        · rwa [SortedMap.get?_insert_ne _ _ hsame]
      · intro other hother
        rcases List.mem_cons.mp hother with rfl | hother
        · exact ⟨added, stored, hentry, hkept added (by simp)⟩
        · exact hnamed other hother

section Agreement

variable {crates : Crates} {floats : Floats} {model : ProjectionReadModelMetadata}

/-- The column of a lowered key field is the one of the field's name. -/
theorem lowerKeyField_ok (hnodup : (model.schema.columns.map TableColumn.columnName).Nodup)
    {row next : RowKey} {field : ResolvedProjectionKeyField}
    (h : lowerKeyField crates floats model row field = .ok next)
    : ∃ column value, fieldColumn model.schema field.name = some column
        ∧ projectionValueToRow crates floats field.value column.columnType = .ok value
        ∧ next = row.insert column.columnName value := by
  have hmetadata : (model.projectionFields.find? fun metadata => metadata.fieldName = field.name)
      = (model.schema.columns.find? fun column => column.fieldName = field.name).map
        fun column => ⟨column.fieldName, column.columnName⟩ := by
    rw [model.derived, List.find?_map]
    rfl
  unfold lowerKeyField at h
  rw [hmetadata] at h
  cases hfind : model.schema.columns.find? fun column => column.fieldName = field.name with
  | none =>
      rw [hfind] at h
      cases h
  | some column =>
      rw [hfind] at h
      simp only [Option.map_some,
        find?_columnName hnodup (List.mem_of_find?_eq_some hfind), Result.bind_eq_ok_iff] at h
      obtain ⟨value, hvalue, hnext⟩ := h
      cases hnext
      exact ⟨column, value, hfind, hvalue, rfl⟩

/-- The executor writes neither null nor JSON. -/
theorem scalarRowValue_scalar {field : ResolvedProjectionKeyField} {value : RowValue}
    (h : scalarRowValue floats field = .ok value)
    : value ≠ .null ∧ ∀ json, value ≠ .json json := by
  have hunsigned : ∀ number : Int, unsignedRowValue number ≠ .null
      ∧ ∀ json, unsignedRowValue number ≠ .json json := by
    intro number
    unfold unsignedRowValue
    split <;> simp
  unfold scalarRowValue at h
  split at h
  all_goals
    try split at h
    all_goals
      cases h
      try simp
  exact hunsigned _

/-- A key component that a column other than JSON takes is a scalar of that column. -/
theorem scalarRowValue_eq {field : ResolvedProjectionKeyField} {columnType : ColumnType}
    {value : RowValue} (hkey : field.value.validKeyComponent = true)
    (hjson : columnType ≠ .json)
    (h : projectionValueToRow crates floats field.value columnType = .ok value)
    : scalarRowValue floats field = .ok value := by
  obtain ⟨ordinal, name, component⟩ := field
  cases component with
  | null | list | object => cases hkey
  | boolean flag =>
      cases columnType with
      | boolean => cases h; rfl
      | json => exact absurd rfl hjson
      | _ => cases h
  | i64 text =>
      cases columnType with
      | integer =>
          cases hparse : parseI64 text <;> simp [projectionValueToRow, hparse] at h
          simp [scalarRowValue, hparse, h]
      | json => exact absurd rfl hjson
      | _ => cases h
  | u64 text =>
      cases columnType with
      | unsignedInteger =>
          cases hparse : parseU64 text <;> simp [projectionValueToRow, hparse] at h
          simp [scalarRowValue, hparse, h]
      | json => exact absurd rfl hjson
      | _ => cases h
  | f64 text =>
      cases columnType with
      | float =>
          cases hparse : floats.parse text <;> simp [projectionValueToRow, hparse] at h
          simp [scalarRowValue, hparse, h]
      | json => exact absurd rfl hjson
      | _ => cases h
  | string | enum =>
      cases columnType with
      | text | timestamp => cases h; rfl
      | json => exact absurd rfl hjson
      | _ => cases h

theorem insertKeyField_inserts {schema : TableSchema}
    : Inserts (insertKeyField floats schema)
        fun field _ value => scalarRowValue floats field = .ok value := by
  intro row field next h
  unfold insertKeyField at h
  split at h
  · cases h
  · rename_i column _
    simp only [Result.bind_eq_ok_iff] at h
    obtain ⟨value, hvalue, hnext⟩ := h
    cases hnext
    exact ⟨column.columnName, value, hvalue, rfl⟩

/-- Where no field names a JSON column, both derivations insert the same values. -/
theorem insertKeyFields_eq
    (hnodup : (model.schema.columns.map TableColumn.columnName).Nodup)
    {fields : List ResolvedProjectionKeyField} {row final : RowKey}
    (hscalar : ∀ field ∈ fields, field.value.validKeyComponent = true)
    (hjson : ∀ field ∈ fields, ∀ column, fieldColumn model.schema field.name = some column →
      column.columnType ≠ .json)
    (h : fields.foldlM (lowerKeyField crates floats model) row = .ok final)
    : fields.foldlM (insertKeyField floats model.schema) row = .ok final := by
  induction fields generalizing row with
  | nil =>
      cases h
      rfl
  | cons field rest ih =>
      rw [List.foldlM_cons, Result.bind_eq_ok_iff] at h
      obtain ⟨next, hnext, hrest⟩ := h
      obtain ⟨column, value, hfind, hvalue, rfl⟩ := lowerKeyField_ok hnodup hnext
      have hscalarValue := scalarRowValue_eq (hscalar field (List.mem_cons_self ..))
        (hjson field (List.mem_cons_self ..) column hfind) hvalue
      have hinsert : insertKeyField floats model.schema row field
          = .ok (row.insert column.columnName value) := by
        rw [fieldColumn] at hfind
        simp only [insertKeyField, hfind, hscalarValue, Result.ok_bind]
      rw [List.foldlM_cons, hinsert]
      exact ih (fun other hother => hscalar other (List.mem_cons_of_mem _ hother))
        (fun other hother => hjson other (List.mem_cons_of_mem _ hother)) hrest

/-- The entry that the lowering makes of a key field. -/
def LoweredEntry (crates : Crates) (floats : Floats) (schema : TableSchema)
    (field : ResolvedProjectionKeyField) (name : String) (value : RowValue) : Prop :=
  ∃ column, fieldColumn schema field.name = some column ∧ column.columnName = name
    ∧ projectionValueToRow crates floats field.value column.columnType = .ok value

theorem lowerKeyField_inserts
    (hnodup : (model.schema.columns.map TableColumn.columnName).Nodup)
    : Inserts (lowerKeyField crates floats model) (LoweredEntry crates floats model.schema) := by
  intro row field next h
  obtain ⟨column, value, hfind, hvalue, hnext⟩ := lowerKeyField_ok hnodup h
  exact ⟨column.columnName, value, ⟨column, hfind, rfl, hvalue⟩, hnext⟩

/-- A lowered key component is JSON in a JSON column, and nowhere null. -/
theorem projectionValueToRow_component {field : ResolvedProjectionKeyField}
    {columnType : ColumnType} {value : RowValue} (hkey : field.value.validKeyComponent = true)
    (h : projectionValueToRow crates floats field.value columnType = .ok value)
    : value ≠ .null ∧ (columnType = .json → ∃ json, value = .json json) := by
  by_cases hjson : columnType = .json
  · subst hjson
    have hlowered : ∃ json, value = .json json := by
      cases hvalue : field.value with
      | null =>
          rw [hvalue] at hkey
          cases hkey
      | _ =>
          rw [hvalue] at h
          obtain ⟨json, -, hrow⟩ := Result.bind_eq_ok_iff.mp h
          cases hrow
          exact ⟨json, rfl⟩
    obtain ⟨json, rfl⟩ := hlowered
    exact ⟨fun hnull => (by cases hnull), fun _ => ⟨json, rfl⟩⟩
  · exact ⟨(scalarRowValue_scalar (scalarRowValue_eq hkey hjson h)).1,
      fun h => absurd h hjson⟩

section Derived

variable {fields : List ResolvedProjectionKeyField} {row : RowKey}
  (hschema : model.schema.validate = .ok ())
  (hscalar : ∀ field ∈ fields, field.value.validKeyComponent = true)
  (hlowered : fields.foldlM (lowerKeyField crates floats model) .empty = .ok row)

include hschema hlowered

theorem loweredKey_entry {name : String} {value : RowValue} (h : row.get? name = some value)
    : ∃ field ∈ fields, LoweredEntry crates floats model.schema field name value := by
  rcases ((lowerKeyField_inserts (validate_columns_nodup hschema)).foldlM hlowered).1
    name value h with hempty | hfield
  · cases hempty
  · exact hfield

theorem loweredKey_get? {field : ResolvedProjectionKeyField} (hfield : field ∈ fields)
    {column : TableColumn} (hcolumn : fieldColumn model.schema field.name = some column)
    : ∃ value, row.get? column.columnName = some value := by
  obtain ⟨-, -, hnamed⟩ :=
    (lowerKeyField_inserts (validate_columns_nodup hschema)).foldlM hlowered
  obtain ⟨_, _, ⟨found, hfound, rfl, -⟩, hpresent⟩ := hnamed field hfield
  cases hcolumn.symm.trans hfound
  exact Option.isSome_iff_exists.mp hpresent

include hscalar

/-- The lowered key is valid when its fields name the columns of the primary key, all of
them and no others. -/
theorem validateKey_loweredKey
    : validateKey model.schema row = .ok ()
      ↔ (∀ field ∈ fields, ∀ column, fieldColumn model.schema field.name = some column →
          column.columnName ∈ model.schema.primaryKey)
        ∧ ∀ name ∈ model.schema.primaryKey, ∃ field ∈ fields, ∃ column,
            fieldColumn model.schema field.name = some column ∧ column.columnName = name := by
  rw [validateKey_eq_ok_iff]
  constructor
  · rintro ⟨-, hcolumns, hothers⟩
    constructor
    · intro field hfield column hcolumn
      obtain ⟨value, hvalue⟩ := loweredKey_get? hschema hlowered hfield hcolumn
      exact hothers column.columnName value hvalue
    · intro name hname
      obtain ⟨value, hvalue, -⟩ := hcolumns name hname
      obtain ⟨field, hfield, column, hcolumn, hsame, -⟩ :=
        loweredKey_entry hschema hlowered hvalue
      exact ⟨field, hfield, column, hcolumn, hsame⟩
  · rintro ⟨hnamed, hcomplete⟩
    have hvalues : ∀ name ∈ model.schema.primaryKey,
        ∃ value, row.get? name = some value ∧ value ≠ .null := by
      intro name hname
      obtain ⟨field, hfield, column, hcolumn, rfl⟩ := hcomplete name hname
      obtain ⟨value, hvalue⟩ := loweredKey_get? hschema hlowered hfield hcolumn
      obtain ⟨other, hother, _, -, -, hrow⟩ := loweredKey_entry hschema hlowered hvalue
      exact ⟨value, hvalue, (projectionValueToRow_component (hscalar other hother) hrow).1⟩
    refine ⟨?_, hvalues, ?_⟩
    · obtain ⟨name, hname⟩ := List.exists_mem_of_ne_nil _ (validate_primaryKey_ne_nil hschema)
      obtain ⟨value, hvalue, -⟩ := hvalues name hname
      exact List.ne_nil_of_mem (SortedMap.get?_eq_some.mp hvalue)
    · intro name value hvalue
      obtain ⟨field, hfield, column, hcolumn, rfl, -⟩ := loweredKey_entry hschema hlowered hvalue
      exact hnamed field hfield column hcolumn

/-- The executor derives the lowered key when no field names a JSON column. -/
theorem insertKeyFields_eq_ok_iff
    : fields.foldlM (insertKeyField floats model.schema) .empty = .ok row
      ↔ ∀ field ∈ fields, ∀ column, fieldColumn model.schema field.name = some column →
          column.columnType ≠ .json := by
  have hnodup := validate_columns_nodup hschema
  refine ⟨?_, fun hjson => insertKeyFields_eq hnodup hscalar hjson hlowered⟩
  intro hinserted field hfield column hcolumn htype
  -- The lowering has JSON in this column, from whichever field it is, and the executor never.
  obtain ⟨value, hvalue⟩ := loweredKey_get? hschema hlowered hfield hcolumn
  obtain ⟨other, hother, found, hfound, hname, hrow⟩ :=
    loweredKey_entry hschema hlowered hvalue
  have hsame : found = column := List.inj_on_of_nodup_map hnodup
    (List.mem_of_find?_eq_some hfound) (List.mem_of_find?_eq_some hcolumn) hname
  obtain ⟨json, rfl⟩ :=
    (projectionValueToRow_component (hscalar other hother) hrow).2 (hsame ▸ htype)
  rcases (insertKeyField_inserts.foldlM hinserted).1 _ _ hvalue with hempty | ⟨_, _, hentry⟩
  · cases hempty
  · exact (scalarRowValue_scalar hentry).2 json rfl

end Derived

end Agreement

/-- The components of a resolved key are scalars. -/
theorem resolveKey_scalars {crates : Crates} {floats : Floats}
    {occurrence : DomainEventOccurrence} {body : Json} {fields : List ProjectionKeyField}
    {key : ResolvedProjectionKey}
    (h : resolveKey crates floats occurrence body fields = .ok key)
    : ∀ field ∈ key.fields, field.value.validKeyComponent = true := by
  simp only [resolveKey, Result.bind_eq_ok_iff] at h
  obtain ⟨resolved, hresolved, _, _, hkey⟩ := h
  cases hkey
  intro field hfield
  obtain ⟨source, -, hsource⟩ := forall₂_mem_right (Result.mapM_eq_ok_iff.mp hresolved) hfield
  simp only [resolveKeyField, Result.bind_eq_ok_iff] at hsource
  obtain ⟨outcome, _, hsource⟩ := hsource
  split at hsource
  · split at hsource
    · rename_i hvalid
      cases hsource
      exact hvalid
    · cases hsource
  · cases hsource
  · cases hsource

/-- The fields of the key name the columns of the primary key, all of them and no others, and
none of these is a JSON column. -/
structure KeyFits (schema : TableSchema) (key : ResolvedProjectionKey) : Prop where
  named : ∀ field ∈ key.fields, ∀ column, fieldColumn schema field.name = some column →
    column.columnName ∈ schema.primaryKey ∧ column.columnType ≠ .json
  complete : ∀ name ∈ schema.primaryKey, ∃ field ∈ key.fields, ∃ column,
    fieldColumn schema field.name = some column ∧ column.columnName = name

/-- A lowered key is derived alike by the executor if and only if its fields fit the schema. -/
theorem row_key_derivations_agree {crates : Crates} {floats : Floats}
    {occurrence : DomainEventOccurrence} {body : Json} {fields : List ProjectionKeyField}
    {key : ResolvedProjectionKey}
    (hresolved : resolveKey crates floats occurrence body fields = .ok key)
    (model : ProjectionReadModelMetadata) {row : RowKey}
    (hrow : resolvedKey crates floats model key = .ok row)
    : resolvedRowKey floats model.schema key = .ok row ↔ KeyFits model.schema key := by
  obtain ⟨hschema, hlowered⟩ := Result.seq_eq_ok_iff.mp hrow
  have hscalar := resolveKey_scalars hresolved
  have hinserted := insertKeyFields_eq_ok_iff hschema hscalar hlowered
  have hvalid := validateKey_loweredKey hschema hscalar hlowered
  have hboth : resolvedRowKey floats model.schema key = .ok row
      ↔ key.fields.foldlM (insertKeyField floats model.schema) .empty = .ok row
        ∧ validateKey model.schema row = .ok () := by
    simp only [resolvedRowKey, Result.bind_eq_ok_iff, Result.mapError_eq_ok_iff]
    constructor
    · rintro ⟨derived, hderived, _, hkey, hsame⟩
      cases hsame
      exact ⟨hderived, hkey⟩
    · rintro ⟨hderived, hkey⟩
      exact ⟨row, hderived, (), hkey, rfl⟩
  rw [hboth, hinserted, hvalid]
  constructor
  · rintro ⟨hjson, hnamed, hcomplete⟩
    exact ⟨fun field hfield column hcolumn =>
      ⟨hnamed field hfield column hcolumn, hjson field hfield column hcolumn⟩, hcomplete⟩
  · rintro ⟨hnamed, hcomplete⟩
    exact ⟨fun field hfield column hcolumn => (hnamed field hfield column hcolumn).2,
      fun field hfield column hcolumn => (hnamed field hfield column hcolumn).1, hcomplete⟩

def noteModel : ProjectionReadModelMetadata where
  schema := noteTable
  projectionFields := [⟨"id", "id"⟩, ⟨"title", "title"⟩]
  derived := rfl

/-- The key of the note whose id is the aggregate's. -/
def noteKeyFields : List ProjectionKeyField := [⟨0, "id", .envelope .aggregateId⟩]

theorem note_key_derived_alike
    : ∃ key, resolveKey noteCrates unusedFloats noteRenamed .null noteKeyFields = .ok key
      ∧ resolvedKey noteCrates unusedFloats noteModel key = .ok (noteKey "a")
      ∧ resolvedRowKey unusedFloats noteTable key = .ok (noteKey "a") := by
  obtain ⟨key, hkey, hrow, hfields⟩ : ∃ key,
      resolveKey noteCrates unusedFloats noteRenamed .null noteKeyFields = .ok key
      ∧ resolvedKey noteCrates unusedFloats noteModel key = .ok (noteKey "a")
      ∧ key.fields = [⟨0, "id", .string "a"⟩] :=
    ⟨_, rfl, rfl, rfl⟩
  refine ⟨key, hkey, hrow, (row_key_derivations_agree hkey noteModel hrow).mpr ⟨?_, ?_⟩⟩
  · rw [hfields]
    intro field hfield column hcolumn
    cases List.mem_singleton.mp hfield
    cases hcolumn
    decide
  · rw [hfields]
    intro name hname
    cases List.mem_singleton.mp hname
    exact ⟨_, List.mem_singleton_self _, _, rfl, rfl⟩

/-- Notes whose id is kept as JSON. -/
def jsonNoteTable : TableSchema where
  modelName := "Note"
  tableName := "notes"
  columns := [{ fieldName := "id", columnName := "id", columnType := .json, primaryKey := true }]
  primaryKey := ["id"]

def jsonNoteModel : ProjectionReadModelMetadata where
  schema := jsonNoteTable
  projectionFields := [⟨"id", "id"⟩]
  derived := rfl

/-- A JSON key column: both derivations give a valid row key, and the keys differ. -/
theorem json_key_derived_differently
    : ∃ key row, resolveKey noteCrates unusedFloats noteRenamed .null noteKeyFields = .ok key
      ∧ jsonNoteTable.validate = .ok ()
      ∧ resolvedKey noteCrates unusedFloats jsonNoteModel key = .ok row
      ∧ validateKey jsonNoteTable row = .ok ()
      ∧ row.get? "id" = some (.json (.string "a"))
      ∧ resolvedRowKey unusedFloats jsonNoteTable key = .ok (noteKey "a")
      ∧ row ≠ noteKey "a" :=
  ⟨_, _, rfl, rfl, rfl, rfl, rfl, rfl, by decide⟩

end Distributed.Projection
