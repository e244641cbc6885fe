import Distributed.Foundation.Result
import Distributed.Table.RowEffects

/-! Rows and the keys they are stored under.
A plan is checked for the columns of its rows and of its keys, but not for the one against
the other. Rows that carry their keys keep them through every plan.
-/

namespace Distributed.Table

open Distributed.Foundation Distributed.Platform

/-- One column of `key_from_row`. -/
def readKeyColumn (schema : TableSchema) (row : RowValues) (key : RowKey) (column : String)
    : Except TableStoreError RowKey :=
  match row.get? column with
  | some value => .ok (key.insert column value)
  | none =>
      .error (.metadata
        s!"model `{schema.modelName}` row is missing primary-key column `{column}`")

def keyFromRow (schema : TableSchema) (row : RowValues) : Except TableStoreError RowKey := do
  let key ← schema.primaryKey.foldlM (readKeyColumn schema row) SortedMap.empty
  validateKey schema key
  .ok key

/-- The row has the key's values in the columns of the primary key. -/
def CarriesKey (schema : TableSchema) (key : RowKey) (row : RowValues) : Prop :=
  ∀ column ∈ schema.primaryKey, row.get? column = key.get? column

section KeyFromRow

variable {schema : TableSchema} {key : RowKey} {row : RowValues}

theorem validateKeyColumn_eq_ok_iff {column : String}
    : validateKeyColumn schema key column = .ok ()
      ↔ ∃ value, key.get? column = some value ∧ value ≠ .null := by
  unfold validateKeyColumn
  split <;> simp_all

/-- A valid key is nonempty and has a value in each column of the primary key and in no
other. -/
theorem validateKey_eq_ok_iff
    : validateKey schema key = .ok ()
      ↔ key.entries ≠ []
        ∧ (∀ column ∈ schema.primaryKey, ∃ value, key.get? column = some value ∧ value ≠ .null)
        ∧ ∀ column value, key.get? column = some value → column ∈ schema.primaryKey := by
  have hothers : (∀ column value, key.get? column = some value → column ∈ schema.primaryKey)
      ↔ key.keys.find? (fun column => column ∉ schema.primaryKey) = none := by
    simp only [List.find?_eq_none, SortedMap.keys, List.mem_map, SortedMap.get?_eq_some]
    simp
  rw [hothers]
  simp only [validateKey, Result.error_bind, Result.guard_eq_ok_iff, Result.seq_eq_ok_iff,
    Result.forM_eq_ok_iff, validateKeyColumn_eq_ok_iff]
  split <;> simp_all

theorem readKeyColumns_ok (schema : TableSchema) {columns : List String} (read : RowKey)
    (hcolumns : ∀ column ∈ columns, row.get? column = key.get? column)
    (hpresent : ∀ column ∈ columns, (key.get? column).isSome)
    : ∃ result, columns.foldlM (readKeyColumn schema row) read = .ok result
        ∧ ∀ column, result.get? column
          = if column ∈ columns then key.get? column else read.get? column := by
  induction columns generalizing read with
  | nil => exact ⟨read, rfl, fun column => by simp⟩
  | cons first rest ih =>
      obtain ⟨value, hvalue⟩ := Option.isSome_iff_exists.mp (hpresent first (by simp))
      have hrow : row.get? first = some value := (hcolumns first (by simp)).trans hvalue
      obtain ⟨result, hresult, hget⟩ := ih (read.insert first value)
        (fun column hmem => hcolumns column (List.mem_cons_of_mem _ hmem))
        (fun column hmem => hpresent column (List.mem_cons_of_mem _ hmem))
      refine ⟨result, ?_, fun column => ?_⟩
      · rw [List.foldlM_cons, readKeyColumn, hrow, Result.ok_bind, hresult]
      · rw [hget]
        by_cases hfirst : column = first
        · subst hfirst
          by_cases hmem : column ∈ rest <;> simp [hmem, hvalue]
        · simp [hfirst, SortedMap.get?_insert_ne _ _ hfirst]

/-- A row that carries a valid key gives it back. -/
theorem keyFromRow_eq_ok (hvalid : validateKey schema key = .ok ())
    (hcarries : CarriesKey schema key row)
    : keyFromRow schema row = .ok key := by
  obtain ⟨-, hpresent, hothers⟩ := validateKey_eq_ok_iff.mp hvalid
  obtain ⟨result, hresult, hget⟩ :=
    readKeyColumns_ok schema SortedMap.empty hcarries fun column hcolumn => by
      obtain ⟨value, hvalue, -⟩ := hpresent column hcolumn
      rw [hvalue]
      rfl
  have hkey : result = key := by
    refine SortedMap.ext_get? fun column => ?_
    rw [hget]
    by_cases hmem : column ∈ schema.primaryKey
    · rw [if_pos hmem]
    · rw [if_neg hmem, SortedMap.get?_empty]
      exact (Option.eq_none_iff_forall_ne_some.mpr
        fun value hvalue => hmem (hothers column value hvalue)).symm
  rw [keyFromRow, hresult, Result.ok_bind, hkey, hvalid, Result.ok_bind]

end KeyFromRow

/-- What the mutation writes into the columns of its key is the key. A patch that names such
a column is refused for any other value, up to the sign of a zero (also in a JSON key). -/
def TableMutation.CarriesOwnKey : TableMutation → Prop
  | .upsertRow mutation => CarriesKey mutation.schema mutation.key mutation.values
  | .patchRow mutation =>
      ∀ column ∈ mutation.schema.primaryKey, ∀ value,
        mutation.patch.get? column = some value → mutation.key.get? column = some value
  | .deleteRow _ => True

/-- Mutations with one storage key write the same row. -/
def OneRowPerStorageKey (crates : Crates) (mutations : List TableMutation) : Prop :=
  ∀ mutation ∈ mutations, ∀ other ∈ mutations,
    mutation.lockKey crates = other.lockKey crates →
      mutation.schema = other.schema ∧ mutation.key = other.key

/-- Every row carries the key of some mutation under whose storage key it is. -/
def RowsCarryKeys (crates : Crates) (mutations : List TableMutation) (rows : RelationalRows)
    : Prop :=
  ∀ storageKey row, rows.lookup storageKey = some row →
    ∃ mutation ∈ mutations, mutation.lockKey crates = storageKey
      ∧ mutation.validate = .ok ()
      ∧ CarriesKey mutation.schema mutation.key row.values

section Mutations

variable {crates : Crates} {rows next : RelationalRows} {mutation : TableMutation}

/-- A patched column has its old value or one of the patch. -/
theorem applyPatchValuesPreservingKey_get? {schema : TableSchema} {key : RowKey}
    {values result : RowValues} {patch : List (String × RowValue)}
    (h : applyPatchValuesPreservingKey schema key values patch = .ok result) (column : String)
    : result.get? column = values.get? column
      ∨ ∃ value, (column, value) ∈ patch ∧ result.get? column = some value := by
  induction patch generalizing values with
  | nil =>
      cases h
      exact .inl rfl
  | cons entry rest ih =>
      obtain ⟨patched, value⟩ := entry
      have hrest : applyPatchValuesPreservingKey schema key (values.insert patched value) rest
          = .ok result := by
        rw [applyPatchValuesPreservingKey] at h
        split at h
        · split at h
          · cases h
          · split at h
            · exact h
            · cases h
        · exact h
      rcases ih hrest with hold | ⟨other, hmem, hother⟩
      · by_cases hcolumn : column = patched
        · subst hcolumn
          exact .inr ⟨value, List.mem_cons_self .., by rw [hold, SortedMap.get?_insert_self]⟩
        · exact .inl (by rw [hold, SortedMap.get?_insert_ne _ _ hcolumn])
      · exact .inr ⟨other, List.mem_cons_of_mem _ hmem, hother⟩

/-- A patch that repeats the key's values keeps the key of the row. -/
theorem CarriesKey.patched {patch : PatchTableRowMutation} {values result : RowValues}
    (hcarries : CarriesKey patch.schema patch.key values)
    (hown : (TableMutation.patchRow patch).CarriesOwnKey)
    (h : applyPatchValuesPreservingKey patch.schema patch.key values patch.patch.entries
      = .ok result)
    : CarriesKey patch.schema patch.key result := by
  intro column hcolumn
  rcases applyPatchValuesPreservingKey_get? h column with hold | ⟨value, hmem, hvalue⟩
  · rw [hold, hcarries column hcolumn]
  · rw [hvalue, hown column hcolumn value (SortedMap.get?_eq_some.mpr hmem)]

theorem eq_of_lookup_insert {key : String} {stored row : StoredRow}
    (h : (rows.insert key stored).lookup key = some row)
    : stored = row := by
  rwa [Map.lookup_insert_eq, if_pos rfl, Option.some.injEq] at h

/-- The row a mutation leaves carries the mutation's key if the row before it did. -/
theorem applyMutation_carriesKey (h : applyMutation crates rows mutation = .ok next)
    (hown : mutation.CarriesOwnKey)
    (hbefore : ∀ row, rows.lookup (mutation.lockKey crates) = some row →
      CarriesKey mutation.schema mutation.key row.values)
    {row : StoredRow} (hrow : next.lookup (mutation.lockKey crates) = some row)
    : CarriesKey mutation.schema mutation.key row.values := by
  cases mutation with
  | upsertRow mutation =>
      simp only [applyMutation, Result.bind_eq_ok_iff] at h
      obtain ⟨-, -, h⟩ := h
      split at h
      · cases h
      · simp only [Result.ok_bind, Result.bind_eq_ok_iff] at h
        obtain ⟨version, -, h⟩ := h
        cases h
        cases eq_of_lookup_insert hrow
        exact hown
  | patchRow mutation =>
      simp only [applyMutation, Result.bind_eq_ok_iff] at h
      obtain ⟨-, -, h⟩ := h
      split at h
      · rename_i old hold
        simp only [Result.bind_eq_ok_iff] at h
        obtain ⟨values, hvalues, version, -, h⟩ := h
        cases h
        cases eq_of_lookup_insert hrow
        exact (hbefore old hold).patched hown hvalues
      · split at h
        · simp only [Result.bind_eq_ok_iff, rowValuesFromKeyAndPatch] at h
          obtain ⟨values, ⟨patched, hpatched, -, -, hvalues⟩, h⟩ := h
          cases hvalues
          cases h
          cases eq_of_lookup_insert hrow
          exact CarriesKey.patched (fun _ _ => rfl) hown hpatched
        · cases h
  | deleteRow mutation =>
      obtain ⟨after, hnone, hlookup⟩ := applyMutation_lookup h
      rw [hlookup, if_pos rfl] at hrow
      subst hrow
      cases hnone

end Mutations

section Plans

theorem TableMutation.validateKey_of_validate {mutation : TableMutation}
    (h : mutation.validate = .ok ())
    : validateKey mutation.schema mutation.key = .ok () := by
  cases mutation with
  | upsertRow mutation =>
      simp only [validate, validateRowMutation, Result.seq_eq_ok_iff] at h
      exact h.2.1
  | patchRow mutation =>
      simp only [validate, validatePatchMutation, Result.seq_eq_ok_iff] at h
      exact h.2.1
  | deleteRow mutation =>
      simp only [validate, validateDeleteMutation, Result.seq_eq_ok_iff] at h
      exact h.2.1

variable {crates : Crates} {mutations : List TableMutation} {rows next : RelationalRows}

theorem RowsCarryKeys.mutation {mutation : TableMutation}
    (hrows : RowsCarryKeys crates mutations rows)
    (hone : OneRowPerStorageKey crates mutations) (hmem : mutation ∈ mutations)
    (hvalid : mutation.validate = .ok ()) (hown : mutation.CarriesOwnKey)
    (h : applyMutation crates rows mutation = .ok next)
    : RowsCarryKeys crates mutations next := by
  intro storageKey row hrow
  obtain ⟨_, -, hlookup⟩ := applyMutation_lookup h
  by_cases hkey : storageKey = mutation.lockKey crates
  · subst hkey
    refine ⟨mutation, hmem, rfl, hvalid, applyMutation_carriesKey h hown ?_ hrow⟩
    intro before hbefore
    obtain ⟨other, hother, hsame, -, hcarries⟩ := hrows _ _ hbefore
    obtain ⟨hschema, hkey⟩ := hone other hother mutation hmem hsame
    rwa [hschema, hkey] at hcarries
  · rw [hlookup, if_neg hkey] at hrow
    exact hrows storageKey row hrow

theorem RowsCarryKeys.plan {plan : TableWritePlan}
    (hrows : RowsCarryKeys crates mutations rows)
    (hone : OneRowPerStorageKey crates mutations) (hmem : ∀ mutation ∈ plan, mutation ∈ mutations)
    (hown : ∀ mutation ∈ plan, mutation.CarriesOwnKey)
    (h : applyReadModelWritePlan crates plan rows = .ok next)
    : RowsCarryKeys crates mutations next := by
  rw [applyReadModelWritePlan, Result.seq_eq_ok_iff] at h
  obtain ⟨hvalid, hrun⟩ := h
  rw [validateWritePlan, Result.forM_eq_ok_iff] at hvalid
  refine Result.foldlM_invariant (RowsCarryKeys crates mutations) hrows ?_ hrun
  intro rows mutation next hmutation hrows hstep
  exact hrows.mutation hone (hmem mutation hmutation) (hvalid mutation hmutation)
    (hown mutation hmutation) hstep

/-- When writes carry their keys and storage keys tell rows apart, every stored row gives
back the key it is stored under. -/
theorem stored_rows_give_back_their_keys (crates : Crates) (plans : List TableWritePlan)
    (hown : ∀ mutation ∈ plans.flatten, mutation.CarriesOwnKey)
    (hone : OneRowPerStorageKey crates plans.flatten) {rows : RelationalRows}
    (happlied : applyPlans crates plans ∅ = .ok rows)
    : ∀ storageKey row, rows.lookup storageKey = some row →
      (∃ mutation ∈ plans.flatten, mutation.lockKey crates = storageKey)
      ∧ ∀ mutation ∈ plans.flatten, mutation.lockKey crates = storageKey →
        CarriesKey mutation.schema mutation.key row.values
        ∧ keyFromRow mutation.schema row.values = .ok mutation.key := by
  have hrows : RowsCarryKeys crates plans.flatten rows := by
    refine Result.foldlM_invariant (RowsCarryKeys crates plans.flatten) ?_ ?_ happlied
    · intro storageKey row hrow
      cases hrow
    · intro rows plan next hplan hrows hstep
      have hmem : ∀ mutation ∈ plan, mutation ∈ plans.flatten := fun mutation hmutation =>
        List.mem_flatten_of_mem hplan hmutation
      exact hrows.plan hone hmem (fun mutation hmutation => hown mutation (hmem mutation hmutation))
        hstep
  intro storageKey row hrow
  obtain ⟨writer, hwriter, hkey, hvalid, hcarries⟩ := hrows storageKey row hrow
  refine ⟨⟨writer, hwriter, hkey⟩, ?_⟩
  intro mutation hmutation hsame
  obtain ⟨hschema, hkeys⟩ := hone writer hwriter mutation hmutation (hkey.trans hsame.symm)
  rw [← hschema, ← hkeys]
  exact ⟨hcarries, keyFromRow_eq_ok (TableMutation.validateKey_of_validate hvalid) hcarries⟩

end Plans

def noteTable : TableSchema where
  modelName := "Note"
  tableName := "notes"
  columns :=
    [{ fieldName := "id", columnName := "id", columnType := .text, primaryKey := true },
      { fieldName := "title", columnName := "title", columnType := .text, nullable := true }]
  primaryKey := ["id"]

def noteKey (id : String) : RowKey := SortedMap.empty.insert "id" (.string id)

def titleOf (title : String) : RowValues := SortedMap.empty.insert "title" (.string title)

/-- Write the row of the note `id` under the key of the note `key`. -/
def writeNote (key id : String) : TableMutation :=
  .upsertRow ⟨noteTable, noteKey key, noteKey id, .any, .upsert⟩

def titleNote (id title : String) : TableMutation :=
  .patchRow ⟨noteTable, noteKey id, titleOf title, .any, .insertMissing⟩

def notePlans : List TableWritePlan := [[writeNote "a" "a"], [titleNote "a" "first"]]

theorem titled_note_gives_back_its_key
    : (∃ rows row, applyPlans uncalledCrates notePlans ∅ = .ok rows
        ∧ rows.lookup ((titleNote "a" "first").lockKey uncalledCrates) = some row
        ∧ row.values.get? "title" = some (.string "first")
        ∧ keyFromRow noteTable row.values = .ok (noteKey "a")) := by
  have hmutations : ∀ mutation ∈ notePlans.flatten,
      mutation = writeNote "a" "a" ∨ mutation = titleNote "a" "first" := by
    intro mutation hmutation
    simpa [notePlans] using hmutation
  have hown : ∀ mutation ∈ notePlans.flatten, mutation.CarriesOwnKey := by
    intro mutation hmutation
    rcases hmutations mutation hmutation with rfl | rfl
    · exact fun _ _ => rfl
    · intro column hcolumn value hvalue
      rw [List.mem_singleton.mp hcolumn] at hvalue
      cases hvalue
  have hone : OneRowPerStorageKey uncalledCrates notePlans.flatten := by
    intro mutation hmutation other hother _
    rcases hmutations mutation hmutation with rfl | rfl <;>
      rcases hmutations other hother with rfl | rfl <;> exact ⟨rfl, rfl⟩
  obtain ⟨rows, row, happlied, hrow, htitle⟩ : ∃ rows row,
      applyPlans uncalledCrates notePlans ∅ = .ok rows
      ∧ rows.lookup ((titleNote "a" "first").lockKey uncalledCrates) = some row
      ∧ row.values.get? "title" = some (.string "first") :=
    ⟨_, _, rfl, rfl, rfl⟩
  have hkeys := stored_rows_give_back_their_keys uncalledCrates notePlans hown hone happlied
    _ row hrow
  exact ⟨rows, row, happlied, hrow, htitle,
    (hkeys.2 (titleNote "a" "first") (by simp [notePlans]) rfl).2⟩

/-- A full row is stored as it is given, so the note `b` is found under the key of `a`. -/
theorem note_stored_under_other_key
    : ∃ rows row, applyPlans uncalledCrates [[writeNote "a" "b"]] ∅ = .ok rows
      ∧ rows.lookup ((writeNote "a" "b").lockKey uncalledCrates) = some row
      ∧ keyFromRow noteTable row.values = .ok (noteKey "b")
      ∧ noteKey "b" ≠ (writeNote "a" "b").key :=
  ⟨_, _, rfl, rfl, rfl, by decide⟩

end Distributed.Table
