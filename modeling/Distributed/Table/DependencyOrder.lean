import Distributed.Foundation.Cycles
import Distributed.Foundation.SortedMap
import Distributed.Table.Schema

/-! The registry of table schemas and the order in which its tables are created.
-/

namespace Distributed.Table

open Distributed.Foundation Relation

structure TableSchemaRegistry where
  schemasByTable : SortedMap String TableSchema
  tablesByModel : SortedMap String String
  keyed : ∀ entry ∈ schemasByTable.entries, entry.2.tableName = entry.1

namespace TableSchemaRegistry

def new : TableSchemaRegistry where
  schemasByTable := .empty
  tablesByModel := .empty
  keyed _ h := by cases h

theorem keyed_insert (registry : TableSchemaRegistry) (schema : TableSchema)
    : ∀ entry ∈ (registry.schemasByTable.insert schema.tableName schema).entries,
        entry.2.tableName = entry.1 := by
  intro entry hentry
  rcases SortedMap.mem_insertEntry hentry with rfl | hentry
  · rfl
  · exact registry.keyed entry hentry

def registerSchema (registry : TableSchemaRegistry) (schema : TableSchema)
    : Except TableStoreError TableSchemaRegistry := do
  schema.validate
  if registry.schemasByTable.contains schema.tableName then
    .error (.metadata s!"table schema registry already contains table `{schema.tableName}`")
  if registry.tablesByModel.contains schema.modelName then
    .error (.metadata s!"table schema registry already contains model `{schema.modelName}`")
  .ok {
    schemasByTable := registry.schemasByTable.insert schema.tableName schema
    tablesByModel := registry.tablesByModel.insert schema.modelName schema.tableName
    keyed := registry.keyed_insert schema }

def schemas (registry : TableSchemaRegistry) : List TableSchema :=
  registry.schemasByTable.entries.map Prod.snd

end TableSchemaRegistry

def schemaDependencyTables (schema : TableSchema) : List String :=
  (schema.columns.filterMap TableColumn.foreignKey).map ForeignKey.table
    ++ schema.foreignKeys.map ForeignKey.table

/-- The table depends on no other remaining one. -/
def isReady (remaining : SortedMap String TableSchema) (entry : String × TableSchema) : Bool :=
  (schemaDependencyTables entry.2).all fun dependency =>
    dependency = entry.1 || !remaining.contains dependency

def readyTables (remaining : SortedMap String TableSchema) : List (String × TableSchema) :=
  remaining.entries.filter (isReady remaining)

/-- The map without the tables that were ready. -/
def withoutReady (remaining : SortedMap String TableSchema) : SortedMap String TableSchema :=
  ((readyTables remaining).map Prod.fst).foldl SortedMap.erase remaining

theorem withoutReady_entries (remaining : SortedMap String TableSchema)
    : (withoutReady remaining).entries
      = remaining.entries.filter fun entry => !isReady remaining entry := by
  rw [withoutReady, SortedMap.entries_foldl_erase]
  refine List.filter_congr fun entry hentry => ?_
  obtain ⟨table, schema⟩ := entry
  have hkey : table ∈ (readyTables remaining).map Prod.fst
      ↔ isReady remaining (table, schema) = true := by
    constructor
    · intro h
      obtain ⟨⟨_, found⟩, hother, rfl⟩ := List.mem_map.mp h
      obtain ⟨hmem, hready⟩ := List.mem_filter.mp hother
      rwa [SortedMap.eq_of_mem_entries hentry hmem]
    · intro h
      exact List.mem_map.mpr ⟨(table, schema), List.mem_filter.mpr ⟨hentry, h⟩, rfl⟩
  simp [hkey]

theorem withoutReady_length {remaining : SortedMap String TableSchema}
    (h : readyTables remaining ≠ [])
    : (withoutReady remaining).entries.length < remaining.entries.length := by
  obtain ⟨entry, hentry⟩ := List.exists_mem_of_ne_nil _ h
  obtain ⟨hmem, hready⟩ := List.mem_filter.mp hentry
  rw [withoutReady_entries]
  exact List.length_filter_lt_length_iff_exists.mpr ⟨entry, hmem, by simp [hready]⟩

/-- The loop of `table_schemas_in_dependency_order`. -/
def orderRemaining (remaining : SortedMap String TableSchema) (ordered : List TableSchema)
    : Except TableStoreError (List TableSchema) :=
  if remaining.entries = [] then .ok ordered
  else if _hready : readyTables remaining = [] then
    .error (.metadata
      ("table schema foreign-key cycle cannot be bootstrapped inline: "
        ++ String.intercalate ", " remaining.keys))
  else orderRemaining (withoutReady remaining)
    (ordered ++ (readyTables remaining).map Prod.snd)
termination_by remaining.entries.length
decreasing_by exact withoutReady_length ‹_›

def tableSchemasInDependencyOrder (registry : TableSchemaRegistry)
    : Except TableStoreError (List TableSchema) :=
  orderRemaining (.ofList (registry.schemas.map fun schema => (schema.tableName, schema))) []

/-- A table of the map has a foreign key to a table of the map. -/
def Refers (tables : SortedMap String TableSchema) (source target : String) : Prop :=
  ∃ schema, (source, schema) ∈ tables.entries ∧ target ∈ schemaDependencyTables schema
    ∧ tables.contains target = true

/-- Every table comes after the other tables of the map it refers to. -/
def DependenciesFirst (tables : SortedMap String TableSchema) (ordered : List TableSchema)
    : Prop :=
  ∀ before schema after, ordered = before ++ schema :: after →
    ∀ target, Refers tables schema.tableName target → target ≠ schema.tableName →
      target ∈ before.map TableSchema.tableName

/-- What the loop keeps: every table of the map is ordered or remains, once, and the ordered
ones refer only to earlier ones and themselves. -/
structure PartlyOrdered (tables remaining : SortedMap String TableSchema)
    (ordered : List TableSchema) : Prop where
  complete : (ordered ++ remaining.entries.map Prod.snd).Perm (tables.entries.map Prod.snd)
  remains : ∀ entry ∈ remaining.entries, entry ∈ tables.entries
  first : DependenciesFirst tables ordered

section

variable {tables remaining : SortedMap String TableSchema} {ordered : List TableSchema}

theorem PartlyOrdered.start (tables : SortedMap String TableSchema)
    : PartlyOrdered tables tables [] where
  complete := List.Perm.refl _
  remains _ h := h
  first := by
    intro before schema after h
    cases before <;> cases h

/-- A table of the map that does not remain is ordered. -/
theorem PartlyOrdered.ordered_of_gone (h : PartlyOrdered tables remaining ordered)
    (hkeyed : ∀ entry ∈ tables.entries, entry.2.tableName = entry.1) {table : String}
    (htable : tables.contains table = true) (hgone : remaining.contains table = false)
    : table ∈ ordered.map TableSchema.tableName := by
  obtain ⟨schema, hschema⟩ := SortedMap.contains_iff.mp htable
  have hmem : schema ∈ ordered ++ remaining.entries.map Prod.snd :=
    h.complete.mem_iff.mpr (List.mem_map_of_mem hschema)
  have hname := hkeyed _ hschema
  rcases List.mem_append.mp hmem with hmem | hmem
  · exact List.mem_map.mpr ⟨schema, hmem, hname⟩
  · obtain ⟨⟨other, found⟩, hentry, rfl⟩ := List.mem_map.mp hmem
    have hother := hkeyed _ (h.remains _ hentry)
    dsimp only at hname hother
    rw [← hother, hname] at hentry
    have hremains : remaining.contains table = true :=
      SortedMap.contains_iff.mpr ⟨_, hentry⟩
    rw [hremains] at hgone
    cases hgone

/-- The tables a ready table refers to are ordered or itself. -/
theorem PartlyOrdered.ready_refers (h : PartlyOrdered tables remaining ordered)
    (hkeyed : ∀ entry ∈ tables.entries, entry.2.tableName = entry.1)
    {entry : String × TableSchema} (hentry : entry ∈ readyTables remaining) {target : String}
    (hrefers : Refers tables entry.2.tableName target) (hother : target ≠ entry.2.tableName)
    : target ∈ ordered.map TableSchema.tableName := by
  obtain ⟨hmem, hready⟩ := List.mem_filter.mp hentry
  obtain ⟨schema, hschema, htarget, hknown⟩ := hrefers
  have hname := hkeyed _ (h.remains _ hmem)
  rw [hname] at hschema hother
  have hsame : schema = entry.2 := SortedMap.eq_of_mem_entries hschema (h.remains _ hmem)
  subst hsame
  have hgone := List.all_eq_true.mp hready target htarget
  simp only [Bool.or_eq_true, decide_eq_true_eq, Bool.not_eq_true'] at hgone
  exact h.ordered_of_gone hkeyed hknown (hgone.resolve_left hother)

/-- Tables that refer only to tables before a list may follow it. -/
theorem DependenciesFirst.append (h : DependenciesFirst tables ordered) {ready : List TableSchema}
    (hready : ∀ schema ∈ ready, ∀ target, Refers tables schema.tableName target →
      target ≠ schema.tableName → target ∈ ordered.map TableSchema.tableName)
    : DependenciesFirst tables (ordered ++ ready) := by
  intro before schema after hsplit target hrefers hother
  rcases List.append_eq_append_iff.mp hsplit with ⟨middle, rfl, hrest⟩ | ⟨middle, rfl, hrest⟩
  · have hmem : schema ∈ ready := by
      rw [hrest]
      exact List.mem_append_right _ (List.mem_cons_self ..)
    rw [List.map_append]
    exact List.mem_append_left _ (hready schema hmem target hrefers hother)
  · cases middle with
    | nil =>
        have hmem : schema ∈ ready := by
          have : schema :: after = ready := by simpa using hrest
          exact this ▸ List.mem_cons_self ..
        simpa using hready schema hmem target hrefers hother
    | cons head middle =>
        obtain ⟨rfl, -⟩ := List.cons.inj hrest
        exact h before schema middle rfl target hrefers hother

theorem PartlyOrdered.next (h : PartlyOrdered tables remaining ordered)
    (hkeyed : ∀ entry ∈ tables.entries, entry.2.tableName = entry.1)
    : PartlyOrdered tables (withoutReady remaining)
        (ordered ++ (readyTables remaining).map Prod.snd) where
  complete := by
    have hsplit : (readyTables remaining ++ (withoutReady remaining).entries).Perm
        remaining.entries := by
      rw [withoutReady_entries]
      exact List.filter_append_perm (isReady remaining) remaining.entries
    rw [List.append_assoc, ← List.map_append]
    exact ((hsplit.map Prod.snd).append_left ordered).trans h.complete
  remains := by
    intro entry hentry
    rw [withoutReady_entries] at hentry
    exact h.remains entry (List.mem_filter.mp hentry).1
  first := by
    refine h.first.append fun schema hschema target hrefers hother => ?_
    obtain ⟨entry, hentry, rfl⟩ := List.mem_map.mp hschema
    exact h.ready_refers hkeyed hentry hrefers hother

/-- Every remaining table of a loop without a ready one refers to another remaining one. -/
theorem PartlyOrdered.hasMutualPair (h : PartlyOrdered tables remaining ordered)
    (hsome : remaining.entries ≠ []) (hready : readyTables remaining = [])
    : HasMutualPair (Refers tables) := by
  refine hasMutualPair_of_stuck remaining.keys (by simpa [SortedMap.keys]) ?_
  intro table htable
  obtain ⟨⟨source, schema⟩, hentry, rfl⟩ := List.mem_map.mp htable
  have hblocked : isReady remaining (source, schema) = false := by
    simpa using List.filter_eq_nil_iff.mp hready _ hentry
  simp only [isReady, List.all_eq_false, Bool.or_eq_true, decide_eq_true_eq, not_or,
    Bool.not_eq_true', Bool.not_eq_false] at hblocked
  obtain ⟨target, htarget, hother, hremains⟩ := hblocked
  obtain ⟨found, hfound⟩ := SortedMap.contains_iff.mp hremains
  refine ⟨target, SortedMap.mem_keys_of_mem hfound, hother, schema, h.remains _ hentry,
    htarget, ?_⟩
  exact SortedMap.contains_iff.mpr ⟨found, h.remains _ hfound⟩

/-- The loop orders the whole map, or stops on tables that refer to each other. -/
theorem orderRemaining_spec (hkeyed : ∀ entry ∈ tables.entries, entry.2.tableName = entry.1)
    (remaining : SortedMap String TableSchema) (ordered : List TableSchema)
    (h : PartlyOrdered tables remaining ordered)
    : (∃ result, orderRemaining remaining ordered = .ok result
        ∧ result.Perm (tables.entries.map Prod.snd) ∧ DependenciesFirst tables result)
      ∨ ∃ error, orderRemaining remaining ordered = .error error
        ∧ HasMutualPair (Refers tables) := by
  fun_induction orderRemaining remaining ordered with
  | case1 remaining ordered hdone =>
      refine .inl ⟨ordered, rfl, ?_, h.first⟩
      simpa [hdone] using h.complete
  | case2 remaining ordered hsome hready =>
      exact .inr ⟨_, rfl, h.hasMutualPair hsome hready⟩
  | case3 remaining ordered hsome hready ih => exact ih (h.next hkeyed)

/-- Tables in dependency order do not refer to each other. -/
theorem DependenciesFirst.not_hasMutualPair (h : DependenciesFirst tables ordered)
    (hkeyed : ∀ entry ∈ tables.entries, entry.2.tableName = entry.1)
    (hcomplete : ordered.Perm (tables.entries.map Prod.snd))
    : ¬ HasMutualPair (Refers tables) := by
  have hordered : ∀ table, tables.contains table = true →
      table ∈ ordered.map TableSchema.tableName := by
    intro table htable
    obtain ⟨schema, hschema⟩ := SortedMap.contains_iff.mp htable
    exact List.mem_map.mpr ⟨schema, hcomplete.mem_iff.mpr (List.mem_map_of_mem hschema),
      hkeyed _ hschema⟩
  have hnamed : ∀ source target, Refers tables source target →
      source ∈ ordered.map TableSchema.tableName := by
    rintro source target ⟨schema, hschema, -⟩
    exact hordered source (SortedMap.contains_iff.mpr ⟨schema, hschema⟩)
  have hnames : (ordered.map TableSchema.tableName).Nodup := by
    have hkeys : (tables.entries.map Prod.snd).map TableSchema.tableName = tables.keys := by
      rw [List.map_map, SortedMap.keys]
      exact List.map_congr_left hkeyed
    rw [(hcomplete.map _).nodup_iff, hkeys]
    exact tables.nodup_keys
  refine not_hasMutualPair_of_rank (fun table => (ordered.map TableSchema.tableName).idxOf table)
    ?_ ?_
  · intro source target hrefers
    by_cases hself : target = source
    · rw [hself]
    · obtain ⟨schema, hschema, rfl⟩ := List.mem_map.mp (hnamed source target hrefers)
      obtain ⟨before, after, rfl⟩ := List.append_of_mem hschema
      have hbefore := h before schema after rfl target hrefers hself
      rw [List.map_append, List.map_cons, List.nodup_append] at hnames
      have hlater : schema.tableName ∉ before.map TableSchema.tableName :=
        fun hmem => hnames.2.2 _ hmem _ (List.mem_cons_self ..) rfl
      rw [List.map_append, List.map_cons, List.idxOf_append_of_mem hbefore,
        List.idxOf_append_of_notMem hlater]
      exact (List.idxOf_le_length).trans (Nat.le_add_right _ _)
  · rintro first second ⟨next, hfirst⟩ ⟨other, hsecond⟩ heq
    exact (List.idxOf_inj (hnamed first next hfirst)).mp heq

end

/-- The map the order is computed from is the registry's. -/
theorem TableSchemaRegistry.ofList_schemas (registry : TableSchemaRegistry)
    : SortedMap.ofList (registry.schemas.map fun schema => (schema.tableName, schema))
      = registry.schemasByTable := by
  have hentries : (registry.schemas.map fun schema => (schema.tableName, schema))
      = registry.schemasByTable.entries := by
    rw [schemas, List.map_map]
    refine (List.map_congr_left fun entry hentry => ?_).trans (List.map_id _)
    exact Prod.ext (registry.keyed entry hentry) rfl
  refine SortedMap.ext_get? fun key => ?_
  rw [hentries, SortedMap.get?_ofList registry.schemasByTable.nodup_keys]
  rfl

/-- The schemas of a registry are put in dependency order, each once, unless two of its
tables refer to each other. -/
theorem tableSchemasInDependencyOrder_correct (registry : TableSchemaRegistry)
    : (∃ ordered, tableSchemasInDependencyOrder registry = .ok ordered
        ∧ ordered.Perm registry.schemas
        ∧ DependenciesFirst registry.schemasByTable ordered
        ∧ ¬ HasMutualPair (Refers registry.schemasByTable))
      ∨ ∃ error, tableSchemasInDependencyOrder registry = .error error
        ∧ HasMutualPair (Refers registry.schemasByTable) := by
  rw [tableSchemasInDependencyOrder, registry.ofList_schemas]
  rcases orderRemaining_spec registry.keyed registry.schemasByTable [] (.start _) with
    ⟨ordered, hordered, hcomplete, hfirst⟩ | hcycle
  · exact .inl ⟨ordered, hordered, hcomplete, hfirst,
      hfirst.not_hasMutualPair registry.keyed hcomplete⟩
  · exact .inr hcycle

/-- A table with an `id` and a reference to other tables. -/
def referringTable (table : String) (foreignKeys : List ForeignKey) : TableSchema where
  modelName := table
  tableName := table
  columns := [{ fieldName := "id", columnName := "id", columnType := .text, primaryKey := true }]
  primaryKey := ["id"]
  foreignKeys := foreignKeys

/-- Notes that belong to todos, registered before them. -/
theorem todos_before_notes
    : ∃ registry ordered,
        (TableSchemaRegistry.new.registerSchema (referringTable "notes" [⟨"todos", "id"⟩])
          >>= fun registry => registry.registerSchema (referringTable "todos" [])) = .ok registry
      ∧ tableSchemasInDependencyOrder registry = .ok ordered
      ∧ ordered.map TableSchema.tableName = ["todos", "notes"]
      ∧ DependenciesFirst registry.schemasByTable ordered := by
  refine ⟨_, [referringTable "todos" [], referringTable "notes" [⟨"todos", "id"⟩]], rfl, ?_⟩
  generalize hregistry : ({ .. } : TableSchemaRegistry) = registry
  have hordered : tableSchemasInDependencyOrder registry
      = .ok [referringTable "todos" [], referringTable "notes" [⟨"todos", "id"⟩]] := by
    rw [← hregistry, tableSchemasInDependencyOrder, orderRemaining, if_neg (by decide),
      dif_neg (by decide), orderRemaining, if_neg (by decide), dif_neg (by decide),
      orderRemaining, if_pos (by decide)]
    rfl
  rcases tableSchemasInDependencyOrder_correct registry with ⟨ordered, h, -, hfirst, -⟩ | ⟨_, h, -⟩
  · cases hordered.symm.trans h
    exact ⟨hordered, rfl, hfirst⟩
  · cases hordered.symm.trans h

end Distributed.Table
