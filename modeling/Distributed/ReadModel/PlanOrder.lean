import Distributed.Foundation.Result
import Distributed.ReadModel.Plan
import Mathlib.Logic.Relation

/-! The order of the mutations in a write plan.
The comparator mixes direct foreign-key dependencies with the order of table names. It is a
total order, and the plan respects the foreign keys, exactly when the names never
contradict a dependency.
-/

namespace Distributed.ReadModel

open Distributed.Foundation Distributed.Platform Distributed.Table

open ReadModelWritePlanBuilder

/-- The mutation's table has a foreign key to the other's. -/
def References (mutation other : TableMutation) : Prop :=
  mutation.dependsOnTable other.tableName = true

/-- A chain of foreign keys between tables that are written too. -/
def Reaches (written : List TableMutation) : TableMutation → TableMutation → Prop :=
  Relation.TransGen fun mutation other =>
    mutation ∈ written ∧ other ∈ written ∧ References mutation other

def ForeignKeysAcyclic (written : List TableMutation) : Prop :=
  ∀ mutation, ¬ Reaches written mutation mutation

/-- What the foreign keys ask of two mutations of a plan: referenced rows are written first
and deleted last. -/
structure KeepsForeignKeys (written : List TableMutation) (earlier later : TableMutation)
    : Prop where
  upserts : earlier.operationRank = 1 → later.operationRank = 1 →
    ¬ Reaches written earlier later
  deletes : earlier.operationRank = 3 → later.operationRank = 3 →
    ¬ Reaches written later earlier

section References

variable {written : List TableMutation} {mutation other : TableMutation}

theorem Reaches.of_references (hmutation : mutation ∈ written) (hother : other ∈ written)
    (h : References mutation other)
    : Reaches written mutation other :=
  .single ⟨hmutation, hother, h⟩

theorem Reaches.of_subset {more : List TableMutation} (hsubset : written ⊆ more)
    (h : Reaches written mutation other)
    : Reaches more mutation other := by
  induction h with
  | single hstep => exact .single ⟨hsubset hstep.1, hsubset hstep.2.1, hstep.2.2⟩
  | tail _ hstep ih => exact .tail ih ⟨hsubset hstep.1, hsubset hstep.2.1, hstep.2.2⟩

/-- The order of two mutations is decided by which of them references the other. -/
theorem dependencyOrder_eq_lt
    : mutation.dependencyOrder other = some .lt ↔
      if mutation.operationRank = 3 ∧ other.operationRank = 3 then
        References mutation other ∧ ¬ References other mutation
      else References other mutation ∧ ¬ References mutation other := by
  unfold TableMutation.dependencyOrder References
  cases mutation.dependsOnTable other.tableName <;>
    cases other.dependsOnTable mutation.tableName <;>
      by_cases hdeletes : mutation.operationRank = 3 ∧ other.operationRank = 3 <;>
        simp [hdeletes]

theorem dependencyOrder_swap
    : mutation.dependencyOrder other = (other.dependencyOrder mutation).map Ordering.swap := by
  unfold TableMutation.dependencyOrder
  cases mutation.dependsOnTable other.tableName <;>
    cases other.dependsOnTable mutation.tableName <;>
      by_cases hdeletes : mutation.operationRank = 3 ∧ other.operationRank = 3 <;>
        simp [hdeletes, and_comm]

end References

def StagedMutation.rank (staged : StagedMutation) : Nat := staged.mutation.operationRank

/-- Of two mutations of one kind the foreign keys put the first before the second. -/
def StagedMutation.Precedes (left right : StagedMutation) : Prop :=
  left.rank = right.rank ∧ left.mutation.dependencyOrder right.mutation = some .lt

/-- The tie-break: sort keys, then the order of staging. -/
def StagedMutation.SortsBefore (crates : Crates) (left right : StagedMutation) : Prop :=
  (left.mutation.sortKey crates).toList < (right.mutation.sortKey crates).toList
    ∨ left.mutation.sortKey crates = right.mutation.sortKey crates
      ∧ left.sequence < right.sequence

section Comparator

variable {crates : Crates} {left right : StagedMutation}

theorem compareText_eq_eq {left right : String} : compareText left right = .eq ↔ left = right := by
  unfold compareText compareOfLessAndEq
  constructor
  · intro h
    split at h
    · cases h
    · split at h
      · exact String.toList_inj.mp ‹_›
      · cases h
  · rintro rfl
    simp

theorem tieBreak_eq_lt
    : (compareText (left.mutation.sortKey crates) (right.mutation.sortKey crates)).then
        (compare left.sequence right.sequence) = .lt
      ↔ left.SortsBefore crates right := by
  rw [Ordering.then_eq_lt, compareText_eq_eq, Nat.compare_eq_lt]
  exact or_congr_left compareOfLessAndEq_eq_lt

theorem compareStaged_eq_lt
    : compareStaged crates left right = .lt
      ↔ Before StagedMutation.rank StagedMutation.Precedes
        (StagedMutation.SortsBefore crates) left right := by
  unfold compareStaged Before
  rw [Ordering.then_eq_lt, Nat.compare_eq_lt, Nat.compare_eq_eq, Ordering.then_eq_lt,
    tieBreak_eq_lt]
  refine or_congr_right (and_congr_right fun hrank => ?_)
  have hsame : left.rank = right.rank := hrank
  have hswap : right.mutation.dependencyOrder left.mutation
      = (left.mutation.dependencyOrder right.mutation).map Ordering.swap :=
    dependencyOrder_swap
  simp only [StagedMutation.Precedes, hsame, true_and, hswap]
  cases left.mutation.dependencyOrder right.mutation with
  | none => simp
  | some order => cases order <;> simp

end Comparator

/-- The builders that staging leads to. -/
inductive Staged : ReadModelWritePlanBuilder → Prop
  | new : Staged .new
  | pushed {builder : ReadModelWritePlanBuilder} (mutation : TableMutation) :
      Staged builder → Staged (builder.push mutation)
  | expected {builder : ReadModelWritePlanBuilder} (versions : Map RowIdentity Nat) :
      Staged builder → Staged { builder with expectedVersions := versions }

def ReadModelWritePlanBuilder.written (builder : ReadModelWritePlanBuilder)
    : List TableMutation :=
  builder.mutations.map StagedMutation.mutation

section Staged

variable {crates : Crates} {builder : ReadModelWritePlanBuilder}

theorem Staged.sequences (h : Staged builder)
    : builder.nextSequence = min builder.mutations.length (2 ^ 64 - 1)
      ∧ builder.mutations.map StagedMutation.sequence
        = (List.range builder.mutations.length).map fun index => min index (2 ^ 64 - 1) := by
  induction h with
  | new => exact ⟨rfl, rfl⟩
  | pushed mutation _ ih =>
      obtain ⟨hnext, hsequences⟩ := ih
      constructor
      · simp only [push, saturatingSuccessor, hnext, List.length_append, List.length_singleton]
        omega
      · simp [push, hsequences, hnext, List.range_succ]
  | expected versions _ ih => exact ih

/-- Up to the limit of the counter no two mutations have one number. -/
theorem Staged.nodup_sequences (h : Staged builder)
    (hcount : builder.mutations.length ≤ 2 ^ 64)
    : (builder.mutations.map StagedMutation.sequence).Nodup := by
  rw [h.sequences.2]
  refine List.Nodup.map_on ?_ List.nodup_range
  intro index hindex other hother hsame
  rw [List.mem_range] at hindex hother
  omega

theorem sortsBefore_strictTotalOn
    (hnodup : (builder.mutations.map StagedMutation.sequence).Nodup)
    : StrictTotalOn builder.mutations (StagedMutation.SortsBefore crates) := by
  constructor
  · rintro x - (hless | ⟨-, hless⟩)
    · exact List.lt_irrefl _ hless
    · exact Nat.lt_irrefl _ hless
  · rintro x - y - z - (hxy | ⟨hxy, hsequence⟩) (hyz | ⟨hyz, hsequence'⟩)
    · exact .inl (List.lt_trans hxy hyz)
    · exact .inl (hyz ▸ hxy)
    · exact .inl (hxy ▸ hyz)
    · exact .inr ⟨hxy.trans hyz, Nat.lt_trans hsequence hsequence'⟩
  · intro x hx y hy hne
    rcases Std.lt_trichotomy (x.mutation.sortKey crates).toList
        (y.mutation.sortKey crates).toList with hless | hsame | hgreater
    · exact .inl (.inl hless)
    · have hkey := String.toList_inj.mp hsame
      have hsequence : x.sequence ≠ y.sequence := fun heq =>
        hne (List.inj_on_of_nodup_map hnodup hx hy heq)
      rcases Nat.lt_or_gt_of_ne hsequence with hless | hgreater
      · exact .inl (.inr ⟨hkey, hless⟩)
      · exact .inr (.inr ⟨hkey.symm, hgreater⟩)
    · exact .inr (.inl hgreater)

/-- Which of the two references the other, for a pair the foreign keys order. -/
theorem StagedMutation.Precedes.references {left right : StagedMutation}
    (h : left.Precedes right)
    : if left.rank = 3 then References left.mutation right.mutation
      else References right.mutation left.mutation := by
  obtain ⟨hrank, horder⟩ := h
  rw [dependencyOrder_eq_lt] at horder
  have hboth : (left.mutation.operationRank = 3 ∧ right.mutation.operationRank = 3)
      ↔ left.rank = 3 :=
    ⟨fun hdeletes => hdeletes.1, fun hdelete => ⟨hdelete, hrank.symm.trans hdelete⟩⟩
  simp only [hboth] at horder
  split
  · rename_i hdelete
    rw [if_pos hdelete] at horder
    exact horder.1
  · rename_i hdelete
    rw [if_neg hdelete] at horder
    exact horder.1

theorem precedes_shortAcyclic (hacyclic : ForeignKeysAcyclic builder.written)
    : ShortAcyclic builder.mutations StagedMutation.Precedes := by
  have hstep : ∀ x ∈ builder.mutations, ∀ y ∈ builder.mutations, x.Precedes y →
      if x.rank = 3 then Reaches builder.written x.mutation y.mutation
      else Reaches builder.written y.mutation x.mutation := by
    intro x hx y hy h
    have hreferences := h.references
    have hx' : x.mutation ∈ builder.written := List.mem_map_of_mem hx
    have hy' : y.mutation ∈ builder.written := List.mem_map_of_mem hy
    split
    · rename_i hdelete
      rw [if_pos hdelete] at hreferences
      exact .of_references hx' hy' hreferences
    · rename_i hdelete
      rw [if_neg hdelete] at hreferences
      exact .of_references hy' hx' hreferences
  constructor
  · intro x hx y hy hxy hyx
    have hforward := hstep x hx y hy hxy
    have hback := hstep y hy x hx hyx
    rw [← hxy.1] at hback
    split at hforward
    · rename_i hdelete
      rw [if_pos hdelete] at hback
      exact hacyclic _ (hforward.trans hback)
    · rename_i hdelete
      rw [if_neg hdelete] at hback
      exact hacyclic _ (hback.trans hforward)
  · intro x hx y hy z hz hxy hyz hzx
    have hfirst := hstep x hx y hy hxy
    have hsecond := hstep y hy z hz hyz
    have hthird := hstep z hz x hx hzx
    rw [← hxy.1] at hsecond
    rw [hzx.1] at hthird
    split at hfirst
    · rename_i hdelete
      rw [if_pos hdelete] at hsecond hthird
      exact hacyclic _ ((hfirst.trans hsecond).trans hthird)
    · rename_i hdelete
      rw [if_neg hdelete] at hsecond hthird
      exact hacyclic _ ((hthird.trans hsecond).trans hfirst)

end Staged

/-- The order of the sort keys agrees with the foreign keys: it never places an unrelated
mutation of the kind between two that are in the other order, and it orders the mutations
that only a chain of tables connects. -/
structure NamesAgree (crates : Crates) (builder : ReadModelWritePlanBuilder) : Prop where
  unambiguous : Unambiguous StagedMutation.rank StagedMutation.Precedes
    (StagedMutation.SortsBefore crates) builder.mutations
  upserts : ∀ x ∈ builder.mutations, ∀ y ∈ builder.mutations, x.rank = 1 → y.rank = 1 →
    Reaches builder.written y.mutation x.mutation → x.Precedes y ∨ x.SortsBefore crates y
  deletes : ∀ x ∈ builder.mutations, ∀ y ∈ builder.mutations, x.rank = 3 → y.rank = 3 →
    Reaches builder.written x.mutation y.mutation → x.Precedes y ∨ x.SortsBefore crates y

section Plan

variable {crates : Crates} {builder : ReadModelWritePlanBuilder}

/-- A mutation that its rank's foreign keys put first compares as smaller. -/
theorem before_of_precedes_or_sorts {x y : StagedMutation} (hrank : x.rank = y.rank)
    (hback : ¬ y.Precedes x) (h : x.Precedes y ∨ x.SortsBefore crates y)
    : Before StagedMutation.rank StagedMutation.Precedes (StagedMutation.SortsBefore crates)
        x y := by
  by_cases hforward : x.Precedes y
  · exact .inr ⟨hrank, .inl hforward⟩
  · exact .inr ⟨hrank, .inr ⟨hforward, hback, h.resolve_left hforward⟩⟩

/-- A row that is referenced through a chain is upserted first. -/
theorem NamesAgree.upsert_before (h : NamesAgree crates builder)
    (hacyclic : ForeignKeysAcyclic builder.written) {x y : StagedMutation}
    (hx : x ∈ builder.mutations) (hy : y ∈ builder.mutations) (hxrank : x.rank = 1)
    (hyrank : y.rank = 1) (hreaches : Reaches builder.written y.mutation x.mutation)
    : Before StagedMutation.rank StagedMutation.Precedes (StagedMutation.SortsBefore crates)
        x y := by
  refine before_of_precedes_or_sorts (hxrank.trans hyrank.symm) ?_
    (h.upserts x hx y hy hxrank hyrank hreaches)
  intro hback
  have hreferences := hback.references
  rw [hyrank, if_neg (by decide)] at hreferences
  exact hacyclic _ (hreaches.trans
    (Reaches.of_references (List.mem_map_of_mem hx) (List.mem_map_of_mem hy) hreferences))

/-- A row that references another through a chain is deleted first. -/
theorem NamesAgree.delete_before (h : NamesAgree crates builder)
    (hacyclic : ForeignKeysAcyclic builder.written) {x y : StagedMutation}
    (hx : x ∈ builder.mutations) (hy : y ∈ builder.mutations) (hxrank : x.rank = 3)
    (hyrank : y.rank = 3) (hreaches : Reaches builder.written x.mutation y.mutation)
    : Before StagedMutation.rank StagedMutation.Precedes (StagedMutation.SortsBefore crates)
        x y := by
  refine before_of_precedes_or_sorts (hxrank.trans hyrank.symm) ?_
    (h.deletes x hx y hy hxrank hyrank hreaches)
  intro hback
  have hreferences := hback.references
  rw [hyrank, if_pos rfl] at hreferences
  exact hacyclic _ (hreaches.trans
    (Reaches.of_references (List.mem_map_of_mem hy) (List.mem_map_of_mem hx) hreferences))

/-- The staged mutations in the order of the comparator. -/
def ReadModelWritePlanBuilder.sorted (crates : Crates) (builder : ReadModelWritePlanBuilder)
    : TableWritePlan :=
  (sortBy (lessStaged crates) builder.mutations).map StagedMutation.mutation

theorem sorted_perm (crates : Crates) (builder : ReadModelWritePlanBuilder)
    : (builder.sorted crates).Perm builder.written :=
  (sortBy_perm _ _).map _

/-- The comparator orders the staged mutations strictly and totally. -/
def StrictlyOrdered (crates : Crates) (builder : ReadModelWritePlanBuilder) : Prop :=
  StrictTotalOn builder.mutations fun left right => compareStaged crates left right = .lt

theorem StrictlyOrdered.lessStaged (h : StrictlyOrdered crates builder)
    : StrictTotalOn builder.mutations fun left right => lessStaged crates left right = true := by
  simpa [ReadModelWritePlanBuilder.lessStaged, StrictlyOrdered] using h

theorem validate_sorted (hvalid : validateWritePlan builder.written = .ok ())
    : validateWritePlan (builder.sorted crates) = .ok () := by
  rw [validateWritePlan, Result.forM_eq_ok_iff] at hvalid ⊢
  exact fun mutation hmem => hvalid mutation ((sorted_perm crates builder).mem_iff.mp hmem)

/-- A plan comes of valid mutations that are few or in strict order. -/
theorem intoWritePlan_eq (hvalid : validateWritePlan builder.written = .ok ())
    (hsort : builder.mutations.length ≤ 20 ∨ StrictlyOrdered crates builder)
    : builder.intoWritePlan crates = some (.ok (builder.sorted crates)) := by
  rw [intoWritePlan, sortSlice_eq (hsort.imp_right StrictlyOrdered.lessStaged), Option.map_some]
  change some (validateWritePlan (builder.sorted crates) >>= fun _ => _) = _
  rw [validate_sorted hvalid, Result.ok_bind]
  rfl

theorem compareStaged_strictTotalOn_iff (hstaged : Staged builder)
    (hcount : builder.mutations.length ≤ 2 ^ 64)
    (hacyclic : ForeignKeysAcyclic builder.written)
    : StrictlyOrdered crates builder
      ↔ Unambiguous StagedMutation.rank StagedMutation.Precedes
        (StagedMutation.SortsBefore crates) builder.mutations := by
  simp only [StrictlyOrdered, compareStaged_eq_lt]
  exact strictTotalOn_before_iff (precedes_shortAcyclic hacyclic)
    (sortsBefore_strictTotalOn (hstaged.nodup_sequences hcount))

/-- The comparator is a strict total order, and the plan writes referenced rows first and
deletes them last. -/
structure RespectsForeignKeys (crates : Crates) (builder : ReadModelWritePlanBuilder)
    : Prop where
  ordered : StrictlyOrdered crates builder
  plan : ∃ plan, builder.intoWritePlan crates = some (.ok plan)
    ∧ plan.Perm builder.written ∧ plan.Pairwise (KeepsForeignKeys plan)

/-- The plan keeps what the comparator keeps. -/
theorem pairwise_sorted_iff (hstaged : Staged builder)
    (hcount : builder.mutations.length ≤ 2 ^ 64) (horder : StrictlyOrdered crates builder)
    {R : TableMutation → TableMutation → Prop}
    : (builder.sorted crates).Pairwise R
      ↔ ∀ x ∈ builder.mutations, ∀ y ∈ builder.mutations, compareStaged crates x y = .lt →
        R x.mutation y.mutation := by
  rw [ReadModelWritePlanBuilder.sorted, List.pairwise_map,
    sortBy_pairwise_iff (hstaged.nodup_sequences hcount).of_map horder.lessStaged]
  simp [lessStaged]

section Agreement

variable (hstaged : Staged builder) (hcount : builder.mutations.length ≤ 2 ^ 64)
  (hacyclic : ForeignKeysAcyclic builder.written)
  (hvalid : validateWritePlan builder.written = .ok ())

include hstaged hcount hacyclic hvalid

theorem RespectsForeignKeys.namesAgree (h : RespectsForeignKeys crates builder)
    : NamesAgree crates builder := by
  obtain ⟨horder, plan, hplan, -, hkeeps⟩ := h
  cases hplan.symm.trans (intoWritePlan_eq hvalid (.inr horder))
  rw [pairwise_sorted_iff hstaged hcount horder] at hkeeps
  -- Of two different mutations of a kind the plan places one first, by the comparator.
  have hbefore : ∀ x ∈ builder.mutations, ∀ y ∈ builder.mutations, x.rank = y.rank →
      x ≠ y → ¬ (compareStaged crates y x = .lt) → x.Precedes y ∨ x.SortsBefore crates y := by
    intro x hx y hy hrank hne hback
    have hless := compareStaged_eq_lt.mp ((horder.total x hx y hy hne).resolve_right hback)
    exact (hless.same_rank hrank).imp_right fun h => h.2.2
  have hreaches : ∀ {x y}, Reaches builder.written x y → Reaches (builder.sorted crates) x y :=
    fun h => h.of_subset (sorted_perm crates builder).symm.subset
  refine ⟨(compareStaged_strictTotalOn_iff hstaged hcount hacyclic).mp horder, ?_, ?_⟩
  · intro x hx y hy hxrank hyrank hchain
    refine hbefore x hx y hy (hxrank.trans hyrank.symm) ?_ fun hback => ?_
    · rintro rfl
      exact hacyclic _ hchain
    · exact (hkeeps y hy x hx hback).upserts hyrank hxrank (hreaches hchain)
  · intro x hx y hy hxrank hyrank hchain
    refine hbefore x hx y hy (hxrank.trans hyrank.symm) ?_ fun hback => ?_
    · rintro rfl
      exact hacyclic _ hchain
    · exact (hkeeps y hy x hx hback).deletes hyrank hxrank (hreaches hchain)

theorem NamesAgree.respectsForeignKeys (hnames : NamesAgree crates builder)
    : RespectsForeignKeys crates builder := by
  have hperm := sorted_perm crates builder
  have horder : StrictlyOrdered crates builder :=
    (compareStaged_strictTotalOn_iff hstaged hcount hacyclic).mpr hnames.unambiguous
  refine ⟨horder, _, intoWritePlan_eq hvalid (.inr horder), hperm, ?_⟩
  rw [pairwise_sorted_iff hstaged hcount horder]
  intro x hx y hy hless
  constructor
  · intro hxrank hyrank hchain
    have hback := hnames.upsert_before hacyclic hy hx hyrank hxrank
      (hchain.of_subset hperm.subset)
    exact horder.asymm hx hy hless (compareStaged_eq_lt.mpr hback)
  · intro hxrank hyrank hchain
    have hback := hnames.delete_before hacyclic hy hx hyrank hxrank
      (hchain.of_subset hperm.subset)
    exact horder.asymm hx hy hless (compareStaged_eq_lt.mpr hback)

end Agreement

/-- The names agree with the foreign keys exactly when the comparator is a strict total order
and the plan of the staged mutations keeps the foreign keys. -/
theorem write_plan_respects_foreign_keys (crates : Crates)
    {builder : ReadModelWritePlanBuilder} (hstaged : Staged builder)
    (hcount : builder.mutations.length ≤ 2 ^ 64)
    (hacyclic : ForeignKeysAcyclic builder.written)
    (hvalid : validateWritePlan builder.written = .ok ())
    : RespectsForeignKeys crates builder ↔ NamesAgree crates builder :=
  ⟨fun h => h.namesAgree hstaged hcount hacyclic hvalid,
    fun h => h.respectsForeignKeys hstaged hcount hacyclic hvalid⟩

end Plan

/-- Foreign keys from one table to one other make no chain of two. -/
theorem Reaches.of_one_key {written : List TableMutation} {child parent : String}
    (hkeys : ∀ mutation ∈ written, ∀ other ∈ written, References mutation other →
      mutation.tableName = child ∧ other.tableName = parent)
    (hne : child ≠ parent) {mutation other : TableMutation}
    (h : Reaches written mutation other)
    : mutation ∈ written ∧ other ∈ written
      ∧ mutation.tableName = child ∧ other.tableName = parent := by
  induction h with
  | single hstep => exact ⟨hstep.1, hstep.2.1, hkeys _ hstep.1 _ hstep.2.1 hstep.2.2⟩
  | tail _ hstep ih =>
      have hchild := (hkeys _ hstep.1 _ hstep.2.1 hstep.2.2).1
      exact absurd (hchild.symm.trans ih.2.2.2) hne

/-- A table with a text key and foreign keys to the given tables. -/
def keyedSchema (modelName tableName : String) (references : List String) : TableSchema where
  modelName
  tableName
  columns := [{ fieldName := "id", columnName := "id", columnType := .text, primaryKey := true }]
  primaryKey := ["id"]
  foreignKeys := references.map fun table => ⟨table, "id"⟩

def rowOne : RowKey := SortedMap.empty.insert "id" (.string "1")

def upsertOne (schema : TableSchema) : TableMutation :=
  .upsertRow ⟨schema, rowOne, rowOne, .any, .upsert⟩

def upsertItem : TableMutation := upsertOne (keyedSchema "Item" "items" ["orders"])

def upsertNote : TableMutation := upsertOne (keyedSchema "Note" "notes" [])

def upsertOrder : TableMutation := upsertOne (keyedSchema "Order" "orders" [])

def orderBuilder : ReadModelWritePlanBuilder :=
  ((new.push upsertItem).push upsertNote).push upsertOrder

theorem orderBuilder_acyclic : ForeignKeysAcyclic orderBuilder.written := by
  intro mutation hcycle
  have hkeys : ∀ mutation ∈ orderBuilder.written, ∀ other ∈ orderBuilder.written,
      References mutation other → mutation.tableName = "items" ∧ other.tableName = "orders" := by
    unfold References
    decide +kernel
  obtain ⟨-, -, hitems, horders⟩ := hcycle.of_one_key hkeys (by decide)
  rw [hitems] at horders
  exact absurd horders (by decide)

/-- Without the notes the foreign key alone decides. -/
def itemBuilder : ReadModelWritePlanBuilder := (new.push upsertItem).push upsertOrder

instance (left right : StagedMutation) : Decidable (left.Precedes right) :=
  inferInstanceAs (Decidable (_ ∧ _))

instance (crates : Crates) (left right : StagedMutation)
    : Decidable (left.SortsBefore crates right) :=
  inferInstanceAs (Decidable (_ ∨ _))

theorem itemBuilder_keys : ∀ mutation ∈ itemBuilder.written, ∀ other ∈ itemBuilder.written,
    References mutation other → mutation.tableName = "items" ∧ other.tableName = "orders" := by
  unfold References
  decide +kernel

theorem item_plan_respects_foreign_keys
    : itemBuilder.intoWritePlan uncalledCrates = some (.ok [upsertOrder, upsertItem])
      ∧ [upsertOrder, upsertItem].Pairwise
        (KeepsForeignKeys [upsertOrder, upsertItem]) := by
  have hplan : itemBuilder.intoWritePlan uncalledCrates
      = some (.ok [upsertOrder, upsertItem]) := rfl
  have hacyclic : ForeignKeysAcyclic itemBuilder.written := by
    intro mutation hcycle
    obtain ⟨-, -, hitems, horders⟩ := hcycle.of_one_key itemBuilder_keys (by decide)
    rw [hitems] at horders
    exact absurd horders (by decide)
  have hnames : NamesAgree uncalledCrates itemBuilder := by
    refine ⟨⟨by decide +kernel, by decide +kernel⟩, ?_, ?_⟩
    · intro x hx y hy _ _ hreaches
      obtain ⟨-, -, hitem, horder⟩ := hreaches.of_one_key itemBuilder_keys (by decide)
      clear hreaches
      revert x y
      decide +kernel
    · intro x hx y hy hdelete
      have hupserts : ∀ staged ∈ itemBuilder.mutations, staged.rank = 1 := by decide
      rw [hupserts x hx] at hdelete
      cases hdelete
  obtain ⟨-, plan, hsorted, -, hkeeps⟩ := (write_plan_respects_foreign_keys uncalledCrates
    (.pushed upsertOrder (.pushed upsertItem .new)) (by decide) hacyclic rfl).mpr hnames
  cases hplan.symm.trans hsorted
  exact ⟨hplan, hkeeps⟩

/-- Items reference orders, and the notes sort between the two tables. The comparator goes
round in a circle and the plan writes the item before its order. -/
theorem notes_break_foreign_key_order
    : ForeignKeysAcyclic orderBuilder.written
      ∧ ¬ StrictlyOrdered uncalledCrates orderBuilder
      ∧ orderBuilder.intoWritePlan uncalledCrates
        = some (.ok [upsertItem, upsertNote, upsertOrder])
      ∧ ¬ KeepsForeignKeys [upsertItem, upsertNote, upsertOrder] upsertItem upsertOrder := by
  refine ⟨orderBuilder_acyclic, ?_, rfl, ?_⟩
  · intro horder
    have hitem : (⟨0, upsertItem⟩ : StagedMutation) ∈ orderBuilder.mutations :=
      List.mem_cons_self ..
    have hnote : (⟨1, upsertNote⟩ : StagedMutation) ∈ orderBuilder.mutations :=
      List.mem_cons_of_mem _ (List.mem_cons_self ..)
    have horders : (⟨2, upsertOrder⟩ : StagedMutation) ∈ orderBuilder.mutations :=
      List.mem_cons_of_mem _ (List.mem_cons_of_mem _ (List.mem_cons_self ..))
    have hless := horder.trans _ hitem _ hnote _ horders rfl rfl
    exact horder.asymm hitem horders hless rfl
  · intro hkeeps
    refine hkeeps.upserts rfl rfl (.of_references ?_ ?_ rfl)
    · exact List.mem_cons_self ..
    · exact List.mem_cons_of_mem _ (List.mem_cons_of_mem _ (List.mem_cons_self ..))

end Distributed.ReadModel
