import Distributed.Foundation.Result
import Distributed.Table.WritePlan

/-! A mutation reads and writes one row.
So applying a plan to a copy of the rows it touches gives the same rows as applying it in
place.
-/

namespace Distributed.Table

open Distributed.Foundation Distributed.Platform

/-- Store a row, or remove it. -/
def setRow (rows : RelationalRows) (key : String) : Option StoredRow → RelationalRows
  | some row => rows.insert key row
  | none => rows.erase key

theorem lookup_setRow (rows : RelationalRows) (key other : String) (row : Option StoredRow)
    : AList.lookup other (setRow rows key row)
      = if other = key then row else rows.lookup other := by
  cases row with
  | none => exact Map.lookup_erase_eq rows key other
  | some row => exact Map.lookup_insert_eq rows key other row

section Mutation

variable {crates : Crates} {mutation : TableMutation} {rows next : RelationalRows}

/-- A successful mutation sets the row under its key, and does the same to all rows that
agree on that key. -/
theorem applyMutation_ok (h : applyMutation crates rows mutation = .ok next)
    : ∃ row : Option StoredRow, row.isSome = !mutation.isDelete
      ∧ ∀ other : RelationalRows,
        other.lookup (mutation.lockKey crates) = rows.lookup (mutation.lockKey crates) →
        applyMutation crates other mutation
          = .ok (setRow other (mutation.lockKey crates) row) := by
  cases mutation with
  | upsertRow mutation =>
      obtain ⟨schema, key, values, expected, mode⟩ := mutation
      simp only [applyMutation, Result.bind_eq_ok_iff] at h
      obtain ⟨_, hexpected, h⟩ := h
      split at h
      · cases h
      · simp only [Result.ok_bind, Result.bind_eq_ok_iff] at h
        obtain ⟨version, hversion, -⟩ := h
        refine ⟨some ⟨values, version⟩, rfl, fun other hother => ?_⟩
        change other.lookup (relationalStorageKey crates schema.tableName key)
          = rows.lookup (relationalStorageKey crates schema.tableName key) at hother
        simp only [applyMutation, hother, hexpected, hversion, Result.ok_bind]
        rfl
  | patchRow mutation =>
      obtain ⟨schema, key, patch, expected, mode⟩ := mutation
      simp only [applyMutation, Result.bind_eq_ok_iff] at h
      obtain ⟨_, hexpected, h⟩ := h
      cases hrow : rows.lookup (relationalStorageKey crates schema.tableName key) with
      | some row =>
          simp only [hrow, Result.bind_eq_ok_iff] at h
          obtain ⟨values, hvalues, version, hversion, -⟩ := h
          refine ⟨some ⟨values, version⟩, rfl, fun other hother => ?_⟩
          change other.lookup (relationalStorageKey crates schema.tableName key)
            = rows.lookup (relationalStorageKey crates schema.tableName key) at hother
          rw [hrow] at hexpected hother
          simp only [applyMutation, hother, hexpected, hvalues, hversion, Result.ok_bind]
          rfl
      | none =>
          cases mode with
          | updateExisting => simp [hrow] at h
          | insertMissing =>
              simp only [hrow, Result.bind_eq_ok_iff] at h
              obtain ⟨values, hvalues, -⟩ := h
              refine ⟨some ⟨values, initialModelVersion⟩, rfl, fun other hother => ?_⟩
              change other.lookup (relationalStorageKey crates schema.tableName key)
                = rows.lookup (relationalStorageKey crates schema.tableName key) at hother
              rw [hrow] at hexpected hother
              simp only [applyMutation, hother, hexpected, hvalues, Result.ok_bind]
              rfl
  | deleteRow mutation =>
      simp only [applyMutation, Result.bind_eq_ok_iff] at h
      obtain ⟨_, hexpected, h⟩ := h
      refine ⟨none, rfl, fun other hother => ?_⟩
      change other.lookup (relationalStorageKey crates mutation.schema.tableName mutation.key)
        = rows.lookup (relationalStorageKey crates mutation.schema.tableName mutation.key)
        at hother
      simp only [applyMutation, hother, hexpected, Result.ok_bind]
      rfl

/-- A failed mutation fails alike on all rows that agree on its key. -/
theorem applyMutation_error {error : TableStoreError} {other : RelationalRows}
    (h : applyMutation crates rows mutation = .error error)
    (hother : other.lookup (mutation.lockKey crates) = rows.lookup (mutation.lockKey crates))
    : applyMutation crates other mutation = .error error := by
  cases mutation with
  | upsertRow mutation =>
      obtain ⟨schema, key, values, expected, mode⟩ := mutation
      change other.lookup (relationalStorageKey crates schema.tableName key)
        = rows.lookup (relationalStorageKey crates schema.tableName key) at hother
      simp only [applyMutation, hother, Result.bind_eq_error_iff] at h ⊢
      rcases h with h | ⟨_, hexpected, h⟩
      · exact .inl h
      · refine .inr ⟨_, hexpected, ?_⟩
        split at h
        · exact h
        · simp only [Result.ok_bind, Result.bind_eq_error_iff] at h ⊢
          rcases h with h | ⟨_, -, h⟩
          · exact .inl h
          · cases h
  | patchRow mutation =>
      obtain ⟨schema, key, patch, expected, mode⟩ := mutation
      change other.lookup (relationalStorageKey crates schema.tableName key)
        = rows.lookup (relationalStorageKey crates schema.tableName key) at hother
      simp only [applyMutation, hother, Result.bind_eq_error_iff] at h ⊢
      rcases h with h | ⟨_, hexpected, h⟩
      · exact .inl h
      · refine .inr ⟨_, hexpected, ?_⟩
        cases hrow : rows.lookup (relationalStorageKey crates schema.tableName key) with
        | some row =>
            simp only [hrow, Result.bind_eq_error_iff] at h ⊢
            rcases h with h | ⟨values, hvalues, h | ⟨_, -, h⟩⟩
            · exact .inl h
            · exact .inr ⟨values, hvalues, .inl h⟩
            · cases h
        | none =>
            cases mode with
            | updateExisting => simpa only [hrow] using h
            | insertMissing =>
                simp only [hrow, Result.bind_eq_error_iff] at h ⊢
                rcases h with h | ⟨_, -, h⟩
                · exact .inl h
                · cases h
  | deleteRow mutation =>
      change other.lookup (relationalStorageKey crates mutation.schema.tableName mutation.key)
        = rows.lookup (relationalStorageKey crates mutation.schema.tableName mutation.key)
        at hother
      simp only [applyMutation, hother, Result.bind_eq_error_iff] at h ⊢
      rcases h with h | ⟨_, -, h⟩
      · exact .inl h
      · cases h

/-- A successful mutation leaves every other row alone. -/
theorem applyMutation_lookup (h : applyMutation crates rows mutation = .ok next)
    : ∃ row : Option StoredRow, row.isSome = !mutation.isDelete
      ∧ ∀ key, next.lookup key
        = if key = mutation.lockKey crates then row else rows.lookup key := by
  obtain ⟨row, hrow, hsame⟩ := applyMutation_ok h
  cases h.symm.trans (hsame rows rfl)
  exact ⟨row, hrow, fun key => lookup_setRow rows _ key row⟩

end Mutation

/-- The rows under the given keys are the same. -/
def AgreeOn (keys : List String) (left right : RelationalRows) : Prop :=
  ∀ key ∈ keys, left.lookup key = right.lookup key

section Plans

variable {crates : Crates} {keys : List String} {rows next other : RelationalRows}

theorem applyMutations_agree {plan : List TableMutation}
    (h : plan.foldlM (applyMutation crates) rows = .ok next)
    (hkeys : ∀ mutation ∈ plan, mutation.lockKey crates ∈ keys)
    (hagree : AgreeOn keys rows other)
    : ∃ final, plan.foldlM (applyMutation crates) other = .ok final
      ∧ AgreeOn keys next final
      ∧ ∀ key, key ∉ keys → final.lookup key = other.lookup key := by
  induction plan generalizing rows other with
  | nil =>
      cases h
      exact ⟨other, rfl, hagree, fun _ _ => rfl⟩
  | cons mutation plan ih =>
      rw [List.foldlM_cons, Result.bind_eq_ok_iff] at h
      obtain ⟨middle, hfirst, hrest⟩ := h
      obtain ⟨row, -, hset⟩ := applyMutation_ok hfirst
      have hkey := hkeys mutation (List.mem_cons_self ..)
      cases hfirst.symm.trans (hset rows rfl)
      have hsecond := hset other (hagree _ hkey).symm
      have hmiddle : AgreeOn keys (setRow rows (mutation.lockKey crates) row)
          (setRow other (mutation.lockKey crates) row) := by
        intro key hmem
        rw [lookup_setRow, lookup_setRow, hagree key hmem]
      obtain ⟨final, hfinal, hnext, hothers⟩ := ih hrest
        (fun mutation hmem => hkeys mutation (List.mem_cons_of_mem _ hmem)) hmiddle
      refine ⟨final, ?_, hnext, fun key hnot => ?_⟩
      · rw [List.foldlM_cons, hsecond, Result.ok_bind, hfinal]
      · rw [hothers key hnot, lookup_setRow, if_neg]
        exact fun heq => hnot (heq ▸ hkey)

theorem applyMutations_error {plan : List TableMutation} {error : TableStoreError}
    (h : plan.foldlM (applyMutation crates) rows = .error error)
    (hkeys : ∀ mutation ∈ plan, mutation.lockKey crates ∈ keys)
    (hagree : AgreeOn keys rows other)
    : plan.foldlM (applyMutation crates) other = .error error := by
  induction plan generalizing rows other with
  | nil => cases h
  | cons mutation plan ih =>
      obtain ⟨hkey, hrest⟩ := List.forall_mem_cons.mp hkeys
      rw [List.foldlM_cons, Result.bind_eq_error_iff] at h ⊢
      rcases h with h | ⟨middle, hfirst, h⟩
      · exact .inl (applyMutation_error h (hagree _ hkey).symm)
      · have hone : [mutation].foldlM (applyMutation crates) rows = .ok middle := by
          rw [List.foldlM_cons, hfirst, Result.ok_bind]
          rfl
        obtain ⟨second, hsecond, hmiddle, -⟩ := applyMutations_agree hone
          (List.forall_mem_singleton.mpr hkey) hagree
        rw [List.foldlM_cons, Result.bind_eq_ok_iff] at hsecond
        obtain ⟨_, hsecond, hlast⟩ := hsecond
        cases hlast
        exact .inr ⟨second, hsecond, ih h hrest hmiddle⟩

/-- A plan does to all rows what it does to a copy of those it touches. -/
theorem applyReadModelWritePlan_agree {plan : TableWritePlan}
    (h : applyReadModelWritePlan crates plan rows = .ok next)
    (hkeys : ∀ mutation ∈ plan, mutation.lockKey crates ∈ keys)
    (hagree : AgreeOn keys rows other)
    : ∃ final, applyReadModelWritePlan crates plan other = .ok final
      ∧ AgreeOn keys next final
      ∧ ∀ key, key ∉ keys → final.lookup key = other.lookup key := by
  obtain ⟨_, hvalid, hrun⟩ := Result.bind_eq_ok_iff.mp h
  obtain ⟨final, hfinal, hnext⟩ := applyMutations_agree hrun hkeys hagree
  refine ⟨final, ?_, hnext⟩
  rw [applyReadModelWritePlan, hvalid, Result.ok_bind, hfinal]

theorem applyReadModelWritePlan_error {plan : TableWritePlan} {error : TableStoreError}
    (h : applyReadModelWritePlan crates plan rows = .error error)
    (hkeys : ∀ mutation ∈ plan, mutation.lockKey crates ∈ keys)
    (hagree : AgreeOn keys rows other)
    : applyReadModelWritePlan crates plan other = .error error := by
  rw [applyReadModelWritePlan, Result.bind_eq_error_iff] at h ⊢
  rcases h with h | ⟨_, hvalid, h⟩
  · exact .inl h
  · exact .inr ⟨_, hvalid, applyMutations_error h hkeys hagree⟩

end Plans

end Distributed.Table
