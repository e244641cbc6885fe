import Distributed.Foundation.Result
import Distributed.Foundation.SortedMap

/-! Items collected in an ordered map, each merged into what its key already has.
The map of a whole run has, for every key, what merging the items of that key alone gives.
-/

namespace Distributed.Foundation

variable {ε α β Key : Type} [LinearOrder Key]

/-- Merge an item into the entry of its key. -/
def groupStep (key : α → Key) (merge : Option β → α → Except ε β) (groups : SortedMap Key β)
    (item : α)
    : Except ε (SortedMap Key β) := do
  let merged ← merge (groups.get? (key item)) item
  .ok (groups.insert (key item) merged)

/-- Merge the items of one key. -/
def mergeGroup (merge : Option β → α → Except ε β) : Option β → List α → Except ε (Option β)
  | merged, [] => .ok merged
  | merged, item :: rest => do
      let next ← merge merged item
      mergeGroup merge (some next) rest

section Groups

variable {key : α → Key} {merge : Option β → α → Except ε β}

/-- The items of one key, in order. -/
def itemsOf (key : α → Key) (group : Key) (items : List α) : List α :=
  items.filter fun item => key item = group

theorem foldlM_groupStep_ok {items : List α} {groups final : SortedMap Key β}
    (h : items.foldlM (groupStep key merge) groups = .ok final) (group : Key)
    : mergeGroup merge (groups.get? group) (itemsOf key group items)
      = .ok (final.get? group) := by
  induction items generalizing groups with
  | nil =>
      cases h
      rfl
  | cons item rest ih =>
      rw [List.foldlM_cons, Result.bind_eq_ok_iff] at h
      obtain ⟨next, hstep, hrest⟩ := h
      rw [groupStep, Result.bind_eq_ok_iff] at hstep
      obtain ⟨merged, hmerge, hnext⟩ := hstep
      cases hnext
      have htail := ih hrest
      by_cases hkey : key item = group
      · subst hkey
        rw [SortedMap.get?_insert_self] at htail
        simp only [itemsOf, List.filter_cons, decide_true, if_true, mergeGroup, hmerge,
          Result.ok_bind]
        exact htail
      · rw [SortedMap.get?_insert_ne _ _ (Ne.symm hkey)] at htail
        simpa only [itemsOf, List.filter_cons, hkey, decide_false, Bool.false_eq_true, if_false]
          using htail

end Groups

/-- `collect::<BTreeSet<_>>().into_iter().collect()`. -/
def sortedSet (items : List Key) : List Key :=
  (SortedMap.ofList (items.map fun item => (item, ()))).keys

theorem get?_sortedSet (items : List Key) (item : Key)
    : (SortedMap.ofList (items.map fun item => (item, ()))).get? item
      = if item ∈ items then some () else none := by
  rw [SortedMap.ofList, SortedMap.get?_foldl_insert_last, SortedMap.get?_empty, Option.or_none]
  cases hlast : SortedMap.lastValue item (items.map fun item => (item, ())) with
  | none =>
      have hnew : item ∉ items := by simpa using SortedMap.lastValue_eq_none.mp hlast
      rw [if_neg hnew]
  | some value =>
      have hmem : item ∈ items := by simpa using SortedMap.mem_of_lastValue hlast
      rw [if_pos hmem]

theorem mem_sortedSet {items : List Key} {item : Key} : item ∈ sortedSet items ↔ item ∈ items := by
  have hkeys : item ∈ sortedSet items
      ↔ ∃ value, (item, value) ∈ (SortedMap.ofList (items.map fun item => (item, ()))).entries := by
    simp [sortedSet, SortedMap.keys]
  rw [hkeys]
  simp only [← SortedMap.get?_eq_some, get?_sortedSet]
  by_cases h : item ∈ items <;> simp [h]

end Distributed.Foundation
