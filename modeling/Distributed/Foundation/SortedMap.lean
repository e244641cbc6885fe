import Mathlib.Order.Lattice
import Mathlib.Data.List.Basic

/-! Finite maps kept in key order.
The entries are a list with strictly increasing keys, so a map is determined by its
lookups and iteration is in key order.
-/

namespace Distributed.Foundation

/-- The keys of the entries strictly increase. -/
def SortedKeys {Key Value : Type} [LT Key] (entries : List (Key × Value)) : Prop :=
  entries.Pairwise fun first second => first.1 < second.1

structure SortedMap (Key Value : Type) [LT Key] where
  entries : List (Key × Value)
  sorted : SortedKeys entries

namespace SortedMap

variable {Key Value : Type} [LinearOrder Key]

instance [DecidableEq Value] : DecidableEq (SortedMap Key Value) := fun left right =>
  decidable_of_iff (left.entries = right.entries) (by cases left; cases right; simp)

def empty : SortedMap Key Value := ⟨[], List.Pairwise.nil⟩

def getEntry (key : Key) : List (Key × Value) → Option Value
  | [] => none
  | (other, value) :: rest => if key = other then some value else getEntry key rest

def get? (map : SortedMap Key Value) (key : Key) : Option Value := getEntry key map.entries

def contains (map : SortedMap Key Value) (key : Key) : Bool := (map.get? key).isSome

def keys (map : SortedMap Key Value) : List Key := map.entries.map Prod.fst

@[simp] theorem get?_empty (key : Key) : (empty : SortedMap Key Value).get? key = none :=
  rfl

theorem getEntry_eq_some {entries : List (Key × Value)} (hsorted : SortedKeys entries)
    {key : Key} {value : Value}
    : getEntry key entries = some value ↔ (key, value) ∈ entries := by
  induction entries with
  | nil => simp [getEntry]
  | cons entry rest ih =>
      obtain ⟨other, stored⟩ := entry
      obtain ⟨hhead, hrest⟩ := List.pairwise_cons.mp hsorted
      by_cases hkey : key = other
      · subst hkey
        have hnot : (key, value) ∉ rest := fun hmem => lt_irrefl key (hhead (key, value) hmem)
        simp [getEntry, hnot, eq_comm]
      · simp [getEntry, hkey, ih hrest]

theorem get?_eq_some {map : SortedMap Key Value} {key : Key} {value : Value}
    : map.get? key = some value ↔ (key, value) ∈ map.entries :=
  getEntry_eq_some map.sorted

theorem getEntry_eq_find? (key : Key) (entries : List (Key × Value))
    : getEntry key entries = (entries.find? fun entry => entry.1 = key).map Prod.snd := by
  induction entries with
  | nil => rfl
  | cons entry rest ih =>
      obtain ⟨other, value⟩ := entry
      by_cases hkey : key = other
      · simp [getEntry, hkey]
      · simp [getEntry, hkey, Ne.symm hkey, ih]

/-- A map is determined by its lookups. -/
theorem ext_get? {left right : SortedMap Key Value}
    (h : ∀ key, left.get? key = right.get? key)
    : left = right := by
  have hmem : ∀ entry : Key × Value, entry ∈ left.entries ↔ entry ∈ right.entries := by
    rintro ⟨key, value⟩
    rw [← get?_eq_some, ← get?_eq_some, h]
  have hnodup : ∀ map : SortedMap Key Value, map.entries.Nodup := by
    intro map
    refine List.Pairwise.imp ?_ map.sorted
    rintro first second hlt rfl
    exact lt_irrefl _ hlt
  have hperm : left.entries.Perm right.entries :=
    (List.perm_ext_iff_of_nodup (hnodup left) (hnodup right)).mpr hmem
  have hentries : left.entries = right.entries :=
    hperm.eq_of_pairwise (fun _ _ _ _ hxy hyx => absurd hyx (lt_asymm hxy))
      left.sorted right.sorted
  cases left
  cases right
  cases hentries
  rfl

def insertEntry (key : Key) (value : Value) : List (Key × Value) → List (Key × Value)
  | [] => [(key, value)]
  | (other, stored) :: rest =>
      if key < other then (key, value) :: (other, stored) :: rest
      else if key = other then (key, value) :: rest
      else (other, stored) :: insertEntry key value rest

theorem mem_insertEntry {key : Key} {value : Value} {entries : List (Key × Value)}
    {entry : Key × Value} (h : entry ∈ insertEntry key value entries)
    : entry = (key, value) ∨ entry ∈ entries := by
  induction entries with
  | nil => simpa [insertEntry] using h
  | cons first rest ih =>
      obtain ⟨other, stored⟩ := first
      simp only [insertEntry] at h
      split at h
      · simpa using h
      · split at h
        · rcases List.mem_cons.mp h with h | h
          · exact .inl h
          · exact .inr (List.mem_cons_of_mem _ h)
        · rcases List.mem_cons.mp h with h | h
          · exact .inr (h ▸ List.mem_cons_self ..)
          · exact (ih h).imp id (List.mem_cons_of_mem _)

theorem sorted_insertEntry (key : Key) (value : Value) {entries : List (Key × Value)}
    (hsorted : SortedKeys entries) : SortedKeys (insertEntry key value entries) := by
  induction entries with
  | nil => simp [insertEntry, SortedKeys]
  | cons first rest ih =>
      obtain ⟨other, stored⟩ := first
      obtain ⟨hhead, hrest⟩ := List.pairwise_cons.mp hsorted
      simp only [insertEntry]
      split
      · rename_i hlt
        refine List.pairwise_cons.mpr ⟨?_, hsorted⟩
        intro entry hentry
        rcases List.mem_cons.mp hentry with rfl | hentry
        · exact hlt
        · exact lt_trans hlt (hhead entry hentry)
      · split
        · rename_i heq
          subst heq
          exact List.pairwise_cons.mpr ⟨hhead, hrest⟩
        · rename_i hnlt hne
          refine List.pairwise_cons.mpr ⟨?_, ih hrest⟩
          intro entry hentry
          rcases mem_insertEntry hentry with rfl | hentry
          · exact lt_of_le_of_ne (not_lt.mp hnlt) (Ne.symm hne)
          · exact hhead entry hentry

def insert (map : SortedMap Key Value) (key : Key) (value : Value) : SortedMap Key Value :=
  ⟨insertEntry key value map.entries, sorted_insertEntry key value map.sorted⟩

theorem getEntry_insertEntry (key other : Key) (value : Value)
    (entries : List (Key × Value)) (hsorted : SortedKeys entries)
    : getEntry other (insertEntry key value entries)
      = if other = key then some value else getEntry other entries := by
  induction entries with
  | nil => simp [insertEntry, getEntry]
  | cons first rest ih =>
      obtain ⟨head, stored⟩ := first
      obtain ⟨-, hrest⟩ := List.pairwise_cons.mp hsorted
      simp only [insertEntry]
      split
      · simp [getEntry]
      · split
        · rename_i heq
          subst heq
          by_cases hother : other = key <;> simp [getEntry, hother]
        · rename_i hne
          by_cases hother : other = head
          · subst hother
            simp [getEntry, Ne.symm hne]
          · simp [getEntry, hother, ih hrest]

@[simp] theorem get?_insert_self (map : SortedMap Key Value) (key : Key) (value : Value)
    : (map.insert key value).get? key = some value := by
  simp [get?, insert, getEntry_insertEntry _ _ _ _ map.sorted]

theorem get?_insert_ne (map : SortedMap Key Value) {key other : Key} (value : Value)
    (h : other ≠ key) : (map.insert key value).get? other = map.get? other := by
  simp [get?, insert, getEntry_insertEntry _ _ _ _ map.sorted, h]

/-- A key past every stored key is inserted at the end. -/
theorem entries_insert_of_gt {map : SortedMap Key Value} {key : Key} (value : Value)
    (h : ∀ entry ∈ map.entries, entry.1 < key)
    : (map.insert key value).entries = map.entries ++ [(key, value)] := by
  have happend : ∀ entries : List (Key × Value), (∀ entry ∈ entries, entry.1 < key) →
      insertEntry key value entries = entries ++ [(key, value)] := by
    intro entries
    induction entries with
    | nil => intro _; rfl
    | cons first rest ih =>
        obtain ⟨other, stored⟩ := first
        intro hall
        have hlt : other < key := hall (other, stored) (List.mem_cons_self ..)
        have hrest := ih fun entry hentry => hall entry (List.mem_cons_of_mem _ hentry)
        simp [insertEntry, not_lt_of_gt hlt, ne_of_gt hlt, hrest]
  exact happend map.entries h

/-- The map with the given entries, later ones replacing earlier ones of the same key. -/
def ofList (entries : List (Key × Value)) : SortedMap Key Value :=
  entries.foldl (fun map entry => map.insert entry.1 entry.2) empty

theorem get?_foldl_insert (key : Key) {entries : List (Key × Value)}
    (hnodup : (entries.map Prod.fst).Nodup) (map : SortedMap Key Value)
    : (entries.foldl (fun map entry => map.insert entry.1 entry.2) map).get? key
      = (getEntry key entries).or (map.get? key) := by
  induction entries generalizing map with
  | nil => rfl
  | cons entry rest ih =>
      obtain ⟨other, value⟩ := entry
      obtain ⟨hnew, hrest⟩ := List.nodup_cons.mp hnodup
      rw [List.foldl_cons, ih hrest]
      by_cases hkey : key = other
      · subst hkey
        have hlater : getEntry key rest = none := by
          rw [getEntry_eq_find?, Option.map_eq_none_iff, List.find?_eq_none]
          intro later hlater heq
          exact hnew (List.mem_map.mpr ⟨later, hlater, by simpa using heq⟩)
        simp [getEntry, hlater]
      · simp [getEntry, hkey, get?_insert_ne]

/-- Entries with distinct keys are all kept. -/
theorem get?_ofList {entries : List (Key × Value)} (hnodup : (entries.map Prod.fst).Nodup)
    (key : Key) : (ofList entries).get? key = getEntry key entries := by
  rw [ofList, get?_foldl_insert key hnodup, get?_empty, Option.or_none]

/-- The value of the last entry of a key. -/
def lastValue (key : Key) : List (Key × Value) → Option Value
  | [] => none
  | entry :: rest =>
      (lastValue key rest).or (if entry.1 = key then some entry.2 else none)

/-- Of the entries inserted in order, the last of a key stays. -/
theorem get?_foldl_insert_last (key : Key) (entries : List (Key × Value))
    (map : SortedMap Key Value)
    : (entries.foldl (fun map entry => map.insert entry.1 entry.2) map).get? key
      = (lastValue key entries).or (map.get? key) := by
  induction entries generalizing map with
  | nil => rfl
  | cons entry rest ih =>
      rw [List.foldl_cons, ih, lastValue, Option.or_assoc]
      by_cases hkey : entry.1 = key
      · subst hkey
        rw [get?_insert_self, if_pos rfl, Option.some_or]
      · rw [get?_insert_ne _ _ (Ne.symm hkey), if_neg hkey, Option.none_or]

theorem lastValue_append (key : Key) (entries others : List (Key × Value))
    : lastValue key (entries ++ others)
      = (lastValue key others).or (lastValue key entries) := by
  induction entries with
  | nil => simp [lastValue]
  | cons entry rest ih => rw [List.cons_append, lastValue, ih, lastValue, Option.or_assoc]

theorem mem_of_lastValue {key : Key} {value : Value} {entries : List (Key × Value)}
    (h : lastValue key entries = some value)
    : (key, value) ∈ entries := by
  induction entries with
  | nil => cases h
  | cons entry rest ih =>
      rw [lastValue, Option.or_eq_some_iff] at h
      rcases h with hrest | ⟨-, hentry⟩
      · exact List.mem_cons_of_mem _ (ih hrest)
      · rw [Option.ite_none_right_eq_some] at hentry
        obtain ⟨rfl, hvalue⟩ := hentry
        rw [← Option.some.inj hvalue]
        exact List.mem_cons_self ..

theorem lastValue_eq_none {key : Key} {entries : List (Key × Value)}
    : lastValue key entries = none ↔ key ∉ entries.map Prod.fst := by
  induction entries with
  | nil => simp [lastValue]
  | cons entry rest ih =>
      rw [lastValue, Option.or_eq_none_iff, ih, List.map_cons, List.mem_cons, not_or, and_comm]
      simp [eq_comm]

theorem lastValue_eq_some {key : Key} {value : Value} {entries : List (Key × Value)}
    (hnodup : (entries.map Prod.fst).Nodup)
    : lastValue key entries = some value ↔ (key, value) ∈ entries := by
  refine ⟨mem_of_lastValue, fun hmem => ?_⟩
  induction entries with
  | nil => cases hmem
  | cons entry rest ih =>
      obtain ⟨hnew, hrest⟩ := List.nodup_cons.mp hnodup
      rw [lastValue]
      rcases List.mem_cons.mp hmem with rfl | hlater
      · rw [lastValue_eq_none.mpr hnew, Option.none_or, if_pos rfl]
      · rw [ih hrest hlater, Option.some_or]

/-- Keep the entries whose key satisfies `keep`. -/
def filterKeys (map : SortedMap Key Value) (keep : Key → Bool) : SortedMap Key Value :=
  ⟨map.entries.filter fun entry => keep entry.1, map.sorted.filter _⟩

def erase (map : SortedMap Key Value) (key : Key) : SortedMap Key Value :=
  map.filterKeys fun other => other ≠ key

theorem entries_foldl_erase (map : SortedMap Key Value) (keys : List Key)
    : (keys.foldl erase map).entries = map.entries.filter fun entry => entry.1 ∉ keys := by
  induction keys generalizing map with
  | nil => simp
  | cons key rest ih =>
      rw [List.foldl_cons, ih]
      simp [erase, filterKeys, List.filter_filter, Bool.and_comm]

theorem get?_foldl_erase (map : SortedMap Key Value) (keys : List Key) (key : Key)
    : (keys.foldl erase map).get? key = if key ∈ keys then none else map.get? key := by
  refine Option.ext fun value => ?_
  rw [get?_eq_some, entries_foldl_erase]
  by_cases hkey : key ∈ keys <;> simp [hkey, get?_eq_some]

theorem mem_keys_of_mem {map : SortedMap Key Value} {entry : Key × Value}
    (h : entry ∈ map.entries) : entry.1 ∈ map.keys :=
  List.mem_map_of_mem h

theorem nodup_keys (map : SortedMap Key Value) : map.keys.Nodup := by
  rw [keys, List.nodup_iff_pairwise_ne, List.pairwise_map]
  exact map.sorted.imp ne_of_lt

theorem contains_iff {map : SortedMap Key Value} {key : Key}
    : map.contains key = true ↔ ∃ value, (key, value) ∈ map.entries := by
  rw [contains, Option.isSome_iff_exists]
  exact exists_congr fun value => get?_eq_some

/-- The stored value of a key is determined. -/
theorem eq_of_mem_entries {map : SortedMap Key Value} {key : Key} {first second : Value}
    (hfirst : (key, first) ∈ map.entries) (hsecond : (key, second) ∈ map.entries)
    : first = second :=
  Option.some.inj ((get?_eq_some.mpr hfirst).symm.trans (get?_eq_some.mpr hsecond))

end SortedMap

end Distributed.Foundation
