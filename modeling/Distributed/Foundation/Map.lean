import Mathlib.Data.List.AList

/-! Hash maps.
Mathlib's association lists with distinct keys; the order of their entries stands for the
unspecified iteration order of a hash map.
-/

namespace Distributed.Foundation

abbrev Map (Key Value : Type) : Type := AList fun _ : Key => Value

namespace Map

variable {Key Value : Type}

/-- The stored pairs. -/
def toList (map : Map Key Value) : List (Key × Value) :=
  map.entries.map fun entry => (entry.1, entry.2)

def values (map : Map Key Value) : List Value := map.entries.map fun entry => entry.2

theorem length_filter_values (map : Map Key Value) (p : Value → Bool)
    : (map.values.filter p).length = (map.toList.filter fun pair => p pair.2).length := by
  have hvalues : map.values = map.toList.map Prod.snd := by
    simp [values, toList]
  rw [hvalues, List.filter_map, List.length_map]
  rfl

theorem map_fst_toList (map : Map Key Value) : map.toList.map Prod.fst = map.keys := by
  simp [toList, AList.keys, List.keys, List.map_map, Function.comp_def]

theorem nodup_map_fst_toList (map : Map Key Value) : (map.toList.map Prod.fst).Nodup := by
  rw [map_fst_toList]
  exact map.keys_nodup

/-- Change every stored value. -/
def mapValues {Other : Type} (change : Key → Value → Other) (map : Map Key Value)
    : Map Key Other where
  entries := map.entries.map fun entry => ⟨entry.1, change entry.1 entry.2⟩
  nodupKeys := by
    have hkeys : (map.entries.map fun entry => (⟨entry.1, change entry.1 entry.2⟩
        : (_ : Key) × Other)).keys = map.entries.keys := by
      simp [List.keys, List.map_map, Function.comp_def]
    rw [List.NodupKeys, hkeys]
    exact map.nodupKeys

variable [DecidableEq Key]

def contains (map : Map Key Value) (key : Key) : Bool := (map.lookup key).isSome

/-- Write every pair in order. -/
def insertAll (map : Map Key Value) (pairs : List (Key × Value)) : Map Key Value :=
  pairs.foldl (fun map pair => map.insert pair.1 pair.2) map

@[grind =] theorem lookup_insert_eq (map : Map Key Value) (key other : Key) (value : Value)
    : AList.lookup other (map.insert key value)
      = if other = key then some value else map.lookup other := by
  split
  · rename_i h
    subst h
    exact AList.lookup_insert map
  · rename_i h
    exact AList.lookup_insert_ne h

@[grind =] theorem lookup_erase_eq (map : Map Key Value) (key other : Key)
    : AList.lookup other (map.erase key)
      = if other = key then none else map.lookup other := by
  split
  · rename_i h
    subst h
    exact AList.lookup_erase other map
  · rename_i h
    exact AList.lookup_erase_ne h

theorem contains_insert {map : Map Key Value} {key other : Key} {value : Value}
    (h : map.contains other = true)
    : contains (map.insert key value) other = true := by
  rw [contains, lookup_insert_eq]
  split
  · rfl
  · exact h

/-- An entry added only when its key is new never changes an earlier one. -/
theorem lookup_insert_if_new {map : Map Key Value} {key other : Key} {value found : Value}
    (h : map.lookup other = some found)
    : AList.lookup other (if map.contains key then map else map.insert key value)
      = some found := by
  split
  · exact h
  · rename_i hunknown
    rw [lookup_insert_eq, if_neg]
    · exact h
    · rintro rfl
      simp [contains, h] at hunknown

/-- The added key has its new value when it had no other one. -/
theorem lookup_insert_if_new_self {map : Map Key Value} {key : Key} {value : Value}
    (h : ∀ found, map.lookup key = some found → found = value)
    : AList.lookup key (if map.contains key then map else map.insert key value)
      = some value := by
  cases hlookup : map.lookup key with
  | some found => rw [lookup_insert_if_new hlookup, h found hlookup]
  | none => simp [contains, hlookup]

theorem mem_toList {map : Map Key Value} {key : Key} {value : Value}
    : (key, value) ∈ map.toList ↔ map.lookup key = some value := by
  have hlookup : map.lookup key = some value ↔ ⟨key, value⟩ ∈ map.entries :=
    AList.mem_lookup_iff
  rw [hlookup, toList]
  constructor
  · intro h
    obtain ⟨entry, hentry, heq⟩ := List.mem_map.mp h
    simp only [Prod.mk.injEq] at heq
    obtain ⟨rfl, rfl⟩ := heq
    exact hentry
  · intro h
    exact List.mem_map.mpr ⟨⟨key, value⟩, h, rfl⟩

theorem mem_values {map : Map Key Value} {value : Value}
    : value ∈ map.values ↔ ∃ key, map.lookup key = some value := by
  constructor
  · intro h
    obtain ⟨entry, hentry, rfl⟩ := List.mem_map.mp h
    exact ⟨entry.1, AList.mem_lookup_iff.mpr hentry⟩
  · rintro ⟨key, h⟩
    exact List.mem_map.mpr ⟨⟨key, value⟩, AList.mem_lookup_iff.mp h, rfl⟩

theorem insertAll_cons (map : Map Key Value) (pair : Key × Value)
    (pairs : List (Key × Value))
    : map.insertAll (pair :: pairs) = insertAll (map.insert pair.1 pair.2) pairs :=
  rfl

/-- A key no pair writes keeps its value. -/
theorem lookup_insertAll_of_notMem {map : Map Key Value} {pairs : List (Key × Value)}
    {key : Key} (h : key ∉ pairs.map Prod.fst)
    : AList.lookup key (map.insertAll pairs) = map.lookup key := by
  induction pairs generalizing map with
  | nil => rfl
  | cons pair pairs ih =>
      simp only [List.map_cons, List.mem_cons, not_or] at h
      rw [insertAll_cons, ih h.2, lookup_insert_eq, if_neg h.1]

/-- When every pair of a written key has one value, the key has it afterwards. -/
theorem lookup_insertAll_of_forall {map : Map Key Value} {pairs : List (Key × Value)}
    {key : Key} {value : Value} (hmem : key ∈ pairs.map Prod.fst)
    (hall : ∀ pair ∈ pairs, pair.1 = key → pair.2 = value)
    : AList.lookup key (map.insertAll pairs) = some value := by
  induction pairs generalizing map with
  | nil => simp at hmem
  | cons pair pairs ih =>
      rw [insertAll_cons]
      by_cases hrest : key ∈ pairs.map Prod.fst
      · exact ih hrest fun other hother => hall other (List.mem_cons_of_mem _ hother)
      · have hpair : key = pair.1 := (List.mem_cons.mp hmem).resolve_right hrest
        rw [lookup_insertAll_of_notMem hrest, lookup_insert_eq, if_pos hpair,
          hall pair (List.mem_cons_self ..) hpair.symm]

/-- When the written keys are distinct every pair is found afterwards. -/
theorem lookup_insertAll_of_mem {map : Map Key Value} {pairs : List (Key × Value)}
    {key : Key} {value : Value} (hnodup : (pairs.map Prod.fst).Nodup)
    (h : (key, value) ∈ pairs)
    : AList.lookup key (map.insertAll pairs) = some value := by
  refine lookup_insertAll_of_forall (List.mem_map_of_mem h) fun pair hpair hkey => ?_
  have hsame : pair = (key, value) := List.inj_on_of_nodup_map hnodup hpair h hkey
  rw [hsame]

/-- Of several pairs with one key the last is the one that stays. -/
theorem lookup_insertAll_last {map : Map Key Value} {earlier later : List (Key × Value)}
    {key : Key} {value : Value} (h : key ∉ later.map Prod.fst)
    : AList.lookup key (map.insertAll (earlier ++ (key, value) :: later)) = some value := by
  have hsplit : map.insertAll (earlier ++ (key, value) :: later)
      = insertAll ((map.insertAll earlier).insert key value) later :=
    List.foldl_append
  rw [hsplit, lookup_insertAll_of_notMem h, AList.lookup_insert]

end Map

end Distributed.Foundation
