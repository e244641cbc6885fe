import Distributed.Graphql.ProjectionDelta.Canonical

/-! What delta operations do to the record they name, as the replica applies them.
Merging the operations of successive occurrences keeps their joint effect on the presence of
the record and on the fields of its replacement mask.
-/

namespace Distributed.Graphql.ProjectionDelta

open Distributed.Foundation

/-- The fields of a present record. The identity fields, which every write repeats, are left
out. -/
abbrev RecordFields := SortedMap String DeltaValue

/-- `{ ...current, ...set }` without `unset`. -/
def writeFields (set : List DeltaField) (unset : List String) (current : RecordFields)
    : RecordFields :=
  unset.foldl SortedMap.erase
    (set.foldl (fun fields field => fields.insert field.1 field.2) current)

/-- `applyOptimisticEffects` on the record of the mutation: an upsert unsets the fields of its
mask that it does not set, and a conditional patch leaves a missing record missing. -/
def ProjectionDeltaMutation.apply (record : Option RecordFields)
    : ProjectionDeltaMutation → Option RecordFields
  | .upsert _ fields replace =>
      some (writeFields fields (replace.filter fun name => name ∉ fields.map Prod.fst)
        (record.getD .empty))
  | .patch _ set unset ifPresent =>
      if ifPresent && record.isNone then none
      else some (writeFields set unset (record.getD .empty))
  | .delete _ => none
  | .link .. | .unlink .. | .invalidateModel .. | .invalidateRelationship .. => record

def applyAll (operations : List ProjectionDeltaOperation) (record : Option RecordFields)
    : Option RecordFields :=
  operations.foldl (fun record operation => operation.mutation.apply record) record

/-- The records are both missing, or both present with the same fields of the mask. -/
def AgreeOn (mask : List String) (record other : Option RecordFields) : Prop :=
  record.isSome = other.isSome
  ∧ ∀ name ∈ mask, record.map (·.get? name) = other.map (·.get? name)

/-- A mutation of the record as lowering makes it, for the replacement mask of the model. -/
def LoweredFor (scope : ProjectionDeltaScope) (mask : List String)
    : ProjectionDeltaMutation → Prop
  | .upsert target _ replace => target = scope ∧ ∀ name, name ∈ replace ↔ name ∈ mask
  | .patch target set unset ifPresent =>
      target = scope ∧ ifPresent = true ∧ ∀ name ∈ set.map Prod.fst ++ unset, name ∈ mask
  | .delete target => target = scope
  | .link .. | .unlink .. | .invalidateModel .. | .invalidateRelationship .. => False

theorem AgreeOn.refl (mask : List String) (record : Option RecordFields)
    : AgreeOn mask record record :=
  ⟨rfl, fun _ _ => rfl⟩

theorem AgreeOn.trans {mask : List String} {record other third : Option RecordFields}
    (h : AgreeOn mask record other) (h' : AgreeOn mask other third)
    : AgreeOn mask record third :=
  ⟨h.1.trans h'.1, fun name hname => (h.2 name hname).trans (h'.2 name hname)⟩

theorem agreeOn_some {mask : List String} {fields others : RecordFields}
    : AgreeOn mask (some fields) (some others)
      ↔ ∀ name ∈ mask, fields.get? name = others.get? name := by
  simp [AgreeOn]

theorem get?_writeFields (set : List DeltaField) (unset : List String) (current : RecordFields)
    (name : String)
    : (writeFields set unset current).get? name
      = if name ∈ unset then none
        else (SortedMap.lastValue name set).or (current.get? name) := by
  rw [writeFields, SortedMap.get?_foldl_erase, SortedMap.get?_foldl_insert_last]

/-- An upsert decides every field of its mask. -/
theorem get?_upsertFields {fields : List DeltaField} {replace : List String}
    {current : RecordFields} {name : String} (hname : name ∈ replace)
    : (writeFields fields (replace.filter fun name => name ∉ fields.map Prod.fst) current).get? name
      = SortedMap.lastValue name fields := by
  rw [get?_writeFields]
  by_cases hset : name ∈ fields.map Prod.fst
  · rw [if_neg (by simp [hset])]
    cases hlast : SortedMap.lastValue name fields with
    | none => exact absurd hset (SortedMap.lastValue_eq_none.mp hlast)
    | some value => rfl
  · rw [if_pos (by simp [hname, hset]), SortedMap.lastValue_eq_none.mpr hset]

theorem upsert_agreeOn {scope : ProjectionDeltaScope} {mask : List String}
    {target : ProjectionDeltaScope} {fields : List DeltaField} {replace : List String}
    (h : LoweredFor scope mask (.upsert target fields replace)) (record other : Option RecordFields)
    : AgreeOn mask (ProjectionDeltaMutation.apply record (.upsert target fields replace))
        (ProjectionDeltaMutation.apply other (.upsert target fields replace)) := by
  refine agreeOn_some.mpr fun name hname => ?_
  rw [get?_upsertFields ((h.2 name).mpr hname), get?_upsertFields ((h.2 name).mpr hname)]

/-- A lowered mutation reads the presence of the record and the fields of the mask only. -/
theorem AgreeOn.apply {scope : ProjectionDeltaScope} {mask : List String}
    {mutation : ProjectionDeltaMutation} {record other : Option RecordFields}
    (hlowered : LoweredFor scope mask mutation) (h : AgreeOn mask record other)
    : AgreeOn mask (mutation.apply record) (mutation.apply other) := by
  cases mutation with
  | upsert target fields replace => exact upsert_agreeOn hlowered record other
  | patch target set unset ifPresent =>
      obtain ⟨-, rfl, -⟩ := hlowered
      cases record with
      | none =>
          cases other with
          | none => exact .refl ..
          | some fields => exact absurd h.1 (by simp)
      | some fields =>
          cases other with
          | none => exact absurd h.1 (by simp)
          | some others =>
              refine agreeOn_some.mpr fun name hname => ?_
              simp only [Option.getD_some, get?_writeFields,
                agreeOn_some.mp h name hname]
  | delete target => exact .refl ..
  | link | unlink | invalidateModel | invalidateRelationship => exact hlowered.elim

theorem lastValue_named {β : Type} (image : DeltaField → β) (name : String)
    (fields : List DeltaField)
    : SortedMap.lastValue name (fields.map fun field => (field.1, image field))
      = (SortedMap.lastValue name fields).map fun value => image (name, value) := by
  induction fields with
  | nil => rfl
  | cons field rest ih =>
      obtain ⟨other, value⟩ := field
      rw [List.map_cons, SortedMap.lastValue, ih, SortedMap.lastValue, Option.map_or]
      by_cases hname : other = name <;> simp [hname]

theorem lastValue_names {β : Type} (value : β) (name : String) (names : List String)
    : SortedMap.lastValue name (names.map fun name => (name, value))
      = if name ∈ names then some value else none := by
  induction names with
  | nil => rfl
  | cons other rest ih =>
      rw [List.map_cons, SortedMap.lastValue, ih]
      by_cases hrest : name ∈ rest
      · simp [hrest]
      · simp [hrest, eq_comm]

/-- The fields of a map from names to fields of that name, read back by name. -/
theorem lastValue_entries {β : Type} {values : SortedMap String β} {field? : β → Option DeltaField}
    (hnamed : ∀ name value field, values.get? name = some value → field? value = some field →
      field.1 = name)
    (name : String)
    : SortedMap.lastValue name (values.entries.filterMap fun entry => field? entry.2)
      = ((values.get? name).bind field?).map Prod.snd := by
  have hfield : ∀ {entry : String × β} {field : DeltaField}, entry ∈ values.entries →
      field? entry.2 = some field → field.1 = entry.1 :=
    fun hentry hfield => hnamed _ _ _ (SortedMap.get?_eq_some.mpr hentry) hfield
  have hnodup : ((values.entries.filterMap fun entry => field? entry.2).map Prod.fst).Nodup := by
    rw [List.nodup_iff_pairwise_ne, List.pairwise_map, List.pairwise_filterMap]
    refine List.Pairwise.imp_of_mem (fun hfirst hsecond hlt field hleft other hright => ?_)
      values.sorted
    rw [hfield hfirst hleft, hfield hsecond hright]
    exact ne_of_lt hlt
  refine Option.ext fun value => ?_
  rw [SortedMap.lastValue_eq_some hnodup, List.mem_filterMap]
  constructor
  · rintro ⟨entry, hentry, hvalue⟩
    have hname : name = entry.1 := hfield hentry hvalue
    rw [hname, SortedMap.get?_eq_some.mpr hentry]
    simp [hvalue]
  · intro h
    rw [Option.map_eq_some_iff] at h
    obtain ⟨field, hbind, rfl⟩ := h
    obtain ⟨stored, hget, hstored⟩ := Option.bind_eq_some_iff.mp hbind
    refine ⟨(name, stored), SortedMap.get?_eq_some.mp hget, ?_⟩
    rw [hstored, ← hnamed _ _ _ hget hstored]

/-- What two patches in a row say of a field: the later one, where it names the field. -/
theorem get?_patchValues (set : List DeltaField) (unset : List String)
    (incomingSet : List DeltaField) (incomingUnset : List String) (name : String)
    : (patchValues set unset incomingSet incomingUnset).get? name
      = if name ∈ incomingUnset then some none
        else ((SortedMap.lastValue name incomingSet).map fun value => some (name, value)).or
          (if name ∈ unset then some none
            else (SortedMap.lastValue name set).map fun value => some (name, value)) := by
  rw [patchValues, SortedMap.ofList, SortedMap.get?_foldl_insert_last, SortedMap.get?_empty,
    Option.or_none]
  simp only [SortedMap.lastValue_append, lastValue_named, lastValue_names]
  by_cases hincoming : name ∈ incomingUnset
  · simp [hincoming]
  · by_cases hunset : name ∈ unset <;> simp [hincoming, hunset]

theorem patchValues_named {set incomingSet : List DeltaField} {unset incomingUnset : List String}
    {name : String} {value : Option DeltaField} {field : DeltaField}
    (hget : (patchValues set unset incomingSet incomingUnset).get? name = some value)
    (hfield : value = some field)
    : field.1 = name := by
  subst hfield
  rw [get?_patchValues] at hget
  split at hget
  · cases hget
  · rw [Option.or_eq_some_iff] at hget
    rcases hget with hset | ⟨-, hset⟩
    · obtain ⟨_, -, hvalue⟩ := Option.map_eq_some_iff.mp hset
      cases hvalue
      rfl
    · split at hset
      · cases hset
      · obtain ⟨_, -, hvalue⟩ := Option.map_eq_some_iff.mp hset
        cases hvalue
        rfl

/-- The fields of two patches merged, written at once. -/
theorem get?_writeFields_patches (set incomingSet : List DeltaField)
    (unset incomingUnset : List String) (current : RecordFields) (name : String)
    : (writeFields
          ((patchValues set unset incomingSet incomingUnset).entries.filterMap Prod.snd)
          ((patchValues set unset incomingSet incomingUnset).entries.filterMap fun entry =>
            if entry.2.isNone then some entry.1 else none)
          current).get? name
      = (writeFields incomingSet incomingUnset (writeFields set unset current)).get? name := by
  let values := patchValues set unset incomingSet incomingUnset
  have hset : SortedMap.lastValue name (values.entries.filterMap Prod.snd)
      = ((values.get? name).bind id).map Prod.snd :=
    lastValue_entries (fun _ _ _ hget hfield => patchValues_named hget hfield) name
  have hunset : name ∈ (values.entries.filterMap fun entry =>
      if entry.2.isNone then some entry.1 else none) ↔ values.get? name = some none := by
    rw [SortedMap.get?_eq_some, List.mem_filterMap]
    constructor
    · rintro ⟨⟨other, value⟩, hentry, hvalue⟩
      cases value with
      | none =>
          cases hvalue
          exact hentry
      | some field => cases hvalue
    · exact fun hentry => ⟨_, hentry, rfl⟩
  rw [get?_writeFields, get?_writeFields, get?_writeFields, hset]
  simp only [hunset, values, get?_patchValues]
  by_cases hincoming : name ∈ incomingUnset
  · simp [hincoming]
  · cases SortedMap.lastValue name incomingSet with
    | some value => simp [hincoming]
    | none =>
        by_cases hearlier : name ∈ unset
        · simp [hincoming, hearlier]
        · cases SortedMap.lastValue name set <;> simp [hincoming, hearlier]

theorem lastValue_upsertPatch (fields set : List DeltaField) (unset : List String) (name : String)
    : SortedMap.lastValue name
        ((unset.foldl SortedMap.erase
          (SortedMap.ofList ((fields ++ set).map fun field => (field.1, field)))).entries.map
            Prod.snd)
      = if name ∈ unset then none
        else (SortedMap.lastValue name set).or (SortedMap.lastValue name fields) := by
  let kept := unset.foldl SortedMap.erase
    (SortedMap.ofList ((fields ++ set).map fun field => (field.1, field)))
  have hget : ∀ name, kept.get? name
      = if name ∈ unset then none
        else (SortedMap.lastValue name (fields ++ set)).map fun value => (name, value) := by
    intro name
    rw [SortedMap.get?_foldl_erase, SortedMap.ofList, SortedMap.get?_foldl_insert_last,
      SortedMap.get?_empty, Option.or_none, lastValue_named (fun field => field)]
  have hnamed : ∀ name (value field : DeltaField), kept.get? name = some value →
      some value = some field → field.1 = name := by
    rintro name value _ hvalue ⟨⟩
    rw [hget] at hvalue
    split at hvalue
    · cases hvalue
    · obtain ⟨_, -, rfl⟩ := Option.map_eq_some_iff.mp hvalue
      rfl
  have hlast := lastValue_entries hnamed name
  have hmap : (kept.entries.filterMap fun entry => some entry.2) = kept.entries.map Prod.snd :=
    congrFun List.filterMap_eq_map kept.entries
  rw [hmap, hget] at hlast
  refine hlast.trans ?_
  by_cases hunset : name ∈ unset
  · simp [hunset]
  · simp [hunset, SortedMap.lastValue_append, Function.comp_def]

section Merged

variable {scope : ProjectionDeltaScope} {mask : List String}

theorem sameMergeScope_of_lowered {existing incoming : ProjectionDeltaMutation}
    (hexisting : LoweredFor scope mask existing) (hincoming : LoweredFor scope mask incoming)
    : sameMergeScope existing incoming = true := by
  cases existing <;> cases incoming <;>
    simp_all [LoweredFor, sameMergeScope]

theorem patches_agreeOn (target : ProjectionDeltaScope) (set incomingSet : List DeltaField)
    (unset incomingUnset : List String) (record : Option RecordFields)
    : AgreeOn mask
        (ProjectionDeltaMutation.apply record (.patch target
          ((patchValues set unset incomingSet incomingUnset).entries.filterMap Prod.snd)
          ((patchValues set unset incomingSet incomingUnset).entries.filterMap fun entry =>
            if entry.2.isNone then some entry.1 else none) true))
        (ProjectionDeltaMutation.apply
          (ProjectionDeltaMutation.apply record (.patch target set unset true))
          (.patch target incomingSet incomingUnset true)) := by
  cases record with
  | none => exact .refl ..
  | some fields =>
      refine agreeOn_some.mpr fun name _ => ?_
      exact get?_writeFields_patches set incomingSet unset incomingUnset fields name

theorem mem_of_patchValues {set incomingSet : List DeltaField} {unset incomingUnset : List String}
    {name : String} {value : Option DeltaField}
    (h : (patchValues set unset incomingSet incomingUnset).get? name = some value)
    : name ∈ (set.map Prod.fst ++ unset) ++ (incomingSet.map Prod.fst ++ incomingUnset) := by
  rw [patchValues, SortedMap.ofList, SortedMap.get?_foldl_insert_last, SortedMap.get?_empty,
    Option.or_none] at h
  have hname := List.mem_map_of_mem (f := Prod.fst) (SortedMap.mem_of_lastValue h)
  simpa [Function.comp_def, or_assoc] using hname

theorem patches_lowered {set incomingSet : List DeltaField} {unset incomingUnset : List String}
    (hset : ∀ name ∈ set.map Prod.fst ++ unset, name ∈ mask)
    (hincoming : ∀ name ∈ incomingSet.map Prod.fst ++ incomingUnset, name ∈ mask)
    : ∀ name ∈ ((patchValues set unset incomingSet incomingUnset).entries.filterMap
          Prod.snd).map Prod.fst
        ++ (patchValues set unset incomingSet incomingUnset).entries.filterMap (fun entry =>
            if entry.2.isNone then some entry.1 else none),
        name ∈ mask := by
  intro name hname
  have hstored : ∃ value, (patchValues set unset incomingSet incomingUnset).get? name
      = some value := by
    rcases List.mem_append.mp hname with hfield | hunset
    · obtain ⟨field, hset, rfl⟩ := List.mem_map.mp hfield
      obtain ⟨⟨other, value⟩, hentry, hvalue⟩ := List.mem_filterMap.mp hset
      have hget := SortedMap.get?_eq_some.mpr hentry
      rw [patchValues_named hget hvalue]
      exact ⟨_, hget⟩
    · obtain ⟨⟨other, value⟩, hentry, hvalue⟩ := List.mem_filterMap.mp hunset
      rw [Option.ite_none_right_eq_some] at hvalue
      rw [← Option.some.inj hvalue.2]
      exact ⟨_, SortedMap.get?_eq_some.mpr hentry⟩
  obtain ⟨value, hvalue⟩ := hstored
  rcases List.mem_append.mp (mem_of_patchValues hvalue) with h | h
  · exact hset name h
  · exact hincoming name h

theorem upsertPatch_agreeOn {fields set : List DeltaField} {replace unset : List String}
    (hreplace : ∀ name, name ∈ replace ↔ name ∈ mask) (record : Option RecordFields)
    : AgreeOn mask
        (ProjectionDeltaMutation.apply record (.upsert scope
          ((unset.foldl SortedMap.erase
            (SortedMap.ofList ((fields ++ set).map fun field => (field.1, field)))).entries.map
              Prod.snd) (sortedSet replace)))
        (ProjectionDeltaMutation.apply
          (ProjectionDeltaMutation.apply record (.upsert scope fields replace))
          (.patch scope set unset true)) := by
  refine agreeOn_some.mpr fun name hname => ?_
  have hin : name ∈ replace := (hreplace name).mpr hname
  rw [get?_upsertFields (mem_sortedSet.mpr hin), lastValue_upsertPatch, get?_writeFields,
    ProjectionDeltaMutation.apply, Option.getD_some, get?_upsertFields hin]

/-- Merging two mutations of the record keeps what they do one after the other. -/
theorem mergeMutation_effect {existing incoming merged : ProjectionDeltaMutation}
    (hexisting : LoweredFor scope mask existing) (hincoming : LoweredFor scope mask incoming)
    (h : mergeMutation existing incoming = .ok merged)
    : LoweredFor scope mask merged
      ∧ ∀ record, AgreeOn mask (merged.apply record) (incoming.apply (existing.apply record)) := by
  unfold mergeMutation at h
  rw [if_neg (by simp [sameMergeScope_of_lowered hexisting hincoming])] at h
  cases existing with
  | upsert target fields replace =>
      cases incoming with
      | upsert =>
          cases h
          exact ⟨hincoming, fun record => upsert_agreeOn hincoming _ _⟩
      | patch target' set unset ifPresent =>
          obtain ⟨rfl, rfl, hpatch⟩ := hincoming
          obtain ⟨rfl, hreplace⟩ := hexisting
          dsimp only at h
          split at h
          · cases h
          · cases h
            refine ⟨⟨rfl, fun name => mem_sortedSet.trans (hreplace name)⟩, ?_⟩
            exact upsertPatch_agreeOn hreplace
      | delete =>
          cases h
          exact ⟨hincoming, fun record => .refl ..⟩
      | link | unlink | invalidateModel | invalidateRelationship => exact hincoming.elim
  | patch target set unset ifPresent =>
      cases incoming with
      | upsert =>
          cases h
          exact ⟨hincoming, fun record => upsert_agreeOn hincoming _ _⟩
      | patch target' incomingSet incomingUnset incomingPresent =>
          obtain ⟨rfl, rfl, hset⟩ := hexisting
          obtain ⟨rfl, rfl, hincomingSet⟩ := hincoming
          cases h
          exact ⟨⟨rfl, rfl, patches_lowered hset hincomingSet⟩, patches_agreeOn _ _ _ _ _⟩
      | delete =>
          cases h
          exact ⟨hincoming, fun record => .refl ..⟩
      | link | unlink | invalidateModel | invalidateRelationship => exact hincoming.elim
  | delete target =>
      cases incoming with
      | upsert =>
          cases h
          exact ⟨hincoming, fun record => upsert_agreeOn hincoming _ _⟩
      | patch target' set unset ifPresent =>
          obtain ⟨-, rfl, -⟩ := hincoming
          cases h
          exact ⟨hexisting, fun record => .refl ..⟩
      | delete =>
          cases h
          exact ⟨hincoming, fun record => .refl ..⟩
      | link | unlink | invalidateModel | invalidateRelationship => exact hincoming.elim
  | link | unlink | invalidateModel | invalidateRelationship => exact hexisting.elim

theorem applyAll_agreeOn {operations : List ProjectionDeltaOperation}
    (hlowered : ∀ operation ∈ operations, LoweredFor scope mask operation.mutation)
    {record other : Option RecordFields} (h : AgreeOn mask record other)
    : AgreeOn mask (applyAll operations record) (applyAll operations other) := by
  induction operations generalizing record other with
  | nil => exact h
  | cons operation rest ih =>
      obtain ⟨hfirst, hrest⟩ := List.forall_mem_cons.mp hlowered
      exact ih hrest (h.apply hfirst)

/-- The step of a merge: an operation of a later occurrence follows what is already merged. -/
theorem mergeOperation_effect {existing incoming merged : ProjectionDeltaOperation}
    (hexisting : LoweredFor scope mask existing.mutation)
    (hincoming : LoweredFor scope mask incoming.mutation)
    (hlater : existing.occurrenceOrdinal < incoming.occurrenceOrdinal)
    (h : mergeOperation existing incoming = .ok merged)
    : merged.occurrenceOrdinal = incoming.occurrenceOrdinal
      ∧ LoweredFor scope mask merged.mutation
      ∧ ∀ record, AgreeOn mask (merged.mutation.apply record)
          (incoming.mutation.apply (existing.mutation.apply record)) := by
  rw [mergeOperation, if_neg (Nat.ne_of_lt hlater), if_pos hlater, Result.bind_eq_ok_iff] at h
  obtain ⟨mutation, hmutation, hmerged⟩ := h
  cases hmerged
  exact ⟨max_eq_right (Nat.le_of_lt hlater), mergeMutation_effect hexisting hincoming hmutation⟩

theorem mergeGroup_effect {existing : ProjectionDeltaOperation}
    {operations : List ProjectionDeltaOperation} {merged : Option ProjectionDeltaOperation}
    (hincreasing : (existing :: operations).Pairwise
      (·.occurrenceOrdinal < ·.occurrenceOrdinal))
    (hlowered : ∀ operation ∈ existing :: operations, LoweredFor scope mask operation.mutation)
    (h : mergeGroup mergeEntry (some existing) operations = .ok merged)
    : ∃ operation, merged = some operation
      ∧ ∀ record, AgreeOn mask (operation.mutation.apply record)
          (applyAll (existing :: operations) record) := by
  induction operations generalizing existing with
  | nil =>
      cases h
      exact ⟨existing, rfl, fun record => .refl ..⟩
  | cons incoming rest ih =>
      rw [mergeGroup, Result.bind_eq_ok_iff] at h
      obtain ⟨next, hnext, hrest⟩ := h
      obtain ⟨hbefore, htail⟩ := List.pairwise_cons.mp hincreasing
      obtain ⟨hexisting, hlater⟩ := List.forall_mem_cons.mp hlowered
      obtain ⟨hordinal, hnextLowered, heffect⟩ := mergeOperation_effect hexisting
        (hlater incoming (List.mem_cons_self ..)) (hbefore incoming (List.mem_cons_self ..)) hnext
      have hrestLowered : ∀ operation ∈ rest, LoweredFor scope mask operation.mutation :=
        fun operation hmem => hlater operation (List.mem_cons_of_mem _ hmem)
      have hnextIncreasing : (next :: rest).Pairwise
          (·.occurrenceOrdinal < ·.occurrenceOrdinal) := by
        refine List.pairwise_cons.mpr ⟨fun operation hmem => ?_, (List.pairwise_cons.mp htail).2⟩
        rw [hordinal]
        exact (List.pairwise_cons.mp htail).1 operation hmem
      obtain ⟨operation, hmerged, hagree⟩ := ih hnextIncreasing
        (List.forall_mem_cons.mpr ⟨hnextLowered, hrestLowered⟩) hrest
      refine ⟨operation, hmerged, fun record => (hagree record).trans ?_⟩
      exact applyAll_agreeOn hrestLowered (heffect record)

theorem canonicalScope_of_lowered {operation : ProjectionDeltaOperation}
    (h : LoweredFor scope mask operation.mutation)
    : operation.canonicalScope = .record scope := by
  rw [ProjectionDeltaOperation.canonicalScope]
  cases hmutation : operation.mutation with
  | upsert | patch =>
      rw [hmutation] at h
      obtain ⟨rfl, -⟩ := h
      rfl
  | delete =>
      rw [hmutation] at h
      cases h
      rfl
  | link | unlink | invalidateModel | invalidateRelationship =>
      rw [hmutation] at h
      exact h.elim

/-- The operations of one record are merged into one. -/
theorem canonicalizeOperations_record {operations result : List ProjectionDeltaOperation}
    (hlowered : ∀ operation ∈ operations, LoweredFor scope mask operation.mutation)
    (h : canonicalizeOperations operations = .ok result)
    : ∃ merged, mergeGroup mergeEntry none operations = .ok merged ∧ result = merged.toList := by
  rw [canonicalizeOperations, Result.bind_eq_ok_iff] at h
  obtain ⟨byScope, hrun, hresult⟩ := h
  have hgroup : itemsOf ProjectionDeltaOperation.canonicalScope (.record scope) operations
      = operations :=
    List.filter_eq_self.mpr fun operation hmem => by
      simpa using canonicalScope_of_lowered (hlowered operation hmem)
  have hmerged := foldlM_groupStep_ok hrun (.record scope)
  rw [hgroup, SortedMap.get?_empty] at hmerged
  have hother : ∀ other, other ≠ .record scope → byScope.get? other = none := by
    intro other hne
    have hempty : itemsOf ProjectionDeltaOperation.canonicalScope other operations = [] := by
      refine List.filter_eq_nil_iff.mpr fun operation hmem => ?_
      rw [canonicalScope_of_lowered (hlowered operation hmem)]
      simpa using hne.symm
    have hnone := foldlM_groupStep_ok hrun other
    rw [hempty] at hnone
    exact (Except.ok.inj hnone).symm
  refine ⟨_, hmerged, ?_⟩
  cases hget : byScope.get? (.record scope) with
  | none =>
      have hbyScope : byScope = SortedMap.empty := by
        refine SortedMap.ext_get? fun other => ?_
        by_cases hsame : other = .record scope
        · rw [hsame, hget]
          rfl
        · exact hother other hsame
      rw [hbyScope] at hresult
      cases hresult
      rfl
  | some operation =>
      have hbyScope : byScope = SortedMap.empty.insert (.record scope) operation := by
        refine SortedMap.ext_get? fun other => ?_
        by_cases hsame : other = .record scope
        · rw [hsame, hget, SortedMap.get?_insert_self]
        · rw [hother other hsame, SortedMap.get?_insert_ne _ _ hsame, SortedMap.get?_empty]
      rw [hbyScope] at hresult
      cases hresult
      rfl

/-- Merging the operations of a record keeps their effect on it. -/
theorem canonicalizeOperations_effect {operations result : List ProjectionDeltaOperation}
    (hnonempty : operations ≠ [])
    (hincreasing : operations.Pairwise (·.occurrenceOrdinal < ·.occurrenceOrdinal))
    (hlowered : ∀ operation ∈ operations, LoweredFor scope mask operation.mutation)
    (h : canonicalizeOperations operations = .ok result)
    : ∃ operation, result = [operation]
      ∧ ∀ record, AgreeOn mask (operation.mutation.apply record) (applyAll operations record) := by
  obtain ⟨merged, hmerged, rfl⟩ := canonicalizeOperations_record hlowered h
  cases operations with
  | nil => exact absurd rfl hnonempty
  | cons first rest =>
      obtain ⟨operation, rfl, hagree⟩ := mergeGroup_effect hincreasing hlowered hmerged
      exact ⟨operation, rfl, hagree⟩

end Merged

private def taskScope : ProjectionDeltaScope where
  partition := .unit
  model := "tasks"
  key := []

private def taskHistory : List ProjectionDeltaOperation :=
  [ { occurrenceOrdinal := 0, projectionRefs := [0]
      mutation := .upsert taskScope [("body", .null), ("title", .null)] ["body", "title"] }
  , { occurrenceOrdinal := 2, projectionRefs := [1]
      mutation := .patch taskScope [("title", .boolean true)] ["body"] true } ]

theorem taskHistory_effect
    : ∃ operation, canonicalizeOperations taskHistory = .ok [operation]
      ∧ ∀ record, AgreeOn ["body", "title"] (operation.mutation.apply record)
          (applyAll taskHistory record) := by
  have hlowered : ∀ operation ∈ taskHistory,
      LoweredFor taskScope ["body", "title"] operation.mutation := by
    intro operation hmem
    simp only [taskHistory, List.mem_cons, List.not_mem_nil, or_false] at hmem
    rcases hmem with rfl | rfl
    · exact ⟨rfl, fun _ => Iff.rfl⟩
    · exact ⟨rfl, rfl, by decide⟩
  have hrun : ∃ result, canonicalizeOperations taskHistory = .ok result := ⟨_, rfl⟩
  obtain ⟨result, hrun⟩ := hrun
  obtain ⟨operation, rfl, hagree⟩ := canonicalizeOperations_effect
    (by simp [taskHistory]) (by decide) hlowered hrun
  exact ⟨operation, hrun, hagree⟩

end Distributed.Graphql.ProjectionDelta
