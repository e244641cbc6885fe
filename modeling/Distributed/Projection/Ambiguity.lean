import Distributed.Foundation.Pairing
import Distributed.Platform.JsonText
import Distributed.Projection.Resolve
import Mathlib.Tactic.Choose

/-! The registration check and the merging of resolved mutations.
Operations that pass the pairwise check on their expressions resolve to mutations that
agree wherever they meet on a record, so merging them never fails.
-/

namespace Distributed.Projection

open Distributed.DomainEvent Distributed.Foundation Distributed.Platform

/-- A resolved field without the operation it comes from. -/
def ResolvedProjectionField.unstaged (field : ResolvedProjectionField)
    : Nat × String × ResolvedProjectionValue :=
  (field.fieldOrdinal, field.name, field.value)

theorem sameResolvedFields_iff {left right : List ResolvedProjectionField}
    : sameResolvedFieldsIgnoringStaging left right = true
      ↔ left.map ResolvedProjectionField.unstaged
        = right.map ResolvedProjectionField.unstaged := by
  simp [sameResolvedFieldsIgnoringStaging, map_eq_map_iff_zip, ResolvedProjectionField.unstaged,
    and_assoc]

theorem sameFields_eq {left right : List ProjectionField}
    (h : sameFieldsIgnoringOperation left right = true)
    : left = right := by
  have hmap : left.map id = right.map id := by
    refine map_eq_map_iff_zip.mpr ?_
    simp only [sameFieldsIgnoringOperation, Bool.and_eq_true, decide_eq_true_eq,
      List.all_eq_true] at h
    refine ⟨h.1, ?_⟩
    rintro ⟨⟨ordinal, name, assignment⟩, ⟨otherOrdinal, otherName, other⟩⟩ hpair
    obtain ⟨⟨hordinal, hname⟩, hassignment⟩ := h.2 _ hpair
    cases hordinal
    cases hname
    cases hassignment
    rfl
  simpa using hmap

--------------------
-- Agreeing mutations
--------------------

/-- A field of this name and value is among the fields. -/
def HasValue (fields : List ResolvedProjectionField) (name : String)
    (value : ResolvedProjectionValue) : Prop :=
  ∃ field ∈ fields, field.name = name ∧ field.value = value

theorem hasValue_iff_unstaged {fields : List ResolvedProjectionField} {name : String}
    {value : ResolvedProjectionValue}
    : HasValue fields name value
      ↔ ∃ ordinal, (ordinal, name, value) ∈ fields.map ResolvedProjectionField.unstaged := by
  simp [HasValue, ResolvedProjectionField.unstaged]

/-- The mutation assigns this value to the field of this name. -/
def ResolvedProjectionMutation.Assigns (mutation : ResolvedProjectionMutation) (name : String)
    (value : ResolvedProjectionValue) : Prop :=
  HasValue mutation.fields name value

def ResolvedProjectionMutation.fieldNames (mutation : ResolvedProjectionMutation)
    : List String :=
  mutation.fields.map ResolvedProjectionField.name

/-- Two mutations of one record do the same to everything that both touch. -/
structure Agree (left right : ResolvedProjectionMutation) : Prop where
  kind : left.kind = right.kind
  target : left.target = right.target
  scope : left.scope = right.scope
  effects : left.provenance.relationshipEffects = right.provenance.relationshipEffects
  values : ∀ name value other, left.Assigns name value → right.Assigns name other →
    value = other
  complete : left.kind.isPatch = false →
    left.fields.map ResolvedProjectionField.unstaged
      = right.fields.map ResolvedProjectionField.unstaged

/-- A final mutation and the mutations of its record that it was merged from. -/
structure MergedFrom (sources : List ResolvedProjectionMutation)
    (mutation : ResolvedProjectionMutation) : Prop where
  nonempty : sources ≠ []
  sameScope : ∀ source ∈ sources, source.kind = mutation.kind ∧ source.target = mutation.target
    ∧ source.scope = mutation.scope
    ∧ source.provenance.relationshipEffects = mutation.provenance.relationshipEffects
  operations : mutation.provenance.operationIds
    = sources.flatMap fun source => source.provenance.operationIds
  names : mutation.fieldNames.Nodup
  union : ∀ name value, mutation.Assigns name value
    ↔ ∃ source ∈ sources, source.Assigns name value
  complete : mutation.kind.isPatch = false → ∀ source ∈ sources,
    mutation.fields.map ResolvedProjectionField.unstaged
      = source.fields.map ResolvedProjectionField.unstaged

theorem MergedFrom.single {mutation : ResolvedProjectionMutation}
    (hnames : mutation.fieldNames.Nodup)
    : MergedFrom [mutation] mutation where
  nonempty := List.cons_ne_nil _ _
  sameScope source hsource := by
    rw [List.mem_singleton.mp hsource]
    exact ⟨rfl, rfl, rfl, rfl⟩
  operations := by simp
  names := hnames
  union name value := by simp
  complete _ source hsource := by
    rw [List.mem_singleton.mp hsource]

--------------------
-- Merging two mutations
--------------------

section Merge

theorem mergeField_ok {model : String} {fields : List ResolvedProjectionField}
    {field : ResolvedProjectionField}
    (hagree : ∀ prior ∈ fields, prior.name = field.name → prior.value = field.value)
    (hnames : (fields.map ResolvedProjectionField.name).Nodup)
    : ∃ result, mergeField model fields field = .ok result
      ∧ (result.map ResolvedProjectionField.name).Nodup
      ∧ (∀ other ∈ result, other ∈ fields ∨ other = field)
      ∧ ∀ name value, HasValue result name value
        ↔ HasValue fields name value ∨ (field.name = name ∧ field.value = value) := by
  cases hfind : fields.find? fun candidate => candidate.name = field.name with
  | some prior =>
      have hprior := List.mem_of_find?_eq_some hfind
      have hname : prior.name = field.name := by simpa using List.find?_some hfind
      have hvalue := hagree prior hprior hname
      refine ⟨fields, ?_, hnames, fun other hother => .inl hother, ?_⟩
      · simp only [mergeField, hfind, hvalue, if_true]
      · intro name value
        refine ⟨.inl, ?_⟩
        rintro (hfields | ⟨hfield, hsame⟩)
        · exact hfields
        · exact ⟨prior, hprior, hname.trans hfield, hvalue.trans hsame⟩
  | none =>
      have hfresh : ∀ prior ∈ fields, prior.name ≠ field.name := by
        simpa using List.find?_eq_none.mp hfind
      refine ⟨fields ++ [field], by simp only [mergeField, hfind], ?_, ?_, ?_⟩
      · rw [List.map_append, List.nodup_append]
        refine ⟨hnames, List.nodup_singleton _, ?_⟩
        intro name hname other hother
        obtain ⟨prior, hprior, rfl⟩ := List.mem_map.mp hname
        rw [List.map_singleton, List.mem_singleton] at hother
        exact fun heq => hfresh prior hprior (heq.trans hother)
      · intro other hother
        simpa using hother
      · intro name value
        simp [HasValue, List.mem_append, or_and_right, exists_or]

theorem mergeFields_fold (model : String) {incoming fields : List ResolvedProjectionField}
    (hagree : ∀ field ∈ incoming, ∀ prior ∈ fields, prior.name = field.name →
      prior.value = field.value)
    (hincoming : (incoming.map ResolvedProjectionField.name).Nodup)
    (hnames : (fields.map ResolvedProjectionField.name).Nodup)
    : ∃ result, incoming.foldlM (mergeField model) fields = .ok result
      ∧ (result.map ResolvedProjectionField.name).Nodup
      ∧ ∀ name value, HasValue result name value
        ↔ HasValue fields name value ∨ HasValue incoming name value := by
  induction incoming generalizing fields with
  | nil => exact ⟨fields, rfl, hnames, fun name value => by simp [HasValue]⟩
  | cons field rest ih =>
      rw [List.map_cons, List.nodup_cons] at hincoming
      obtain ⟨hfresh, hrest⟩ := hincoming
      obtain ⟨middle, hmiddle, hmiddleNames, hfrom, hvalues⟩ :=
        mergeField_ok (hagree field (List.mem_cons_self ..)) hnames
      have hlater : ∀ other ∈ rest, ∀ prior ∈ middle, prior.name = other.name →
          prior.value = other.value := by
        intro other hother prior hprior hname
        rcases hfrom prior hprior with hold | rfl
        · exact hagree other (List.mem_cons_of_mem _ hother) prior hold hname
        · exact absurd (hname ▸ List.mem_map_of_mem hother) hfresh
      obtain ⟨result, hresult, hresultNames, hresultValues⟩ := ih hlater hrest hmiddleNames
      refine ⟨result, ?_, hresultNames, fun name value => ?_⟩
      · rw [List.foldlM_cons, hmiddle, Result.ok_bind, hresult]
      · rw [hresultValues, hvalues, or_assoc]
        simp [HasValue]

theorem mergeFields_ok {existing incoming : ResolvedProjectionMutation}
    (hvalues : ∀ field ∈ incoming.fields, ∀ prior ∈ existing.fields,
      prior.name = field.name → prior.value = field.value)
    (hexisting : existing.fieldNames.Nodup) (hincoming : incoming.fieldNames.Nodup)
    (hcomplete : existing.kind.isPatch = false →
      existing.fields.map ResolvedProjectionField.unstaged
        = incoming.fields.map ResolvedProjectionField.unstaged)
    : ∃ fields, mergeFields existing incoming = .ok fields
      ∧ (fields.map ResolvedProjectionField.name).Nodup
      ∧ (∀ name value, HasValue fields name value
        ↔ existing.Assigns name value ∨ incoming.Assigns name value)
      ∧ (existing.kind.isPatch = false → fields = existing.fields) := by
  cases hpatch : existing.kind.isPatch with
  | true =>
      obtain ⟨fields, hfold, hnames, hunion⟩ :=
        mergeFields_fold existing.target.model hvalues hincoming hexisting
      have hperm := sortBy_perm ResolvedProjectionField.less fields
      refine ⟨sortBy ResolvedProjectionField.less fields, ?_, ?_, ?_, by simp⟩
      · simp only [mergeFields, hpatch, if_true, hfold, Result.ok_bind]
      · exact (hperm.map _).nodup_iff.mpr hnames
      · intro name value
        refine Iff.trans ?_ (hunion name value)
        simp only [HasValue, hperm.mem_iff]
  | false =>
      have hsame := hcomplete hpatch
      refine ⟨existing.fields, ?_, hexisting, ?_, fun _ => rfl⟩
      · simp [mergeFields, hpatch, sameResolvedFields_iff.mpr hsame]
      · intro name value
        simp only [ResolvedProjectionMutation.Assigns, hasValue_iff_unstaged, hsame, or_self]

/-- Merging one more agreeing mutation of the record succeeds. -/
theorem MergedFrom.merge {sources : List ResolvedProjectionMutation}
    {existing incoming : ResolvedProjectionMutation} (h : MergedFrom sources existing)
    (hagree : ∀ source ∈ sources, Agree source incoming) (hnames : incoming.fieldNames.Nodup)
    : ∃ merged, mergeMutation existing incoming = .ok merged
      ∧ merged.scopeKey = existing.scopeKey ∧ MergedFrom (sources ++ [incoming]) merged := by
  obtain ⟨first, hfirst⟩ := List.exists_mem_of_ne_nil _ h.nonempty
  obtain ⟨hkind, htarget, hscope, heffects⟩ := h.sameScope first hfirst
  have hfirstAgrees := hagree first hfirst
  have hincoming : existing.kind = incoming.kind ∧ existing.target = incoming.target
      ∧ existing.scope = incoming.scope
      ∧ existing.provenance.relationshipEffects = incoming.provenance.relationshipEffects :=
    ⟨hkind ▸ hfirstAgrees.kind, htarget ▸ hfirstAgrees.target, hscope ▸ hfirstAgrees.scope,
      heffects ▸ hfirstAgrees.effects⟩
  -- a value of the merged fields comes from a source, which agrees with the incoming one
  have hvalues : ∀ field ∈ incoming.fields, ∀ prior ∈ existing.fields,
      prior.name = field.name → prior.value = field.value := by
    intro field hfield prior hprior hname
    obtain ⟨source, hsource, hassigns⟩ := (h.union prior.name prior.value).mp
      ⟨prior, hprior, rfl, rfl⟩
    exact (hagree source hsource).values _ _ _ hassigns ⟨field, hfield, hname.symm, rfl⟩
  obtain ⟨fields, hmerged, hfieldNames, hunion, hcomplete⟩ :=
    mergeFields_ok hvalues h.names hnames fun hpatch =>
      (h.complete hpatch first hfirst).trans (hfirstAgrees.complete (hkind ▸ hpatch))
  refine ⟨existing.absorb incoming fields, ?_, rfl, ?_⟩
  · have hcompatible : ¬ (existing.kind ≠ incoming.kind ∨ existing.target ≠ incoming.target
        ∨ existing.scope ≠ incoming.scope
        ∨ existing.provenance.relationshipEffects
          ≠ incoming.provenance.relationshipEffects) := by
      simp [hincoming]
    rw [mergeMutation, if_neg hcompatible, hmerged, Result.ok_bind]
  · constructor
    · simp
    · intro source hsource
      rcases List.mem_append.mp hsource with hold | hnew
      · exact h.sameScope source hold
      · rw [List.mem_singleton.mp hnew]
        exact ⟨hincoming.1.symm, hincoming.2.1.symm, hincoming.2.2.1.symm,
          hincoming.2.2.2.symm⟩
    · change existing.provenance.operationIds ++ incoming.provenance.operationIds = _
      rw [h.operations, List.flatMap_append, List.flatMap_singleton]
    · exact hfieldNames
    · intro name value
      refine (hunion name value).trans ?_
      rw [h.union]
      simp [or_and_right, exists_or]
    · intro hpatch source hsource
      change fields.map ResolvedProjectionField.unstaged = _
      rw [hcomplete hpatch]
      rcases List.mem_append.mp hsource with hold | hnew
      · exact h.complete hpatch source hold
      · rw [List.mem_singleton.mp hnew]
        exact (h.complete hpatch first hfirst).trans (hfirstAgrees.complete (hkind ▸ hpatch))

end Merge

--------------------
-- Coalescing
--------------------

/-- The mutations of one record. -/
def ofScope (mutations : List ResolvedProjectionMutation) (scopeKey : ProjectionScopeKey)
    : List ResolvedProjectionMutation :=
  mutations.filter fun mutation => mutation.scopeKey = scopeKey

/-- What coalescing has made of the mutations so far. -/
structure Coalesced (sources merged : List ResolvedProjectionMutation) : Prop where
  distinct : merged.Pairwise fun left right => left.scopeKey ≠ right.scopeKey
  merges : ∀ mutation ∈ merged, MergedFrom (ofScope sources mutation.scopeKey) mutation
  covers : ∀ source ∈ sources, ∃ mutation ∈ merged, mutation.scopeKey = source.scopeKey

section Coalesce

variable {sources merged : List ResolvedProjectionMutation}
  {mutation : ResolvedProjectionMutation}

theorem ofScope_append_self
    : ofScope (sources ++ [mutation]) mutation.scopeKey
      = ofScope sources mutation.scopeKey ++ [mutation] := by
  simp [ofScope]

theorem ofScope_append_ne {scopeKey : ProjectionScopeKey} (h : mutation.scopeKey ≠ scopeKey)
    : ofScope (sources ++ [mutation]) scopeKey = ofScope sources scopeKey := by
  simp [ofScope, h]

/-- The first mutation of a record is added. -/
theorem Coalesced.add (h : Coalesced sources merged) (hnames : mutation.fieldNames.Nodup)
    (hfresh : ∀ existing ∈ merged, existing.scopeKey ≠ mutation.scopeKey)
    {result : List ResolvedProjectionMutation} (hresult : result.Perm (mutation :: merged))
    : Coalesced (sources ++ [mutation]) result := by
  have hnone : ofScope sources mutation.scopeKey = [] := by
    rw [ofScope, List.filter_eq_nil_iff]
    intro source hsource hscope
    obtain ⟨existing, hexisting, hsame⟩ := h.covers source hsource
    exact hfresh existing hexisting (hsame.trans (by simpa using hscope))
  constructor
  · refine (hresult.pairwise_iff fun hne => hne.symm).mpr ?_
    exact List.pairwise_cons.mpr ⟨fun existing hexisting => (hfresh existing hexisting).symm,
      h.distinct⟩
  · intro other hother
    rcases List.mem_cons.mp (hresult.mem_iff.mp hother) with rfl | hold
    · rw [ofScope_append_self, hnone]
      exact .single hnames
    · rw [ofScope_append_ne (hfresh other hold).symm]
      exact h.merges other hold
  · intro source hsource
    rcases List.mem_append.mp hsource with hold | hnew
    · obtain ⟨existing, hexisting, hsame⟩ := h.covers source hold
      exact ⟨existing, hresult.mem_iff.mpr (List.mem_cons_of_mem _ hexisting), hsame⟩
    · rw [List.mem_singleton.mp hnew]
      exact ⟨mutation, hresult.mem_iff.mpr (List.mem_cons_self ..), rfl⟩

/-- A later mutation of a record is merged into the one there is. -/
theorem Coalesced.merge (h : Coalesced sources merged) (hnames : mutation.fieldNames.Nodup)
    (hagree : ∀ source ∈ sources, source.scopeKey = mutation.scopeKey → Agree source mutation)
    {existing : ResolvedProjectionMutation} (hexisting : existing ∈ merged)
    (hsame : existing.scopeKey = mutation.scopeKey)
    : ∃ result, merged.mapM (fun existing =>
          if existing.scopeKey = mutation.scopeKey then mergeMutation existing mutation
          else .ok existing) = .ok result
      ∧ Coalesced (sources ++ [mutation]) result := by
  have hstep : ∀ other ∈ merged, ∃ next,
      (if other.scopeKey = mutation.scopeKey then mergeMutation other mutation else .ok other)
        = .ok next
      ∧ next.scopeKey = other.scopeKey
      ∧ MergedFrom (ofScope (sources ++ [mutation]) other.scopeKey) next := by
    intro other hother
    have hmerges := h.merges other hother
    by_cases hscope : other.scopeKey = mutation.scopeKey
    · have hsources : ∀ source ∈ ofScope sources other.scopeKey, Agree source mutation := by
        intro source hsource
        obtain ⟨hmem, hkey⟩ := List.mem_filter.mp hsource
        exact hagree source hmem ((by simpa using hkey : source.scopeKey = _).trans hscope)
      obtain ⟨next, hnext, hkey, hfrom⟩ := hmerges.merge hsources hnames
      refine ⟨next, by rw [if_pos hscope, hnext], hkey, ?_⟩
      rw [hscope, ofScope_append_self, ← hscope]
      exact hfrom
    · refine ⟨other, by rw [if_neg hscope], rfl, ?_⟩
      rw [ofScope_append_ne (Ne.symm hscope)]
      exact hmerges
  have : Nonempty ResolvedProjectionMutation := ⟨mutation⟩
  choose! next hnext hkey hfrom using hstep
  refine ⟨merged.map next, Result.mapM_eq_ok_map hnext, ?_, ?_, ?_⟩
  · rw [List.pairwise_map]
    refine h.distinct.imp_of_mem fun hleft hright hne => ?_
    rwa [hkey _ hleft, hkey _ hright]
  · intro other hother
    obtain ⟨before, hbefore, rfl⟩ := List.mem_map.mp hother
    rw [hkey before hbefore]
    exact hfrom before hbefore
  · intro source hsource
    rcases List.mem_append.mp hsource with hold | hnew
    · obtain ⟨covering, hcovering, hscope⟩ := h.covers source hold
      exact ⟨next covering, List.mem_map_of_mem hcovering, (hkey covering hcovering).trans hscope⟩
    · rw [List.mem_singleton.mp hnew]
      exact ⟨next existing, List.mem_map_of_mem hexisting, (hkey existing hexisting).trans hsame⟩

theorem Coalesced.step (h : Coalesced sources merged) (hnames : mutation.fieldNames.Nodup)
    (hagree : ∀ source ∈ sources, source.scopeKey = mutation.scopeKey → Agree source mutation)
    : ∃ result, coalesceInto merged mutation = .ok result
      ∧ Coalesced (sources ++ [mutation]) result := by
  by_cases hany : ∃ existing ∈ merged, existing.scopeKey = mutation.scopeKey
  · obtain ⟨existing, hexisting, hsame⟩ := hany
    have hfound : merged.any (fun existing => existing.scopeKey = mutation.scopeKey) = true :=
      List.any_eq_true.mpr ⟨existing, hexisting, by simpa using hsame⟩
    rw [coalesceInto, if_pos hfound]
    exact h.merge hnames hagree hexisting hsame
  · have hfresh : ∀ existing ∈ merged, existing.scopeKey ≠ mutation.scopeKey :=
      fun existing hexisting hsame => hany ⟨existing, hexisting, hsame⟩
    have hnone : ¬ merged.any (fun existing => existing.scopeKey = mutation.scopeKey) = true := by
      simpa using hfresh
    rw [coalesceInto, if_neg hnone]
    exact ⟨_, rfl, h.add hnames hfresh (List.perm_orderedInsert _ _ _)⟩

/-- Mutations that agree on every record coalesce. -/
theorem coalesceMutations_ok {mutations : List ResolvedProjectionMutation}
    (hnames : ∀ mutation ∈ mutations, mutation.fieldNames.Nodup)
    (hagree : mutations.Pairwise fun earlier later =>
      earlier.scopeKey = later.scopeKey → Agree earlier later)
    : ∃ merged, coalesceMutations mutations = .ok merged ∧ Coalesced mutations merged := by
  -- the induction is on the mutations still to come, after `done`
  suffices h : ∀ rest done merged, Coalesced done merged →
      (∀ mutation ∈ rest, mutation.fieldNames.Nodup) →
      (done ++ rest).Pairwise (fun earlier later =>
        earlier.scopeKey = later.scopeKey → Agree earlier later) →
      ∃ result, rest.foldlM coalesceInto merged = .ok result ∧ Coalesced (done ++ rest) result by
    have hstart : Coalesced [] [] :=
      ⟨List.Pairwise.nil, fun _ hmem => absurd hmem List.not_mem_nil,
        fun _ hmem => absurd hmem List.not_mem_nil⟩
    exact h mutations [] [] hstart hnames hagree
  intro rest
  induction rest with
  | nil =>
      intro done merged h _ _
      exact ⟨merged, rfl, by simpa using h⟩
  | cons mutation rest ih =>
      intro done merged h hnames hagree
      have hsources : ∀ source ∈ done, source.scopeKey = mutation.scopeKey →
          Agree source mutation := fun source hsource =>
        (List.pairwise_append.mp hagree).2.2 source hsource mutation (List.mem_cons_self ..)
      obtain ⟨middle, hmiddle, hcoalesced⟩ :=
        h.step (hnames mutation (List.mem_cons_self ..)) hsources
      obtain ⟨result, hresult, hfinal⟩ := ih (done ++ [mutation]) middle hcoalesced
        (fun other hother => hnames other (List.mem_cons_of_mem _ hother)) (by simpa using hagree)
      refine ⟨result, ?_, by simpa using hfinal⟩
      rw [List.foldlM_cons, hmiddle, Result.ok_bind, hresult]

end Coalesce

--------------------
-- Resolved operations
--------------------

/-- An operation as its constructor returns it. -/
def ProjectionOperation.Constructed (operation : ProjectionOperation) : Prop :=
  ∃ operationId stagingOrdinal kind target key fields effects invalidations,
    ProjectionOperation.tryNew operationId stagingOrdinal kind target key fields effects
      invalidations = .ok operation

theorem ProjectionOperation.Constructed.names {operation : ProjectionOperation}
    (h : operation.Constructed)
    : (operation.fields.map ProjectionField.name).Nodup := by
  obtain ⟨operationId, stagingOrdinal, kind, target, key, fields, effects, invalidations, h⟩ := h
  simp only [tryNew, Result.bind_eq_ok_iff, Result.error_bind, Result.guard_eq_ok_iff,
    Result.optional_eq_ok_iff] at h
  obtain ⟨_, -, _, -, _, hnames, -, -, -, -, -, _, -, -, _, -, h⟩ := h
  cases h
  exact (validateNamedOrdinals_eq_ok_iff.mp hnames).2

/-- Compatible operations assign the same to a field that both name. -/
theorem ProjectionOperation.compatible_assignments {left right : ProjectionOperation}
    (h : left.compatible right = true)
    (hnames : (right.fields.map ProjectionField.name).Nodup)
    : ∀ leftField ∈ left.fields, ∀ rightField ∈ right.fields,
      leftField.name = rightField.name → leftField.assignment = rightField.assignment := by
  intro leftField hleft rightField hright hname
  simp only [compatible, Bool.and_eq_true] at h
  obtain ⟨-, hfields⟩ := h
  split at hfields
  · have hfield := List.all_eq_true.mp hfields leftField hleft
    cases hfind : right.fields.find? fun field => field.name = leftField.name with
    | none =>
        have hnone := List.find?_eq_none.mp hfind rightField hright
        simp [hname] at hnone
    | some found =>
        have hfound : found.name = leftField.name := by simpa using List.find?_some hfind
        have hsame : found = rightField := List.inj_on_of_nodup_map hnames
          (List.mem_of_find?_eq_some hfind) hright (hfound.trans hname)
        rw [hfind, hsame] at hfield
        simpa using (of_decide_eq_true hfield).symm
  · have hsame := sameFields_eq hfields
    rw [hsame] at hleft
    rw [List.inj_on_of_nodup_map hnames hleft hright hname]

section Operations

variable {crates : Crates} {floats : Floats} {occurrence : DomainEventOccurrence} {body : Json}
  {programId : ProjectionProgramId} {armId : String} {partition : ResolvedProjectionPartition}

theorem resolveKeyField_ok {field : ProjectionKeyField} {resolved : ResolvedProjectionKeyField}
    (h : resolveKeyField floats occurrence body field = .ok resolved)
    : resolved.ordinal = field.ordinal ∧ resolved.name = field.name
      ∧ field.expression.resolve floats occurrence body = .ok (.value resolved.value)
      ∧ resolved.value.validKeyComponent = true := by
  rw [resolveKeyField, Result.bind_eq_ok_iff] at h
  obtain ⟨value, hvalue, h⟩ := h
  cases value with
  | value value =>
      simp only at h
      split at h
      · rename_i hvalid
        cases h
        exact ⟨rfl, rfl, hvalue, hvalid⟩
      · cases h
  | absent => cases h
  | unset => cases h

theorem resolveKey_ok {key : List ProjectionKeyField} {resolved : ResolvedProjectionKey}
    (h : resolveKey crates floats occurrence body key = .ok resolved)
    : List.Forall₂ (fun field result =>
        resolveKeyField floats occurrence body field = .ok result) key resolved.fields := by
  simp only [resolveKey, Result.bind_eq_ok_iff] at h
  obtain ⟨fields, hfields, _, -, h⟩ := h
  cases h
  exact Result.mapM_eq_ok_iff.mp hfields

/-- Expressions that are statically distinct have no value in common. -/
theorem staticallyDistinct_values {left right : ProjectionExpression}
    (h : left.staticallyDistinct right = true) {value : ProjectionValue}
    (hleft : left.resolve floats occurrence body = .ok (.value value))
    (hright : right.resolve floats occurrence body = .ok (.value value))
    : False := by
  unfold ProjectionExpression.staticallyDistinct at h
  split at h
  · cases hleft
    cases hright
    simp at h
  · cases hleft
    cases hright
    simp at h
  · cases h

/-- Statically disjoint keys resolve to different keys. -/
theorem keysStaticallyDisjoint_ne {left right : List ProjectionKeyField}
    (h : keysStaticallyDisjoint left right = true)
    {leftKey rightKey : ResolvedProjectionKey}
    (hleft : resolveKey crates floats occurrence body left = .ok leftKey)
    (hright : resolveKey crates floats occurrence body right = .ok rightKey)
    : leftKey.fields ≠ rightKey.fields := by
  intro hsame
  simp only [keysStaticallyDisjoint, Bool.and_eq_true, List.any_eq_true] at h
  obtain ⟨-, pair, hpair, -, hdistinct⟩ := h
  obtain ⟨result, hfirst, hsecond⟩ :=
    forall₂_zip (resolveKey_ok hleft) (hsame ▸ resolveKey_ok hright) pair hpair
  exact staticallyDistinct_values hdistinct (resolveKeyField_ok hfirst).2.2.1
    (resolveKeyField_ok hsecond).2.2.1

/-- What a resolved mutation has from its operation. -/
structure ResolvedFrom (crates : Crates) (floats : Floats) (occurrence : DomainEventOccurrence)
    (body : Json) (partition : ResolvedProjectionPartition) (operation : ProjectionOperation)
    (mutation : ResolvedProjectionMutation) : Prop where
  kind : mutation.kind = operation.kind
  target : mutation.target = operation.target
  scope : mutation.scope
    = ⟨partition, operation.target.model, operation.target.storage, mutation.key⟩
  key : resolveKey crates floats occurrence body operation.key = .ok mutation.key
  fields : List.Forall₂ (fun field result =>
      resolveField floats occurrence body operation field = .ok result)
    operation.fields mutation.fields
  effects : operation.relationshipEffects.mapM
    (resolveRelationshipEffect crates floats occurrence body)
      = .ok mutation.provenance.relationshipEffects

theorem resolveOperation_ok {operation : ProjectionOperation}
    {mutation : ResolvedProjectionMutation}
    (h : resolveOperation crates floats occurrence body programId armId partition operation
      = .ok mutation)
    : ResolvedFrom crates floats occurrence body partition operation mutation := by
  simp only [resolveOperation, Result.bind_eq_ok_iff] at h
  obtain ⟨key, hkey, fields, hfields, effects, heffects, h⟩ := h
  cases h
  exact ⟨rfl, rfl, rfl, hkey, Result.mapM_eq_ok_iff.mp hfields, heffects⟩

theorem resolveField_ok {operation : ProjectionOperation} {field : ProjectionField}
    {resolved : ResolvedProjectionField}
    (h : resolveField floats occurrence body operation field = .ok resolved)
    : field.assignment.resolve floats occurrence body = .ok resolved.value
      ∧ resolved.unstaged = (field.ordinal, field.name, resolved.value) := by
  rw [resolveField, Result.bind_eq_ok_iff] at h
  obtain ⟨value, hvalue, h⟩ := h
  split at h
  · cases h
  · cases h
  · cases h
    exact ⟨hvalue, rfl⟩

section Resolved

variable {left right : ProjectionOperation} {leftMutation rightMutation
  : ResolvedProjectionMutation}

theorem ResolvedFrom.fieldNames
    (h : ResolvedFrom crates floats occurrence body partition left leftMutation)
    : leftMutation.fieldNames = left.fields.map ProjectionField.name := by
  refine (List.forall₂_eq_eq_eq ▸ List.forall₂_map_right_iff.mpr
    (List.forall₂_map_left_iff.mpr (h.fields.flip.imp ?_)))
  intro resolved field hresolved
  exact congrArg (fun view => view.2.1) (resolveField_ok hresolved).2

theorem ResolvedFrom.assigns
    (h : ResolvedFrom crates floats occurrence body partition left leftMutation)
    {name : String} {value : ResolvedProjectionValue} (hassigns : leftMutation.Assigns name value)
    : ∃ field ∈ left.fields, field.name = name
      ∧ field.assignment.resolve floats occurrence body = .ok value := by
  obtain ⟨resolved, hresolved, rfl, rfl⟩ := hassigns
  obtain ⟨field, hfield, hresult⟩ := forall₂_mem_right h.fields hresolved
  obtain ⟨hvalue, hview⟩ := resolveField_ok hresult
  exact ⟨field, hfield, (congrArg (fun view => view.2.1) hview).symm, hvalue⟩

/-- Operations that pass the check of their pair agree on every record they both write. -/
theorem ResolvedFrom.agree
    (hleft : ResolvedFrom crates floats occurrence body partition left leftMutation)
    (hright : ResolvedFrom crates floats occurrence body partition right rightMutation)
    (hpair : validatePair left right = .ok ())
    (hnames : (right.fields.map ProjectionField.name).Nodup)
    (hkeys : leftMutation.key.canonicalBytes = rightMutation.key.canonicalBytes →
      leftMutation.key.fields = rightMutation.key.fields)
    (hscope : leftMutation.scopeKey = rightMutation.scopeKey)
    : Agree leftMutation rightMutation := by
  simp only [ResolvedProjectionMutation.scopeKey, ProjectionScopeKey.mk.injEq, hleft.target,
    hright.target] at hscope
  obtain ⟨hmodel, hstorage, hbytes⟩ := hscope
  have htarget : left.target = right.target := by
    cases hl : left.target
    cases hr : right.target
    simp_all
  have hkey : left.key = right.key := by
    by_contra hne
    have hdisjoint : keysStaticallyDisjoint left.key right.key = true := by
      rw [validatePair, if_neg (not_not.mpr htarget), if_neg hne] at hpair
      by_contra hoverlap
      rw [if_neg hoverlap] at hpair
      cases hpair
    exact keysStaticallyDisjoint_ne hdisjoint hleft.key hright.key (hkeys hbytes)
  have hcompatible : left.compatible right = true := by
    rw [validatePair, if_neg (not_not.mpr htarget), if_pos hkey] at hpair
    by_contra hconflict
    rw [if_neg hconflict] at hpair
    cases hpair
  have hresolvedKey : leftMutation.key = rightMutation.key := by
    have := hleft.key
    rw [hkey, hright.key, Except.ok.injEq] at this
    exact this.symm
  have hparts := hcompatible
  simp only [ProjectionOperation.compatible, Bool.and_eq_true, decide_eq_true_eq] at hparts
  obtain ⟨⟨hkind, heffects⟩, hfields⟩ := hparts
  constructor
  · rw [hleft.kind, hright.kind, hkind]
  · rw [hleft.target, hright.target, htarget]
  · rw [hleft.scope, hright.scope, htarget, hresolvedKey]
  · have := hleft.effects
    rw [heffects, hright.effects, Except.ok.injEq] at this
    exact this.symm
  · intro name value other hvalue hother
    obtain ⟨leftField, hleftField, hleftName, hleftValue⟩ := hleft.assigns hvalue
    obtain ⟨rightField, hrightField, hrightName, hrightValue⟩ := hright.assigns hother
    rw [left.compatible_assignments hcompatible hnames leftField hleftField rightField hrightField
      (hleftName.trans hrightName.symm), hrightValue, Except.ok.injEq] at hleftValue
    exact hleftValue.symm
  · intro hpatch
    rw [hleft.kind] at hpatch
    rw [hpatch] at hfields
    have hsame : left.fields = right.fields := sameFields_eq hfields
    refine forall₂_map_eq hleft.fields (hsame ▸ hright.fields) ?_
    intro field first second hfirst hsecond
    obtain ⟨hfirstValue, hfirstView⟩ := resolveField_ok hfirst
    obtain ⟨hsecondValue, hsecondView⟩ := resolveField_ok hsecond
    rw [hfirstValue, Except.ok.injEq] at hsecondValue
    rw [hfirstView, hsecondView, hsecondValue]

end Resolved

end Operations

--------------------
-- Arms
--------------------

theorem validateStaticAmbiguity_eq_ok_iff {operations : List ProjectionOperation}
    : validateStaticAmbiguity operations = .ok ()
      ↔ operations.Pairwise fun left right => validatePair left right = .ok () := by
  induction operations with
  | nil => simp [validateStaticAmbiguity]
  | cons operation operations ih =>
      rw [validateStaticAmbiguity, Result.seq_eq_ok_iff, Result.forM_eq_ok_iff, ih,
        List.pairwise_cons]

/-- An accepted arm has the operations it was given. -/
theorem ProjectionArm.tryNew_ok {armId : String} {selector : ProjectionEventSelector}
    {operations : List ProjectionOperation} {arm : ProjectionArm}
    (h : ProjectionArm.tryNew armId selector operations = .ok arm)
    : arm.operations.Perm operations
      ∧ arm.operations.Pairwise fun left right => validatePair left right = .ok () := by
  simp only [tryNew, Result.bind_eq_ok_iff, Result.error_bind, Result.guard_eq_ok_iff] at h
  obtain ⟨_, -, -, _, -, _, hpairs, h⟩ := h
  cases h
  exact ⟨sortBy_perm _ _, validateStaticAmbiguity_eq_ok_iff.mp hpairs⟩

/-- Keys of the mutations with the same canonical bytes are the same keys. -/
def CanonicalKeys (mutations : List ResolvedProjectionMutation) : Prop :=
  ∀ left ∈ mutations, ∀ right ∈ mutations,
    left.key.canonicalBytes = right.key.canonicalBytes → left.key.fields = right.key.fields

/-- An accepted arm whose operations resolve on an occurrence gives a plan with one mutation
for each record, which carries what all operations of the record assign. -/
theorem accepted_arm_resolves_unambiguously (crates : Crates) (floats : Floats)
    {armId : String} {selector : ProjectionEventSelector} {operations : List ProjectionOperation}
    {arm : ProjectionArm} (hconstructed : ∀ operation ∈ operations, operation.Constructed)
    (harm : ProjectionArm.tryNew armId selector operations = .ok arm)
    (programId : ProjectionProgramId) (occurrence : DomainEventOccurrence) (body : Json)
    (partition : ResolvedProjectionPartition) {mutations : List ResolvedProjectionMutation}
    (hresolved : arm.operations.mapM
      (resolveOperation crates floats occurrence body programId arm.armId partition)
        = .ok mutations)
    (hcanonical : CanonicalKeys mutations)
    : ∃ plan, resolveMutations crates floats programId arm occurrence body partition = .ok plan
      ∧ plan.Pairwise (fun left right => left.scopeKey ≠ right.scopeKey)
      ∧ (∀ mutation ∈ plan, MergedFrom (ofScope mutations mutation.scopeKey) mutation)
      ∧ ∀ source ∈ mutations, ∃ mutation ∈ plan, mutation.scopeKey = source.scopeKey := by
  obtain ⟨hperm, hpairs⟩ := ProjectionArm.tryNew_ok harm
  have hforall := Result.mapM_eq_ok_iff.mp hresolved
  have hfieldNames : ∀ mutation ∈ mutations, mutation.fieldNames.Nodup := by
    intro mutation hmutation
    obtain ⟨operation, hoperation, hresult⟩ := forall₂_mem_right hforall hmutation
    rw [(resolveOperation_ok hresult).fieldNames]
    exact (hconstructed operation (hperm.mem_iff.mp hoperation)).names
  have hagree : mutations.Pairwise fun earlier later =>
      earlier.scopeKey = later.scopeKey → Agree earlier later := by
    refine forall₂_pairwise hforall hpairs ?_
    intro left _ right hright earlier hearlier later hlater hleftResult hrightResult hpair
    exact (resolveOperation_ok hleftResult).agree (resolveOperation_ok hrightResult) hpair
      (hconstructed right (hperm.mem_iff.mp hright)).names
      (hcanonical earlier hearlier later hlater)
  obtain ⟨merged, hmerged, hcoalesced⟩ := coalesceMutations_ok hfieldNames hagree
  have hsorted := sortBy_perm ResolvedProjectionMutation.less merged
  refine ⟨sortBy ResolvedProjectionMutation.less merged, ?_, ?_, ?_, ?_⟩
  · rw [resolveMutations, hresolved, Result.ok_bind, hmerged, Result.ok_bind]
  · exact (hsorted.pairwise_iff fun hne => hne.symm).mpr hcoalesced.distinct
  · exact fun mutation hmutation => hcoalesced.merges mutation (hsorted.mem_iff.mp hmutation)
  · intro source hsource
    obtain ⟨mutation, hmutation, hsame⟩ := hcoalesced.covers source hsource
    exact ⟨mutation, hsorted.mem_iff.mpr hmutation, hsame⟩

--------------------
-- Two patches of one note
--------------------

def noteRenamed : DomainEventOccurrence where
  occurrenceVersion := 1
  id := "occurrence"
  descriptor :=
    { name := "note.renamed", version := 1,
      body := ⟨.event, "NoteRenamed", 1, "schema", "fingerprint", "distributed-json", 1⟩ }
  aggregateType := "note"
  aggregateId := "a"
  aggregateSequence := 2
  publicationOrdinal := 0
  occurredAtUnixMs := 0
  body := ""
  metadata := .empty

def noteRenamedSelector : ProjectionEventSelector where
  occurrenceVersion := 1
  eventName := "note.renamed"
  eventVersion := 1
  bodyKind := .event
  bodyTypeName := "NoteRenamed"
  bodyVersion := 1
  bodySchema := "schema"
  bodyFingerprint := "fingerprint"
  bodyCodec := "distributed-json"
  bodyCodecVersion := 1

/-- Patch one field of the note whose key is the aggregate's id. -/
def patchNote (operationId : String) (stagingOrdinal : Nat) (field : String)
    (expression : ProjectionExpression) : ProjectionOperation where
  operationId
  stagingOrdinal
  kind := .patch
  target := ⟨"Note", "notes"⟩
  key := [⟨0, "id", .envelope .aggregateId⟩]
  fields := [⟨0, field, .set expression⟩]
  relationshipEffects := []
  invalidations := []

def renameOperations : List ProjectionOperation :=
  [patchNote "retitle" 0 "title" (.constant (.string "new")),
    patchNote "touch" 1 "changed" (.envelope .aggregateSequence)]

def renameArm : ProjectionArm := ⟨"rename", noteRenamedSelector, renameOperations⟩

def unitPartition : ResolvedProjectionPartition := ⟨.unit, []⟩

/-- Keys are printed and nothing is read. -/
def noteCrates : Crates := serdeCrates [] ""

theorem renameOperations_constructed
    : ∀ operation ∈ renameOperations, operation.Constructed := by
  intro operation hoperation
  have hnew : ProjectionOperation.tryNew operation.operationId operation.stagingOrdinal
      operation.kind operation.target operation.key operation.fields
      operation.relationshipEffects operation.invalidations = .ok operation := by
    simp only [renameOperations, List.mem_cons, List.not_mem_nil, or_false] at hoperation
    rcases hoperation with rfl | rfl <;> rfl
  exact ⟨_, _, _, _, _, _, _, _, hnew⟩

theorem rename_patches_merge
    : ∃ plan, resolveMutations noteCrates unusedFloats ⟨.replicate 0⟩ renameArm noteRenamed
          .null unitPartition = .ok plan
      ∧ ∃ mutation ∈ plan, mutation.Assigns "title" (.value (.string "new"))
        ∧ mutation.Assigns "changed" (.value (.u64 "2")) := by
  obtain ⟨retitle, touch, hresolved, hkeys, htitle, hchanged, hscope⟩ : ∃ retitle touch,
      renameArm.operations.mapM (resolveOperation noteCrates unusedFloats noteRenamed .null
        ⟨.replicate 0⟩ renameArm.armId unitPartition) = .ok [retitle, touch]
      ∧ (∀ mutation ∈ [retitle, touch], mutation.key.fields = [⟨0, "id", .string "a"⟩])
      ∧ retitle.Assigns "title" (.value (.string "new"))
      ∧ touch.Assigns "changed" (.value (.u64 "2"))
      ∧ retitle.scopeKey = touch.scopeKey :=
    ⟨_, _, rfl, by decide, ⟨_, List.mem_cons_self .., rfl, rfl⟩,
      ⟨_, List.mem_cons_self .., rfl, rfl⟩, rfl⟩
  obtain ⟨plan, hplan, -, hmerged, hcovers⟩ :=
    accepted_arm_resolves_unambiguously noteCrates unusedFloats renameOperations_constructed
      (rfl : ProjectionArm.tryNew "rename" noteRenamedSelector renameOperations = .ok renameArm)
      ⟨.replicate 0⟩ noteRenamed .null unitPartition hresolved
      (fun left hleft right hright _ => (hkeys left hleft).trans (hkeys right hright).symm)
  obtain ⟨mutation, hmutation, hsame⟩ := hcovers retitle (List.mem_cons_self ..)
  have hunion := (hmerged mutation hmutation).union
  refine ⟨plan, hplan, mutation, hmutation, (hunion _ _).mpr ⟨retitle, ?_, htitle⟩,
    (hunion _ _).mpr ⟨touch, ?_, hchanged⟩⟩
  · simp [ofScope, hsame]
  · simp [ofScope, hsame, hscope]

end Distributed.Projection
