import Distributed.Mutation.Bind
import Distributed.Mutation.Readings

/-! Evaluating a mutation expression and evaluating its projection rewrite.
The two agree where the untyped reading of the input is the typed one, where no list or object
holds a number or an enum, and where the rewrite is not too deep. Absent input is absent in
both.
-/

namespace Distributed.Mutation

open Distributed.DomainEvent Distributed.Foundation Distributed.Platform Distributed.Projection

--------------------
-- Expressions as their constructors build them
--------------------

namespace MutationExpression

theorem bounded_eq_ok {expression result : MutationExpression}
    (h : bounded expression = .ok result)
    : result = expression := by
  unfold bounded at h
  split at h
  · cases h
  · exact (Except.ok.inj h).symm

theorem nonEmptyName_eq_ok_iff {value kind result : String}
    : nonEmptyName value kind = .ok result ↔ value ≠ "" ∧ result = value := by
  unfold nonEmptyName
  split <;> simp [*, eq_comm]

/-- An expression without transforms, with what its constructors check. -/
inductive Plain : MutationExpression → Prop
  | inputPath {path : List String} {valueType : ProjectionValueType} :
      path.length ≤ maxMutationPathSegments → "" ∉ path → valueType ≠ .enum "" →
        Plain (.inputPath path valueType)
  | constant (value : ProjectionValue) : Plain (.constant value)
  | enum {enumType variant : String} :
      enumType ≠ "" → variant ≠ "" → Plain (.enum enumType variant)
  | list {values : List MutationExpression} :
      (∀ value ∈ values, Plain value) → Plain (.list values)
  | object {fields : List (String × MutationExpression)} :
      (∀ field ∈ fields, field.1 ≠ "") → NamesAscend fields →
        (∀ field ∈ fields, Plain field.2) → Plain (.object fields)

--------------------
-- Conditions on the leaves
--------------------

/-- Every leaf under the lists and objects of an expression has the property. -/
inductive EveryLeaf (P : MutationExpression → Prop) : MutationExpression → Prop
  | inputPath {path : List String} {valueType : ProjectionValueType} :
      P (.inputPath path valueType) → EveryLeaf P (.inputPath path valueType)
  | constant {value : ProjectionValue} : P (.constant value) → EveryLeaf P (.constant value)
  | enum {enumType variant : String} :
      P (.enum enumType variant) → EveryLeaf P (.enum enumType variant)
  | transform {operator : ProjectionScalarTransform} {arguments : List MutationExpression} :
      P (.transform operator arguments) → EveryLeaf P (.transform operator arguments)
  | list {values : List MutationExpression} :
      (∀ value ∈ values, EveryLeaf P value) → EveryLeaf P (.list values)
  | object {fields : List (String × MutationExpression)} :
      (∀ field ∈ fields, EveryLeaf P field.2) → EveryLeaf P (.object fields)

section EveryLeaf

variable {P : MutationExpression → Prop}

@[simp] theorem everyLeaf_inputPath {path : List String} {valueType : ProjectionValueType}
    : EveryLeaf P (.inputPath path valueType) ↔ P (.inputPath path valueType) :=
  ⟨fun | .inputPath h => h, .inputPath⟩

@[simp] theorem everyLeaf_constant {value : ProjectionValue}
    : EveryLeaf P (.constant value) ↔ P (.constant value) :=
  ⟨fun | .constant h => h, .constant⟩

@[simp] theorem everyLeaf_enum {enumType variant : String}
    : EveryLeaf P (.enum enumType variant) ↔ P (.enum enumType variant) :=
  ⟨fun | .enum h => h, .enum⟩

@[simp] theorem everyLeaf_list {values : List MutationExpression}
    : EveryLeaf P (.list values) ↔ ∀ value ∈ values, EveryLeaf P value :=
  ⟨fun | .list h => h, .list⟩

@[simp] theorem everyLeaf_object {fields : List (String × MutationExpression)}
    : EveryLeaf P (.object fields) ↔ ∀ field ∈ fields, EveryLeaf P field.2 :=
  ⟨fun | .object h => h, .object⟩

end EveryLeaf

section Conditions

variable (floats : Floats) (input : Json)

/-- What an input path reads has its declared type; transforms are no part of the agreement. -/
def LeafConforms : MutationExpression → Prop
  | .inputPath path valueType =>
      ∀ json, readPath path input = some json →
        ∃ value, ProjectionValue.tryFromTypedJson floats json valueType = .ok value
  | .transform .. => False
  | _ => True

def LeafPresent : MutationExpression → Prop
  | .inputPath path _ => (readPath path input).isSome = true
  | _ => True

/-- The leaf evaluates alike, also after a detour through JSON where it is nested. -/
def LeafAlike (nested : Bool) : MutationExpression → Prop
  | .inputPath path valueType =>
      ∀ json, readPath path input = some json →
        ReadsAlike valueType json ∧ (nested = true → TextualJson json)
  | .constant value => nested = true → Textual value
  | _ => False

/-- The input conforms to the types of the expression, which has no transform. -/
def Conforms (expression : MutationExpression) : Prop :=
  expression.EveryLeaf (LeafConforms floats input)

/-- No input path is absent. -/
def Present (expression : MutationExpression) : Prop := expression.EveryLeaf (LeafPresent input)

def Alike (expression : MutationExpression) : Prop :=
  match expression with
  | .list _ | .object _ => expression.EveryLeaf (LeafAlike input true)
  | leaf => LeafAlike input false leaf

end Conditions

mutual

/-- The depth of an expression with the levels inside its constants. -/
def literalDepth : MutationExpression → Nat → Nat
  | .list values, level => literalDepthItems values level
  | .object fields, level => literalDepthFields fields level
  | .constant value, level => level + (value.depth 1 - 1)
  | .inputPath .., level | .enum .., level | .transform .., level => level

def literalDepthItems : List MutationExpression → Nat → Nat
  | [], level => level
  | value :: rest, level => max (value.literalDepth (level + 1)) (literalDepthItems rest level)

def literalDepthFields : List (String × MutationExpression) → Nat → Nat
  | [], level => level
  | (_, value) :: rest, level =>
      max (value.literalDepth (level + 1)) (literalDepthFields rest level)

end

/-- A list or object is not too deep with its constants. -/
def RewriteFits (expression : MutationExpression) : Prop :=
  match expression with
  | .list _ | .object _ => expression.literalDepth 1 ≤ maxMutationExpressionDepth
  | _ => True

--------------------
-- Rewriting
--------------------

theorem literalDepthItems_mono {values : List MutationExpression}
    (h : ∀ value ∈ values, ∀ level, value.literalDepth level ≤ value.literalDepth (level + 1))
    (level : Nat)
    : literalDepthItems values level ≤ literalDepthItems values (level + 1) := by
  induction values with
  | nil => exact Nat.le_succ level
  | cons value rest ih =>
      obtain ⟨hvalue, hrest⟩ := List.forall_mem_cons.mp h
      exact max_le_max (hvalue (level + 1)) (ih hrest)

theorem literalDepthFields_eq (fields : List (String × MutationExpression)) (level : Nat)
    : literalDepthFields fields level = literalDepthItems (fields.map Prod.snd) level := by
  induction fields with
  | nil => rfl
  | cons field rest ih => rw [literalDepthFields, List.map_cons, literalDepthItems, ih]

theorem Plain.literalDepth_mono {expression : MutationExpression} (h : expression.Plain)
    (level : Nat)
    : expression.literalDepth level ≤ expression.literalDepth (level + 1) := by
  induction h generalizing level with
  | list _ ih => exact literalDepthItems_mono ih level
  | object _ _ _ ih =>
      rw [literalDepth, literalDepth, literalDepthFields_eq, literalDepthFields_eq]
      exact literalDepthItems_mono (List.forall_mem_map.mpr ih) level
  | constant value =>
      rw [literalDepth, literalDepth]
      omega
  | _ => exact Nat.le_succ level

theorem identityBodyPathBinder_eq {path : List String} {valueType : ProjectionValueType}
    (hlength : path.length ≤ maxMutationPathSegments) (hsegments : "" ∉ path)
    (htype : valueType ≠ .enum "")
    : identityBodyPathBinder path valueType = .ok (.bodyPath path valueType) := by
  have hnew : ProjectionExpression.tryBodyPath valueType path
      = .ok (.bodyPath path valueType) := by
    simp only [ProjectionExpression.tryBodyPath, Result.error_bind, Result.guard_eq_ok_iff]
    exact ⟨not_lt.mpr hlength, hsegments, htype, trivial⟩
  rw [identityBodyPathBinder, hnew]
  rfl

theorem adapted_tryEnum {enumType variant : String} (htype : enumType ≠ "")
    (hvariant : variant ≠ "")
    : adapted (ProjectionExpression.tryEnum enumType variant) = .ok (.enum enumType variant) := by
  rw [adapted, Result.mapError_eq_ok_iff, ProjectionExpression.tryEnum, nonEmpty, if_neg htype,
    nonEmpty, if_neg hvariant]
  rfl

theorem adapted_bounded_iff {expression result : ProjectionExpression}
    : adapted (ProjectionExpression.bounded expression) = .ok result
      ↔ expression.depth 1 ≤ maxMutationExpressionDepth ∧ expression = result := by
  simp only [adapted, Result.mapError_eq_ok_iff, ProjectionExpression.bounded,
    Result.seq_eq_ok_iff, validateDepth, Result.guard_eq_ok_iff, not_lt, and_true,
    Except.ok.injEq]
  exact Iff.rfl

theorem adapted_tryObject_iff {fields : List (String × ProjectionExpression)}
    {result : ProjectionExpression} (hnamed : ∀ field ∈ fields, field.1 ≠ "")
    (hascend : NamesAscend fields)
    : adapted (ProjectionExpression.tryObject fields) = .ok result
      ↔ (ProjectionExpression.object fields).depth 1 ≤ maxMutationExpressionDepth
        ∧ .object fields = result := by
  have hchecked : (fields.forM fun field => do
      let _ ← nonEmpty field.1 "object field") = .ok () := by
    rw [Result.forM_eq_ok_iff]
    intro field hfield
    rw [nonEmpty, if_neg (hnamed field hfield)]
    rfl
  simp only [ProjectionExpression.tryObject, sortFields_eq_self hascend,
    repeatedName_eq_none hascend]
  rw [hchecked, ← adapted_bounded_iff]
  rfl

/-- The rewrite of the members is that of their values, under the same names. -/
theorem rewriteFields_eq_ok {bindInputPath : InputPathBinding}
    {fields : List (String × MutationExpression)}
    {members : List (String × ProjectionExpression)}
    (h : rewriteFields bindInputPath fields = .ok members)
    : members.map Prod.fst = fields.map Prod.fst
      ∧ rewriteItems bindInputPath (fields.map Prod.snd) = .ok (members.map Prod.snd) := by
  induction fields generalizing members with
  | nil =>
      cases h
      exact ⟨rfl, rfl⟩
  | cons field rest ih =>
      simp only [rewriteFields, Result.bind_eq_ok_iff] at h
      obtain ⟨first, hfirst, others, hothers, hmembers⟩ := h
      cases hmembers
      obtain ⟨hnames, hitems⟩ := ih hothers
      simp only [List.map_cons, hnames, rewriteItems, hfirst, hitems, Result.ok_bind, and_self]

theorem rewriteFields_of_items {bindInputPath : InputPathBinding}
    {fields : List (String × MutationExpression)} {items : List ProjectionExpression}
    (h : rewriteItems bindInputPath (fields.map Prod.snd) = .ok items)
    : ∃ members, rewriteFields bindInputPath fields = .ok members := by
  induction fields generalizing items with
  | nil => exact ⟨[], rfl⟩
  | cons field rest ih =>
      simp only [List.map_cons, rewriteItems, Result.bind_eq_ok_iff] at h
      obtain ⟨first, hfirst, _, hothers, -⟩ := h
      obtain ⟨members, hmembers⟩ := ih hothers
      exact ⟨_, by rw [rewriteFields, hfirst, Result.ok_bind, hmembers, Result.ok_bind]⟩

/-- The rewrite of an object is its rewritten members, if these are not too deep. -/
theorem rewriteWith_object_iff {fields : List (String × MutationExpression)}
    {rewritten : ProjectionExpression} (hnamed : ∀ field ∈ fields, field.1 ≠ "")
    (hascend : NamesAscend fields)
    : (MutationExpression.object fields).rewriteWith identityBodyPathBinder = .ok rewritten
      ↔ ∃ members, rewriteFields identityBodyPathBinder fields = .ok members
        ∧ (ProjectionExpression.object members).depth 1 ≤ maxMutationExpressionDepth
        ∧ .object members = rewritten := by
  rw [rewriteWith, Result.bind_eq_ok_iff]
  refine exists_congr fun members => and_congr_right fun hmembers => ?_
  have hnames := (rewriteFields_eq_ok hmembers).1
  refine adapted_tryObject_iff ?_ (hascend.of_names hnames)
  intro field hfield
  have hname : field.1 ∈ fields.map Prod.fst := hnames ▸ List.mem_map_of_mem hfield
  obtain ⟨original, horiginal, hname⟩ := List.mem_map.mp hname
  exact hname ▸ hnamed original horiginal

theorem rewriteWith_list_iff {values : List MutationExpression}
    {rewritten : ProjectionExpression}
    : (MutationExpression.list values).rewriteWith identityBodyPathBinder = .ok rewritten
      ↔ ∃ items, rewriteItems identityBodyPathBinder values = .ok items
        ∧ (ProjectionExpression.list items).depth 1 ≤ maxMutationExpressionDepth
        ∧ .list items = rewritten := by
  rw [rewriteWith, Result.bind_eq_ok_iff]
  exact exists_congr fun items => and_congr_right fun _ => adapted_bounded_iff

/-- The rewrite is as deep as the expression with its constants. -/
def RewritesToDepth (expression : MutationExpression) : Prop :=
  ∀ rewritten, expression.rewriteWith identityBodyPathBinder = .ok rewritten →
    ∀ level, rewritten.depth level = expression.literalDepth level

theorem depthItems_rewritten {values : List MutationExpression}
    (h : ∀ value ∈ values, value.RewritesToDepth) {items : List ProjectionExpression}
    (hitems : rewriteItems identityBodyPathBinder values = .ok items) (level : Nat)
    : ProjectionExpression.depthItems items level = literalDepthItems values level := by
  induction values generalizing items with
  | nil =>
      cases hitems
      rfl
  | cons value rest ih =>
      obtain ⟨hvalue, hrest⟩ := List.forall_mem_cons.mp h
      simp only [rewriteItems, Result.bind_eq_ok_iff] at hitems
      obtain ⟨first, hfirst, others, hothers, hitems⟩ := hitems
      cases hitems
      rw [ProjectionExpression.depthItems, literalDepthItems, hvalue first hfirst,
        ih hrest hothers]

theorem depthFields_eq (members : List (String × ProjectionExpression)) (level : Nat)
    : ProjectionExpression.depthFields members level
      = ProjectionExpression.depthItems (members.map Prod.snd) level := by
  induction members with
  | nil => rfl
  | cons member rest ih =>
      rw [ProjectionExpression.depthFields, List.map_cons, ProjectionExpression.depthItems, ih]

theorem Plain.rewritesToDepth {expression : MutationExpression} (h : expression.Plain)
    : expression.RewritesToDepth := by
  induction h with
  | inputPath hlength hsegments htype =>
      intro rewritten hrewritten level
      rw [rewriteWith, identityBodyPathBinder_eq hlength hsegments htype] at hrewritten
      cases hrewritten
      rfl
  | constant value =>
      intro rewritten hrewritten level
      cases hrewritten
      rfl
  | enum htype hvariant =>
      intro rewritten hrewritten level
      rw [rewriteWith, adapted_tryEnum htype hvariant] at hrewritten
      cases hrewritten
      rfl
  | list _ ih =>
      intro rewritten hrewritten level
      obtain ⟨items, hitems, -, rfl⟩ := rewriteWith_list_iff.mp hrewritten
      exact depthItems_rewritten ih hitems level
  | object hnamed hascend _ ih =>
      intro rewritten hrewritten level
      obtain ⟨members, hmembers, -, rfl⟩ := (rewriteWith_object_iff hnamed hascend).mp hrewritten
      rw [ProjectionExpression.depth, literalDepth, depthFields_eq, literalDepthFields_eq]
      exact depthItems_rewritten (List.forall_mem_map.mpr ih) (rewriteFields_eq_ok hmembers).2
        level

theorem rewriteItems_of_fits {values : List MutationExpression}
    (h : ∀ value ∈ values, value.literalDepth 1 ≤ maxMutationExpressionDepth →
      ∃ rewritten, value.rewriteWith identityBodyPathBinder = .ok rewritten)
    (hmono : ∀ value ∈ values, value.literalDepth 1 ≤ value.literalDepth 2)
    (hfits : literalDepthItems values 1 ≤ maxMutationExpressionDepth)
    : ∃ items, rewriteItems identityBodyPathBinder values = .ok items := by
  induction values with
  | nil => exact ⟨[], rfl⟩
  | cons value rest ih =>
      obtain ⟨hvalue, hrest⟩ := List.forall_mem_cons.mp h
      obtain ⟨hvalueMono, hrestMono⟩ := List.forall_mem_cons.mp hmono
      obtain ⟨hvalueFits, hrestFits⟩ := max_le_iff.mp hfits
      obtain ⟨first, hfirst⟩ := hvalue (hvalueMono.trans hvalueFits)
      obtain ⟨others, hothers⟩ := ih hrest hrestMono hrestFits
      exact ⟨_, by rw [rewriteItems, hfirst, Result.ok_bind, hothers, Result.ok_bind]⟩

theorem Plain.rewriteWith_of_fits {expression : MutationExpression} (h : expression.Plain)
    (hfits : expression.literalDepth 1 ≤ maxMutationExpressionDepth)
    : ∃ rewritten, expression.rewriteWith identityBodyPathBinder = .ok rewritten := by
  induction h with
  | inputPath hlength hsegments htype =>
      exact ⟨_, identityBodyPathBinder_eq hlength hsegments htype⟩
  | constant value => exact ⟨_, rfl⟩
  | enum htype hvariant => exact ⟨_, adapted_tryEnum htype hvariant⟩
  | list hvalues ih =>
      obtain ⟨items, hitems⟩ := rewriteItems_of_fits ih
        (fun value hvalue => (hvalues value hvalue).literalDepth_mono 1) hfits
      have hdepth := depthItems_rewritten
        (fun value hvalue => (hvalues value hvalue).rewritesToDepth) hitems 1
      exact ⟨_, rewriteWith_list_iff.mpr ⟨items, hitems, hdepth.trans_le hfits, rfl⟩⟩
  | object hnamed hascend hfields ih =>
      rw [literalDepth, literalDepthFields_eq] at hfits
      have hvalues := List.forall_mem_map.mpr hfields
      obtain ⟨items, hitems⟩ := rewriteItems_of_fits (List.forall_mem_map.mpr ih)
        (fun value hvalue => (hvalues value hvalue).literalDepth_mono 1) hfits
      obtain ⟨members, hmembers⟩ := rewriteFields_of_items hitems
      have hdepth := depthItems_rewritten
        (fun value hvalue => (hvalues value hvalue).rewritesToDepth)
        (rewriteFields_eq_ok hmembers).2 1
      rw [← depthFields_eq] at hdepth
      exact ⟨_, (rewriteWith_object_iff hnamed hascend).mpr
        ⟨members, hmembers, hdepth.trans_le hfits, rfl⟩⟩

/-- An expression has a rewrite when its lists and objects are not too deep with their
constants. -/
theorem Plain.rewriteWith_iff {expression : MutationExpression} (h : expression.Plain)
    : (∃ rewritten, expression.rewriteWith identityBodyPathBinder = .ok rewritten)
      ↔ expression.RewriteFits := by
  cases h with
  | inputPath hlength hsegments htype =>
      exact ⟨fun _ => trivial, fun _ => ⟨_, identityBodyPathBinder_eq hlength hsegments htype⟩⟩
  | constant value => exact ⟨fun _ => trivial, fun _ => ⟨_, rfl⟩⟩
  | enum htype hvariant => exact ⟨fun _ => trivial, fun _ => ⟨_, adapted_tryEnum htype hvariant⟩⟩
  | list hvalues =>
      refine ⟨?_, (Plain.list hvalues).rewriteWith_of_fits⟩
      rintro ⟨rewritten, hrewritten⟩
      obtain ⟨items, -, hdepth, rfl⟩ := rewriteWith_list_iff.mp hrewritten
      exact ((Plain.list hvalues).rewritesToDepth _ hrewritten 1).symm.trans_le hdepth
  | object hnamed hascend hfields =>
      have hplain := Plain.object hnamed hascend hfields
      refine ⟨?_, hplain.rewriteWith_of_fits⟩
      rintro ⟨rewritten, hrewritten⟩
      obtain ⟨members, -, hdepth, rfl⟩ := (rewriteWith_object_iff hnamed hascend).mp hrewritten
      exact (hplain.rewritesToDepth _ hrewritten 1).symm.trans_le hdepth

theorem Constructed.plain {floats : Floats} {input : Json} {expression : MutationExpression}
    (h : Constructed expression) (hconforms : Conforms floats input expression)
    : Plain expression := by
  induction h with
  | inputPath hnew =>
      simp only [tryInputPath, Result.error_bind, Result.guard_eq_ok_iff, not_lt] at hnew
      obtain ⟨hlength, hsegments, htype, hnew⟩ := hnew
      cases hnew
      exact .inputPath hlength hsegments htype
  | constant value => exact .constant value
  | enum hnew =>
      simp only [tryEnum, Result.bind_eq_ok_iff, nonEmptyName_eq_ok_iff] at hnew
      obtain ⟨_, ⟨htype, rfl⟩, _, ⟨hvariant, rfl⟩, hnew⟩ := hnew
      cases hnew
      exact .enum htype hvariant
  | list _ hnew ih =>
      rw [bounded_eq_ok hnew] at hconforms ⊢
      exact .list fun value hvalue => ih value hvalue (everyLeaf_list.mp hconforms value hvalue)
  | object _ hnew ih =>
      simp only [tryObject, Result.seq_eq_ok_iff, Result.forM_eq_ok_iff] at hnew
      obtain ⟨hnames, hnew⟩ := hnew
      split at hnew
      · cases hnew
      · rename_i hdistinct
        rw [bounded_eq_ok hnew] at hconforms ⊢
        refine .object ?_ (namesAscend_of_repeatedName (sortFields_ordered _) hdistinct) ?_
        · intro field hfield
          have hname := hnames field (mem_sortFields.mp hfield)
          simp only [Result.bind_eq_ok_iff, nonEmptyName_eq_ok_iff] at hname
          obtain ⟨_, ⟨hname, -⟩, -⟩ := hname
          exact hname
        · exact fun field hfield => ih field (mem_sortFields.mp hfield)
            (everyLeaf_object.mp hconforms field hfield)
  | transform _ hnew _ =>
      unfold tryTransform at hnew
      split at hnew
      · cases hnew
      · rw [bounded_eq_ok hnew] at hconforms
        cases hconforms with
        | transform hleaf => exact hleaf.elim

--------------------
-- Comparing the outcomes
--------------------

/-- The outcomes that both evaluators can have. -/
inductive SameOutcome : ResolvedMutationValue → ResolvedProjectionValue → Prop
  | value (value : ProjectionValue) : SameOutcome (.value value) (.value value)
  | absent : SameOutcome .absent .absent

section Comparison

variable (floats : Floats) (input : Json)

/-- Both evaluators find the input absent, or both give a value. The values are one, at once or
after the detour through JSON, exactly where the expression is alike. -/
inductive ComparedOutcome (expression : MutationExpression)
    : ResolvedMutationValue → ResolvedProjectionValue → Prop
  | absent : ¬expression.Present input → ComparedOutcome expression .absent .absent
  | value {resolved rewritten : ProjectionValue} :
      expression.Present input → (resolved = rewritten ↔ expression.Alike input) →
      (ProjectionValue.fromJson floats (projectionValueToJson resolved) = .ok rewritten
        ↔ expression.EveryLeaf (LeafAlike input true)) →
      ComparedOutcome expression (.value resolved) (.value rewritten)

inductive ComparedItems (values : List MutationExpression)
    : Option (List Json) → Option (List ProjectionValue) → Prop
  | absent : ¬(∀ value ∈ values, value.Present input) → ComparedItems values none none
  | values {items : List Json} {resolved : List ProjectionValue} :
      (∀ value ∈ values, value.Present input) → (∀ item ∈ items, TextualJson item) →
      items.length = values.length → resolved.length = values.length →
      (ProjectionValue.fromJsonItems floats items = .ok resolved
        ↔ ∀ value ∈ values, value.EveryLeaf (LeafAlike input true)) →
      ComparedItems values (some items) (some resolved)

variable (occurrence : DomainEventOccurrence)

/-- Every successful evaluation of the expression has a compared one of its rewrite. -/
def Compares (expression : MutationExpression) : Prop :=
  ∀ rewritten outcome, expression.rewriteWith identityBodyPathBinder = .ok rewritten →
    expression.resolve floats input = .ok outcome →
    ∃ same, rewritten.resolve floats occurrence input = .ok same
      ∧ ComparedOutcome floats input expression outcome same

variable {floats input occurrence}

theorem compares_inputPath {path : List String} {valueType : ProjectionValueType}
    (hplain : Plain (.inputPath path valueType))
    (hconforms : LeafConforms floats input (.inputPath path valueType))
    : Compares floats input occurrence (.inputPath path valueType) := by
  intro rewritten outcome hrewritten hresolve
  obtain ⟨hlength, hsegments, htype⟩ := hplain
  rw [rewriteWith, identityBodyPathBinder_eq hlength hsegments htype] at hrewritten
  cases hrewritten
  rw [resolve] at hresolve
  cases hpath : readPath path input with
  | none =>
      rw [hpath] at hresolve
      cases hresolve
      refine ⟨.absent, by rw [ProjectionExpression.resolve, hpath], .absent ?_⟩
      simp [Present, LeafPresent, hpath]
  | some json =>
      obtain ⟨typed, htyped⟩ := hconforms json hpath
      rw [hpath] at hresolve
      cases huntyped : ProjectionValue.tryFromJson floats json with
      | error error => simp [huntyped] at hresolve
      | ok untyped =>
          simp only [huntyped] at hresolve
          cases hresolve
          refine ⟨.value typed, ?_, .value ?_ ?_ ?_⟩
          · rw [ProjectionExpression.resolve, hpath]
            simp [htyped]
          · simp [Present, LeafPresent, hpath]
          · rw [eq_comm, tryFromTypedJson_eq_iff htyped huntyped]
            simp [Alike, LeafAlike, hpath]
          · rw [detour_eq_typed_iff htyped huntyped]
            simp [LeafAlike, hpath]

theorem compares_constant (value : ProjectionValue)
    : Compares floats input occurrence (.constant value) := by
  intro rewritten outcome hrewritten hresolve
  cases hrewritten
  cases hresolve
  refine ⟨.value value, rfl, .value ?_ ?_ ?_⟩
  · simp [Present, LeafPresent]
  · simp [Alike, LeafAlike]
  · simp only [everyLeaf_constant, LeafAlike, forall_const]
    exact ⟨fun hdetour =>
      (textual_fromJson_iff hdetour).mpr (textualJson_projectionValueToJson value),
      fromJson_projectionValueToJson⟩

theorem compares_enum {enumType variant : String} (htype : enumType ≠ "") (hvariant : variant ≠ "")
    : Compares floats input occurrence (.enum enumType variant) := by
  intro rewritten outcome hrewritten hresolve
  rw [rewriteWith, adapted_tryEnum htype hvariant] at hrewritten
  rw [resolve, adapted_tryEnum htype hvariant] at hresolve
  cases hrewritten
  cases hresolve
  refine ⟨.value (.enum enumType variant), rfl, .value ?_ ?_ ?_⟩
  · simp [Present, LeafPresent]
  · simp [Alike, LeafAlike]
  · simp [LeafAlike, projectionValueToJson, ProjectionValue.fromJson]

theorem resolveItems_compared {values : List MutationExpression}
    (h : ∀ value ∈ values, Compares floats input occurrence value)
    {rewritten : List ProjectionExpression} {items : Option (List Json)}
    (hrewritten : rewriteItems identityBodyPathBinder values = .ok rewritten)
    (hresolve : resolveItems floats input values = .ok items)
    : ∃ resolved,
        ProjectionExpression.resolveItems floats occurrence input rewritten = .ok resolved
      ∧ ComparedItems floats input values items resolved := by
  induction values generalizing rewritten items with
  | nil =>
      cases hrewritten
      cases hresolve
      exact ⟨some [], rfl, .values (by simp) (by simp) rfl rfl
        (by simp [ProjectionValue.fromJsonItems])⟩
  | cons value rest ih =>
      obtain ⟨hvalue, hrest⟩ := List.forall_mem_cons.mp h
      simp only [rewriteItems, Result.bind_eq_ok_iff] at hrewritten
      obtain ⟨first, hfirst, others, hothers, hrewritten⟩ := hrewritten
      cases hrewritten
      simp only [resolveItems, Result.bind_eq_ok_iff] at hresolve
      obtain ⟨outcome, houtcome, hresolve⟩ := hresolve
      obtain ⟨same, hsame, hcompared⟩ := hvalue first outcome hfirst houtcome
      cases hcompared with
      | absent habsent =>
          cases hresolve
          refine ⟨none, ?_, .absent fun hall => habsent (hall value (List.mem_cons_self ..))⟩
          rw [ProjectionExpression.resolveItems, hsame]
          rfl
      | @value head headResolved hpresent _ hdetour =>
          simp only [Result.bind_eq_ok_iff] at hresolve
          obtain ⟨tail, htail, hresolve⟩ := hresolve
          cases hresolve
          obtain ⟨resolved, hresolved, hrestCompared⟩ := ih hrest hothers htail
          refine ⟨resolved.map (headResolved :: ·), ?_, ?_⟩
          · rw [ProjectionExpression.resolveItems, hsame, Result.ok_bind]
            simp only [hresolved, Result.ok_bind]
          · cases hrestCompared with
            | absent habsent =>
                exact .absent fun hall => habsent (List.forall_mem_cons.mp hall).2
            | values hpresents htextuals hitems hvalues halike =>
                refine .values (List.forall_mem_cons.mpr ⟨hpresent, hpresents⟩)
                  (List.forall_mem_cons.mpr
                    ⟨textualJson_projectionValueToJson head, htextuals⟩)
                  (congrArg Nat.succ hitems) (congrArg Nat.succ hvalues) ?_
                rw [List.forall_mem_cons, ← hdetour, ← halike, fromJsonItems_eq_ok_iff,
                  fromJsonItems_eq_ok_iff, List.forall₂_cons]

/-- Members in the order of their names resolve as the items of a list do. -/
theorem resolveFields_items {fields : List (String × MutationExpression)}
    (hascend : NamesAscend fields) {members : JsonFields}
    (hmembers : NamesPrecede members fields) {built : Option JsonFields}
    (h : resolveFields floats input fields members = .ok built)
    : ∃ items, resolveItems floats input (fields.map Prod.snd) = .ok items
      ∧ built = items.map fun items => members ++ (fields.map Prod.fst).zip items := by
  induction fields generalizing members with
  | nil =>
      cases h
      exact ⟨some [], rfl, by simp⟩
  | cons field rest ih =>
      simp only [resolveFields, Result.bind_eq_ok_iff] at h
      obtain ⟨outcome, houtcome, h⟩ := h
      simp only [List.map_cons, resolveItems, houtcome, Result.ok_bind]
      cases outcome with
      | unset | unknown => cases h
      | absent =>
          cases h
          exact ⟨none, rfl, rfl⟩
      | value head =>
          obtain ⟨hlast, hnext⟩ := hmembers.insert hascend (projectionValueToJson head)
          dsimp only at h
          rw [hlast] at h
          obtain ⟨items, hitems, rfl⟩ := ih (List.pairwise_cons.mp hascend).2 hnext h
          simp only [hitems, Result.ok_bind]
          exact ⟨_, rfl, by cases items <;> simp⟩

theorem resolveFields_of_items {members : List (String × ProjectionExpression)}
    {resolved : Option (List ProjectionValue)}
    (h : ProjectionExpression.resolveItems floats occurrence input (members.map Prod.snd)
      = .ok resolved)
    : ProjectionExpression.resolveFields floats occurrence input members
      = .ok (resolved.map (members.map Prod.fst).zip) := by
  induction members generalizing resolved with
  | nil =>
      cases h
      rfl
  | cons member rest ih =>
      simp only [List.map_cons, ProjectionExpression.resolveItems, Result.bind_eq_ok_iff] at h
      obtain ⟨outcome, houtcome, h⟩ := h
      rw [ProjectionExpression.resolveFields, houtcome, Result.ok_bind]
      cases outcome with
      | unset => cases h
      | absent =>
          cases h
          rfl
      | value head =>
          simp only [Result.bind_eq_ok_iff] at h
          obtain ⟨tail, htail, h⟩ := h
          cases h
          simp only [ih htail, Result.ok_bind]
          cases tail <;> simp

theorem fromJsonFields_zip {names : List String} {items : List Json}
    {values : List ProjectionValue} (hitems : items.length = names.length)
    (hvalues : values.length = names.length)
    : ProjectionValue.fromJsonFields floats (names.zip items) = .ok (names.zip values)
      ↔ ProjectionValue.fromJsonItems floats items = .ok values := by
  rw [fromJsonFields_eq_ok_iff, fromJsonItems_eq_ok_iff]
  induction names generalizing items values with
  | nil =>
      cases List.length_eq_zero_iff.mp hitems
      cases List.length_eq_zero_iff.mp hvalues
      simp
  | cons name names ih =>
      obtain ⟨item, items, rfl⟩ := List.exists_cons_of_length_eq_add_one hitems
      obtain ⟨value, values, rfl⟩ := List.exists_cons_of_length_eq_add_one hvalues
      simp only [List.zip_cons_cons, List.forall₂_cons, true_and,
        ih (Nat.succ.inj hitems) (Nat.succ.inj hvalues)]

/-- What a list or object resolves to has taken the detour already. -/
theorem comparedOutcome_of_textual {expression : MutationExpression}
    {resolved rewritten : ProjectionValue} (hpresent : expression.Present input)
    (htextual : Textual resolved)
    (halike : expression.Alike input ↔ expression.EveryLeaf (LeafAlike input true))
    (hsame : resolved = rewritten ↔ expression.EveryLeaf (LeafAlike input true))
    : ComparedOutcome floats input expression (.value resolved) (.value rewritten) := by
  refine .value hpresent (hsame.trans halike.symm) ?_
  rw [fromJson_projectionValueToJson htextual, Except.ok.injEq, hsame]

theorem compares_list {values : List MutationExpression}
    (h : ∀ value ∈ values, Compares floats input occurrence value)
    : Compares floats input occurrence (.list values) := by
  intro rewritten outcome hrewritten hresolve
  obtain ⟨items, hitems, -, rfl⟩ := rewriteWith_list_iff.mp hrewritten
  simp only [resolve, Result.bind_eq_ok_iff] at hresolve
  obtain ⟨built, hbuilt, hresolve⟩ := hresolve
  obtain ⟨resolved, hresolved, hcompared⟩ := resolveItems_compared h hitems hbuilt
  rw [ProjectionExpression.resolve, hresolved]
  cases hcompared with
  | absent habsent =>
      cases hresolve
      exact ⟨.absent, rfl, .absent fun hpresent => habsent (everyLeaf_list.mp hpresent)⟩
  | values hpresent htextual _ _ halike =>
      simp only [adapted, Result.bind_eq_ok_iff, Result.mapError_eq_ok_iff] at hresolve
      obtain ⟨value, hvalue, hresolve⟩ := hresolve
      cases hresolve
      have hread := fromJson_of_tryFromJson hvalue
      refine ⟨_, rfl, comparedOutcome_of_textual (everyLeaf_list.mpr hpresent)
        ((textual_fromJson_iff hread).mpr (.array htextual)) Iff.rfl ?_⟩
      simp only [ProjectionValue.fromJson, Result.bind_eq_ok_iff] at hread
      obtain ⟨read, hitems, hvalue⟩ := hread
      cases hvalue
      rw [everyLeaf_list, ← halike, hitems, Except.ok.injEq, ProjectionValue.list.injEq]

theorem compares_object {fields : List (String × MutationExpression)}
    (hnamed : ∀ field ∈ fields, field.1 ≠ "") (hascend : NamesAscend fields)
    (h : ∀ field ∈ fields, Compares floats input occurrence field.2)
    : Compares floats input occurrence (.object fields) := by
  intro rewritten outcome hrewritten hresolve
  obtain ⟨members, hmembers, -, rfl⟩ := (rewriteWith_object_iff hnamed hascend).mp hrewritten
  simp only [resolve, Result.bind_eq_ok_iff] at hresolve
  obtain ⟨built, hbuilt, hresolve⟩ := hresolve
  obtain ⟨hnames, hitems⟩ := rewriteFields_eq_ok hmembers
  obtain ⟨items, hresolvedItems, rfl⟩ := resolveFields_items hascend (by simp [NamesPrecede]) hbuilt
  obtain ⟨resolved, hresolved, hcompared⟩ :=
    resolveItems_compared (List.forall_mem_map.mpr h) hitems hresolvedItems
  rw [ProjectionExpression.resolve, resolveFields_of_items hresolved, hnames]
  cases hcompared with
  | absent habsent =>
      cases hresolve
      exact ⟨.absent, rfl, .absent fun hpresent =>
        habsent (List.forall_mem_map.mpr (everyLeaf_object.mp hpresent))⟩
  | @values items resolved hpresent htextual hlength hvalues halike =>
      simp only [Option.map_some, List.nil_append, adapted, Result.bind_eq_ok_iff,
        Result.mapError_eq_ok_iff] at hresolve
      obtain ⟨value, hvalue, hresolve⟩ := hresolve
      cases hresolve
      have hread := fromJson_of_tryFromJson hvalue
      rw [List.length_map, ← List.length_map (f := Prod.fst)] at hlength hvalues
      have hadded : ((fields.map Prod.fst).zip items).map Prod.fst = fields.map Prod.fst :=
        List.map_fst_zip hlength.ge
      have hascend : NamesAscend ((fields.map Prod.fst).zip items) := hascend.of_names hadded
      refine ⟨_, rfl, comparedOutcome_of_textual
        (everyLeaf_object.mpr (List.forall_mem_map.mp hpresent))
        ((textual_fromJson_iff hread).mpr (.object hascend.nodup
          fun member hmember => htextual _ (List.of_mem_zip hmember).2)) Iff.rfl ?_⟩
      simp only [ProjectionValue.fromJson, Result.bind_eq_ok_iff] at hread
      obtain ⟨read, hfields, hvalue⟩ := hread
      cases hvalue
      rw [sortFields_eq_self (hascend.of_names (fromJsonFields_names hfields)),
        everyLeaf_object, ← List.forall_mem_map (f := Prod.snd), ← halike,
        ← fromJsonFields_zip hlength hvalues, hfields, Except.ok.injEq,
        ProjectionValue.object.injEq]

theorem Plain.compares {expression : MutationExpression} (h : Plain expression)
    (hconforms : expression.Conforms floats input)
    : Compares floats input occurrence expression := by
  induction h with
  | inputPath hlength hsegments htype =>
      exact compares_inputPath (.inputPath hlength hsegments htype)
        (everyLeaf_inputPath.mp hconforms)
  | constant value => exact compares_constant value
  | enum htype hvariant => exact compares_enum htype hvariant
  | list _ ih =>
      exact compares_list fun value hvalue =>
        ih value hvalue (everyLeaf_list.mp hconforms value hvalue)
  | object hnamed hascend _ ih =>
      exact compares_object hnamed hascend fun field hfield =>
        ih field hfield (everyLeaf_object.mp hconforms field hfield)

end Comparison

/-- On input that conforms, an expression has a rewrite with the same outcome if and only if its
lists and objects are not too deep with their constants and, unless an input path is absent, it
evaluates alike. -/
theorem rewritten_expression_resolves_alike {floats : Floats} {input : Json}
    {expression : MutationExpression} (hconstructed : expression.Constructed)
    (hconforms : expression.Conforms floats input) (occurrence : DomainEventOccurrence)
    {outcome : ResolvedMutationValue} (hresolve : expression.resolve floats input = .ok outcome)
    : (∃ rewritten same, expression.rewriteWith identityBodyPathBinder = .ok rewritten
        ∧ rewritten.resolve floats occurrence input = .ok same ∧ SameOutcome outcome same)
      ↔ expression.RewriteFits ∧ (expression.Present input → expression.Alike input) := by
  have hplain := hconstructed.plain hconforms
  rw [← hplain.rewriteWith_iff]
  constructor
  · rintro ⟨rewritten, same, hrewritten, hsame, houtcomes⟩
    refine ⟨⟨rewritten, hrewritten⟩, fun hpresent => ?_⟩
    obtain ⟨other, hother, hcompared⟩ :=
      hplain.compares hconforms rewritten outcome hrewritten hresolve
    cases hother.symm.trans hsame
    cases hcompared with
    | absent habsent => exact absurd hpresent habsent
    | value _ halike _ =>
        cases houtcomes
        exact halike.mp rfl
  · rintro ⟨⟨rewritten, hrewritten⟩, halike⟩
    obtain ⟨same, hsame, hcompared⟩ :=
      hplain.compares hconforms rewritten outcome hrewritten hresolve
    refine ⟨rewritten, same, hrewritten, hsame, ?_⟩
    cases hcompared with
    | absent => exact .absent
    | value hpresent hvalues _ =>
        cases hvalues.mpr (halike hpresent)
        exact .value _

end MutationExpression

def todoSaved : DomainEventOccurrence where
  occurrenceVersion := 1
  id := "occurrence"
  descriptor :=
    { name := "todo.saved", version := 1,
      body := ⟨.state, "TodoState", 1, "schema", "fingerprint", "distributed-json", 1⟩ }
  aggregateType := "todo"
  aggregateId := "a"
  aggregateSequence := 1
  publicationOrdinal := 0
  occurredAtUnixMs := 0
  body := ""
  metadata := .empty

def todoInput : Json := .object [("tag", .string "home"), ("title", .string "Sweep")]

def todoTags : List MutationExpression :=
  [.inputPath ["tag"] .string, .constant (.string "new")]

def todoMembers : List (String × MutationExpression) :=
  [("tags", .list todoTags), ("title", .inputPath ["title"] .string)]

theorem todoMembers_constructed : (MutationExpression.object todoMembers).Constructed := by
  have hpath : ∀ segment, segment ≠ "" →
      (MutationExpression.inputPath [segment] .string).Constructed := by
    intro segment hsegment
    refine .inputPath (?_ : MutationExpression.tryInputPath .string [segment] = _)
    simp [MutationExpression.tryInputPath, maxMutationPathSegments,
      maxProjectionPathSegments, hsegment.symm]
  have htags : (MutationExpression.list todoTags).Constructed := by
    refine .list (?_ : ∀ value ∈ todoTags, _) rfl
    intro value hvalue
    rcases List.mem_cons.mp hvalue with rfl | hvalue
    · exact hpath "tag" (by decide)
    · rw [List.mem_singleton.mp hvalue]
      exact .constant _
  refine .object (?_ : ∀ field ∈ todoMembers, _) rfl
  intro field hfield
  rcases List.mem_cons.mp hfield with rfl | hfield
  · exact htags
  · rw [List.mem_singleton.mp hfield]
    exact hpath "title" (by decide)

theorem todoMembers_leaves {P : MutationExpression → Prop}
    (htag : P (.inputPath ["tag"] .string)) (hnew : P (.constant (.string "new")))
    (htitle : P (.inputPath ["title"] .string))
    : (MutationExpression.object todoMembers).EveryLeaf P := by
  simp [todoMembers, todoTags, htag, hnew, htitle]

theorem todo_members_resolve_alike
    : ∃ rewritten,
        (MutationExpression.object todoMembers).rewriteWith identityBodyPathBinder
          = .ok rewritten
      ∧ rewritten.resolve unusedFloats todoSaved todoInput
        = .ok (.value (.object [("tags", .list [.string "home", .string "new"]),
          ("title", .string "Sweep")])) := by
  have hconforms : (MutationExpression.object todoMembers).Conforms unusedFloats todoInput := by
    refine todoMembers_leaves ?_ trivial ?_ <;>
      (intro json hjson; cases hjson; exact ⟨_, rfl⟩)
  have halike : (MutationExpression.object todoMembers).Alike todoInput := by
    refine todoMembers_leaves ?_ (fun _ => .string "new") ?_ <;>
      (intro json hjson; cases hjson; exact ⟨trivial, fun _ => .string _⟩)
  have hfits : (MutationExpression.object todoMembers).RewriteFits := by
    simp [MutationExpression.RewriteFits, MutationExpression.literalDepth,
      MutationExpression.literalDepthFields, MutationExpression.literalDepthItems, todoMembers,
      todoTags, ProjectionValue.depth, maxMutationExpressionDepth, maxProjectionExpressionDepth]
  obtain ⟨rewritten, same, hrewritten, hsame, houtcomes⟩ :=
    (MutationExpression.rewritten_expression_resolves_alike todoMembers_constructed hconforms
      todoSaved rfl).mpr ⟨hfits, fun _ => halike⟩
  cases houtcomes
  exact ⟨rewritten, hrewritten, hsame⟩

def countInput : Json := .object [("count", .number (.posInt 5))]

/-- The expression has the one value and its rewrite the other. -/
def Evaluates (expression : MutationExpression) (resolved rewritten : ProjectionValue) : Prop :=
  expression.resolve unusedFloats countInput = .ok (.value resolved)
    ∧ ∃ projected, expression.rewriteWith identityBodyPathBinder = .ok projected
      ∧ projected.resolve unusedFloats todoSaved countInput = .ok (.value rewritten)

/-- A positive integer declared as `i64` is read as `u64`, an enum literal loses its type
and the numbers of a list become texts. -/
theorem declared_types_ignored_by_resolve
    : (MutationExpression.tryInputPath .i64 ["count"] = .ok (.inputPath ["count"] .i64)
        ∧ ProjectionValue.tryFromTypedJson unusedFloats (.number (.posInt 5)) .i64
          = .ok (.i64 "5")
        ∧ Evaluates (.inputPath ["count"] .i64) (.u64 "5") (.i64 "5"))
      ∧ (MutationExpression.tryEnum "Status" "Open" = .ok (.enum "Status" "Open")
        ∧ Evaluates (.enum "Status" "Open") (.string "Open") (.enum "Status" "Open"))
      ∧ (MutationExpression.tryList [.inputPath ["count"] .u64]
          = .ok (.list [.inputPath ["count"] .u64])
        ∧ Evaluates (.list [.inputPath ["count"] .u64]) (.list [.string "5"])
          (.list [.u64 "5"])) :=
  ⟨⟨rfl, rfl, rfl, _, rfl, rfl⟩, ⟨rfl, rfl, _, rfl, rfl⟩, rfl, rfl, _, rfl, rfl⟩

end Distributed.Mutation
