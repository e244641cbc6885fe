import Distributed.Foundation.Pairing
import Distributed.Mutation.Expression

/-! What becomes of a projection value on the detour through JSON that list and object members
take, and of JSON read with and without its declared type.
-/

namespace Distributed.Mutation

open Distributed.Foundation Distributed.Platform Distributed.Projection

--------------------
-- Member names
--------------------

/-- The names of the members strictly ascend. -/
def NamesAscend {α : Type} (fields : List (String × α)) : Prop :=
  fields.Pairwise fun left right => left.1.toList < right.1.toList

section Names

variable {α β : Type}

theorem sortFields_eq_self {fields : List (String × α)} (h : NamesAscend fields)
    : ProjectionValue.sortFields fields = fields := by
  refine sortBy_eq_self (h.imp ?_)
  intro earlier later hlt
  simpa using le_of_lt hlt

theorem repeatedName_eq_none {fields : List (String × α)} (h : NamesAscend fields)
    : ProjectionExpression.repeatedName fields = none := by
  induction fields with
  | nil => rfl
  | cons first rest ih =>
      obtain ⟨hfirst, hrest⟩ := List.pairwise_cons.mp h
      cases rest with
      | nil => rfl
      | cons second rest =>
          have hne : first.1 ≠ second.1 := by
            intro hname
            have hlt := hfirst second (List.mem_cons_self ..)
            rw [hname] at hlt
            exact List.lt_irrefl _ hlt
          rw [ProjectionExpression.repeatedName, if_neg hne]
          exact ih hrest

theorem namesAscend_of_repeatedName {fields : List (String × α)}
    (hsorted : fields.Pairwise fun left right => left.1.toList ≤ right.1.toList)
    (h : ProjectionExpression.repeatedName fields = none)
    : NamesAscend fields := by
  induction fields with
  | nil => exact List.Pairwise.nil
  | cons first rest ih =>
      obtain ⟨hfirst, hrest⟩ := List.pairwise_cons.mp hsorted
      cases rest with
      | nil => exact List.pairwise_singleton ..
      | cons second rest =>
          rw [ProjectionExpression.repeatedName] at h
          split at h
          · cases h
          · rename_i hne
            have hascend := ih hrest h
            have hlt : first.1.toList < second.1.toList :=
              lt_of_le_of_ne (hfirst second (List.mem_cons_self ..))
                fun hsame => hne (String.toList_inj.mp hsame)
            refine List.pairwise_cons.mpr ⟨?_, hascend⟩
            intro other hother
            rcases List.mem_cons.mp hother with rfl | hother
            · exact hlt
            · exact lt_trans hlt ((List.pairwise_cons.mp hascend).1 other hother)

theorem sortFields_ordered (fields : List (String × α))
    : (ProjectionValue.sortFields fields).Pairwise
        fun left right => left.1.toList ≤ right.1.toList := by
  refine sortBy_ordered (fun field : String × α => field.1.toList) ?_ ?_ fields
  · intro left right hlt
    simpa using hlt
  · intro left right hlt
    exact le_of_lt (by simpa using hlt)

theorem NamesAscend.nodup {fields : List (String × α)} (h : NamesAscend fields)
    : (fields.map Prod.fst).Nodup := by
  rw [List.Nodup, List.pairwise_map]
  refine h.imp ?_
  intro left right hlt hname
  rw [hname] at hlt
  exact List.lt_irrefl _ hlt

/-- Sorted names ascend strictly when none occurs twice. -/
theorem namesAscend_sortFields {fields : List (String × α)}
    : NamesAscend (ProjectionValue.sortFields fields) ↔ (fields.map Prod.fst).Nodup := by
  have hperm : ((ProjectionValue.sortFields fields).map Prod.fst).Perm (fields.map Prod.fst) :=
    (sortBy_perm _ fields).map _
  refine ⟨fun h => hperm.nodup_iff.mp h.nodup, fun h => ?_⟩
  have hnodup := hperm.nodup_iff.mpr h
  rw [List.Nodup, List.pairwise_map] at hnodup
  refine (sortFields_ordered fields).imp₂ ?_ hnodup
  intro left right hle hne
  exact lt_of_le_of_ne hle fun hsame => hne (String.toList_inj.mp hsame)

/-- Order depends on the names alone. -/
theorem NamesAscend.of_names {left : List (String × α)} {right : List (String × β)}
    (h : NamesAscend left) (hnames : right.map Prod.fst = left.map Prod.fst)
    : NamesAscend right := by
  have hleft : (left.map Prod.fst).Pairwise fun first second => first.toList < second.toList :=
    List.pairwise_map.mpr h
  rw [← hnames, List.pairwise_map] at hleft
  exact hleft

theorem mem_sortFields {field : String × α} {fields : List (String × α)}
    : field ∈ ProjectionValue.sortFields fields ↔ field ∈ fields :=
  (sortBy_perm _ fields).mem_iff

end Names

--------------------
-- Values that survive the detour through JSON
--------------------

/-- No numbers and no enums at any depth, and members in the order of their names. -/
inductive Textual : ProjectionValue → Prop
  | null : Textual .null
  | boolean (flag : Bool) : Textual (.boolean flag)
  | string (text : String) : Textual (.string text)
  | list {values : List ProjectionValue} :
      (∀ value ∈ values, Textual value) → Textual (.list values)
  | object {fields : List (String × ProjectionValue)} :
      NamesAscend fields → (∀ field ∈ fields, Textual field.2) → Textual (.object fields)

/-- No numbers at any depth, and no name twice in an object. -/
inductive TextualJson : Json → Prop
  | null : TextualJson .null
  | bool (flag : Bool) : TextualJson (.bool flag)
  | string (text : String) : TextualJson (.string text)
  | array {items : List Json} : (∀ item ∈ items, TextualJson item) → TextualJson (.array items)
  | object {fields : JsonFields} :
      (fields.map Prod.fst).Nodup → (∀ field ∈ fields, TextualJson field.2) →
        TextualJson (.object fields)

section RoundTrip

variable {floats : Floats}

theorem fromJsonItems_eq_ok_iff {items : List Json} {values : List ProjectionValue}
    : ProjectionValue.fromJsonItems floats items = .ok values
      ↔ List.Forall₂ (fun item value => ProjectionValue.fromJson floats item = .ok value)
          items values := by
  induction items generalizing values with
  | nil => simp [ProjectionValue.fromJsonItems, eq_comm]
  | cons item rest ih =>
      simp only [ProjectionValue.fromJsonItems, Result.bind_eq_ok_iff, ih,
        List.forall₂_cons_left_iff, Except.ok.injEq]
      constructor
      · rintro ⟨value, hvalue, others, hothers, rfl⟩
        exact ⟨value, others, hvalue, hothers, rfl⟩
      · rintro ⟨value, others, hvalue, hothers, rfl⟩
        exact ⟨value, hvalue, others, hothers, rfl⟩

theorem fromJsonFields_eq_ok_iff {members : JsonFields}
    {fields : List (String × ProjectionValue)}
    : ProjectionValue.fromJsonFields floats members = .ok fields
      ↔ List.Forall₂ (fun member field => field.1 = member.1
          ∧ ProjectionValue.fromJson floats member.2 = .ok field.2) members fields := by
  induction members generalizing fields with
  | nil => simp [ProjectionValue.fromJsonFields, eq_comm]
  | cons member rest ih =>
      obtain ⟨name, item⟩ := member
      simp only [ProjectionValue.fromJsonFields, Result.bind_eq_ok_iff, ih,
        List.forall₂_cons_left_iff, Except.ok.injEq]
      constructor
      · rintro ⟨value, hvalue, others, hothers, rfl⟩
        exact ⟨(name, value), others, ⟨rfl, hvalue⟩, hothers, rfl⟩
      · rintro ⟨⟨_, value⟩, others, ⟨rfl, hvalue⟩, hothers, rfl⟩
        exact ⟨value, hvalue, others, hothers, rfl⟩

theorem fromJsonFields_names {members : JsonFields} {fields : List (String × ProjectionValue)}
    (h : ProjectionValue.fromJsonFields floats members = .ok fields)
    : fields.map Prod.fst = members.map Prod.fst := by
  rw [fromJsonFields_eq_ok_iff] at h
  induction h with
  | nil => rfl
  | cons hfirst _ ih => rw [List.map_cons, List.map_cons, hfirst.1, ih]

theorem tryFloat_eq_ok {bits : UInt64} {value : ProjectionValue}
    (h : ProjectionValue.tryFloat floats bits = .ok value)
    : ∃ text, value = .f64 text := by
  unfold ProjectionValue.tryFloat at h
  generalize (if f64IsZero bits then 0 else bits) = normalized at h
  dsimp only at h
  split at h <;> cases h
  exact ⟨_, rfl⟩

theorem fromNumber_not_textual {number : JsonNumber} {value : ProjectionValue}
    (h : ProjectionValue.fromNumber floats number = .ok value)
    : ¬Textual value := by
  intro htextual
  unfold ProjectionValue.fromNumber at h
  split at h
  · cases h
    cases htextual
  · split at h
    · cases h
      cases htextual
    · obtain ⟨text, rfl⟩ := tryFloat_eq_ok h
      cases htextual

/-- The reading of JSON is textual when the JSON is. -/
theorem textual_fromJson_iff {json : Json} {value : ProjectionValue}
    (h : ProjectionValue.fromJson floats json = .ok value)
    : Textual value ↔ TextualJson json := by
  induction json using Json.inductionOn generalizing value with
  | null =>
      cases h
      exact ⟨fun _ => .null, fun _ => .null⟩
  | bool flag =>
      cases h
      exact ⟨fun _ => .bool flag, fun _ => .boolean flag⟩
  | string text =>
      cases h
      exact ⟨fun _ => .string text, fun _ => .string text⟩
  | number number =>
      rw [ProjectionValue.fromJson] at h
      exact ⟨fun htextual => absurd htextual (fromNumber_not_textual h),
        fun hjson => by cases hjson⟩
  | array items ih =>
      simp only [ProjectionValue.fromJson, Result.bind_eq_ok_iff, fromJsonItems_eq_ok_iff] at h
      obtain ⟨values, hvalues, h⟩ := h
      cases h
      constructor
      · rintro (_ | _ | _ | htextual)
        refine .array fun item hitem => ?_
        obtain ⟨value, hvalue, hread⟩ := forall₂_mem_right hvalues.flip hitem
        exact (ih item hitem hread).mp (htextual value hvalue)
      · rintro (_ | _ | _ | hjson)
        refine .list fun value hvalue => ?_
        obtain ⟨item, hitem, hread⟩ := forall₂_mem_right hvalues hvalue
        exact (ih item hitem hread).mpr (hjson item hitem)
  | object members ih =>
      simp only [ProjectionValue.fromJson, Result.bind_eq_ok_iff] at h
      obtain ⟨fields, hfields, h⟩ := h
      cases h
      have hnames := fromJsonFields_names hfields
      rw [fromJsonFields_eq_ok_iff] at hfields
      constructor
      · rintro (_ | _ | _ | _ | ⟨hascend, htextual⟩)
        refine .object (hnames ▸ namesAscend_sortFields.mp hascend) fun member hmember => ?_
        obtain ⟨field, hfield, -, hread⟩ := forall₂_mem_right hfields.flip hmember
        exact (ih member hmember hread).mp (htextual field (mem_sortFields.mpr hfield))
      · rintro (_ | _ | _ | _ | ⟨hnodup, hjson⟩)
        refine .object (namesAscend_sortFields.mpr (hnames ▸ hnodup)) fun field hfield => ?_
        obtain ⟨member, hmember, -, hread⟩ :=
          forall₂_mem_right hfields (mem_sortFields.mp hfield)
        exact (ih member hmember hread).mpr (hjson member hmember)

/-- The members have smaller names than the fields that are still to come. -/
def NamesPrecede {α : Type} (members : JsonFields) (fields : List (String × α)) : Prop :=
  ∀ member ∈ members, ∀ field ∈ fields, member.1.toList < field.1.toList

/-- The next field is inserted at the end, and precedes those after it. -/
theorem NamesPrecede.insert {α : Type} {members : JsonFields} {field : String × α}
    {rest : List (String × α)} (h : NamesPrecede members (field :: rest))
    (hascend : NamesAscend (field :: rest)) (json : Json)
    : JsonFields.insert field.1 json members = members ++ [(field.1, json)]
      ∧ NamesPrecede (members ++ [(field.1, json)]) rest := by
  refine ⟨JsonFields.insert_eq_append json
    fun member hmember => h member hmember field (List.mem_cons_self ..), ?_⟩
  intro member hmember later hlater
  rcases List.mem_append.mp hmember with hmember | hmember
  · exact h member hmember later (List.mem_cons_of_mem _ hlater)
  · rw [List.mem_singleton.mp hmember]
    exact (List.pairwise_cons.mp hascend).1 later hlater

/-- Members inserted in the order of their names are kept in that order. -/
theorem projectionFieldsToJson_eq {fields : List (String × ProjectionValue)}
    {members : JsonFields} (hfields : NamesAscend fields)
    (hmembers : NamesPrecede members fields)
    : projectionFieldsToJson fields members
      = members ++ fields.map fun field => (field.1, projectionValueToJson field.2) := by
  induction fields generalizing members with
  | nil => simp [projectionFieldsToJson]
  | cons field rest ih =>
      obtain ⟨hlast, hnext⟩ := hmembers.insert hfields (projectionValueToJson field.2)
      rw [projectionFieldsToJson, hlast, ih (List.pairwise_cons.mp hfields).2 hnext]
      simp

theorem JsonFields.mem_insert {name : String} {value : Json} {fields : JsonFields}
    {entry : String × Json} (h : entry ∈ JsonFields.insert name value fields)
    : entry = (name, value) ∨ entry ∈ fields := by
  induction fields with
  | nil => exact .inl (List.mem_singleton.mp h)
  | cons field rest ih =>
      unfold JsonFields.insert at h
      split at h
      · exact (List.mem_cons.mp h).imp_right (List.mem_cons_of_mem _)
      · split at h
        · exact List.mem_cons.mp h
        · rcases List.mem_cons.mp h with h | h
          · exact .inr (h ▸ List.mem_cons_self ..)
          · exact (ih h).imp_right (List.mem_cons_of_mem _)

theorem NamesAscend.insert {fields : JsonFields} (h : NamesAscend fields) (name : String)
    (value : Json)
    : NamesAscend (JsonFields.insert name value fields) := by
  induction fields with
  | nil => exact List.pairwise_singleton ..
  | cons field rest ih =>
      obtain ⟨hfirst, hrest⟩ := List.pairwise_cons.mp h
      unfold JsonFields.insert
      split
      · rename_i hsame
        exact List.pairwise_cons.mpr ⟨fun later hlater => hsame ▸ hfirst later hlater, hrest⟩
      · rename_i hne
        split
        · rename_i hlt
          refine List.pairwise_cons.mpr ⟨fun later hlater => ?_, h⟩
          rcases List.mem_cons.mp hlater with rfl | hlater
          · exact hlt
          · exact lt_trans hlt (hfirst later hlater)
        · rename_i hnlt
          refine List.pairwise_cons.mpr ⟨fun later hlater => ?_, ih hrest⟩
          rcases JsonFields.mem_insert hlater with rfl | hlater
          · exact lt_of_le_of_ne (not_lt.mp hnlt)
              fun hsame => hne (String.toList_inj.mp hsame).symm
          · exact hfirst later hlater

theorem projectionFieldsToJson_textual {fields : List (String × ProjectionValue)}
    (hfields : ∀ field ∈ fields, TextualJson (projectionValueToJson field.2))
    {members : JsonFields} (hascend : NamesAscend members)
    (hmembers : ∀ member ∈ members, TextualJson member.2)
    : NamesAscend (projectionFieldsToJson fields members)
      ∧ ∀ member ∈ projectionFieldsToJson fields members, TextualJson member.2 := by
  induction fields generalizing members with
  | nil => exact ⟨hascend, hmembers⟩
  | cons field rest ih =>
      obtain ⟨hfirst, hrest⟩ := List.forall_mem_cons.mp hfields
      refine ih hrest (hascend.insert ..) fun member hmember => ?_
      rcases JsonFields.mem_insert hmember with rfl | hmember
      · exact hfirst
      · exact hmembers member hmember

theorem projectionValuesToJson_eq (values : List ProjectionValue)
    : projectionValuesToJson values = values.map projectionValueToJson := by
  induction values with
  | nil => rfl
  | cons value rest ih => rw [projectionValuesToJson, ih, List.map_cons]

theorem fromJson_projectionValueToJson {value : ProjectionValue} (h : Textual value)
    : ProjectionValue.fromJson floats (projectionValueToJson value) = .ok value := by
  induction h with
  | null => rfl
  | boolean flag => rfl
  | string text => rfl
  | @list values _ ih =>
      have hitems : ProjectionValue.fromJsonItems floats (projectionValuesToJson values)
          = .ok values := by
        rw [projectionValuesToJson_eq, fromJsonItems_eq_ok_iff, List.forall₂_map_left_iff]
        exact List.forall₂_same.mpr ih
      rw [projectionValueToJson, ProjectionValue.fromJson, hitems, Result.ok_bind]
  | @object fields hascend _ ih =>
      have hfields : ProjectionValue.fromJsonFields floats
          (fields.map fun field => (field.1, projectionValueToJson field.2)) = .ok fields := by
        rw [fromJsonFields_eq_ok_iff, List.forall₂_map_left_iff]
        exact List.forall₂_same.mpr fun field hfield => ⟨rfl, ih field hfield⟩
      rw [projectionValueToJson, projectionFieldsToJson_eq hascend (by simp [NamesPrecede]), List.nil_append,
        ProjectionValue.fromJson, hfields, Result.ok_bind, sortFields_eq_self hascend]

/-- The JSON of a value spells numbers as texts. -/
theorem textualJson_projectionValueToJson (value : ProjectionValue)
    : TextualJson (projectionValueToJson value) := by
  induction value using ProjectionValue.inductionOn with
  | null => exact .null
  | boolean flag => exact .bool flag
  | list values ih =>
      rw [projectionValueToJson, projectionValuesToJson_eq]
      refine .array fun item hitem => ?_
      obtain ⟨value, hvalue, rfl⟩ := List.mem_map.mp hitem
      exact ih value hvalue
  | object fields ih =>
      rw [projectionValueToJson]
      have hempty : NamesAscend ([] : JsonFields) := List.Pairwise.nil
      have hmembers := projectionFieldsToJson_textual ih hempty (by simp)
      exact .object hmembers.1.nodup hmembers.2
  | _ => exact .string _

end RoundTrip

--------------------
-- Untyped and typed readings
--------------------

/-- JSON whose untyped reading has the declared type. -/
def ReadsAlike : ProjectionValueType → Json → Prop
  | _, .null => True
  | .boolean, _ | .u64, _ | .string, _ | .json, _ => True
  | .i64, .number number => (number.asI64?.filter (· < 0)).isSome = true
  | .f64, .number number => number.asI64?.filter (· < 0) = none ∧ number.asU64? = none
  | _, _ => False

section Readings

variable {floats : Floats} {json : Json} {typed untyped : ProjectionValue}

theorem fromNumber_negative {number : JsonNumber} {value : Int}
    (h : number.asI64?.filter (· < 0) = some value)
    : ProjectionValue.fromNumber floats number = .ok (.signed value) := by
  rw [ProjectionValue.fromNumber, h]

theorem fromNumber_unsigned {number : JsonNumber} {value : Nat} (h : number.asU64? = some value)
    : ProjectionValue.fromNumber floats number = .ok (.unsigned value) := by
  cases number with
  | posInt integer =>
      have hnot : (JsonNumber.asI64? (.posInt integer)).filter (· < 0) = none := by
        rw [Option.filter_eq_none_iff, JsonNumber.asI64?]
        intro value hvalue
        split at hvalue <;> cases hvalue
        simp
      rw [ProjectionValue.fromNumber, hnot, h]
  | _ => cases h

theorem fromNumber_float {number : JsonNumber} (hi64 : number.asI64?.filter (· < 0) = none)
    (hu64 : number.asU64? = none)
    : ProjectionValue.fromNumber floats number
      = ProjectionValue.tryFloat floats (number.asF64 floats) := by
  rw [ProjectionValue.fromNumber, hi64, hu64]

/-- A number declared signed reads alike when it is negative. -/
theorem signed_reads_alike {number : JsonNumber} {value : Int}
    (htyped : number.asI64? = some value)
    (huntyped : ProjectionValue.fromNumber floats number = .ok untyped)
    : .signed value = untyped ↔ (number.asI64?.filter (· < 0)).isSome = true := by
  cases hnegative : number.asI64?.filter (· < 0) with
  | some other =>
      obtain ⟨hother, -⟩ := Option.filter_eq_some_iff.mp hnegative
      cases hother.symm.trans htyped
      cases (fromNumber_negative hnegative).symm.trans huntyped
      simp
  | none =>
      rw [ProjectionValue.fromNumber, hnegative] at huntyped
      dsimp only at huntyped
      split at huntyped
      · cases huntyped
        simp [ProjectionValue.signed, ProjectionValue.unsigned]
      · obtain ⟨text, rfl⟩ := tryFloat_eq_ok huntyped
        simp [ProjectionValue.signed]

/-- A number declared as a float reads alike when it is no integer. -/
theorem float_reads_alike {number : JsonNumber}
    (htyped : ProjectionValue.tryFloat floats (number.asF64 floats) = .ok typed)
    (huntyped : ProjectionValue.fromNumber floats number = .ok untyped)
    : typed = untyped ↔ number.asI64?.filter (· < 0) = none ∧ number.asU64? = none := by
  obtain ⟨text, rfl⟩ := tryFloat_eq_ok htyped
  cases hnegative : number.asI64?.filter (· < 0) with
  | some value =>
      cases (fromNumber_negative hnegative).symm.trans huntyped
      simp [ProjectionValue.signed]
  | none =>
      cases hunsigned : number.asU64? with
      | some value =>
          cases (fromNumber_unsigned hunsigned).symm.trans huntyped
          simp [ProjectionValue.unsigned]
      | none =>
          rw [fromNumber_float hnegative hunsigned, htyped] at huntyped
          simp [Except.ok.inj huntyped]

theorem fromJson_of_tryFromJson (h : ProjectionValue.tryFromJson floats json = .ok untyped)
    : ProjectionValue.fromJson floats json = .ok untyped :=
  (Result.seq_eq_ok_iff.mp h).2

/-- The typed reading is the untyped one exactly where they read alike. -/
theorem tryFromTypedJson_eq_iff {valueType : ProjectionValueType}
    (htyped : ProjectionValue.tryFromTypedJson floats json valueType = .ok typed)
    (huntyped : ProjectionValue.tryFromJson floats json = .ok untyped)
    : typed = untyped ↔ ReadsAlike valueType json := by
  have hread := fromJson_of_tryFromJson huntyped
  by_cases hjson : valueType = .json
  · subst hjson
    cases json <;> (cases htyped.symm.trans huntyped; simp [ReadsAlike])
  cases json with
  | null =>
      cases hread
      cases valueType <;> (cases htyped; simp [ReadsAlike])
  | bool flag =>
      cases hread
      cases valueType with
      | boolean => cases htyped; simp [ReadsAlike]
      | json => exact absurd rfl hjson
      | _ => cases htyped
  | string text =>
      cases hread
      cases valueType with
      | string | enum name => cases htyped; simp [ReadsAlike]
      | json => exact absurd rfl hjson
      | _ => cases htyped
  | number number =>
      rw [ProjectionValue.fromJson] at hread
      cases valueType with
      | i64 =>
          cases hinteger : number.asI64? with
          | none => simp [ProjectionValue.tryFromTypedJson, hinteger] at htyped
          | some value =>
              simp only [ProjectionValue.tryFromTypedJson, hinteger, Except.ok.injEq] at htyped
              subst htyped
              exact signed_reads_alike hinteger hread
      | u64 =>
          cases hinteger : number.asU64? with
          | none => simp [ProjectionValue.tryFromTypedJson, hinteger] at htyped
          | some value =>
              simp only [ProjectionValue.tryFromTypedJson, hinteger, Except.ok.injEq] at htyped
              cases (fromNumber_unsigned hinteger).symm.trans hread
              simp [ReadsAlike, htyped]
      | f64 => exact float_reads_alike htyped hread
      | json => exact absurd rfl hjson
      | _ => cases htyped
  | array | object =>
      cases valueType with
      | json => exact absurd rfl hjson
      | _ => cases htyped

/-- A textual typed reading is the untyped one: numbers and enums alone are read anew. -/
theorem eq_of_textual_typed {valueType : ProjectionValueType}
    (htyped : ProjectionValue.tryFromTypedJson floats json valueType = .ok typed)
    (huntyped : ProjectionValue.tryFromJson floats json = .ok untyped) (htextual : Textual typed)
    : typed = untyped := by
  rw [tryFromTypedJson_eq_iff htyped huntyped]
  cases json with
  | null => trivial
  | bool | array | object => cases valueType <;> trivial
  | string text =>
      cases valueType with
      | enum name =>
          cases htyped
          cases htextual
      | _ => trivial
  | number number =>
      cases valueType with
      | i64 =>
          simp only [ProjectionValue.tryFromTypedJson] at htyped
          split at htyped <;> cases htyped
          cases htextual
      | f64 =>
          obtain ⟨text, rfl⟩ := tryFloat_eq_ok htyped
          cases htextual
      | _ => trivial

/-- After the detour through JSON the untyped reading is the typed one where they read alike and
there is no number. -/
theorem detour_eq_typed_iff {valueType : ProjectionValueType}
    (htyped : ProjectionValue.tryFromTypedJson floats json valueType = .ok typed)
    (huntyped : ProjectionValue.tryFromJson floats json = .ok untyped)
    : ProjectionValue.fromJson floats (projectionValueToJson untyped) = .ok typed
      ↔ ReadsAlike valueType json ∧ TextualJson json := by
  rw [← tryFromTypedJson_eq_iff htyped huntyped,
    ← textual_fromJson_iff (fromJson_of_tryFromJson huntyped)]
  constructor
  · intro hdetour
    have htextual := (textual_fromJson_iff hdetour).mpr (textualJson_projectionValueToJson _)
    have hsame := eq_of_textual_typed htyped huntyped htextual
    exact ⟨hsame, hsame ▸ htextual⟩
  · rintro ⟨rfl, htextual⟩
    exact fromJson_projectionValueToJson htextual

end Readings

end Distributed.Mutation
