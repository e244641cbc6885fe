import Distributed.Foundation.PrefixCodes
import Distributed.Platform.Utf8
import Mathlib.Data.List.Lex
import Mathlib.Data.String.Basic
import Mathlib.Order.Lattice

/-! Mutations of a projection delta, `projection_delta/types.rs`.
Scopes are ordered as the derived `Ord` instances order them: variants in the order of their
declaration, fields and items one after the other. Each type is spelled as a list of numbers
whose lexicographic order is that order.
-/

namespace Distributed.Graphql.ProjectionDelta

open Distributed.Foundation Distributed.Platform

/-- `DeltaValue`; numbers are their decimal texts. -/
inductive DeltaValue where
  | null
  | boolean (value : Bool)
  | i64 (text : String)
  | u64 (text : String)
  | f64 (text : String)
  | string (value : String)
  | enum (enumType variant : String)
  | list (items : List DeltaValue)
  | object (fields : List (String × DeltaValue))

/-- Induction over the values inside a value. -/
@[elab_as_elim]
theorem DeltaValue.inductionOn {motive : DeltaValue → Prop} (value : DeltaValue)
    (null : motive .null) (boolean : ∀ flag, motive (.boolean flag))
    (i64 : ∀ text, motive (.i64 text)) (u64 : ∀ text, motive (.u64 text))
    (f64 : ∀ text, motive (.f64 text)) (string : ∀ text, motive (.string text))
    (enum : ∀ enumType variant, motive (.enum enumType variant))
    (list : ∀ items, (∀ item ∈ items, motive item) → motive (.list items))
    (object : ∀ fields, (∀ field ∈ fields, motive field.2) → motive (.object fields))
    : motive value :=
  @DeltaValue.rec motive (fun items => ∀ item ∈ items, motive item)
    (fun fields => ∀ field ∈ fields, motive field.2) (fun field => motive field.2)
    null boolean i64 u64 f64 string enum list object
    (List.forall_mem_nil _) (fun _ _ hfirst hrest => List.forall_mem_cons.mpr ⟨hfirst, hrest⟩)
    (List.forall_mem_nil _) (fun _ _ hfirst hrest => List.forall_mem_cons.mpr ⟨hfirst, hrest⟩)
    (fun _ _ hvalue => hvalue) value

/-- `DeltaField`: a field and its value. -/
abbrev DeltaField : Type := String × DeltaValue

/-- A text, by its bytes; a shorter one comes before its extensions. -/
def textCode (value : String) : List Nat := (utf8Bytes value).map (fun b => b.toNat + 1) ++ [0]

theorem textCode_readsOff {value other : String} {rest others : List Nat}
    (h : textCode value ++ rest = textCode other ++ others)
    : value = other ∧ rest = others := by
  have hpositive (text : String) : 0 ∉ (utf8Bytes text).map fun b => b.toNat + 1 := by simp
  rw [textCode, textCode, List.append_assoc, List.append_assoc] at h
  obtain ⟨hbytes, hrest⟩ := delimited_inj (hpositive value) (hpositive other) h
  have hinj : Function.Injective fun b : UInt8 => b.toNat + 1 := fun a b hab =>
    UInt8.toNat_inj.mp (Nat.succ.inj hab)
  exact ⟨utf8Bytes_injective (List.map_injective_iff.mpr hinj hbytes), hrest⟩

mutual

def DeltaValue.code : DeltaValue → List Nat
  | .null => [0]
  | .boolean value => [1, value.toNat]
  | .i64 text => 2 :: textCode text
  | .u64 text => 3 :: textCode text
  | .f64 text => 4 :: textCode text
  | .string value => 5 :: textCode value
  | .enum enumType variant => 6 :: (textCode enumType ++ textCode variant)
  | .list items => 7 :: itemsCode items
  | .object fields => 8 :: fieldsCode fields

/-- Items one after the other; the end of the list comes before any further item. -/
def itemsCode : List DeltaValue → List Nat
  | [] => [0]
  | item :: rest => 1 :: (item.code ++ itemsCode rest)

def fieldsCode : List (String × DeltaValue) → List Nat
  | [] => [0]
  | (field, value) :: rest => 1 :: (textCode field ++ (value.code ++ fieldsCode rest))

end

mutual

theorem DeltaValue.code_readsOff (value other : DeltaValue) (rest others : List Nat)
    (h : value.code ++ rest = other.code ++ others)
    : value = other ∧ rest = others := by
  cases value <;> cases other <;>
    simp only [DeltaValue.code, List.cons_append, List.nil_append, List.append_assoc,
      List.cons.injEq, true_and, reduceCtorEq, Nat.reduceEqDiff, false_and] at h
  case null.null => exact ⟨rfl, h⟩
  case boolean.boolean value other =>
    obtain ⟨hvalue, hrest⟩ := h
    cases value <;> cases other <;> first | exact ⟨rfl, hrest⟩ | cases hvalue
  case i64.i64 | u64.u64 | f64.f64 | string.string =>
    obtain ⟨rfl, hrest⟩ := textCode_readsOff h
    exact ⟨rfl, hrest⟩
  case enum.enum =>
    obtain ⟨rfl, hvariant⟩ := textCode_readsOff h
    obtain ⟨rfl, hrest⟩ := textCode_readsOff hvariant
    exact ⟨rfl, hrest⟩
  case list.list items images =>
    obtain ⟨rfl, hrest⟩ := itemsCode_readsOff items images rest others h
    exact ⟨rfl, hrest⟩
  case object.object fields images =>
    obtain ⟨rfl, hrest⟩ := fieldsCode_readsOff fields images rest others h
    exact ⟨rfl, hrest⟩

theorem itemsCode_readsOff (items images : List DeltaValue) (rest others : List Nat)
    (h : itemsCode items ++ rest = itemsCode images ++ others)
    : items = images ∧ rest = others := by
  cases items with
  | nil =>
      cases images with
      | nil => exact ⟨rfl, by simpa [itemsCode] using h⟩
      | cons image images => simp [itemsCode] at h
  | cons item items =>
      cases images with
      | nil => simp [itemsCode] at h
      | cons image images =>
          simp only [itemsCode, List.cons_append, List.append_assoc, List.cons.injEq,
            true_and] at h
          obtain ⟨rfl, htail⟩ := DeltaValue.code_readsOff item image _ _ h
          obtain ⟨rfl, hrest⟩ := itemsCode_readsOff items images _ _ htail
          exact ⟨rfl, hrest⟩

theorem fieldsCode_readsOff (fields images : List (String × DeltaValue))
    (rest others : List Nat) (h : fieldsCode fields ++ rest = fieldsCode images ++ others)
    : fields = images ∧ rest = others := by
  cases fields with
  | nil =>
      cases images with
      | nil => exact ⟨rfl, by simpa [fieldsCode] using h⟩
      | cons image images => simp [fieldsCode] at h
  | cons field fields =>
      cases images with
      | nil => simp [fieldsCode] at h
      | cons image images =>
          obtain ⟨name, value⟩ := field
          obtain ⟨other, otherValue⟩ := image
          simp only [fieldsCode, List.cons_append, List.append_assoc, List.cons.injEq,
            true_and] at h
          obtain ⟨rfl, hvalue⟩ := textCode_readsOff h
          obtain ⟨rfl, htail⟩ := DeltaValue.code_readsOff value otherValue _ _ hvalue
          obtain ⟨rfl, hrest⟩ := fieldsCode_readsOff fields images _ _ htail
          exact ⟨rfl, hrest⟩

end

theorem DeltaValue.code_injective : Function.Injective DeltaValue.code := fun value other h =>
  (DeltaValue.code_readsOff value other [] [] (by rw [h])).1

instance : DecidableEq DeltaValue := fun value other =>
  decidable_of_iff (value.code = other.code) DeltaValue.code_injective.eq_iff

inductive ProjectionDeltaPartition where
  | unit
  | opaqueToken (token : String)
deriving DecidableEq

structure DeltaKeyField where
  ordinal : Nat
  field : String
  value : DeltaValue
deriving DecidableEq

structure ProjectionDeltaScope where
  partition : ProjectionDeltaPartition
  model : String
  key : List DeltaKeyField
deriving DecidableEq

inductive OperationScope where
  | record (scope : ProjectionDeltaScope)
  | edge (name : String) (source target : ProjectionDeltaScope)
  | model (partition : Option ProjectionDeltaPartition) (name : String)
  | relationship (name : String) (source : ProjectionDeltaScope)
deriving DecidableEq

def ProjectionDeltaPartition.code : ProjectionDeltaPartition → List Nat
  | .unit => [0]
  | .opaqueToken token => 1 :: textCode token

def keyCode : List DeltaKeyField → List Nat
  | [] => [0]
  | field :: rest =>
      1 :: field.ordinal :: (textCode field.field ++ (field.value.code ++ keyCode rest))

def ProjectionDeltaScope.code (scope : ProjectionDeltaScope) : List Nat :=
  scope.partition.code ++ (textCode scope.model ++ keyCode scope.key)

def OperationScope.code : OperationScope → List Nat
  | .record scope => 0 :: scope.code
  | .edge name source target => 1 :: (textCode name ++ (source.code ++ target.code))
  | .model none name => 2 :: 0 :: textCode name
  | .model (some partition) name => 2 :: 1 :: (partition.code ++ textCode name)
  | .relationship name source => 3 :: (textCode name ++ source.code)

theorem ProjectionDeltaPartition.code_readsOff {partition other : ProjectionDeltaPartition}
    {rest others : List Nat} (h : partition.code ++ rest = other.code ++ others)
    : partition = other ∧ rest = others := by
  cases partition <;> cases other <;>
    simp only [ProjectionDeltaPartition.code, List.cons_append, List.nil_append,
      List.cons.injEq, true_and, reduceCtorEq, false_and] at h
  case unit.unit => exact ⟨rfl, h⟩
  case opaqueToken.opaqueToken =>
    obtain ⟨rfl, hrest⟩ := textCode_readsOff h
    exact ⟨rfl, hrest⟩

theorem keyCode_readsOff {key other : List DeltaKeyField} {rest others : List Nat}
    (h : keyCode key ++ rest = keyCode other ++ others)
    : key = other ∧ rest = others := by
  induction key generalizing other with
  | nil =>
      cases other with
      | nil => exact ⟨rfl, by simpa [keyCode] using h⟩
      | cons image images => simp [keyCode] at h
  | cons field fields ih =>
      cases other with
      | nil => simp [keyCode] at h
      | cons image images =>
          obtain ⟨ordinal, name, value⟩ := field
          obtain ⟨ordinal', name', value'⟩ := image
          simp only [keyCode, List.cons_append, List.append_assoc, List.cons.injEq,
            true_and] at h
          obtain ⟨rfl, hname⟩ := h
          obtain ⟨rfl, hvalue⟩ := textCode_readsOff hname
          obtain ⟨rfl, htail⟩ := DeltaValue.code_readsOff value value' _ _ hvalue
          obtain ⟨rfl, hrest⟩ := ih htail
          exact ⟨rfl, hrest⟩

theorem ProjectionDeltaScope.code_readsOff {scope other : ProjectionDeltaScope}
    {rest others : List Nat} (h : scope.code ++ rest = other.code ++ others)
    : scope = other ∧ rest = others := by
  obtain ⟨partition, model, key⟩ := scope
  obtain ⟨partition', model', key'⟩ := other
  simp only [ProjectionDeltaScope.code, List.append_assoc] at h
  obtain ⟨rfl, hmodel⟩ := ProjectionDeltaPartition.code_readsOff h
  obtain ⟨rfl, hkey⟩ := textCode_readsOff hmodel
  obtain ⟨rfl, hrest⟩ := keyCode_readsOff hkey
  exact ⟨rfl, hrest⟩

theorem textCode_injective : Function.Injective textCode := fun value other h => by
  have hends : textCode value ++ [] = textCode other ++ [] := by rw [h]
  exact (textCode_readsOff hends).1

theorem ProjectionDeltaScope.code_injective : Function.Injective ProjectionDeltaScope.code :=
  fun scope other h => by
    have hends : scope.code ++ [] = other.code ++ [] := by rw [h]
    exact (ProjectionDeltaScope.code_readsOff hends).1

theorem OperationScope.code_injective : Function.Injective OperationScope.code := by
  intro scope other h
  cases scope with
  | record scope =>
      cases other with
      | record other => rw [ProjectionDeltaScope.code_injective (List.cons.inj h).2]
      | model partition => cases partition <;> simp [OperationScope.code] at h
      | edge | relationship => simp [OperationScope.code] at h
  | edge name source target =>
      cases other with
      | edge other source' target' =>
          obtain ⟨rfl, hscopes⟩ := textCode_readsOff (List.cons.inj h).2
          obtain ⟨rfl, htarget⟩ := ProjectionDeltaScope.code_readsOff hscopes
          rw [ProjectionDeltaScope.code_injective htarget]
      | model partition => cases partition <;> simp [OperationScope.code] at h
      | record | relationship => simp [OperationScope.code] at h
  | model partition name =>
      cases other with
      | model partition' other =>
          cases partition with
          | none =>
              cases partition' with
              | none => rw [textCode_injective (List.cons.inj (List.cons.inj h).2).2]
              | some partition' => simp [OperationScope.code] at h
          | some partition =>
              cases partition' with
              | none => simp [OperationScope.code] at h
              | some partition' =>
                  obtain ⟨rfl, hname⟩ := ProjectionDeltaPartition.code_readsOff
                    (List.cons.inj (List.cons.inj h).2).2
                  rw [textCode_injective hname]
      | record | edge | relationship => cases partition <;> simp [OperationScope.code] at h
  | relationship name source =>
      cases other with
      | relationship other source' =>
          obtain ⟨rfl, hsource⟩ := textCode_readsOff (List.cons.inj h).2
          rw [ProjectionDeltaScope.code_injective hsource]
      | model partition => cases partition <;> simp [OperationScope.code] at h
      | record | edge => simp [OperationScope.code] at h

instance : LinearOrder OperationScope :=
  LinearOrder.lift' OperationScope.code OperationScope.code_injective

inductive ProjectionDeltaMutation where
  | upsert (scope : ProjectionDeltaScope) (fields : List DeltaField) (replace : List String)
  | patch (scope : ProjectionDeltaScope) (set : List DeltaField) (unset : List String)
      (ifPresent : Bool)
  | delete (scope : ProjectionDeltaScope)
  | link (relationship : String) (source target : ProjectionDeltaScope)
  | unlink (relationship : String) (source target : ProjectionDeltaScope)
  | invalidateModel (partition : Option ProjectionDeltaPartition) (model : String)
  | invalidateRelationship (relationship : String) (source : ProjectionDeltaScope)
deriving DecidableEq

structure ProjectionDeltaOperation where
  occurrenceOrdinal : Nat
  projectionRefs : List Nat
  mutation : ProjectionDeltaMutation
deriving DecidableEq

def ProjectionDeltaMutation.canonicalScope : ProjectionDeltaMutation → OperationScope
  | .upsert scope _ _ | .patch scope _ _ _ | .delete scope => .record scope
  | .link relationship source target | .unlink relationship source target =>
      .edge relationship source target
  | .invalidateModel partition model => .model partition model
  | .invalidateRelationship relationship source => .relationship relationship source

def ProjectionDeltaOperation.canonicalScope (operation : ProjectionDeltaOperation)
    : OperationScope :=
  operation.mutation.canonicalScope

/-- `canonical_order` as a comparison: by scope, then by ordinal. -/
def ProjectionDeltaOperation.canonicalLess (operation other : ProjectionDeltaOperation)
    : Bool :=
  operation.canonicalScope < other.canonicalScope
    || (operation.canonicalScope = other.canonicalScope
      && operation.occurrenceOrdinal < other.occurrenceOrdinal)

/-- `ProjectionDeltaError`, without the failures that only replay and decoding answer. -/
inductive ProjectionDeltaError where
  | unsupportedVersion (actual : Nat)
  | unsupportedClientVersion (field : String) (actual : Nat)
  | unsupportedExecutableVersion (field : String) (actual : Nat)
  | invalidIdentity (field : String)
  | tooManyOperations (len max : Nat)
  | tooManyProjections (len max : Nat)
  | tooManyOccurrences (len max : Nat)
  | tooManyRecoveries (len max : Nat)
  | bodyTooLarge (len max : Nat)
  | valueTooDeep (depth max : Nat)
  | invalidNumber
  | keyTooLarge (len max : Nat)
  | partitionTooLarge (len max : Nat)
  | duplicateScope
  | nonCanonicalOrder (field : String)
  | invalidOperation (message : String)
  | ineligibleBinding
  | projectionIdentityMismatch
  | authorizationMapping
deriving DecidableEq

end Distributed.Graphql.ProjectionDelta
