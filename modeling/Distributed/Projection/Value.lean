import Distributed.Platform.Text

/-! Portable projection values and what an expression resolves to. -/

namespace Distributed.Projection

open Distributed.Platform

/-- `ProjectionValue`. Numbers are their decimal texts. -/
inductive ProjectionValue where
  | null
  | boolean (value : Bool)
  | i64 (text : String)
  | u64 (text : String)
  | f64 (text : String)
  | string (value : String)
  | enum (enumType variant : String)
  | list (items : List ProjectionValue)
  | object (fields : List (String × ProjectionValue))

/-- Result of evaluating a portable expression or assignment. -/
inductive ResolvedProjectionValue where
  | value (value : ProjectionValue)
  | absent
  | unset

namespace ProjectionValue

/-- Induction over the values inside a value. -/
@[elab_as_elim]
theorem inductionOn {motive : ProjectionValue → Prop} (value : ProjectionValue)
    (null : motive .null) (boolean : ∀ flag, motive (.boolean flag))
    (i64 : ∀ text, motive (.i64 text)) (u64 : ∀ text, motive (.u64 text))
    (f64 : ∀ text, motive (.f64 text)) (string : ∀ text, motive (.string text))
    (enum : ∀ enumType variant, motive (.enum enumType variant))
    (list : ∀ items, (∀ item ∈ items, motive item) → motive (.list items))
    (object : ∀ fields, (∀ field ∈ fields, motive field.2) → motive (.object fields))
    : motive value :=
  @ProjectionValue.rec motive (fun items => ∀ item ∈ items, motive item)
    (fun fields => ∀ field ∈ fields, motive field.2) (fun field => motive field.2)
    null boolean i64 u64 f64 string enum list object
    (fun _ h => by cases h) (fun _ _ hfirst hrest => List.forall_mem_cons.mpr ⟨hfirst, hrest⟩)
    (fun _ h => by cases h) (fun _ _ hfirst hrest => List.forall_mem_cons.mpr ⟨hfirst, hrest⟩)
    (fun _ _ hvalue => hvalue) value

mutual

def decEq : (left right : ProjectionValue) → Decidable (left = right)
  | .null, .null => .isTrue rfl
  | .boolean a, .boolean b => decidable_of_iff (a = b) (by simp)
  | .i64 a, .i64 b => decidable_of_iff (a = b) (by simp)
  | .u64 a, .u64 b => decidable_of_iff (a = b) (by simp)
  | .f64 a, .f64 b => decidable_of_iff (a = b) (by simp)
  | .string a, .string b => decidable_of_iff (a = b) (by simp)
  | .enum a v, .enum b w => decidable_of_iff (a = b ∧ v = w) (by simp)
  | .list a, .list b => @decidable_of_iff _ (a = b) (by simp) (decEqItems a b)
  | .object a, .object b => @decidable_of_iff _ (a = b) (by simp) (decEqFields a b)
  | .null, .boolean _ | .null, .i64 _ | .null, .u64 _ | .null, .f64 _ | .null, .string _
  | .null, .enum .. | .null, .list _ | .null, .object _
  | .boolean _, .null | .boolean _, .i64 _ | .boolean _, .u64 _ | .boolean _, .f64 _
  | .boolean _, .string _ | .boolean _, .enum .. | .boolean _, .list _
  | .boolean _, .object _
  | .i64 _, .null | .i64 _, .boolean _ | .i64 _, .u64 _ | .i64 _, .f64 _ | .i64 _, .string _
  | .i64 _, .enum .. | .i64 _, .list _ | .i64 _, .object _
  | .u64 _, .null | .u64 _, .boolean _ | .u64 _, .i64 _ | .u64 _, .f64 _ | .u64 _, .string _
  | .u64 _, .enum .. | .u64 _, .list _ | .u64 _, .object _
  | .f64 _, .null | .f64 _, .boolean _ | .f64 _, .i64 _ | .f64 _, .u64 _ | .f64 _, .string _
  | .f64 _, .enum .. | .f64 _, .list _ | .f64 _, .object _
  | .string _, .null | .string _, .boolean _ | .string _, .i64 _ | .string _, .u64 _
  | .string _, .f64 _ | .string _, .enum .. | .string _, .list _ | .string _, .object _
  | .enum .., .null | .enum .., .boolean _ | .enum .., .i64 _ | .enum .., .u64 _
  | .enum .., .f64 _ | .enum .., .string _ | .enum .., .list _ | .enum .., .object _
  | .list _, .null | .list _, .boolean _ | .list _, .i64 _ | .list _, .u64 _ | .list _, .f64 _
  | .list _, .string _ | .list _, .enum .. | .list _, .object _
  | .object _, .null | .object _, .boolean _ | .object _, .i64 _ | .object _, .u64 _
  | .object _, .f64 _ | .object _, .string _ | .object _, .enum .. | .object _, .list _ =>
      .isFalse (by simp)

def decEqItems : (left right : List ProjectionValue) → Decidable (left = right)
  | [], [] => .isTrue rfl
  | [], _ :: _ | _ :: _, [] => .isFalse (by simp)
  | a :: as, b :: bs =>
      @decidable_of_iff _ (a = b ∧ as = bs) (by simp)
        (@instDecidableAnd _ _ (decEq a b) (decEqItems as bs))

def decEqFields : (left right : List (String × ProjectionValue)) → Decidable (left = right)
  | [], [] => .isTrue rfl
  | [], _ :: _ | _ :: _, [] => .isFalse (by simp)
  | (k, a) :: as, (l, b) :: bs =>
      @decidable_of_iff _ (k = l ∧ a = b ∧ as = bs) (by simp [and_assoc])
        (@instDecidableAnd _ _ inferInstance
          (@instDecidableAnd _ _ (decEq a b) (decEqFields as bs)))

end

instance : DecidableEq ProjectionValue := decEq

end ProjectionValue

deriving instance DecidableEq for ResolvedProjectionValue

end Distributed.Projection
