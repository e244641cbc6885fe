import Mathlib.Algebra.Group.Nat.Defs
import Mathlib.Data.List.Basic

/-! `serde_json::Value`.
Objects are kept sorted by key, as the crate's default `BTreeMap` representation is, so
that structural equality is the crate's equality of values up to the sign of a zero.
-/

namespace Distributed.Platform

/-- `serde_json::Number`: an unsigned, a negative or a floating-point literal. Floats are
their IEEE bits and never NaN or infinite. -/
inductive JsonNumber where
  | posInt (value : Nat)
  | negInt (value : Int)
  | float (bits : UInt64)
deriving DecidableEq

inductive Json where
  | null
  | bool (value : Bool)
  | number (value : JsonNumber)
  | string (value : String)
  | array (items : List Json)
  | object (fields : List (String × Json))

abbrev JsonFields : Type := List (String × Json)

/-- Induction over the values inside a value. -/
@[elab_as_elim]
theorem Json.inductionOn {motive : Json → Prop} (value : Json) (null : motive .null)
    (bool : ∀ flag, motive (.bool flag)) (number : ∀ number, motive (.number number))
    (string : ∀ text, motive (.string text))
    (array : ∀ items, (∀ item ∈ items, motive item) → motive (.array items))
    (object : ∀ fields, (∀ field ∈ fields, motive field.2) → motive (.object fields))
    : motive value :=
  @Json.rec motive (fun items => ∀ item ∈ items, motive item)
    (fun fields => ∀ field ∈ fields, motive field.2) (fun field => motive field.2)
    null bool number string array object
    (List.forall_mem_nil _) (fun _ _ hfirst hrest => List.forall_mem_cons.mpr ⟨hfirst, hrest⟩)
    (List.forall_mem_nil _) (fun _ _ hfirst hrest => List.forall_mem_cons.mpr ⟨hfirst, hrest⟩)
    (fun _ _ hvalue => hvalue) value

mutual

def Json.decEq : (left right : Json) → Decidable (left = right)
  | .null, .null => .isTrue rfl
  | .bool a, .bool b => decidable_of_iff (a = b) (by simp)
  | .number a, .number b => decidable_of_iff (a = b) (by simp)
  | .string a, .string b => decidable_of_iff (a = b) (by simp)
  | .array a, .array b =>
      @decidable_of_iff _ (a = b) (by simp) (Json.decEqItems a b)
  | .object a, .object b =>
      @decidable_of_iff _ (a = b) (by simp) (Json.decEqFields a b)
  | .null, .bool _ | .null, .number _ | .null, .string _ | .null, .array _
  | .null, .object _ | .bool _, .null | .bool _, .number _ | .bool _, .string _
  | .bool _, .array _ | .bool _, .object _ | .number _, .null | .number _, .bool _
  | .number _, .string _ | .number _, .array _ | .number _, .object _
  | .string _, .null | .string _, .bool _ | .string _, .number _
  | .string _, .array _ | .string _, .object _ | .array _, .null | .array _, .bool _
  | .array _, .number _ | .array _, .string _ | .array _, .object _
  | .object _, .null | .object _, .bool _ | .object _, .number _
  | .object _, .string _ | .object _, .array _ => .isFalse (by simp)

def Json.decEqItems : (left right : List Json) → Decidable (left = right)
  | [], [] => .isTrue rfl
  | [], _ :: _ | _ :: _, [] => .isFalse (by simp)
  | a :: as, b :: bs =>
      @decidable_of_iff _ (a = b ∧ as = bs) (by simp)
        (@instDecidableAnd _ _ (Json.decEq a b) (Json.decEqItems as bs))

def Json.decEqFields : (left right : List (String × Json)) → Decidable (left = right)
  | [], [] => .isTrue rfl
  | [], _ :: _ | _ :: _, [] => .isFalse (by simp)
  | (k, a) :: as, (l, b) :: bs =>
      @decidable_of_iff _ (k = l ∧ a = b ∧ as = bs) (by simp [and_assoc])
        (@instDecidableAnd _ _ (inferInstance)
          (@instDecidableAnd _ _ (Json.decEq a b) (Json.decEqFields as bs)))

end

instance : DecidableEq Json := Json.decEq

/-- One of the two zeros, given by its bits. -/
def isZeroFloat (bits : UInt64) : Bool := bits.toNat % 2 ^ 63 = 0

mutual

/-- The crate's equality of values, for which the two zeros are equal. -/
def Json.same : Json → Json → Bool
  | .number (.float left), .number (.float right) =>
      left = right || (isZeroFloat left && isZeroFloat right)
  | .array left, .array right => Json.sameItems left right
  | .object left, .object right => Json.sameFields left right
  | left, right => left = right

def Json.sameItems : List Json → List Json → Bool
  | [], [] => true
  | left :: lefts, right :: rights => Json.same left right && Json.sameItems lefts rights
  | _, _ => false

def Json.sameFields : List (String × Json) → List (String × Json) → Bool
  | [], [] => true
  | (name, left) :: lefts, (other, right) :: rights =>
      name = other && Json.same left right && Json.sameFields lefts rights
  | _, _ => false

end

def Json.asU64? : Json → Option Nat
  | .number (.posInt value) => some value
  | _ => none

def Json.asStr? : Json → Option String
  | .string value => some value
  | _ => none

def Json.ofNat (value : Nat) : Json := .number (.posInt value)

/-- `Map::insert`: replace the value of a present key, or add it at its sorted place. The
order of UTF-8 texts is the order of their characters. -/
def JsonFields.insert (key : String) (value : Json) : JsonFields → JsonFields
  | [] => [(key, value)]
  | (other, old) :: rest =>
      if key = other then (key, value) :: rest
      else if key.toList < other.toList then (key, value) :: (other, old) :: rest
      else (other, old) :: JsonFields.insert key value rest

def JsonFields.get? (key : String) : JsonFields → Option Json
  | [] => none
  | (other, value) :: rest => if key = other then some value else get? key rest

theorem JsonFields.get?_insert (key other : String) (value : Json) (fields : JsonFields)
    : get? other (insert key value fields)
      = if other = key then some value else get? other fields := by
  induction fields with
  | nil => rfl
  | cons field rest ih =>
      obtain ⟨name, old⟩ := field
      unfold insert
      split
      · rename_i hkey
        subst hkey
        by_cases hother : other = key <;> simp [get?, hother]
      · split
        · simp [get?]
        · rename_i hne _
          by_cases hother : other = name
          · subst hother
            simp [get?, Ne.symm hne]
          · simp [get?, hother, ih]

/-- A key past every other is added at the end. -/
theorem JsonFields.insert_eq_append {key : String} (value : Json) {fields : JsonFields}
    (h : ∀ field ∈ fields, field.1.toList < key.toList)
    : insert key value fields = fields ++ [(key, value)] := by
  induction fields with
  | nil => rfl
  | cons field rest ih =>
      obtain ⟨name, old⟩ := field
      have hlt : name.toList < key.toList := h (name, old) (List.mem_cons_self ..)
      have hne : key ≠ name := by
        rintro rfl
        exact List.lt_irrefl _ hlt
      have hnlt : ¬ key.toList < name.toList := List.lt_asymm hlt
      rw [insert, if_neg hne, if_neg hnlt, List.cons_append,
        ih fun other hother => h other (List.mem_cons_of_mem _ hother)]

/-- `Map::remove`, which also returns the removed value. -/
def JsonFields.remove (key : String) (fields : JsonFields) : Option Json × JsonFields :=
  (fields.get? key, fields.filter fun field => field.1 ≠ key)

/-- The object with the given fields, whatever their order. -/
def Json.ofFields (fields : JsonFields) : Json :=
  .object (fields.foldl (fun object field => JsonFields.insert field.1 field.2 object) [])

structure Floats where
  /-- `value as f64` of an integer. -/
  ofInt : Int → UInt64
  /-- The text of `serde_json::Number::from_f64` for a finite value. -/
  toText : UInt64 → String
  /-- `str::parse::<f64>`. -/
  parse : String → Option UInt64

/-- Conversions for a run that meets no float. -/
def unusedFloats : Floats where
  ofInt _ := 0
  toText _ := ""
  parse _ := none

/-- `f64::is_finite`: the exponent is not all ones. -/
def f64IsFinite (bits : UInt64) : Bool := bits.toNat / 2 ^ 52 % 2 ^ 11 ≠ 2 ^ 11 - 1

/-- `value == 0.0`, of either sign. -/
def f64IsZero (bits : UInt64) : Bool := bits.toNat % 2 ^ 63 = 0

namespace JsonNumber

/-- `Number::as_i64`. -/
def asI64? : JsonNumber → Option Int
  | .posInt value => if value < 2 ^ 63 then some value else none
  | .negInt value => some value
  | .float _ => none

/-- `Number::as_u64`. -/
def asU64? : JsonNumber → Option Nat
  | .posInt value => some value
  | .negInt _ | .float _ => none

/-- `Number::as_f64`. -/
def asF64 (floats : Floats) : JsonNumber → UInt64
  | .posInt value => floats.ofInt value
  | .negInt value => floats.ofInt value
  | .float bits => bits

end JsonNumber

end Distributed.Platform

namespace Distributed.Platform.Serde

def asObject : Json → Except String JsonFields
  | .object fields => .ok fields
  | _ => .error "invalid type: expected a map"

def asArray : Json → Except String (List Json)
  | .array items => .ok items
  | _ => .error "invalid type: expected a sequence"

def asString : Json → Except String String
  | .string value => .ok value
  | _ => .error "invalid type: expected a string"

def asBool : Json → Except String Bool
  | .bool value => .ok value
  | _ => .error "invalid type: expected a boolean"

/-- An unsigned integer of `bits` bits. -/
def asUnsigned (bits : Nat) : Json → Except String { value : Nat // value < 2 ^ bits }
  | .number (.posInt value) =>
      if h : value < 2 ^ bits then .ok ⟨value, h⟩
      else .error s!"invalid value: integer `{value}`"
  | _ => .error "invalid type: expected an unsigned integer"

theorem asUnsigned_ofNat {bits value : Nat} (h : value < 2 ^ bits)
    : asUnsigned bits (.ofNat value) = .ok ⟨value, h⟩ :=
  dif_pos h

/-- `Option<T>`: absent and `null` are both `None`. -/
def asOption {α : Type} (read : Json → Except String α)
    : Option Json → Except String (Option α)
  | none | some .null => .ok none
  | some value => do
      let inner ← read value
      .ok (some inner)

def required (fields : JsonFields) (name : String) : Except String Json :=
  match fields.get? name with
  | some value => .ok value
  | none => .error s!"missing field `{name}`"

/-- `#[serde(deny_unknown_fields)]`. -/
def denyUnknown (fields : JsonFields) (known : List String) : Except String Unit :=
  match fields.find? fun field => field.1 ∉ known with
  | some field => .error s!"unknown field `{field.1}`"
  | none => .ok ()

def ofOption {α : Type} (write : α → Json) : Option α → Json
  | some value => write value
  | none => .null

end Distributed.Platform.Serde
