import Distributed.Graphql.ProjectionDelta.Validate
import Distributed.Projection.Value

/-! How many validation calls a delta value takes.
The counted checks make the calls of the checks and answer the same.
Every object validates its fields twice, so a node is validated once for every choice of a pass
in each of the objects around it.
-/

namespace Distributed.Graphql.ProjectionDelta

open Distributed.Foundation Distributed.Platform Distributed.Projection

--------------------
-- Counted computations
--------------------

/-- An answer together with the calls that were made for it, also where it is an error. -/
structure Counted (α : Type) where
  calls : Nat
  result : Except ProjectionDeltaError α

namespace Counted

variable {α β : Type}

def ofResult (result : Except ProjectionDeltaError α) : Counted α := { calls := 0, result }

def call (inner : Counted α) : Counted α := { inner with calls := inner.calls + 1 }

def bind (first : Counted α) (next : α → Counted β) : Counted β :=
  match first.result with
  | .ok value => { next value with calls := first.calls + (next value).calls }
  | .error error => { calls := first.calls, result := .error error }

instance : Monad Counted where
  pure value := ofResult (.ok value)
  bind := bind

/-- The computation makes at most so many calls, and exactly these where it does not stop at an
error; its answer is then the given one. -/
structure Takes (work : Counted α) (answer : α) (calls : Nat) : Prop where
  le : work.calls ≤ calls
  eq : ∀ value, work.result = .ok value → value = answer ∧ work.calls = calls

namespace Takes

theorem ofResult (result : Except ProjectionDeltaError Unit)
    : (Counted.ofResult result).Takes () 0 where
  le := Nat.le_refl 0
  eq _ _ := ⟨rfl, rfl⟩

theorem pure (answer : α) : (Pure.pure answer : Counted α).Takes answer 0 where
  le := Nat.le_refl 0
  eq _ h := ⟨(Except.ok.inj h).symm, rfl⟩

theorem call {inner : Counted α} {answer : α} {calls : Nat} (h : inner.Takes answer calls)
    : inner.call.Takes answer (calls + 1) where
  le := Nat.succ_le_succ h.le
  eq value hvalue := ⟨(h.eq value hvalue).1, congrArg Nat.succ (h.eq value hvalue).2⟩

theorem bind {first : Counted α} {next : α → Counted β} {middle : α} {answer : β}
    {calls more : Nat} (hfirst : first.Takes middle calls) (hnext : (next middle).Takes answer more)
    : (first >>= next).Takes answer (calls + more) := by
  change (Counted.bind first next).Takes answer (calls + more)
  unfold Counted.bind
  cases hresult : first.result with
  | error error =>
      exact ⟨Nat.le_trans hfirst.le (Nat.le_add_right _ _), fun value hvalue => by cases hvalue⟩
  | ok value =>
      obtain ⟨rfl, hcalls⟩ := hfirst.eq value hresult
      refine ⟨Nat.add_le_add hfirst.le hnext.le, fun final hfinal => ?_⟩
      obtain ⟨hanswer, hmore⟩ := hnext.eq final hfinal
      exact ⟨hanswer, congrArg₂ (· + ·) hcalls hmore⟩

/-- A check makes no calls. -/
theorem after {check : Except ProjectionDeltaError Unit} {next : Counted β} {answer : β}
    {calls : Nat} (h : next.Takes answer calls)
    : (do Counted.ofResult check; next).Takes answer calls := by
  have hbind : (do Counted.ofResult check; next).Takes answer (0 + calls) :=
    (ofResult check).bind h
  rwa [Nat.zero_add] at hbind

theorem returns {first : Counted α} {middle : α} {calls : Nat} (h : first.Takes middle calls)
    (change : α → β)
    : (do let value ← first; Pure.pure (change value)).Takes (change middle) calls := by
  rw [← Nat.add_zero calls]
  exact h.bind (.pure (change middle))

end Takes

end Counted

--------------------
-- Counted validation
--------------------

section Work

variable (floats : Floats)

/-- The call for a value with no values inside. -/
def DeltaValue.leafCounted (depth : Nat) (value : DeltaValue) : Counted Unit :=
  (Counted.ofResult (value.validateAtDepth floats depth)).call

mutual

/-- `validate_at_depth`, with the calls of itself. -/
def DeltaValue.validateCounted (depth : Nat) : DeltaValue → Counted Unit
  | .list items => Counted.call do
      Counted.ofResult (validateDepth depth)
      validateItemsCounted (depth + 1) items
  | .object fields => Counted.call do
      Counted.ofResult (validateDepth depth)
      validateEachFieldCounted fields
      Counted.ofResult (validateFieldOrder fields)
      validateFieldValuesCounted (depth + 1) fields
  | .null => DeltaValue.leafCounted floats depth .null
  | .boolean flag => DeltaValue.leafCounted floats depth (.boolean flag)
  | .i64 text => DeltaValue.leafCounted floats depth (.i64 text)
  | .u64 text => DeltaValue.leafCounted floats depth (.u64 text)
  | .f64 text => DeltaValue.leafCounted floats depth (.f64 text)
  | .string text => DeltaValue.leafCounted floats depth (.string text)
  | .enum enumType variant => DeltaValue.leafCounted floats depth (.enum enumType variant)

def validateItemsCounted (depth : Nat) : List DeltaValue → Counted Unit
  | [] => Counted.ofResult (.ok ())
  | item :: rest => do
      item.validateCounted depth
      validateItemsCounted depth rest

/-- The loop of `validate_fields`: every value from depth 1 on. -/
def validateEachFieldCounted : List (String × DeltaValue) → Counted Unit
  | [] => Counted.ofResult (.ok ())
  | (field, value) :: rest => do
      Counted.ofResult (validateIdentity "field" field)
      value.validateCounted 1
      validateEachFieldCounted rest

def validateFieldValuesCounted (depth : Nat) : List (String × DeltaValue) → Counted Unit
  | [] => Counted.ofResult (.ok ())
  | (_, value) :: rest => do
      value.validateCounted depth
      validateFieldValuesCounted depth rest

end

mutual

def DeltaValue.nodes : DeltaValue → Nat
  | .list items => 1 + itemsNodes items
  | .object fields => 1 + fieldsNodes fields
  | _ => 1

def itemsNodes : List DeltaValue → Nat
  | [] => 0
  | item :: rest => item.nodes + itemsNodes rest

def fieldsNodes : List (String × DeltaValue) → Nat
  | [] => 0
  | (_, value) :: rest => value.nodes + fieldsNodes rest

end

mutual

/-- Every node counts `weight`, and inside each object twice as much. -/
def DeltaValue.work (weight : Nat) : DeltaValue → Nat
  | .list items => weight + itemsWork weight items
  | .object fields => weight + fieldsWork (2 * weight) fields
  | _ => weight

def itemsWork (weight : Nat) : List DeltaValue → Nat
  | [] => 0
  | item :: rest => item.work weight + itemsWork weight rest

def fieldsWork (weight : Nat) : List (String × DeltaValue) → Nat
  | [] => 0
  | (_, value) :: rest => value.work weight + fieldsWork weight rest

end

mutual

/-- The work of every value inside the value and of the value itself. -/
def DeltaValue.conversionWork : DeltaValue → Nat
  | .list items => itemsConversionWork items + (DeltaValue.list items).work 1
  | .object fields => fieldsConversionWork fields + (DeltaValue.object fields).work 1
  | _ => 1

def itemsConversionWork : List DeltaValue → Nat
  | [] => 0
  | item :: rest => item.conversionWork + itemsConversionWork rest

def fieldsConversionWork : List (String × DeltaValue) → Nat
  | [] => 0
  | (_, value) :: rest => value.conversionWork + fieldsConversionWork rest

end

section TakesWork

variable {floats}

end TakesWork

/-- A converted value is validated before it is returned. -/
def DeltaValue.validated (value : DeltaValue) : Counted DeltaValue := do
  value.validateCounted floats 1
  pure value

mutual

/-- `DeltaValue::try_from_projection_ref`, with its calls of `validate_at_depth`: every part is
validated on its own, and then the whole. -/
def DeltaValue.tryFromProjectionRef : ProjectionValue → Counted DeltaValue
  | .null => DeltaValue.validated floats .null
  | .boolean flag => DeltaValue.validated floats (.boolean flag)
  | .i64 text => DeltaValue.validated floats (.i64 text)
  | .u64 text => DeltaValue.validated floats (.u64 text)
  | .f64 text => DeltaValue.validated floats (.f64 text)
  | .string text => DeltaValue.validated floats (.string text)
  | .enum enumType variant => DeltaValue.validated floats (.enum enumType variant)
  | .list items => do
      let items ← tryFromItems items
      DeltaValue.validated floats (.list items)
  | .object fields => do
      let fields ← tryFromFields fields
      DeltaValue.validated floats (.object fields)

def tryFromItems : List ProjectionValue → Counted (List DeltaValue)
  | [] => pure []
  | item :: rest => do
      let item ← DeltaValue.tryFromProjectionRef item
      let rest ← tryFromItems rest
      pure (item :: rest)

def tryFromFields : List (String × ProjectionValue) → Counted (List DeltaField)
  | [] => pure []
  | (name, value) :: rest => do
      let value ← DeltaValue.tryFromProjectionRef value
      let rest ← tryFromFields rest
      pure ((name, value) :: rest)

end

mutual

/-- The value that the conversion copies. -/
def DeltaValue.copyOf : ProjectionValue → DeltaValue
  | .null => .null
  | .boolean flag => .boolean flag
  | .i64 text => .i64 text
  | .u64 text => .u64 text
  | .f64 text => .f64 text
  | .string text => .string text
  | .enum enumType variant => .enum enumType variant
  | .list items => .list (copyItems items)
  | .object fields => .object (copyFields fields)

def copyItems : List ProjectionValue → List DeltaValue
  | [] => []
  | item :: rest => DeltaValue.copyOf item :: copyItems rest

def copyFields : List (String × ProjectionValue) → List DeltaField
  | [] => []
  | (name, value) :: rest => (name, DeltaValue.copyOf value) :: copyFields rest

end

section ConvertsWithWork

variable {floats}

end ConvertsWithWork

end Work

end Distributed.Graphql.ProjectionDelta
