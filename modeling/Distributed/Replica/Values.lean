import Distributed.Foundation.Map
import Distributed.Foundation.Result
import Distributed.Platform.JsText
import Mathlib.Data.Rat.Defs

/-! Values of the browser replica.
A number is its finite value, so that the two zeros JavaScript's comparisons identify are
one. An object is its own properties, each name once.
-/

namespace Distributed.Replica

open Distributed.Foundation Distributed.Platform

inductive ReplicaValue where
  | null
  | boolean (value : Bool)
  | number (value : Rat)
  | string (value : JsString)
  | array (items : List ReplicaValue)
  | object (fields : List (JsString × ReplicaValue))

namespace ReplicaValue

/-- Induction over the values inside a value. -/
@[elab_as_elim]
theorem inductionOn {motive : ReplicaValue → Prop} (value : ReplicaValue) (null : motive .null)
    (boolean : ∀ flag, motive (.boolean flag)) (number : ∀ number, motive (.number number))
    (string : ∀ text, motive (.string text))
    (array : ∀ items, (∀ item ∈ items, motive item) → motive (.array items))
    (object : ∀ fields, (∀ field ∈ fields, motive field.2) → motive (.object fields))
    : motive value :=
  @ReplicaValue.rec motive (fun items => ∀ item ∈ items, motive item)
    (fun fields => ∀ field ∈ fields, motive field.2) (fun field => motive field.2)
    null boolean number string array object
    (List.forall_mem_nil _) (fun _ _ hfirst hrest => List.forall_mem_cons.mpr ⟨hfirst, hrest⟩)
    (List.forall_mem_nil _) (fun _ _ hfirst hrest => List.forall_mem_cons.mpr ⟨hfirst, hrest⟩)
    (fun _ _ hvalue => hvalue) value

mutual

/-- Equality as JSON: the order of an object's properties does not matter. -/
def SameJson : ReplicaValue → ReplicaValue → Prop
  | .null, .null => True
  | .boolean value, .boolean other => value = other
  | .number value, .number other => value = other
  | .string value, .string other => value = other
  | .array items, .array others => SameItems items others
  | .object fields, .object others => fields.length = others.length ∧ SameFields fields others
  | _, _ => False

def SameItems : List ReplicaValue → List ReplicaValue → Prop
  | [], [] => True
  | item :: rest, other :: others => SameJson item other ∧ SameItems rest others
  | _, _ => False

/-- Every property of the first object is one of the second. -/
def SameFields : List (JsString × ReplicaValue) → List (JsString × ReplicaValue) → Prop
  | [], _ => True
  | (name, value) :: rest, others =>
      (∃ other, (name, other) ∈ others ∧ SameJson value other) ∧ SameFields rest others

end

theorem sameItems_iff {items others : List ReplicaValue}
    : SameItems items others ↔ List.Forall₂ SameJson items others := by
  induction items generalizing others with
  | nil => cases others <;> simp [SameItems]
  | cons item rest ih => cases others <;> simp [SameItems, ih]

theorem sameFields_iff {fields others : List (JsString × ReplicaValue)}
    : SameFields fields others
      ↔ ∀ field ∈ fields, ∃ other, (field.1, other) ∈ others ∧ SameJson field.2 other := by
  induction fields with
  | nil => simp [SameFields]
  | cons field rest ih => simp [SameFields, ih]

end ReplicaValue

/-- `assertName`, with the message of its error. -/
def assertName (value : JsString) (description : String) : Except JsString Unit :=
  if value.length = 0 then
    .error (JsString.ofText s!"{description} must be a non-empty string")
  else .ok ()

end Distributed.Replica
