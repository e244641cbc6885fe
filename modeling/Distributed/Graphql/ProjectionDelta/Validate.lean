import Distributed.Foundation.Result
import Distributed.Graphql.ProjectionDelta.Types
import Distributed.Platform.Integers
import Distributed.Platform.Json
import Distributed.Platform.Text
import Distributed.ProjectionProtocol.Validation
import Mathlib.Algebra.Group.Nat.Defs
import Mathlib.Data.List.Basic

/-! The checks of a delta value, `DeltaValue::validate`. -/

namespace Distributed.Graphql.ProjectionDelta

open Distributed.Foundation Distributed.Platform Distributed.ProjectionProtocol

def maxIdentityBytes : Nat := 4 * 1024
def maxDomainEventBodyBytes : Nat := 1024 * 1024
def maxProjectionExpressionDepth : Nat := 64

/-- The text without the characters of `space` at its ends. -/
def trim (space : Char → Bool) (value : String) : String :=
  String.ofList ((value.toList.dropWhile space).reverse.dropWhile space).reverse

/-- The order of texts, by their bytes. -/
def textLess (value other : String) : Bool := utf8Bytes value < utf8Bytes other

/-- `windows(2).all(..)`: every item is less than the next. -/
def strictlyOrdered {α : Type} (less : α → α → Bool) : List α → Bool
  | first :: second :: rest => less first second && strictlyOrdered less (second :: rest)
  | _ => true

def validateIdentity (field value : String) : Except ProjectionDeltaError Unit :=
  if value = "" || maxIdentityBytes < value.utf8ByteSize || trim isWhitespace value ≠ value then
    .error (.invalidIdentity field)
  else .ok ()

section Values

variable (floats : Floats)

/-- The text of an integer is the one it prints as. -/
def validateInteger (parse : String → Option Int) (text : String)
    : Except ProjectionDeltaError Unit :=
  match parse text with
  | some value => if toString value ≠ text then .error .invalidNumber else .ok ()
  | none => .error .invalidNumber

def validateFloat (text : String) : Except ProjectionDeltaError Unit :=
  match floats.parse text with
  | some bits =>
      let canonical := if f64IsZero bits then 0 else bits
      if !f64IsFinite canonical || floats.toText canonical ≠ text then .error .invalidNumber
      else .ok ()
  | none => .error .invalidNumber

def validatePayloadString (value : String) : Except ProjectionDeltaError Unit :=
  if maxDomainEventBodyBytes < value.utf8ByteSize then
    .error (.bodyTooLarge value.utf8ByteSize maxDomainEventBodyBytes)
  else .ok ()

def validateDepth (depth : Nat) : Except ProjectionDeltaError Unit :=
  if maxProjectionExpressionDepth < depth then
    .error (.valueTooDeep depth maxProjectionExpressionDepth)
  else .ok ()

def validateFieldOrder (fields : List DeltaField) : Except ProjectionDeltaError Unit :=
  if !strictlyOrdered textLess (fields.map Prod.fst) then .error (.nonCanonicalOrder "fields")
  else .ok ()

mutual

/-- The fields of an object are checked twice: by `validate_fields`, which starts their depth
anew, and at their own depth. -/
def DeltaValue.validateAtDepth (depth : Nat) : DeltaValue → Except ProjectionDeltaError Unit
  | .null => validateDepth depth
  | .boolean _ => validateDepth depth
  | .i64 text => do
      validateDepth depth
      validateInteger parseI64 text
  | .u64 text => do
      validateDepth depth
      validateInteger parseU64 text
  | .f64 text => do
      validateDepth depth
      validateFloat floats text
  | .string value => do
      validateDepth depth
      validatePayloadString value
  | .enum enumType variant => do
      validateDepth depth
      validateIdentity "enum_type" enumType
      validateIdentity "enum_variant" variant
  | .list items => do
      validateDepth depth
      validateItems (depth + 1) items
  | .object fields => do
      validateDepth depth
      validateEachField fields
      validateFieldOrder fields
      validateFieldValues (depth + 1) fields

def validateItems (depth : Nat) : List DeltaValue → Except ProjectionDeltaError Unit
  | [] => .ok ()
  | item :: rest => do
      item.validateAtDepth depth
      validateItems depth rest

def validateEachField : List (String × DeltaValue) → Except ProjectionDeltaError Unit
  | [] => .ok ()
  | (field, value) :: rest => do
      validateIdentity "field" field
      value.validateAtDepth 1
      validateEachField rest

def validateFieldValues (depth : Nat)
    : List (String × DeltaValue) → Except ProjectionDeltaError Unit
  | [] => .ok ()
  | (_, value) :: rest => do
      value.validateAtDepth depth
      validateFieldValues depth rest

end

def DeltaValue.validate (value : DeltaValue) : Except ProjectionDeltaError Unit :=
  value.validateAtDepth floats 1

end Values

end Distributed.Graphql.ProjectionDelta
