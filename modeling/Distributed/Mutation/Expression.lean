import Distributed.Projection.Expression

/-! Event-independent mutation expressions over a bound input object.
-/

namespace Distributed.Mutation

open Distributed.Foundation Distributed.Platform Distributed.Projection

def maxMutationExpressionDepth : Nat := maxProjectionExpressionDepth

def maxMutationPathSegments : Nat := maxProjectionPathSegments

inductive MutationProgramError where
  | emptyName (kind : String)
  | zeroVersion (kind : String)
  | pathTooDeep (segments max : Nat)
  | expressionTooDeep (depth max : Nat)
  | tooManyOperations (count max : Nat)
  | duplicateOrdinal (kind : String) (ordinal : Nat)
  | nonContiguousOrdinal (kind : String) (expected actual : Nat)
  | duplicateName (kind name : String)
  | invalidOperation (operation reason : String)
  | ambiguousMutation (model reason : String)
  | missingInput (path : String)
  | adapter (message : String)
deriving DecidableEq

/-- `From<ProjectionProgramError>`. -/
def MutationProgramError.ofProjection (error : ProjectionProgramError) : MutationProgramError :=
  .adapter error.text

/-- A projection constructor called with `?` or `map_err(Into::into)`. -/
def adapted {α : Type} (result : Except ProjectionProgramError α)
    : Except MutationProgramError α :=
  result.mapError .ofProjection

def nonEmptyName (value kind : String) : Except MutationProgramError String :=
  if value = "" then .error (.emptyName kind) else .ok value

/-- A deterministic expression over a bound mutation input object. -/
inductive MutationExpression where
  | inputPath (path : List String) (valueType : ProjectionValueType)
  | constant (value : ProjectionValue)
  | enum (enumType variant : String)
  | list (values : List MutationExpression)
  | object (fields : List (String × MutationExpression))
  | transform (transform : ProjectionScalarTransform) (arguments : List MutationExpression)

/-- What maps the paths of an input object onto projection expressions. -/
abbrev InputPathBinding : Type :=
  List String → ProjectionValueType → Except MutationProgramError ProjectionExpression

/-- Field assignment that preserves null versus removal versus unknown. -/
inductive MutationAssignment where
  | set (expression : MutationExpression)
  | unset
  | unknown

/-- Result of evaluating a mutation expression. Expressions never give the two other states
that a field assignment has. -/
inductive ResolvedMutationValue where
  | value (value : ProjectionValue)
  | absent
  | unset
  | unknown
deriving DecidableEq

namespace MutationExpression

mutual

/-- `expression_depth`. -/
def depth : MutationExpression → Nat → Nat
  | .list values, level => depthItems values level
  | .object fields, level => depthFields fields level
  | .transform _ arguments, level => depthItems arguments level
  | .inputPath .., level | .constant _, level | .enum .., level => level

def depthItems : List MutationExpression → Nat → Nat
  | [], level => level
  | value :: rest, level => max (value.depth (level + 1)) (depthItems rest level)

def depthFields : List (String × MutationExpression) → Nat → Nat
  | [], level => level
  | (_, value) :: rest, level => max (value.depth (level + 1)) (depthFields rest level)

end

/-- An expression that is not too deep. -/
def bounded (expression : MutationExpression)
    : Except MutationProgramError MutationExpression :=
  if maxMutationExpressionDepth < expression.depth 1 then
    .error (.expressionTooDeep (expression.depth 1) maxMutationExpressionDepth)
  else .ok expression

/-- `MutationExpression::input_path`. -/
def tryInputPath (valueType : ProjectionValueType) (path : List String)
    : Except MutationProgramError MutationExpression := do
  if maxMutationPathSegments < path.length then
    .error (.pathTooDeep path.length maxMutationPathSegments)
  if "" ∈ path then
    .error (.emptyName "input path segment")
  if valueType = .enum "" then
    .error (.emptyName "input enum type")
  .ok (.inputPath path valueType)

/-- `MutationExpression::enum_variant`. -/
def tryEnum (enumType variant : String) : Except MutationProgramError MutationExpression := do
  let enumType ← nonEmptyName enumType "enum type"
  let variant ← nonEmptyName variant "enum variant"
  .ok (.enum enumType variant)

/-- `MutationExpression::list`. -/
def tryList (values : List MutationExpression)
    : Except MutationProgramError MutationExpression :=
  bounded (.list values)

/-- `MutationExpression::object`. -/
def tryObject (fields : List (String × MutationExpression))
    : Except MutationProgramError MutationExpression := do
  fields.forM fun field => do
    let _ ← nonEmptyName field.1 "object field"
  let fields := ProjectionValue.sortFields fields
  match ProjectionExpression.repeatedName fields with
  | some name => .error (.duplicateName "object field" name)
  | none => bounded (.object fields)

/-- `MutationExpression::transform`. -/
def tryTransform (operator : ProjectionScalarTransform) (arguments : List MutationExpression)
    : Except MutationProgramError MutationExpression :=
  if arguments.isEmpty then
    .error (.invalidOperation "mutation expression"
      "scalar transforms require at least one argument")
  else bounded (.transform operator arguments)

/-- The expressions that the constructors return. -/
inductive Constructed : MutationExpression → Prop
  | inputPath {path : List String} {valueType : ProjectionValueType}
      {expression : MutationExpression} :
      tryInputPath valueType path = .ok expression → Constructed expression
  | constant (value : ProjectionValue) : Constructed (.constant value)
  | enum {enumType variant : String} {expression : MutationExpression} :
      tryEnum enumType variant = .ok expression → Constructed expression
  | list {values : List MutationExpression} {expression : MutationExpression} :
      (∀ value ∈ values, Constructed value) → tryList values = .ok expression →
        Constructed expression
  | object {fields : List (String × MutationExpression)} {expression : MutationExpression} :
      (∀ field ∈ fields, Constructed field.2) → tryObject fields = .ok expression →
        Constructed expression
  | transform {operator : ProjectionScalarTransform} {arguments : List MutationExpression}
      {expression : MutationExpression} :
      (∀ argument ∈ arguments, Constructed argument) →
        tryTransform operator arguments = .ok expression → Constructed expression

mutual

def same : MutationExpression → MutationExpression → Bool
  | .inputPath path valueType, .inputPath other otherType => path = other && valueType = otherType
  | .constant value, .constant other => value = other
  | .enum enumType variant, .enum otherType other => enumType = otherType && variant = other
  | .list values, .list others => sameItems values others
  | .object fields, .object others => sameFields fields others
  | .transform operator arguments, .transform other others =>
      operator = other && sameItems arguments others
  | _, _ => false

def sameItems : List MutationExpression → List MutationExpression → Bool
  | [], [] => true
  | value :: rest, other :: others => same value other && sameItems rest others
  | _, _ => false

def sameFields : List (String × MutationExpression) → List (String × MutationExpression) → Bool
  | [], [] => true
  | (name, value) :: rest, (otherName, other) :: others =>
      name = otherName && same value other && sameFields rest others
  | _, _ => false

end

mutual

theorem same_iff : ∀ left right : MutationExpression, same left right = true ↔ left = right
  | .inputPath .., right => by cases right <;> simp [same]
  | .constant _, right => by cases right <;> simp [same]
  | .enum .., right => by cases right <;> simp [same]
  | .list values, right => by cases right <;> simp [same, sameItems_iff values]
  | .object fields, right => by cases right <;> simp [same, sameFields_iff fields]
  | .transform _ arguments, right => by cases right <;> simp [same, sameItems_iff arguments]

theorem sameItems_iff
    : ∀ left right : List MutationExpression, sameItems left right = true ↔ left = right
  | [], right => by cases right <;> simp [sameItems]
  | value :: rest, right => by
      cases right <;> simp [sameItems, same_iff value, sameItems_iff rest]

theorem sameFields_iff
    : ∀ left right : List (String × MutationExpression),
      sameFields left right = true ↔ left = right
  | [], right => by cases right <;> simp [sameFields]
  | (name, value) :: rest, right => by
      cases right with
      | nil => simp [sameFields]
      | cons other others =>
          obtain ⟨otherName, other⟩ := other
          simp [sameFields, same_iff value, sameFields_iff rest]

end

instance : DecidableEq MutationExpression := fun left right =>
  decidable_of_iff _ (same_iff left right)

end MutationExpression

deriving instance DecidableEq for MutationAssignment

mutual

/-- `projection_value_to_json` of the mutation module: every number becomes its text. -/
def projectionValueToJson : ProjectionValue → Json
  | .null => .null
  | .boolean value => .bool value
  | .i64 text => .string text
  | .u64 text => .string text
  | .f64 text => .string text
  | .string text => .string text
  | .enum _ variant => .string variant
  | .list values => .array (projectionValuesToJson values)
  | .object fields => .object (projectionFieldsToJson fields [])

def projectionValuesToJson : List ProjectionValue → List Json
  | [] => []
  | value :: rest => projectionValueToJson value :: projectionValuesToJson rest

/-- The members inserted into the object one after the other. -/
def projectionFieldsToJson : List (String × ProjectionValue) → JsonFields → JsonFields
  | [], members => members
  | (name, value) :: rest, members =>
      projectionFieldsToJson rest (JsonFields.insert name (projectionValueToJson value) members)

end

namespace MutationExpression

section Resolve

variable (floats : Floats) (input : Json)

mutual

def resolve : MutationExpression → Except MutationProgramError ResolvedMutationValue
  | .inputPath path _ =>
      match readPath path input with
      | none => .ok .absent
      | some value =>
          match ProjectionValue.tryFromJson floats value with
          | .ok value => .ok (.value value)
          | .error error =>
              .error (.adapter
                ("typed input path `" ++ String.intercalate "." path ++ "`: " ++ error.text))
  | .constant value => .ok (.value value)
  | .enum enumType variant => do
      let _ ← adapted (ProjectionExpression.tryEnum enumType variant)
      .ok (.value (.string variant))
  | .list values => do
      match ← resolveItems values with
      | some items => do
          let value ← adapted (ProjectionValue.tryFromJson floats (.array items))
          .ok (.value value)
      | none => .ok .absent
  | .object fields => do
      match ← resolveFields fields [] with
      | some members => do
          let value ← adapted (ProjectionValue.tryFromJson floats (.object members))
          .ok (.value value)
      | none => .ok .absent
  | .transform .. =>
      .error (.adapter "transform evaluation requires projection rewrite")

/-- The items of a list, or nothing when one is absent. -/
def resolveItems
    : List MutationExpression → Except MutationProgramError (Option (List Json))
  | [] => .ok (some [])
  | expression :: rest => do
      match ← resolve expression with
      | .value value =>
          let items ← resolveItems rest
          .ok (items.map (projectionValueToJson value :: ·))
      | .absent => .ok none
      | .unset | .unknown =>
          .error (.invalidOperation "list expression"
            "list members cannot be unset or unknown")

/-- The members of an object inserted one after the other, or nothing when one is absent. -/
def resolveFields
    : List (String × MutationExpression) → JsonFields
      → Except MutationProgramError (Option JsonFields)
  | [], members => .ok (some members)
  | (name, expression) :: rest, members => do
      match ← resolve expression with
      | .value value =>
          resolveFields rest (JsonFields.insert name (projectionValueToJson value) members)
      | .absent => .ok none
      | .unset | .unknown =>
          .error (.invalidOperation "object expression"
            "object members cannot be unset or unknown")

end

end Resolve

section Rewrite

variable (bindInputPath : InputPathBinding)

mutual

def rewriteWith : MutationExpression → Except MutationProgramError ProjectionExpression
  | .inputPath path valueType => bindInputPath path valueType
  | .constant value => .ok (.constant value)
  | .enum enumType variant => adapted (ProjectionExpression.tryEnum enumType variant)
  | .list values => do
      let rewritten ← rewriteItems values
      adapted (ProjectionExpression.tryList rewritten)
  | .object fields => do
      let rewritten ← rewriteFields fields
      adapted (ProjectionExpression.tryObject rewritten)
  | .transform operator arguments => do
      let rewritten ← rewriteItems arguments
      adapted (ProjectionExpression.tryTransform operator rewritten)

def rewriteItems
    : List MutationExpression → Except MutationProgramError (List ProjectionExpression)
  | [] => .ok []
  | expression :: rest => do
      let first ← rewriteWith expression
      let others ← rewriteItems rest
      .ok (first :: others)

def rewriteFields
    : List (String × MutationExpression)
      → Except MutationProgramError (List (String × ProjectionExpression))
  | [] => .ok []
  | (name, expression) :: rest => do
      let first ← rewriteWith expression
      let others ← rewriteFields rest
      .ok ((name, first) :: others)

end

end Rewrite

end MutationExpression

/-- An unknown assignment is left out by the caller. -/
def MutationAssignment.rewriteWith (bindInputPath : InputPathBinding)
    : MutationAssignment → Except MutationProgramError (Option ProjectionAssignment)
  | .set expression => do
      let rewritten ← expression.rewriteWith bindInputPath
      .ok (some (.set rewritten))
  | .unset => .ok (some .unset)
  | .unknown => .ok none

end Distributed.Mutation
