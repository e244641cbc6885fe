import Distributed.Foundation.SortedMap
import Distributed.Mutation.Program
import Distributed.Projection.Resolve

/-! Mutation inputs bound from an event, and the projection arm of a bound program.
-/

namespace Distributed.Mutation

open Distributed.Foundation Distributed.Platform Distributed.Projection

/-- One binding of a mutation input path to an expression over the event. -/
structure MutationInputBinding where
  path : List String
  expression : ProjectionExpression
deriving DecidableEq

def MutationInputBinding.tryNew (path : List String) (expression : ProjectionExpression)
    : Except MutationProgramError MutationInputBinding :=
  if path.isEmpty || "" ∈ path then .error (.emptyName "mutation input path")
  else .ok { path, expression }

/-- `path.join(".")`. -/
def joinPath (path : List String) : String := String.intercalate "." path

def envelopeFieldTag : ProjectionEnvelopeField → String
  | .occurrenceVersion => "occurrence_version"
  | .occurrenceId => "occurrence_id"
  | .eventName => "event_name"
  | .eventVersion => "event_version"
  | .bodyFingerprint => "body_fingerprint"
  | .bodyKind => "body_kind"
  | .bodyTypeName => "body_type_name"
  | .bodyVersion => "body_version"
  | .bodySchema => "body_schema"
  | .bodyCodec => "body_codec"
  | .bodyCodecVersion => "body_codec_version"
  | .aggregateType => "aggregate_type"
  | .aggregateId => "aggregate_id"
  | .aggregateSequence => "aggregate_sequence"
  | .publicationOrdinal => "publication_ordinal"

def scalarTransformTag : ProjectionScalarTransform → String
  | .stringConcat => "string_concat"
  | .firstPresent => "first_present"

def valueTypeToJson : ProjectionValueType → Json
  | .boolean => .ofFields [("type", .string "boolean")]
  | .i64 => .ofFields [("type", .string "i64")]
  | .u64 => .ofFields [("type", .string "u64")]
  | .f64 => .ofFields [("type", .string "f64")]
  | .string => .ofFields [("type", .string "string")]
  | .enum name => .ofFields [("type", .string "enum"), ("name", .string name)]
  | .json => .ofFields [("type", .string "json")]

mutual

/-- The `Serialize` form of an expression. -/
def expressionToJson : ProjectionExpression → Json
  | .bodyPath path valueType =>
      .ofFields [("kind", .string "body_path"), ("path", .array (path.map Json.string)),
        ("value_type", valueTypeToJson valueType)]
  | .envelope field =>
      .ofFields [("kind", .string "envelope"), ("field", .string (envelopeFieldTag field))]
  | .constant value => .ofFields [("kind", .string "constant"), ("value", value.toJson)]
  | .enum enumType variant =>
      .ofFields [("kind", .string "enum"), ("enum_type", .string enumType),
        ("variant", .string variant)]
  | .list values =>
      .ofFields [("kind", .string "list"), ("values", .array (expressionsToJson values))]
  | .object fields =>
      .ofFields [("kind", .string "object"), ("fields", .array (membersToJson fields))]
  | .transform operator arguments =>
      .ofFields [("kind", .string "transform"),
        ("transform", .string (scalarTransformTag operator)),
        ("arguments", .array (expressionsToJson arguments))]

def expressionsToJson : List ProjectionExpression → List Json
  | [] => []
  | expression :: rest => expressionToJson expression :: expressionsToJson rest

def membersToJson : List (String × ProjectionExpression) → List Json
  | [] => []
  | (name, expression) :: rest =>
      .ofFields [("name", .string name), ("value", expressionToJson expression)]
        :: membersToJson rest

end

/-- `Value::get` of a member. -/
def Json.member? (name : String) : Json → Option Json
  | .object fields => JsonFields.get? name fields
  | _ => none

def Json.asArray? : Json → Option (List Json)
  | .array items => some items
  | _ => none

/-- `body_path_segments`: the path is read back from the serialized form. -/
def bodyPathSegments (expression : ProjectionExpression) : Option (List String) := do
  let value := expressionToJson expression
  let kind ← (← Json.member? "kind" value).asStr?
  if kind ≠ "body_path" then none
  else
    let path ← Json.asArray? (← Json.member? "path" value)
    path.mapM Json.asStr?

theorem bodyPathSegments_bodyPath (path : List String) (valueType : ProjectionValueType)
    : bodyPathSegments (.bodyPath path valueType) = some path := by
  have hsegments : (path.map Json.string).mapM Json.asStr? = some path := by
    induction path with
    | nil => rfl
    | cons segment rest ih =>
        rw [List.map_cons, List.mapM_cons, ih]
        rfl
  simp [bodyPathSegments, expressionToJson, Json.member?, Json.ofFields,
    JsonFields.get?_insert, Json.asStr?, Json.asArray?, hsegments]

/-- Only body paths have segments. -/
theorem bodyPathSegments_eq_none {expression : ProjectionExpression}
    (h : ∀ path valueType, expression ≠ .bodyPath path valueType)
    : bodyPathSegments expression = none := by
  cases expression with
  | bodyPath path valueType => exact absurd rfl (h path valueType)
  | _ =>
      simp [bodyPathSegments, expressionToJson, Json.member?, Json.ofFields,
        JsonFields.get?_insert, Json.asStr?]

/-- `extend_expression`. -/
def extendExpression (root : ProjectionExpression) (suffix : List String)
    (valueType : ProjectionValueType) : Except MutationProgramError ProjectionExpression :=
  if suffix.isEmpty then .ok root
  else
    match bodyPathSegments root with
    | some base => adapted (ProjectionExpression.tryBodyPath valueType (base ++ suffix))
    | none => .error (.missingInput (joinPath suffix))

/-- The expressions under their joined paths. -/
structure InputPathBinder where
  byPath : SortedMap String ProjectionExpression

namespace InputPathBinder

def new (inputs : List MutationInputBinding) : InputPathBinder :=
  ⟨.ofList (inputs.map fun input => (joinPath input.path, input.expression))⟩

/-- A binding of the first segment extended by the others. -/
def extendRoot (binder : InputPathBinder) (valueType : ProjectionValueType)
    : List String → Option (Except MutationProgramError ProjectionExpression)
  | root :: next :: rest =>
      (binder.byPath.get? root).map fun expression =>
        extendExpression expression (next :: rest) valueType
  | _ => none

/-- The loop over the bound paths. -/
def scanRoots (binder : InputPathBinder) (valueType : ProjectionValueType)
    : List String → Option (Except MutationProgramError ProjectionExpression)
  | [] => none
  | root :: suffix =>
      (binder.byPath.entries.find? fun entry => entry.1 = root).map fun entry =>
        if suffix.isEmpty then .ok entry.2 else extendExpression entry.2 suffix valueType

def bind (binder : InputPathBinder) (path : List String) (valueType : ProjectionValueType)
    : Except MutationProgramError ProjectionExpression :=
  match binder.byPath.get? (joinPath path) with
  | some expression => .ok expression
  | none =>
      match binder.extendRoot valueType path with
      | some extended => extended
      | none =>
          match binder.scanRoots valueType path with
          | some extended => extended
          | none => .error (.missingInput (joinPath path))

end InputPathBinder

/-- Each mutation input path is the event body path of the same segments. -/
def identityBodyPathBinder (path : List String) (valueType : ProjectionValueType)
    : Except MutationProgramError ProjectionExpression :=
  adapted (ProjectionExpression.tryBodyPath valueType path)

/-- Compiler-visible binding of one event contract to one mutation program. -/
structure MutationEventBinding where
  selector : ProjectionEventSelector
  inputs : List MutationInputBinding
  program : MutationProgram

namespace MutationEventBinding

def tryNew (selector : ProjectionEventSelector) (inputs : List MutationInputBinding)
    (program : MutationProgram) : Except MutationProgramError MutationEventBinding := do
  validateDistinct inputs "mutation input binding" fun input => joinPath input.path
  .ok { selector, inputs, program }

/-- The projection arm that executes the program on the event. -/
def toProjectionArm (binding : MutationEventBinding) (armId : String)
    : Except MutationProgramError ProjectionArm := do
  let operations ← binding.program.rewriteToProjectionOperations
    (InputPathBinder.new binding.inputs).bind
  adapted (ProjectionArm.tryNew armId binding.selector operations)

end MutationEventBinding

end Distributed.Mutation
