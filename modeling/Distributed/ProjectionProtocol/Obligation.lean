import Distributed.Platform.Json
import Distributed.ProjectionProtocol.Identity

/-! Projection obligations resolved for a command, and their JSON form.
-/

namespace Distributed.ProjectionProtocol

open Distributed.Foundation Distributed.Platform Distributed.Platform.Serde

structure ResolvedProjectionKeyField where
  field : String
  value : Json
deriving DecidableEq

structure ResolvedProjectionObligation where
  projector : String
  model : String
  keyFields : List ResolvedProjectionKeyField
  partition : Option Json
  scope : ProjectionRecordScope
deriving DecidableEq

def bytesToJson (bytes : Bytes) : Json :=
  .array (bytes.map fun byte => .ofNat byte.toNat)

def ProjectorTopologyId.toJson (topology : ProjectorTopologyId) : Json :=
  .ofFields [
    ("version", .ofNat topology.version),
    ("name", .string topology.name),
    ("digest", bytesToJson topology.digest.bytes)
  ]

def ProjectionRecordScope.toJson (scope : ProjectionRecordScope) : Json :=
  .ofFields [
    ("topology", scope.topology.toJson),
    ("partition", bytesToJson scope.projectionPartition.canonicalBytes),
    ("model", .string scope.model),
    ("key", bytesToJson scope.canonicalKeyBytes)
  ]

def ResolvedProjectionKeyField.toJson (field : ResolvedProjectionKeyField) : Json :=
  .ofFields [("field", .string field.field), ("value", field.value)]

/-- An absent partition is skipped; `Some(null)` is written. -/
def ResolvedProjectionObligation.toJson (obligation : ResolvedProjectionObligation) : Json :=
  .ofFields
    ([
      ("projector", .string obligation.projector),
      ("model", .string obligation.model),
      ("key", .ofFields
        [("fields", .array (obligation.keyFields.map ResolvedProjectionKeyField.toJson))]),
      ("scope", obligation.scope.toJson)
    ] ++ obligation.partition.toList.map fun partition => ("partition", partition))

def readByte (value : Json) : Except String UInt8 := do
  let byte ← asUnsigned 8 value
  .ok (UInt8.ofNat byte.val)

def readBytes (value : Json) : Except String Bytes := do
  let items ← asArray value
  items.mapM readByte

def readDigest (value : Json) : Except String Digest := do
  let bytes ← readBytes value
  if h : bytes.length = 32 then .ok ⟨bytes, h⟩
  else .error s!"invalid length {bytes.length}, expected an array of length 32"

def ProjectorTopologyId.fromJson (value : Json) : Except String ProjectorTopologyId := do
  let fields ← asObject value
  let version ← required fields "version" >>= asUnsigned 32
  let name ← required fields "name" >>= asString
  let digest ← required fields "digest" >>= readDigest
  (ProjectorTopologyId.new version.val version.property name digest).mapError
    ValidationError.text

def ProjectionPartition.fromJson (value : Json) : Except String ProjectionPartition := do
  let bytes ← readBytes value
  (ProjectionPartition.new bytes).mapError ValidationError.text

def ProjectionRecordScope.fromJson (value : Json) : Except String ProjectionRecordScope := do
  let fields ← asObject value
  let topology ← required fields "topology" >>= ProjectorTopologyId.fromJson
  let partition ← required fields "partition" >>= ProjectionPartition.fromJson
  let model ← required fields "model" >>= asString
  let key ← required fields "key" >>= readBytes
  (ProjectionRecordScope.new topology partition model key).mapError ValidationError.text

def ResolvedProjectionKeyField.fromJson (value : Json)
    : Except String ResolvedProjectionKeyField := do
  let fields ← asObject value
  let field ← required fields "field" >>= asString
  let value ← required fields "value"
  .ok ⟨field, value⟩

def readKeyFields (value : Json) : Except String (List ResolvedProjectionKeyField) := do
  let fields ← asObject value
  let items ← required fields "fields" >>= asArray
  items.mapM ResolvedProjectionKeyField.fromJson

def ResolvedProjectionObligation.fromJson (value : Json)
    : Except String ResolvedProjectionObligation := do
  let fields ← asObject value
  let projector ← required fields "projector" >>= asString
  let model ← required fields "model" >>= asString
  let keyFields ← required fields "key" >>= readKeyFields
  let scope ← required fields "scope" >>= ProjectionRecordScope.fromJson
  .ok ⟨projector, model, keyFields, fields.get? "partition", scope⟩

theorem readBytes_bytesToJson (bytes : Bytes) : readBytes (bytesToJson bytes) = .ok bytes := by
  have hbyte : ∀ byte : UInt8, readByte (.ofNat byte.toNat) = .ok byte := by
    intro byte
    simp only [readByte, asUnsigned_ofNat byte.toNat_lt, Result.ok_bind, UInt8.ofNat_toNat]
  exact Result.mapM_map_eq_ok fun byte _ => hbyte byte

theorem readDigest_bytesToJson (digest : Digest)
    : readDigest (bytesToJson digest.bytes) = .ok digest := by
  rw [readDigest, readBytes_bytesToJson, Result.ok_bind, dif_pos digest.length_eq]

theorem ProjectorTopologyId.fromJson_toJson (topology : ProjectorTopologyId)
    : ProjectorTopologyId.fromJson topology.toJson = .ok topology := by
  have hfields : topology.toJson
      = .object [("digest", bytesToJson topology.digest.bytes),
          ("name", .string topology.name), ("version", .ofNat topology.version)] := by
    simp [toJson, Json.ofFields, JsonFields.insert, List.cons_lt_cons_iff]
  have hversion := topology.version_valid.2
  rw [hfields]
  simp [fromJson, asObject, required, JsonFields.get?, asString, asUnsigned_ofNat hversion,
    readDigest_bytesToJson, topology.new_self, Except.mapError]

theorem ProjectionPartition.fromJson_bytesToJson (partition : ProjectionPartition)
    : ProjectionPartition.fromJson (bytesToJson partition.canonicalBytes)
      = .ok partition := by
  simp [fromJson, readBytes_bytesToJson, partition.new_self, Except.mapError]

theorem ProjectionRecordScope.fromJson_toJson (scope : ProjectionRecordScope)
    : ProjectionRecordScope.fromJson scope.toJson = .ok scope := by
  have hfields : scope.toJson
      = .object [("key", bytesToJson scope.canonicalKeyBytes),
          ("model", .string scope.model),
          ("partition", bytesToJson scope.projectionPartition.canonicalBytes),
          ("topology", scope.topology.toJson)] := by
    simp [toJson, Json.ofFields, JsonFields.insert, List.cons_lt_cons_iff]
  rw [hfields]
  simp [fromJson, asObject, required, JsonFields.get?, asString, readBytes_bytesToJson,
    ProjectorTopologyId.fromJson_toJson, ProjectionPartition.fromJson_bytesToJson,
    scope.new_self, Except.mapError]

theorem ResolvedProjectionKeyField.fromJson_toJson (field : ResolvedProjectionKeyField)
    : ResolvedProjectionKeyField.fromJson field.toJson = .ok field := by
  have hfields : field.toJson
      = .object [("field", .string field.field), ("value", field.value)] := by
    simp [toJson, Json.ofFields, JsonFields.insert, List.cons_lt_cons_iff]
  rw [hfields]
  simp [fromJson, asObject, required, JsonFields.get?, asString]

/-- An obligation reads back from the JSON it is stored as. -/
theorem ResolvedProjectionObligation.fromJson_toJson
    (obligation : ResolvedProjectionObligation)
    : ResolvedProjectionObligation.fromJson obligation.toJson = .ok obligation := by
  have hkey : (obligation.keyFields.map ResolvedProjectionKeyField.toJson).mapM
      ResolvedProjectionKeyField.fromJson = .ok obligation.keyFields :=
    Result.mapM_map_eq_ok fun field _ => field.fromJson_toJson
  have hscope := obligation.scope.fromJson_toJson
  obtain ⟨projector, model, keyFields, partition, scope⟩ := obligation
  cases partition with
  | none =>
      simp [fromJson, toJson, readKeyFields, Json.ofFields, JsonFields.insert,
        List.cons_lt_cons_iff, asObject, asArray, required, JsonFields.get?, asString, hkey,
        hscope]
  | some partition =>
      simp [fromJson, toJson, readKeyFields, Json.ofFields, JsonFields.insert,
        List.cons_lt_cons_iff, asObject, asArray, required, JsonFields.get?, asString, hkey,
        hscope]

end Distributed.ProjectionProtocol
