import Distributed.Foundation.Result
import Distributed.Platform.Utf8
import Distributed.ProjectionProtocol.Replay

/-! Every part of the evidence is read back from its replay form.
-/

namespace Distributed.ProjectionProtocol

open Distributed.Foundation Distributed.Platform Distributed.Platform.Serde

theorem decodeReplayHexNibble_hexByte {nibble : Nat} (h : nibble < 16)
    : decodeReplayHexNibble (hexByte nibble) = some nibble := by
  have hall : ∀ n ∈ List.range 16, decodeReplayHexNibble (hexByte n) = some n := by decide
  exact hall nibble (List.mem_range.mpr h)

theorem decodeHexPairs_bytesHex (bytes : Bytes)
    : decodeHexPairs (utf8Bytes (bytesHex bytes)) = some bytes := by
  rw [utf8Bytes_bytesHex]
  induction bytes with
  | nil => rfl
  | cons byte bytes ih =>
      have hbyte := byte.toNat_lt
      have hhigh : byte.toNat / 16 < 16 := by omega
      have hlow : byte.toNat % 16 < 16 := by omega
      have hjoin : byte.toNat / 16 * 16 + byte.toNat % 16 = byte.toNat := by omega
      simp only [List.flatMap_cons, List.cons_append, List.nil_append, decodeHexPairs, ih,
        decodeReplayHexNibble_hexByte hhigh, decodeReplayHexNibble_hexByte hlow, hjoin,
        UInt8.ofNat_toNat, Option.bind_eq_bind, Option.bind_some]

theorem bytesHex_injective : Function.Injective bytesHex := by
  intro left right h
  have hdecoded := decodeHexPairs_bytesHex left
  rw [h, decodeHexPairs_bytesHex] at hdecoded
  exact (Option.some.inj hdecoded).symm

theorem decodeReplayHex_bytesHex (field : String) {bytes : Bytes} {maxBytes : Nat}
    (h : bytes.length ≤ maxBytes)
    : decodeReplayHex field (bytesHex bytes) maxBytes = .ok bytes := by
  have hbounded : ¬ ((bytesHex bytes).utf8ByteSize % 2 ≠ 0
      ∨ maxBytes * 2 < (bytesHex bytes).utf8ByteSize) := by
    rw [utf8ByteSize_bytesHex]
    omega
  rw [decodeReplayHex, if_neg hbounded, decodeHexPairs_bytesHex]

theorem decodeReplayDigest_bytesHex (field : String) (digest : Digest)
    : decodeReplayDigest field (bytesHex digest.bytes) = .ok digest := by
  rw [decodeReplayDigest, decodeReplayHex_bytesHex field digest.length_eq.le, Result.ok_bind,
    dif_pos digest.length_eq]

theorem mem_keys_insert {key name : String} {value : Json} {fields : JsonFields}
    (h : name ∈ (JsonFields.insert key value fields).map Prod.fst)
    : name = key ∨ name ∈ fields.map Prod.fst := by
  induction fields with
  | nil => simpa [JsonFields.insert] using h
  | cons field fields ih =>
      obtain ⟨other, old⟩ := field
      unfold JsonFields.insert at h
      split at h
      · simp_all
      · split at h
        · simpa using h
        · rw [List.map_cons, List.mem_cons] at h ⊢
          rcases h with h | h
          · exact .inr (.inl h)
          · exact (ih h).imp_right .inr

/-- A written object has no field but the ones it was written with. -/
theorem denyUnknown_written {fields : JsonFields} {known : List String}
    (hknown : fields.map Prod.fst = known)
    : denyUnknown
        (fields.foldl (fun object field => JsonFields.insert field.1 field.2 object) []) known
      = .ok () := by
  have h : ∀ name ∈ fields.map Prod.fst, name ∈ known := hknown ▸ fun _ hname => hname
  clear hknown
  have hkeys : ∀ written : JsonFields, (∀ name ∈ written.map Prod.fst, name ∈ known) →
      ∀ name ∈ (fields.foldl (fun object field => JsonFields.insert field.1 field.2 object)
        written).map Prod.fst, name ∈ known := by
    induction fields with
    | nil => exact fun _ hwritten => hwritten
    | cons field fields ih =>
        intro written hwritten
        refine ih (fun name hname => h name (List.mem_cons_of_mem _ hname)) _ ?_
        intro name hname
        rcases mem_keys_insert hname with rfl | hname
        · exact h _ (List.mem_cons_self ..)
        · exact hwritten name hname
  rw [denyUnknown]
  split
  · rename_i found hfound
    have hunknown := List.find?_some hfound
    have hmem := hkeys [] (by simp) found.1 (List.mem_map_of_mem (List.mem_of_find?_eq_some hfound))
    simp [hmem] at hunknown
  · rfl

theorem validatePortablePosition_eq_ok {field : String} {value : Nat}
    (h : value ≤ maxProjectionPosition)
    : validatePortablePosition field value = .ok ⟨value, h⟩ := by
  rw [validatePortablePosition, dif_neg (Nat.not_lt.mpr h)]

theorem RecordRevision.new_self (revision : RecordRevision)
    : RecordRevision.new revision.scope revision.incarnation revision.revision
      = .ok revision := by
  simp [RecordRevision.new, validatePortablePosition_eq_ok revision.incarnation_valid.2,
    validatePortablePosition_eq_ok revision.revision_valid.2,
    validatePosition_eq_ok revision.incarnation_valid,
    validatePosition_eq_ok revision.revision_valid]

theorem ProjectionEpoch.new_self (epoch : ProjectionEpoch)
    : ProjectionEpoch.new epoch.value = .ok epoch := by
  rw [new, validateOpaque, validateText_eq_ok epoch.valid]
  rfl

theorem ProjectionChangeCursor.new_self (cursor : ProjectionChangeCursor)
    : ProjectionChangeCursor.new cursor.topology cursor.projectionPartition cursor.epoch
        cursor.position
      = .ok cursor := by
  rw [new, validatePosition_eq_ok cursor.position_valid]
  rfl

section Parts

variable (crates : Crates)

theorem decodeReplayTopology_self (topology : ProjectorTopologyId)
    : decodeReplayTopology ⟨topology.version, topology.version_valid.2⟩ topology.name
        (bytesHex topology.digest.bytes)
      = .ok topology := by
  simp only [decodeReplayTopology, decodeReplayDigest_bytesHex, Result.ok_bind,
    ProjectorTopologyId.new_self]
  rfl

theorem decodeReplayPartition_self (partition : ProjectionPartition)
    : decodeReplayPartition crates (bytesHex partition.canonicalBytes)
        (bytesHex (partition.digest crates).bytes)
      = .ok partition := by
  simp [decodeReplayPartition, decodeReplayHex_bytesHex _ partition.valid.2,
    ProjectionPartition.new_self, Except.mapError]

theorem readReplayScope_replayScope (scope : ProjectionRecordScope)
    : readReplayScope crates (replayScope crates scope) = .ok scope := by
  simp only [readReplayScope, replayScope, Json.ofFields, asObject, Result.ok_bind]
  rw [denyUnknown_written (by rfl)]
  simp [required, JsonFields.get?_insert, asString, readReplayTopology, readReplayPartition,
    asUnsigned_ofNat scope.topology.version_valid.2, decodeReplayTopology_self,
    decodeReplayPartition_self, decodeReplayHex_bytesHex _ scope.key_valid.2,
    ProjectionRecordScope.new_self, Except.mapError]

theorem readReplayRevision_replayRevision (revision : RecordRevision)
    : readReplayRevision crates (replayRevision crates revision) = .ok revision := by
  have hincarnation : revision.incarnation < 2 ^ 64 :=
    lt_of_le_of_lt revision.incarnation_valid.2 (by decide)
  have hrevision : revision.revision < 2 ^ 64 :=
    lt_of_le_of_lt revision.revision_valid.2 (by decide)
  simp only [readReplayRevision, replayRevision, Json.ofFields, asObject, Result.ok_bind]
  rw [denyUnknown_written (by rfl)]
  simp [required, JsonFields.get?_insert, asUnsigned_ofNat hincarnation,
    asUnsigned_ofNat hrevision, readReplayScope_replayScope, RecordRevision.new_self,
    Except.mapError]

theorem readReplayCursor_replayCursor (cursor : ProjectionChangeCursor)
    : readReplayCursor crates (replayCursor crates cursor) = .ok cursor := by
  have hposition : cursor.position < 2 ^ 64 :=
    lt_of_le_of_lt cursor.position_valid.2 (by decide)
  simp only [readReplayCursor, replayCursor, Json.ofFields, asObject, Result.ok_bind]
  rw [denyUnknown_written (by rfl)]
  simp [required, JsonFields.get?_insert, asString, readReplayTopology, readReplayPartition,
    asUnsigned_ofNat cursor.topology.version_valid.2, decodeReplayTopology_self,
    decodeReplayPartition_self, asUnsigned_ofNat hposition, ProjectionEpoch.new_self,
    ProjectionChangeCursor.new_self, Except.mapError]

theorem readReplayRecord_replayRecord (record : ProjectionRecordMetadata)
    : readReplayRecord crates (replayRecord crates record) = .ok record := by
  simp only [readReplayRecord, replayRecord, Json.ofFields, asObject, Result.ok_bind]
  rw [denyUnknown_written (by rfl)]
  simp [required, JsonFields.get?_insert, asBool, readReplayRevision_replayRevision,
    readReplayCursor_replayCursor]

/-- An optional part that is never written as `null` is read back. -/
theorem asOption_ofOption {α : Type} {read : Json → Except String α} {write : α → Json}
    (hnull : ∀ value, write value ≠ .null) (hread : ∀ value, read (write value) = .ok value)
    (part : Option α)
    : asOption read (some (ofOption write part)) = .ok part := by
  cases part with
  | none => rfl
  | some value =>
      have hvalue : asOption read (some (write value))
          = (read (write value) >>= fun inner => .ok (some inner)) := by
        unfold asOption
        split
        · simp_all
        · exact absurd (Option.some.inj ‹_›) (hnull value)
        · simp_all
      rw [ofOption, hvalue, hread]
      rfl

/-- An optional text is read and then decoded. -/
theorem asOption_asString {α : Type} (text : α → String) (part : Option α)
    : asOption asString (some (ofOption (fun value => .string (text value)) part))
      = .ok (part.map text) := by
  cases part with
  | none => rfl
  | some value => rfl

theorem mapM_decoded {α : Type} {text : α → String} {decode : String → Except String α}
    {part : Option α} (h : ∀ value ∈ part, decode (text value) = .ok value)
    : (part.map text).mapM decode = .ok part := by
  cases part with
  | none => rfl
  | some value =>
      change (decode (text value) >>= fun value => pure (some value)) = _
      rw [h value rfl]
      rfl

theorem readReplayOpaque_eq_ok {subject field value : String} {max : Nat}
    (h : ValidOpaque max value)
    : readReplayOpaque subject field value max = .ok value := by
  rw [readReplayOpaque, boundedOpaque, dif_pos h]
  rfl

theorem decodeReplayChangeKind_self (kind : ProjectionChangeKind)
    : decodeReplayChangeKind kind.asStorageStr = .ok kind := by
  cases kind <;> rfl

theorem decodeReplayObservationKind_self (kind : ProjectionObservationKind)
    : decodeReplayObservationKind kind.asStorageStr = .ok kind := by
  cases kind <;> rfl

theorem asOption_replayScope (scope : Option ProjectionRecordScope)
    : asOption (readReplayScope crates) (some (ofOption (replayScope crates) scope))
      = .ok scope :=
  asOption_ofOption (fun _ => by simp [replayScope, Json.ofFields])
    (readReplayScope_replayScope crates) scope

theorem asOption_replayRevision (revision : Option RecordRevision)
    : asOption (readReplayRevision crates) (some (ofOption (replayRevision crates) revision))
      = .ok revision :=
  asOption_ofOption (fun _ => by simp [replayRevision, Json.ofFields])
    (readReplayRevision_replayRevision crates) revision

/-- A change whose texts are within their bounds is read back. -/
theorem readReplayChange_replayChange {change : ProjectionChange}
    (hcausation : ValidOpaque maxCausationIdBytes change.causationId)
    (hfailure : ∀ failureId ∈ change.failureId, ValidOpaque maxFailureIdBytes failureId)
    : readReplayChange crates (replayChange crates change) = .ok change := by
  have hkind : (change.observationKind.map ProjectionObservationKind.asStorageStr).mapM
      decodeReplayObservationKind = .ok change.observationKind :=
    mapM_decoded fun kind _ => decodeReplayObservationKind_self kind
  have hfailureText : asOption asString (some (ofOption Json.string change.failureId))
      = .ok (change.failureId.map id) :=
    asOption_asString id change.failureId
  have hfailureId : (change.failureId.map id).mapM (fun failureId =>
      readReplayOpaque "change failure ID" "projection failure ID" failureId maxFailureIdBytes)
      = .ok change.failureId :=
    mapM_decoded fun failureId hmem => readReplayOpaque_eq_ok (hfailure failureId hmem)
  simp only [Option.map_id_fun, id_eq] at hfailureText hfailureId
  simp only [readReplayChange, replayChange, Json.ofFields, asObject, Result.ok_bind]
  rw [denyUnknown_written (by rfl)]
  simp [required, JsonFields.get?_insert, asString, asOption_asString, hkind, hfailureText,
    hfailureId, readReplayCursor_replayCursor, decodeReplayChangeKind_self,
    readReplayOpaque_eq_ok hcausation, asOption_replayScope, asOption_replayRevision]

theorem readReplayObservation_replayObservation {observation : ProjectionObservation}
    (hcausation : ValidOpaque maxCausationIdBytes observation.causationId)
    : readReplayObservation crates (replayObservation crates observation)
      = .ok observation := by
  simp only [readReplayObservation, replayObservation, Json.ofFields, asObject, Result.ok_bind]
  rw [denyUnknown_written (by rfl)]
  simp [required, JsonFields.get?_insert, asString, decodeReplayObservationKind_self,
    readReplayOpaque_eq_ok hcausation, asOption_replayRevision, readReplayScope_replayScope,
    readReplayCursor_replayCursor]

/-- Evidence that the reader would accept is read back from what it is written as. -/
theorem fromReplayValue_replayValue {evidence : SameTransactionProjectionEvidence}
    (hchanges : ∀ change ∈ evidence.changes,
      ValidOpaque maxCausationIdBytes change.causationId ∧ change.failureId = none)
    (hobservations : ∀ observation ∈ evidence.observations,
      ValidOpaque maxCausationIdBytes observation.causationId)
    (hvalid : validateReplayEvidence evidence = .ok ())
    : SameTransactionProjectionEvidence.fromReplayValue crates (evidence.replayValue crates)
      = .ok evidence := by
  have hrecord : (evidence.records.map (replayRecord crates)).mapM (readReplayRecord crates)
      = .ok evidence.records :=
    Result.mapM_map_eq_ok fun record _ => readReplayRecord_replayRecord crates record
  have hchange : (evidence.changes.map (replayChange crates)).mapM (readReplayChange crates)
      = .ok evidence.changes := by
    refine Result.mapM_map_eq_ok fun change hmem => ?_
    obtain ⟨hcausation, hfailure⟩ := hchanges change hmem
    exact readReplayChange_replayChange crates hcausation (by simp [hfailure])
  have hobservation : (evidence.observations.map (replayObservation crates)).mapM
      (readReplayObservation crates) = .ok evidence.observations :=
    Result.mapM_map_eq_ok fun observation hmem =>
      readReplayObservation_replayObservation crates (hobservations observation hmem)
  have hread : readReplayEnvelope crates (evidence.replayValue crates) = .ok evidence := by
    simp only [readReplayEnvelope, SameTransactionProjectionEvidence.replayValue,
      Json.ofFields, asObject, Result.ok_bind]
    rw [denyUnknown_written (by rfl)]
    simp [required, JsonFields.get?_insert, asArray, hrecord, hchange, hobservation,
      asUnsigned_ofNat (show 1 < 2 ^ 16 by decide), hvalid]
  simp [SameTransactionProjectionEvidence.fromReplayValue, hread]

end Parts

end Distributed.ProjectionProtocol
