import Distributed.Entities.Entity

/-! Recording events on an entity.
An entity is coherent when its counters and the sequence numbers of its events agree;
loading, recording and committing keep it so.
-/

namespace Distributed.Entities

open Distributed.Foundation Distributed.Platform

/-- The omitted events count as well as the held ones. -/
def Entity.nextSequence (entity : Entity) : Nat :=
  entity.prefixVersion + entity.events.length + 1

def Entity.pushNewEvent (entity : Entity) (record : EventRecord) (now : SystemTime) : Entity :=
  { entity with
    events := entity.events ++ [record]
    version := entity.prefixVersion + (entity.events ++ [record]).length
    timestamp := now }

/-- `digest_v`; `digest` is the case of version one. `encoded` is the answer of the payload
codec; the record and the entity read the clock one after the other. -/
def Entity.digestV (entity : Entity) (name : String) (version : Nat)
    (encoded : Except EventRecordError Bytes) (recordedAt now : SystemTime)
    : Except EventRecordError Entity :=
  if entity.replaying then .ok entity
  else do
    let bytes ← encoded
    let record := EventRecord.newVersioned name bytes entity.nextSequence version recordedAt
    let record :=
      if entity.metadata.entries.isEmpty then record
      else { record with metadata := entity.metadata }
    .ok (entity.pushNewEvent record now)

/-- Encoded by the codec that a commit accepts. -/
def EventRecord.HasSupportedCodec (event : EventRecord) : Prop :=
  event.payloadCodec = bitcodePayloadCodec
    ∧ event.payloadCodecVersion = bitcodePayloadCodecVersion

/-- The counters agree with the events, and the new events can be stored. -/
structure Entity.Coherent (entity : Entity) : Prop where
  omitted_le : entity.prefixVersion ≤ entity.committedVersion
  committed_le : entity.committedVersion ≤ entity.version
  version_eq : entity.version = entity.prefixVersion + entity.events.length
  sequences : entity.events.map EventRecord.sequence
    = List.range' (entity.prefixVersion + 1) entity.events.length
  codecs : ∀ event ∈ entity.newEvents, event.HasSupportedCodec

namespace Entity.Coherent

variable {entity : Entity}

/-- The slice of `new_events` starts inside the held events. -/
theorem start_le (h : entity.Coherent)
    : entity.committedVersion - entity.prefixVersion ≤ entity.events.length := by
  have := h.committed_le
  have := h.version_eq
  omega

theorem length_newEvents (h : entity.Coherent)
    : entity.committedVersion + entity.newEvents.length = entity.version := by
  have := h.start_le
  have := h.omitted_le
  have := h.version_eq
  rw [newEvents, List.length_drop]
  omega

/-- New events continue the numbering of the stored ones. -/
theorem newEvents_sequences (h : entity.Coherent)
    : entity.newEvents.map EventRecord.sequence
      = List.range' (entity.committedVersion + 1) entity.newEvents.length := by
  have homitted := h.omitted_le
  rw [newEvents, List.map_drop, h.sequences, List.drop_range', List.length_drop]
  congr 1
  omega

theorem withId (id : String) (now : SystemTime) : (Entity.withId id now).Coherent where
  omitted_le := Nat.le_refl 0
  committed_le := Nat.le_refl 0
  version_eq := rfl
  sequences := rfl
  codecs event h := by simp [newEvents, Entity.withId] at h

/-- What holds all of its events as stored ones has no new event. -/
theorem of_committed (hsequences : entity.events.map EventRecord.sequence
      = List.range' (entity.prefixVersion + 1) entity.events.length)
    (hversion : entity.version = entity.prefixVersion + entity.events.length)
    (hcommitted : entity.committedVersion = entity.version)
    : entity.Coherent := by
  refine ⟨by omega, by omega, hversion, hsequences, fun event h => ?_⟩
  rw [newEvents, List.drop_of_length_le (by omega)] at h
  exact absurd h List.not_mem_nil

theorem loadFromHistory {history : List EventRecord}
    (h : history.map EventRecord.sequence = List.range' 1 history.length)
    : (entity.loadFromHistory history).Coherent :=
  of_committed h (Nat.zero_add _).symm rfl

theorem loadTailFromHistory {tail : List EventRecord} {omitted : Nat}
    (h : tail.map EventRecord.sequence = List.range' (omitted + 1) tail.length)
    : (entity.loadTailFromHistory tail omitted).Coherent :=
  of_committed h rfl rfl

theorem markCommitted (h : entity.Coherent) : entity.markCommitted.Coherent :=
  of_committed h.sequences h.version_eq rfl

theorem newEvents_pushNewEvent (h : entity.Coherent) (record : EventRecord)
    (now : SystemTime)
    : (entity.pushNewEvent record now).newEvents = entity.newEvents ++ [record] :=
  List.drop_append_of_le_length h.start_le

theorem pushNewEvent (h : entity.Coherent) {record : EventRecord} (now : SystemTime)
    (hsequence : record.sequence = entity.nextSequence) (hcodec : record.HasSupportedCodec)
    : (entity.pushNewEvent record now).Coherent where
  omitted_le := h.omitted_le
  committed_le := by
    have := h.committed_le
    have := h.version_eq
    simp only [Entity.pushNewEvent, List.length_append]
    omega
  version_eq := rfl
  sequences := by
    simp only [Entity.pushNewEvent, List.map_append, List.map_cons, List.map_nil, h.sequences,
      List.length_append, List.length_singleton, List.range'_concat, hsequence,
      Entity.nextSequence]
    congr 2
    omega
  codecs event hevent := by
    rw [h.newEvents_pushNewEvent] at hevent
    rcases List.mem_append.mp hevent with hold | hnew
    · exact h.codecs event hold
    · exact List.mem_singleton.mp hnew ▸ hcodec

/-- Recording keeps the entity coherent, adds at most one event after the others and changes
nothing of what is stored. -/
theorem digestV {recorded : Entity} (h : entity.Coherent) {name : String} {version : Nat}
    {encoded : Except EventRecordError Bytes} {recordedAt now : SystemTime}
    (hrecord : entity.digestV name version encoded recordedAt now = .ok recorded)
    : recorded.Coherent ∧ recorded.id = entity.id
      ∧ recorded.committedVersion = entity.committedVersion
      ∧ entity.newEvents <+: recorded.newEvents := by
  unfold Entity.digestV at hrecord
  split at hrecord
  · cases hrecord
    exact ⟨h, rfl, rfl, List.prefix_rfl⟩
  · cases encoded with
    | error error => cases hrecord
    | ok bytes =>
        cases hrecord
        refine ⟨h.pushNewEvent now ?_ ?_, rfl, rfl, ?_⟩
        · split <;> rfl
        · split <;> exact ⟨rfl, rfl⟩
        · rw [h.newEvents_pushNewEvent]
          exact List.prefix_append _ _

end Entity.Coherent

end Distributed.Entities
