import Distributed.DomainEvent.Occurrence

/-! Event-sourced entities and their version bookkeeping.
An entity holds the events after `prefixVersion`; the first `committedVersion -
prefixVersion` of them are stored and the rest are new.
-/

namespace Distributed.Entities

open Distributed.DomainEvent Distributed.Foundation Distributed.Platform

structure Entity where
  id : String
  version : Nat
  events : List EventRecord
  prefixVersion : Nat
  replaying : Bool
  snapshotVersion : Nat
  committedVersion : Nat
  timestamp : SystemTime
  metadata : Metadata
  pendingDomainEvents : List DomainEventOccurrence

/-- `Entity::with_id` at the given clock reading. -/
def Entity.withId (id : String) (now : SystemTime) : Entity where
  id
  version := 0
  events := []
  prefixVersion := 0
  replaying := false
  snapshotVersion := 0
  committedVersion := 0
  timestamp := now
  metadata := ∅
  pendingDomainEvents := []

/-- `new_events`. The slice panics in the source when the committed position lies outside
the held events, which `Entity.Coherent` rules out. -/
def Entity.newEvents (entity : Entity) : List EventRecord :=
  entity.events.drop (entity.committedVersion - entity.prefixVersion)

def Entity.markCommitted (entity : Entity) : Entity :=
  { entity with committedVersion := entity.version }

def Entity.loadFromHistory (entity : Entity) (history : List EventRecord) : Entity :=
  { entity with
    events := history
    prefixVersion := 0
    version := history.length
    committedVersion := history.length }

def Entity.loadTailFromHistory (entity : Entity) (tail : List EventRecord)
    (prefixVersion : Nat) : Entity :=
  { entity with
    events := tail
    prefixVersion
    version := prefixVersion + tail.length
    committedVersion := prefixVersion + tail.length }

/-- Stamp the new events, the pending occurrences and the metadata with the command's
causation. -/
def Entity.overwriteNewEventCausationId (entity : Entity) (id : String) : Entity :=
  let start := entity.committedVersion - entity.prefixVersion
  { entity with
    events :=
      entity.events.take start
        ++ (entity.events.drop start).map fun event => event.overwriteCausationId id
    pendingDomainEvents :=
      entity.pendingDomainEvents.map fun occurrence => occurrence.overwriteCausationId id
    metadata := Metadata.overwriteCausationId entity.metadata id }

theorem Entity.newEvents_overwriteNewEventCausationId (entity : Entity) (id : String)
    : (entity.overwriteNewEventCausationId id).newEvents
      = entity.newEvents.map fun event => event.overwriteCausationId id := by
  rw [Entity.newEvents, Entity.newEvents]
  simp only [Entity.overwriteNewEventCausationId]
  generalize entity.committedVersion - entity.prefixVersion = start
  by_cases hstart : start ≤ entity.events.length
  · have htake : (entity.events.take start).length = start := by
      rw [List.length_take]
      omega
    rw [List.drop_append, htake, List.drop_of_length_le (Nat.le_of_eq htake),
      List.nil_append, Nat.sub_self, List.drop_zero]
  · have hnone : entity.events.drop start = [] := List.drop_of_length_le (by omega)
    rw [hnone, List.map_nil, List.append_nil, List.take_of_length_le (by omega), hnone]

end Distributed.Entities
