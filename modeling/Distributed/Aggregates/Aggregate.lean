import Distributed.Entities.Entity
import Distributed.Entities.EventRecord
import Distributed.Foundation.Transaction
import Distributed.Repository.Error

/-! Event-sourced aggregates and their replay.
-/

namespace Distributed.Aggregates

open Distributed.Entities Distributed.Foundation Distributed.Repository

/-- What an application type provides to be event-sourced. -/
structure Aggregate (A : Type) where
  aggregateType : String
  newEmpty : A
  /-- The field behind `entity` and `entity_mut`. -/
  entity : Lens A Entity
  /-- `replay_event`, with the text of its error. -/
  replayEvent : EventRecord → A → Except String A
  upcasters : List EventUpcaster

namespace Aggregate

variable {A : Type} (model : Aggregate A)

def modifyEntity (change : Entity → Entity) (aggregate : A) : A :=
  model.entity.set (change (model.entity.get aggregate)) aggregate

/-- `replay_into` of `hydrate` and `replay_events` of the snapshot loader, which differ in
the type of their error only. The aggregate is dropped when an event does not apply. -/
def replayInto (aggregate : A) (events : List EventRecord) : Except String A := do
  let started := model.modifyEntity (fun entity => { entity with replaying := true }) aggregate
  let replayed ← events.foldlM (fun aggregate event => model.replayEvent event aggregate) started
  .ok (model.modifyEntity (fun entity => { entity with replaying := false }) replayed)

/-- Replay what the upcasters make of the events. -/
def replayUpcasted (aggregate : A) (events : List EventRecord) : Except String A := do
  let view ← (upcastEventsForReplay events model.upcasters).mapError UpcastError.text
  model.replayInto aggregate (view.getD events)

def hydrate (entity : Entity) : Except RepositoryError A := do
  let started := model.entity.set { entity with events := [] } model.newEmpty
  let replayed ← (model.replayUpcasted started entity.events).mapError .replay
  .ok (model.modifyEntity (fun held => held.loadFromHistory entity.events) replayed)

end Aggregate

end Distributed.Aggregates
