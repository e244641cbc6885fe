import Distributed.Entities.EventRecord
import Distributed.Foundation.SortedMap
import Distributed.Platform.Crates
import Mathlib.Data.String.Basic

/-! Outward domain events captured at transition time.
Bodies and occurrences are kept as their canonical JSON text; the bytes of the source are
its UTF-8 form. What a caller hands over as a `Serialize` value is the outcome of
`serde_json::to_value` on it.
-/

namespace Distributed.DomainEvent

open Distributed.Entities Distributed.Foundation Distributed.Platform

inductive DomainEventBodyKind where
  | state
  | event
  | deletion
deriving DecidableEq

def DomainEventBodyKind.asStr : DomainEventBodyKind → String
  | .state => "state"
  | .event => "event"
  | .deletion => "deletion"

structure DomainEventBodyDescriptor where
  kind : DomainEventBodyKind
  typeName : String
  version : Nat
  schema : String
  fingerprint : String
  codec : String
  codecVersion : Nat
deriving DecidableEq

structure DomainEventDescriptor where
  name : String
  version : Nat
  body : DomainEventBodyDescriptor
deriving DecidableEq

mutual

def canonicalJsonValue : Json → Json
  | .array items => .array (canonicalJsonItems items)
  | .object fields => .ofFields (canonicalJsonFields fields)
  | .null => .null
  | .bool value => .bool value
  | .number value => .number value
  | .string value => .string value

def canonicalJsonItems : List Json → List Json
  | [] => []
  | item :: rest => canonicalJsonValue item :: canonicalJsonItems rest

def canonicalJsonFields : JsonFields → JsonFields
  | [] => []
  | (key, value) :: rest => (key, canonicalJsonValue value) :: canonicalJsonFields rest

end

/-- `canonical_json_bytes` on a value that was already converted. -/
def canonicalJsonText (crates : Crates) (value : Json) : String :=
  crates.jsonToString (canonicalJsonValue value)

structure DomainEventOccurrence where
  occurrenceVersion : Nat
  id : String
  descriptor : DomainEventDescriptor
  aggregateType : String
  aggregateId : String
  aggregateSequence : Nat
  publicationOrdinal : Nat
  occurredAtUnixMs : Nat
  body : String
  metadata : SortedMap String String
deriving DecidableEq

/-- `overwrite_causation_id`. -/
def DomainEventOccurrence.overwriteCausationId (occurrence : DomainEventOccurrence)
    (id : String) : DomainEventOccurrence :=
  { occurrence with
    metadata := (occurrence.metadata.filterKeys fun key =>
      !eqIgnoreAsciiCase key causationIdKey).insert causationIdKey id }

end Distributed.DomainEvent
