import Distributed.Foundation.Map
import Distributed.Platform.Text
import Distributed.Platform.Time

/-! Replayable event records.
-/

namespace Distributed.Entities

open Distributed.Foundation Distributed.Platform

def bitcodePayloadCodec : String := "bitcode"

def bitcodePayloadCodecVersion : Nat := 1

structure EventRecordError where
  message : String
deriving DecidableEq

def EventRecordError.unsupportedCodec (codec : String) (codecVersion : Nat)
    : EventRecordError :=
  ⟨s!"unsupported payload codec `{codec}` version {codecVersion}"⟩

abbrev Metadata : Type := Map String String

structure EventRecord where
  eventName : String
  payloadCodec : String
  payloadCodecVersion : Nat
  payload : Bytes
  eventVersion : Nat
  sequence : Nat
  timestamp : SystemTime
  metadata : Metadata

/-- `EventRecord::new_versioned` at the given clock reading; `EventRecord::new` is the
case `version = 1`. -/
def EventRecord.newVersioned (eventName : String) (payload : Bytes) (sequence version : Nat)
    (now : SystemTime) : EventRecord where
  eventName
  payloadCodec := bitcodePayloadCodec
  payloadCodecVersion := bitcodePayloadCodecVersion
  payload
  eventVersion := version
  sequence
  timestamp := now
  metadata := ∅

/-- The constant `CAUSATION_ID` of the trace context. -/
def causationIdKey : String := "causation_id"

def eqIgnoreAsciiCase (left right : String) : Bool :=
  left.toList.map Char.toLower = right.toList.map Char.toLower

/-- Drop every spelling of the causation key and write the canonical one. -/
def Metadata.overwriteCausationId (metadata : Metadata) (id : String) : Metadata :=
  let kept : Metadata :=
    ⟨metadata.entries.filter fun entry => !eqIgnoreAsciiCase entry.1 causationIdKey,
      metadata.nodupKeys.sublist List.filter_sublist⟩
  kept.insert causationIdKey id

theorem Metadata.lookup_overwriteCausationId (metadata : Metadata) (id : String)
    : AList.lookup causationIdKey (Metadata.overwriteCausationId metadata id) = some id :=
  AList.lookup_insert _

/-- `causation_id`. -/
def EventRecord.causationId (event : EventRecord) : Option String :=
  event.metadata.lookup causationIdKey

def EventRecord.overwriteCausationId (event : EventRecord) (id : String) : EventRecord :=
  { event with metadata := Metadata.overwriteCausationId event.metadata id }

inductive UpcastError where
  | sameVersionTransition (eventType : String) (version : Nat)
  | backwardTransition (eventType : String) (fromVersion toVersion : Nat)
  | cycleDetected (eventType : String) (version : Nat)
  | payloadTransform (eventType : String) (fromVersion toVersion : Nat)
      (source : EventRecordError)
deriving DecidableEq

def EventRecordError.text (error : EventRecordError) : String :=
  "event record error: " ++ error.message

def UpcastError.text : UpcastError → String
  | .sameVersionTransition eventType version =>
      s!"upcaster for event {eventType} does not advance version {version}"
  | .backwardTransition eventType fromVersion toVersion =>
      s!"upcaster for event {eventType} regresses version from {fromVersion} to {toVersion}"
  | .cycleDetected eventType version =>
      s!"upcaster chain for event {eventType} cycles back to version {version}"
  | .payloadTransform eventType fromVersion toVersion source =>
      let cause := source.text
      s!"failed to upcast event {eventType} from version {fromVersion} to {toVersion}: {cause}"

structure EventUpcaster where
  eventType : String
  fromVersion : Nat
  toVersion : Nat
  transform : EventRecord → Except UpcastError Bytes

/-- The upcaster takes the event at its current version. -/
def EventUpcaster.matches (upcaster : EventUpcaster) (event : EventRecord) : Bool :=
  upcaster.eventType = event.eventName && upcaster.fromVersion = event.eventVersion

def upcasterApplies (upcasters : List EventUpcaster) (event : EventRecord) : Bool :=
  upcasters.any fun upcaster => upcaster.matches event

/-- The upcasters that could still take an event of at least this version. -/
def remainingUpcasters (upcasters : List EventUpcaster) (version : Nat) : Nat :=
  upcasters.countP fun upcaster => version ≤ upcaster.fromVersion

theorem remainingUpcasters_lt {upcasters : List EventUpcaster} {upcaster : EventUpcaster}
    {version : Nat} (hmem : upcaster ∈ upcasters) (hversion : upcaster.fromVersion < version)
    : remainingUpcasters upcasters version
      < remainingUpcasters upcasters upcaster.fromVersion := by
  unfold remainingUpcasters
  rw [List.countP_eq_length_filter, List.countP_eq_length_filter]
  have hsub : upcasters.filter (fun other => decide (version ≤ other.fromVersion))
      = (upcasters.filter fun other => decide (upcaster.fromVersion ≤ other.fromVersion)).filter
        fun other => decide (version ≤ other.fromVersion) := by
    rw [List.filter_filter]
    refine List.filter_congr fun other _ => ?_
    have himp : version ≤ other.fromVersion → upcaster.fromVersion ≤ other.fromVersion := by
      omega
    by_cases h : version ≤ other.fromVersion
    · simp [h, himp h]
    · simp [h]
  rw [hsub]
  refine List.length_filter_lt_length_iff_exists.mpr ⟨upcaster, ?_, ?_⟩
  · exact List.mem_filter.mpr ⟨hmem, by simp⟩
  · simpa using hversion

/-- The loop of `upcast_one`; `seen` holds the versions the event went through. -/
def upcastLoop (upcasters : List EventUpcaster) (seen : List Nat) (event : EventRecord)
    : Except UpcastError EventRecord :=
  match _hfind : upcasters.find? fun upcaster => upcaster.matches event with
  | none => .ok event
  | some upcaster =>
      if upcaster.toVersion = event.eventVersion then
        .error (.sameVersionTransition event.eventName event.eventVersion)
      else if upcaster.toVersion ∈ seen then
        .error (.cycleDetected event.eventName upcaster.toVersion)
      else if upcaster.toVersion < event.eventVersion then
        .error (.backwardTransition event.eventName event.eventVersion upcaster.toVersion)
      else
        match upcaster.transform event with
        | .error error => .error error
        | .ok payload =>
            upcastLoop upcasters (seen ++ [upcaster.toVersion])
              { event with payload, eventVersion := upcaster.toVersion }
termination_by remainingUpcasters upcasters event.eventVersion
decreasing_by
  have hmatches := List.find?_some _hfind
  simp only [EventUpcaster.matches, Bool.and_eq_true, decide_eq_true_eq] at hmatches
  rw [← hmatches.2]
  exact remainingUpcasters_lt (List.mem_of_find?_eq_some _hfind) (by omega)

def upcastOne (upcasters : List EventUpcaster) (event : EventRecord)
    : Except UpcastError EventRecord :=
  upcastLoop upcasters [event.eventVersion] event

/-- `upcast_events_for_replay`: `none` when no upcaster applies to any event. -/
def upcastEventsForReplay (events : List EventRecord) (upcasters : List EventUpcaster)
    : Except UpcastError (Option (List EventRecord)) :=
  if upcasters.isEmpty || !events.any (upcasterApplies upcasters) then .ok none
  else
    (events.mapM fun event =>
      if upcasterApplies upcasters event then upcastOne upcasters event
      else .ok event).map some

end Distributed.Entities
