import Distributed.Foundation.Map
import Distributed.Foundation.Result
import Distributed.Foundation.Sorting
import Distributed.Platform.Json
import Distributed.Platform.JsText

/-! Values, revisions, stored rows and checks of the browser cache engine.
A JavaScript object or `Map` is a map with distinct keys. Revisions inside the engine are
the tokens `revisionToken` makes of what callers pass.
-/

namespace Distributed.CacheEngine

open Distributed.Foundation Distributed.Platform

abbrev RecordKey : Type := String

abbrev IndexKey : Type := String

/-- `CacheValue`: finite JSON values, compared by `deepEqual`. -/
abbrev CacheValue : Type := Json

inductive RecordLink where
  | null
  | one (key : RecordKey)
  | many (keys : List RecordKey)
deriving DecidableEq

/-- The dependency texts of `helpers.ts`, each a JSON array with its own shape. -/
inductive Dependency where
  | recordSeen (key : RecordKey)
  | recordWildcard (key : RecordKey)
  | recordField (key : RecordKey) (name : String)
  | recordLink (key : RecordKey) (name : String)
  | index (key : IndexKey)
deriving DecidableEq

inductive CacheError where
  | type (message : String)
  | message (text : String)
  | revisionConflict (dependency : Dependency) (revision : Nat)
  | layerNotFound (layerId : String)
deriving DecidableEq

/-- `assertName`. -/
def assertName (value description : String) : Except CacheError Unit :=
  if value = "" then .error (.type s!"{description} must be a non-empty string") else .ok ()

/-- A name that may be left out. -/
def assertOptionalName (value : Option String) (description : String)
    : Except CacheError Unit :=
  match value with
  | some value => assertName value description
  | none => .ok ()

def validateRecordKey (key : RecordKey) : Except CacheError Unit :=
  assertName key "record key"

/-- `validateRecordKeys`: names that do not repeat. -/
def validateRecordKeys : List RecordKey → Except CacheError Unit :=
  go []
where
  go (seen : List RecordKey) : List RecordKey → Except CacheError Unit
    | [] => .ok ()
    | key :: rest => do
        validateRecordKey key
        if key ∈ seen then .error (.type s!"duplicate record in index: {key}")
        else go (key :: seen) rest

/-- What callers pass as a revision. A number that is not finite has no value. -/
inductive Revision where
  | number (value : Option Rat)
  | string (value : String)
  | bigint (value : Int)

/-- `Number.MAX_SAFE_INTEGER`. -/
def maxSafeInteger : Nat := 2 ^ 53 - 1

/-- `Number.isSafeInteger(value) && value >= 0`, with the integer. -/
def unsignedSafeInteger? : Option Rat → Option Nat
  | some value =>
      if value.den = 1 ∧ 0 ≤ value.num ∧ value.num.toNat ≤ maxSafeInteger then
        some value.num.toNat
      else none
  | none => none

/-- `/^(0|[1-9][0-9]*)$/`, with the number it spells. -/
def canonicalUnsigned? (value : String) : Option Nat :=
  match value.toList with
  | [] => none
  | ['0'] => some 0
  | '0' :: _ => none
  | digits =>
      if digits.all Char.isDigit then
        some (digits.foldl (fun number digit => 10 * number + (digit.toNat - '0'.toNat)) 0)
      else none

def revisionToken : Revision → Except CacheError Nat
  | .bigint value =>
      if value < 0 then .error (.type "revision must be an unsigned integer")
      else .ok value.toNat
  | .number value =>
      match unsignedSafeInteger? value with
      | some token => .ok token
      | none => .error (.type "numeric revision must be an unsigned safe integer")
  | .string value =>
      match canonicalUnsigned? value with
      | some token => .ok token
      | none => .error (.type "string revision must be a canonical unsigned integer")

/-- A revision that may be left out. -/
def optionalToken : Option Revision → Except CacheError (Option Nat)
  | none => .ok none
  | some revision => (revisionToken revision).map some

/-- The clock of a record: its incarnation, then its revision. -/
structure RecordClock where
  incarnation : Nat
  revision : Nat
deriving DecidableEq

def compareRecordTuple (left right : RecordClock) : Ordering :=
  if left.incarnation < right.incarnation then .lt
  else if right.incarnation < left.incarnation then .gt
  else if left.revision < right.revision then .lt
  else if right.revision < left.revision then .gt
  else .eq

/-- Incarnations come first, revisions second. -/
def RecordClock.Before (left right : RecordClock) : Prop :=
  left.incarnation < right.incarnation
  ∨ left.incarnation = right.incarnation ∧ left.revision < right.revision

instance (left right : RecordClock) : Decidable (left.Before right) :=
  inferInstanceAs (Decidable (_ ∨ _))

theorem compareRecordTuple_eq_lt {left right : RecordClock}
    : compareRecordTuple left right = .lt ↔ left.Before right := by
  unfold compareRecordTuple RecordClock.Before
  grind

theorem compareRecordTuple_eq_gt {left right : RecordClock}
    : compareRecordTuple left right = .gt ↔ right.Before left := by
  unfold compareRecordTuple RecordClock.Before
  grind

theorem compareRecordTuple_eq_eq {left right : RecordClock}
    : compareRecordTuple left right = .eq ↔ left = right := by
  obtain ⟨i, r⟩ := left
  obtain ⟨j, s⟩ := right
  simp only [compareRecordTuple, RecordClock.mk.injEq]
  grind

theorem RecordClock.Before.asymm {left right : RecordClock} (h : left.Before right)
    : ¬right.Before left := by
  unfold RecordClock.Before at *
  omega

theorem RecordClock.before_trichotomy (left right : RecordClock)
    : left.Before right ∨ left = right ∨ right.Before left := by
  obtain ⟨i, r⟩ := left
  obtain ⟨j, s⟩ := right
  simp only [RecordClock.Before, RecordClock.mk.injEq]
  omega

theorem RecordClock.Before.trans {first second third : RecordClock}
    (h : first.Before second) (hnext : second.Before third)
    : first.Before third := by
  unfold RecordClock.Before at *
  omega

inductive CacheIndexCoverage where
  | complete
  | unknown
  | offset (offset : Nat) (limit returned : Option Nat) (hasNext : Option Bool)
  | cursor (after before : Option CacheValue) (first last : Option Nat)
      (start stop : Option CacheValue) (hasNext hasPrevious : Option Bool)
deriving DecidableEq

structure CacheIndexMetadata where
  parent : Option RecordKey
  parentRevision : Option Nat
  parentIncarnation : Option Nat
  field : String
  arguments : JsonFields
  coverage : CacheIndexCoverage
  dependencies : List String
  staleReason : Option String
  nullValue : Option Bool
deriving DecidableEq

/-- What the engine takes from the language: `JSON.stringify` of a value that is no object. -/
structure Host where
  stringify : CacheValue → String

mutual

def canonicalValue (host : Host) : CacheValue → String
  | .array items => "[" ++ ",".intercalate (canonicalItems host items) ++ "]"
  | .object fields =>
      -- `Object.keys(record).sort()` orders names by their code units.
      let sorted := sortBy
        (fun field other => decide (JsString.ofText field.1 < JsString.ofText other.1))
        (canonicalFields host fields)
      "\x7b" ++ ",".intercalate (sorted.map fun field =>
        host.stringify (.string field.1) ++ ":" ++ field.2) ++ "\x7d"
  | .null => host.stringify .null
  | .bool value => host.stringify (.bool value)
  | .number value => host.stringify (.number value)
  | .string value => host.stringify (.string value)

def canonicalItems (host : Host) : List CacheValue → List String
  | [] => []
  | item :: rest => canonicalValue host item :: canonicalItems host rest

def canonicalFields (host : Host) : List (String × CacheValue) → List (String × String)
  | [] => []
  | (name, value) :: rest => (name, canonicalValue host value) :: canonicalFields host rest

end

def checkIndexDependencies : List String → List String → Except CacheError Unit
  | _, [] => .ok ()
  | seen, dependency :: rest => do
      assertName dependency "index dependency"
      if dependency ∈ seen then .error (.type s!"duplicate index dependency: {dependency}")
      else checkIndexDependencies (dependency :: seen) rest

/-- The checks of `cloneIndexMetadata` that its types leave open. -/
def cloneIndexMetadata (metadata : CacheIndexMetadata)
    : Except CacheError CacheIndexMetadata := do
  assertName metadata.field "index field"
  assertOptionalName metadata.parent "record key"
  checkIndexDependencies [] metadata.dependencies
  assertOptionalName metadata.staleReason "index stale reason"
  .ok metadata

def cacheIndexKey (host : Host) (metadata : CacheIndexMetadata) : IndexKey :=
  let parent := metadata.parent.getD "$root"
  let arguments := canonicalValue host (.object metadata.arguments)
  s!"{parent}.{metadata.field}({arguments})"

def validateIndexWrite (host : Host) (key : IndexKey) (records : List RecordKey)
    (metadata : Option CacheIndexMetadata) : Except CacheError Unit := do
  assertName key "index key"
  validateRecordKeys records
  match metadata with
  | none => .ok ()
  | some metadata => do
      let metadata ← cloneIndexMetadata metadata
      if key = cacheIndexKey host metadata then .ok ()
      else
        .error (.type ("index key does not match its metadata: expected "
          ++ cacheIndexKey host metadata))

def indexMetadataWithoutStaleReason (metadata : Option CacheIndexMetadata)
    : Option CacheIndexMetadata :=
  metadata.map fun metadata => { metadata with staleReason := none }

/-- `coverageRequestIdentity`: the part of a coverage that was asked for. -/
def coverageRequestIdentity : CacheIndexCoverage → CacheIndexCoverage
  | .complete => .complete
  | .unknown => .unknown
  | .offset offset limit _ _ => .offset offset limit none none
  | .cursor after before first last _ _ _ _ =>
      .cursor after before first last none none none none

/-- `refinementMetadataIdentity`, which leaves the stale reason out. -/
def refinementMetadataIdentity (metadata : CacheIndexMetadata) : CacheIndexMetadata :=
  { metadata with
    coverage := coverageRequestIdentity metadata.coverage
    staleReason := none }

def refinementMetadataCompatible (current next : Option CacheIndexMetadata) : Bool :=
  current.map refinementMetadataIdentity = next.map refinementMetadataIdentity

/-- `isOrderedSubsequence`: `known` occurs in `complete` in its own order. -/
def isOrderedSubsequence : List RecordKey → List RecordKey → Bool
  | [], _ => true
  | _ :: _, [] => false
  | first :: known, key :: complete =>
      if key = first then isOrderedSubsequence known complete
      else isOrderedSubsequence (first :: known) complete

structure StoredField (Value : Type) where
  revision : Nat
  value : Value
deriving DecidableEq

structure StoredRecord where
  revision : Nat
  incarnation : Nat
  tombstoneRevision : Option Nat
  fields : Map String (StoredField CacheValue)
  links : Map String (StoredField RecordLink)
deriving DecidableEq

def StoredRecord.clock (record : StoredRecord) : RecordClock :=
  ⟨record.incarnation, record.revision⟩

/-- A live record without fields. -/
def StoredRecord.fresh (clock : RecordClock) : StoredRecord :=
  ⟨clock.revision, clock.incarnation, none, ∅, ∅⟩

def StoredRecord.tombstone (clock : RecordClock) : StoredRecord :=
  ⟨clock.revision, clock.incarnation, some clock.revision, ∅, ∅⟩

structure StoredIndex where
  revision : Nat
  staleRevision : Option Nat
  records : List RecordKey
  complete : Bool
  deleted : Bool
  metadata : Option CacheIndexMetadata
deriving DecidableEq

end Distributed.CacheEngine
