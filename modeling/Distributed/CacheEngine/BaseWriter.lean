import Distributed.CacheEngine.Types
import Distributed.Foundation.Transaction

/-! The writer of confirmed state.
Each operation works on the state of the transaction in progress and keeps what it wrote
before an error: rolling back is up to the transaction, and a caller may catch the error.
-/

namespace Distributed.CacheEngine

open Distributed.Foundation Distributed.Platform

/-- `changedDependencies` and `dirty`. `all` stands for the dependency `'*'`. -/
structure Marks where
  all : Bool
  dependencies : List Dependency
  dirty : Bool
deriving DecidableEq

def Marks.none : Marks := ⟨false, [], false⟩

def Marks.add (dependencies : List Dependency) (marks : Marks) : Marks :=
  { marks with dependencies := marks.dependencies ++ dependencies }

def Marks.setDirty (marks : Marks) : Marks := { marks with dirty := true }

/-- Confirmed records and indexes inside a transaction, with what it marked so far. -/
structure BaseDraft where
  records : Map RecordKey StoredRecord
  indexes : Map IndexKey StoredIndex
  lifecycleIndexes : List IndexKey
  marks : Marks

def BaseDraft.setRecord (key : RecordKey) (record : StoredRecord) (draft : BaseDraft)
    : BaseDraft :=
  { draft with records := draft.records.insert key record }

def BaseDraft.setIndex (key : IndexKey) (index : StoredIndex) (draft : BaseDraft)
    : BaseDraft :=
  { draft with indexes := draft.indexes.insert key index }

/-- Note what changed, for the watchers. -/
def BaseDraft.mark (dependencies : List Dependency) (draft : BaseDraft) : BaseDraft :=
  { draft with marks := (draft.marks.add dependencies).setDirty }

structure RecordWrite where
  key : RecordKey
  revision : Revision
  incarnation : Option Revision
  fields : Map String CacheValue
  links : Map String RecordLink

def checkFieldNames : List String → Except CacheError Unit
  | [] => .ok ()
  | name :: rest => do
      assertName name "record field"
      checkFieldNames rest

/-- The checks of `cloneLink`. -/
def checkLink : RecordLink → Except CacheError Unit
  | .null => .ok ()
  | .one key => validateRecordKey key
  | .many keys => validateRecordKeys keys

def checkLinks : List (String × RecordLink) → Except CacheError Unit
  | [] => .ok ()
  | (name, link) :: rest => do
      assertName name "record link"
      checkLink link
      checkLinks rest

/-- The clock a record is written at, or nothing when the write is out of date. -/
def admitClock (key : RecordKey) (requested : Option Nat) (revision : Nat)
    : Option StoredRecord → Except CacheError (Option RecordClock)
  | none => .ok (some ⟨requested.getD revision, revision⟩)
  | some record =>
      let conflict := CacheError.revisionConflict (.recordSeen key) revision
      let tombstoned := record.tombstoneRevision.isSome
      if requested = none ∧ tombstoned ∧ revision < record.revision then .ok none
      else if requested = none ∧ tombstoned ∧ revision = record.revision then .error conflict
      else
        let incarnation :=
          requested.getD (if tombstoned then revision else record.incarnation)
        match compareRecordTuple ⟨incarnation, revision⟩ record.clock with
        | .lt => .ok none
        | .eq => if tombstoned then .error conflict else .ok (some ⟨incarnation, revision⟩)
        | .gt =>
            if tombstoned ∧ incarnation = record.incarnation then .error conflict
            else .ok (some ⟨incarnation, revision⟩)

/-- What `writeBaseRecord` checks before it changes anything. -/
def admitRecordWrite (write : RecordWrite) (record : Option StoredRecord)
    : Except CacheError (Option RecordClock) := do
  validateRecordKey write.key
  let revision ← revisionToken write.revision
  let requested ← optionalToken write.incarnation
  checkFieldNames (write.fields.toList.map Prod.fst)
  checkLinks write.links.toList
  admitClock write.key requested revision record

/-- Lists that contain a record, or hang below it, lose it when its life begins or ends. -/
def invalidateIndex (recordKey : RecordKey) (index : StoredIndex) : StoredIndex :=
  let ownedByRecord := decide (index.metadata.bind CacheIndexMetadata.parent = some recordKey)
  { index with
    deleted := ownedByRecord
    records := if ownedByRecord then [] else index.records.filter (· ≠ recordKey)
    complete := false
    metadata := index.metadata.map fun metadata =>
      { metadata with staleReason := some "record-lifecycle-changed" }
    staleRevision :=
      match index.staleRevision with
      | none => some index.revision
      | some stale => some (if stale < index.revision then index.revision else stale) }

/-- An index that a change in the life of a record invalidates. -/
def touchesRecord (recordKey : RecordKey) (index : StoredIndex) : Bool :=
  !index.deleted
    && (decide (index.metadata.bind CacheIndexMetadata.parent = some recordKey)
      || index.records.contains recordKey)

/-- `invalidateIndexesForRecordLifecycle`. -/
def BaseDraft.invalidateIndexes (recordKey : RecordKey) (draft : BaseDraft) : BaseDraft :=
  let touched := (draft.indexes.toList.filter fun entry => touchesRecord recordKey entry.2).map
    Prod.fst
  { draft with
    indexes := draft.indexes.mapValues fun _ index =>
      if touchesRecord recordKey index then invalidateIndex recordKey index else index
    lifecycleIndexes := draft.lifecycleIndexes ++ touched
    marks :=
      if touched.isEmpty then draft.marks
      else (draft.marks.add (touched.map .index)).setDirty }

/-- The loop over the fields, or over the links, of a record write. It ends at the first
value that contradicts one of the same revision, with the earlier ones written. -/
def writeEntries {Value : Type} [DecidableEq Value] (dependency : String → Dependency)
    (revision : Nat)
    : List (String × Value) → Map String (StoredField Value) →
      Except CacheError Bool × Map String (StoredField Value)
  | [], stored => (.ok false, stored)
  | (name, value) :: rest, stored =>
      let write :=
        let written := writeEntries dependency revision rest
          (stored.insert name ⟨revision, value⟩)
        (written.1.map fun _ => true, written.2)
      match stored.lookup name with
      | none => write
      | some current =>
          if revision < current.revision then writeEntries dependency revision rest stored
          else if revision = current.revision then
            if current.value = value then writeEntries dependency revision rest stored
            else (.error (.revisionConflict (dependency name) revision), stored)
          else write

/-- The dependencies of the fields and links a write names. -/
def RecordWrite.named (write : RecordWrite) : List Dependency :=
  write.fields.toList.map (fun field => .recordField write.key field.1)
    ++ write.links.toList.map (fun link => .recordLink write.key link.1)

/-- The record a write goes to and whether a life begins with it. -/
def openRecord (clock : RecordClock) : Option StoredRecord → StoredRecord × Bool
  | none => (.fresh clock, true)
  | some record =>
      if record.incarnation < clock.incarnation then (.fresh clock, true)
      else (record, false)

/-- Writes the fields and links of an admitted write into an opened record. -/
def writeOpened (write : RecordWrite) (clock : RecordClock) (record : StoredRecord)
    (begins : Bool) : Txn BaseDraft CacheError Bool := fun draft =>
  match writeEntries (.recordField write.key) clock.revision write.fields.toList
      record.fields with
  | (.error error, fields) => (.error error, draft.setRecord write.key { record with fields })
  | (.ok fieldsChanged, fields) =>
      match writeEntries (.recordLink write.key) clock.revision write.links.toList
          record.links with
      | (.error error, links) =>
          (.error error, draft.setRecord write.key { record with fields, links })
      | (.ok linksChanged, links) =>
          let advances := decide (clock.incarnation = record.incarnation
            ∧ record.revision < clock.revision)
          let revision := if advances then clock.revision else record.revision
          let changed := begins || fieldsChanged || linksChanged || advances
          let draft := draft.setRecord write.key { record with fields, links, revision }
          let seen := if begins then [Dependency.recordSeen write.key] else []
          (.ok changed,
            if changed then
              draft.mark (.recordWildcard write.key :: seen ++ write.named)
            else draft)

def writeBaseRecord (write : RecordWrite) : Txn BaseDraft CacheError Bool := fun draft =>
  match admitRecordWrite write (draft.records.lookup write.key) with
  | .error error => (.error error, draft)
  | .ok none => (.ok false, draft)
  | .ok (some clock) =>
      let opened := openRecord clock (draft.records.lookup write.key)
      writeOpened write clock opened.1 opened.2
        (if opened.2 then draft.invalidateIndexes write.key else draft)

/-- The two dependencies that stand for a record as a whole. -/
def recordDependencies (key : RecordKey) : List Dependency :=
  [.recordSeen key, .recordWildcard key]

/-- The clock a record is deleted at, or nothing when that is out of date. -/
def admitTombstone (key : RecordKey) (requested : Option Nat) (revision : Nat)
    : Option StoredRecord → Except CacheError (Option RecordClock)
  | none => .ok (some ⟨requested.getD revision, revision⟩)
  | some record =>
      let clock : RecordClock := ⟨requested.getD record.incarnation, revision⟩
      match compareRecordTuple clock record.clock with
      | .lt => .ok none
      | .eq =>
          if record.tombstoneRevision.isSome then .ok none
          else .error (.revisionConflict (.recordSeen key) revision)
      | .gt => .ok (some clock)

def tombstoneBaseRecord (key : RecordKey) (revision : Revision)
    (incarnation : Option Revision) : Txn BaseDraft CacheError Bool := fun draft =>
  let admitted : Except CacheError (Option RecordClock) := do
    validateRecordKey key
    let revision ← revisionToken revision
    let requested ← optionalToken incarnation
    admitTombstone key requested revision (draft.records.lookup key)
  match admitted with
  | .error error => (.error error, draft)
  | .ok none => (.ok false, draft)
  | .ok (some clock) =>
      (.ok true,
        ((draft.setRecord key (.tombstone clock)).invalidateIndexes key).mark
          (recordDependencies key))

def discardBaseRecord (key : RecordKey) : Txn BaseDraft CacheError Bool := fun draft =>
  match validateRecordKey key with
  | .error error => (.error error, draft)
  | .ok () =>
      if (draft.records.lookup key).isNone
          && draft.indexes.toList.all (fun entry => !touchesRecord key entry.2) then
        (.ok false, draft)
      else
        let draft := { draft with records := draft.records.erase key }
        (.ok true, (draft.invalidateIndexes key).mark (recordDependencies key))

structure IndexWrite where
  key : IndexKey
  revision : Revision
  records : List RecordKey
  complete : Option Bool
  metadata : Option CacheIndexMetadata

/-- The checks of a written index against its parent record; `none` when the parent is not
live. The metadata is stamped with the life of the parent. -/
def admitParent (records : Map RecordKey StoredRecord)
    : Option CacheIndexMetadata → Except CacheError (Option (Option CacheIndexMetadata))
  | none => .ok (some none)
  | some metadata =>
      match metadata.parent with
      | none => .ok (some (some metadata))
      | some parentKey =>
          match records.lookup parentKey with
          | none => .ok none
          | some parent =>
              if parent.tombstoneRevision.isSome then .ok none
              else do
                checkFence parentKey metadata.parentRevision parent.revision
                checkFence parentKey metadata.parentIncarnation parent.incarnation
                .ok (some (some
                  { metadata with parentIncarnation := some parent.incarnation }))
where
  checkFence (parentKey : RecordKey) (claimed : Option Nat) (actual : Nat)
      : Except CacheError Unit :=
    match claimed with
    | none => .ok ()
    | some claimed =>
        if claimed = actual then .ok ()
        else .error (.revisionConflict (.recordSeen parentKey) claimed)

/-- The index an admitted write replaces a stored one of the same revision with: nothing
when they agree, an error when they contradict each other. -/
def refineIndex (key : IndexKey) (lifecycle : Bool) (next current : StoredIndex)
    : Except CacheError (Option StoredIndex) :=
  let staleReason := next.metadata.bind CacheIndexMetadata.staleReason
  -- a hidden fence: an empty deleted index that the equal checkpoint may fill
  if current.deleted ∧ current.metadata = none ∧ current.records = []
      ∧ current.staleRevision = some next.revision then
    .ok (some next)
  else if next.complete ∧ staleReason = none
      ∧ (lifecycle
        ∨ !current.deleted ∧ !current.complete
          ∧ current.metadata.bind CacheIndexMetadata.staleReason
            ≠ some "record-lifecycle-changed"
          ∧ isOrderedSubsequence current.records next.records
          ∧ refinementMetadataCompatible current.metadata next.metadata) then
    .ok (some { next with staleRevision := none })
  else if !current.deleted ∧ current.complete = next.complete
      ∧ current.records = next.records
      ∧ indexMetadataWithoutStaleReason current.metadata
        = indexMetadataWithoutStaleReason next.metadata then
    if current.metadata = next.metadata ∧ current.staleRevision = next.staleRevision then
      .ok none
    else
      .ok (some { current with
        metadata := next.metadata
        staleRevision := next.staleRevision })
  else .error (.revisionConflict (.index key) next.revision)

/-- The index a write stores, or nothing when it changes nothing. -/
def admitIndexWrite (host : Host) (write : IndexWrite) (draft : BaseDraft)
    : Except CacheError (Option StoredIndex) := do
  validateIndexWrite host write.key write.records write.metadata
  let revision ← revisionToken write.revision
  let current := draft.indexes.lookup write.key
  if (current.bind StoredIndex.staleRevision).any (revision < ·)
      ∨ current.any (fun index => revision < index.revision) then
    .ok none
  else
    match ← admitParent draft.records write.metadata with
    | none => .ok none
    | some metadata =>
        let next : StoredIndex := {
          revision
          records := write.records
          complete := write.complete.getD false
          deleted := false
          metadata
          staleRevision :=
            if (metadata.bind CacheIndexMetadata.staleReason).isSome then some revision
            else none
        }
        match current with
        | some current =>
            if revision = current.revision then
              refineIndex write.key (draft.lifecycleIndexes.contains write.key) next current
            else .ok (some next)
        | none => .ok (some next)

/-- Stores an admitted index. -/
def storeIndex (key : IndexKey) (admitted : Except CacheError (Option StoredIndex))
    : Txn BaseDraft CacheError Bool := fun draft =>
  match admitted with
  | .error error => (.error error, draft)
  | .ok none => (.ok false, draft)
  | .ok (some index) => (.ok true, (draft.setIndex key index).mark [.index key])

def writeBaseIndex (host : Host) (write : IndexWrite) : Txn BaseDraft CacheError Bool :=
  fun draft => storeIndex write.key (admitIndexWrite host write draft) draft

/-- The revision below which a write to an index is out of date. -/
def StoredIndex.fence (index : StoredIndex) : Nat :=
  match index.staleRevision with
  | none => index.revision
  | some stale => if index.revision < stale then stale else index.revision

def admitStale (key : IndexKey) (reason : String) (requested : Option Revision)
    (current : Option StoredIndex) : Except CacheError (Option StoredIndex) := do
  assertName key "index key"
  assertName reason "index stale reason"
  match current, requested with
  | none, none => .ok none
  | none, some requested =>
      let revision ← revisionToken requested
      .ok (some {
        revision := 0
        staleRevision := some revision
        records := []
        complete := false
        deleted := true
        metadata := none
      })
  | some current, requested =>
      if current.deleted ∧ requested.isNone then .ok none
      else
        let token ← optionalToken requested
        let revision := token.getD current.revision
        if revision < current.fence then .ok none
        else if current.staleRevision = some revision
            ∧ (current.metadata.all fun metadata =>
              metadata.staleReason = some reason) then
          .ok none
        else
          .ok (some { current with
            metadata := current.metadata.map fun metadata =>
              { metadata with staleReason := some reason }
            staleRevision := some revision })

def markBaseIndexStale (key : IndexKey) (reason : String) (revision : Option Revision)
    : Txn BaseDraft CacheError Bool :=
  fun draft => storeIndex key (admitStale key reason revision (draft.indexes.lookup key)) draft

def admitDelete (key : IndexKey) (requested : Revision) (current : Option StoredIndex)
    : Except CacheError (Option StoredIndex) := do
  assertName key "index key"
  let revision ← revisionToken requested
  if (current.bind StoredIndex.staleRevision).any (revision < ·)
      ∨ current.any (fun index => revision < index.revision) then
    .ok none
  else
    match current with
    | some index =>
        if revision = index.revision then
          if index.deleted then .ok none
          else .error (.revisionConflict (.index key) revision)
        else .ok (some (deletedAt revision index.metadata))
    | none => .ok (some (deletedAt revision none))
where
  deletedAt (revision : Nat) (metadata : Option CacheIndexMetadata) : StoredIndex := {
    revision
    records := []
    complete := false
    deleted := true
    metadata
    staleRevision := none
  }

def deleteBaseIndex (key : IndexKey) (revision : Revision)
    : Txn BaseDraft CacheError Bool :=
  fun draft => storeIndex key (admitDelete key revision (draft.indexes.lookup key)) draft

/-- The calls of a `BaseCacheWriter`. -/
inductive BaseCall where
  | recordClock (key : RecordKey)
  | writeRecord (write : RecordWrite)
  | tombstoneRecord (key : RecordKey) (revision : Revision) (incarnation : Option Revision)
  | discardRecord (key : RecordKey)
  | writeIndex (write : IndexWrite)
  | markIndexStale (key : IndexKey) (reason : String) (revision : Option Revision)
  | deleteIndex (key : IndexKey) (revision : Revision)

/-- `BaseRecordClock`. -/
structure BaseRecordClock where
  revision : Nat
  incarnation : Nat
  tombstoned : Bool

inductive BaseAnswer where
  | clock (clock : Option BaseRecordClock)
  | changed (changed : Bool)

def readRecordClock (key : RecordKey) : Txn BaseDraft CacheError BaseAnswer := fun draft =>
  match validateRecordKey key with
  | .error error => (.error error, draft)
  | .ok () =>
      (.ok (.clock ((draft.records.lookup key).map fun record =>
        ⟨record.revision, record.incarnation, record.tombstoneRevision.isSome⟩)), draft)

def BaseCall.run (host : Host) (call : BaseCall) : Txn BaseDraft CacheError BaseAnswer :=
  fun draft =>
    match call with
    | .recordClock key => readRecordClock key draft
    | .writeRecord write => answer (writeBaseRecord write draft)
    | .tombstoneRecord key revision incarnation =>
        answer (tombstoneBaseRecord key revision incarnation draft)
    | .discardRecord key => answer (discardBaseRecord key draft)
    | .writeIndex write => answer (writeBaseIndex host write draft)
    | .markIndexStale key reason revision =>
        answer (markBaseIndexStale key reason revision draft)
    | .deleteIndex key revision => answer (deleteBaseIndex key revision draft)
where
  answer (outcome : Except CacheError Bool × BaseDraft)
      : Except CacheError BaseAnswer × BaseDraft :=
    (outcome.1.map .changed, outcome.2)

end Distributed.CacheEngine
