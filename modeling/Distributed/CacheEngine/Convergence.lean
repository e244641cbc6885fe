import Distributed.CacheEngine.BaseWriter
import Distributed.Foundation.Log

/-! Confirmed records converge under any delivery.
The entries of a record's history may reach the base writer late, repeatedly and in any
order; the stored record is always the latest one delivered.
-/

namespace Distributed.CacheEngine

open Distributed.Foundation Distributed.Platform

--------------------
-- Histories
--------------------

/-- A full row. -/
structure RecordRow where
  fields : Map String CacheValue
  links : Map String RecordLink

/-- What happened to a record on the server: a write of its full row, or a delete. -/
structure HistoryEntry where
  clock : RecordClock
  row : Option RecordRow

/-- The history of one record: valid full rows with the same names, clocks that go up, and
a new incarnation only after a delete. -/
structure ServerHistory (entries : List HistoryEntry) : Prop where
  ascending : entries.Pairwise (fun first second => first.clock.Before second.clock)
  valid : ∀ entry ∈ entries, ∀ row ∈ entry.row,
    checkFieldNames (row.fields.toList.map Prod.fst) = .ok ()
    ∧ checkLinks row.links.toList = .ok ()
  full : ∀ first ∈ entries, ∀ second ∈ entries, ∀ row ∈ first.row, ∀ other ∈ second.row,
    ∀ name, row.fields.contains name = other.fields.contains name
      ∧ row.links.contains name = other.links.contains name
  renewed : entries.IsChain fun first second =>
    first.clock.incarnation < second.clock.incarnation → first.row.isNone

/-- Every write after a delete starts a new incarnation. -/
def RevivedAnew (entries : List HistoryEntry) : Prop :=
  entries.Pairwise fun first second =>
    first.row.isNone → second.row.isSome →
      first.clock.incarnation < second.clock.incarnation

/-- The writer call that delivers an entry, in any spelling of its clock. -/
inductive Delivers (key : RecordKey) : HistoryEntry → BaseCall → Prop
  | write {clock : RecordClock} {row : RecordRow} {revision incarnation : Revision}
      (hrevision : revisionToken revision = .ok clock.revision)
      (hincarnation : revisionToken incarnation = .ok clock.incarnation)
      : Delivers key ⟨clock, some row⟩
          (.writeRecord ⟨key, revision, some incarnation, row.fields, row.links⟩)
  | delete {clock : RecordClock} {revision incarnation : Revision}
      (hrevision : revisionToken revision = .ok clock.revision)
      (hincarnation : revisionToken incarnation = .ok clock.incarnation)
      : Delivers key ⟨clock, none⟩ (.tombstoneRecord key revision (some incarnation))

/-- The calls one after another, with their answers. -/
def deliver (host : Host)
    : List BaseCall → BaseDraft → List (Except CacheError BaseAnswer) × BaseDraft
  | [], draft => ([], draft)
  | call :: rest, draft =>
      ((call.run host draft).1 :: (deliver host rest (call.run host draft).2).1,
        (deliver host rest (call.run host draft).2).2)

--------------------
-- Stored entries
--------------------

/-- The values of a row, each stored at one revision. -/
def StoresValues {Value : Type} (revision : Nat) (values : Map String Value)
    (stored : Map String (StoredField Value)) : Prop :=
  ∀ name, stored.lookup name = (values.lookup name).map (StoredField.mk revision)

/-- A stored record is what an entry says: its values, or a tombstone. -/
structure Stores (record : StoredRecord) (entry : HistoryEntry) : Prop where
  clock : record.clock = entry.clock
  deleted : entry.row = none →
    record.tombstoneRevision = some entry.clock.revision ∧ record.fields = ∅ ∧ record.links = ∅
  written : ∀ row, entry.row = some row →
    record.tombstoneRevision = none
    ∧ StoresValues entry.clock.revision row.fields record.fields
    ∧ StoresValues entry.clock.revision row.links record.links

section Entries

variable {Value : Type} [DecidableEq Value] {dependency : String → Dependency}
  {revision : Nat}

/-- Values that are stored already are skipped. -/
theorem writeEntries_of_stored {stored : Map String (StoredField Value)}
    {entries : List (String × Value)}
    (h : ∀ entry ∈ entries, stored.lookup entry.1 = some ⟨revision, entry.2⟩)
    : writeEntries dependency revision entries stored = (.ok false, stored) := by
  induction entries with
  | nil => rfl
  | cons entry rest ih =>
      obtain ⟨name, value⟩ := entry
      have hrest := ih fun other hother => h other (List.mem_cons_of_mem _ hother)
      simp [writeEntries, h (name, value) List.mem_cons_self, hrest]

/-- Over older values every entry is written. -/
theorem writeEntries_of_older {stored : Map String (StoredField Value)}
    {entries : List (String × Value)} (hnodup : (entries.map Prod.fst).Nodup)
    (h : ∀ entry ∈ entries, ∀ current, stored.lookup entry.1 = some current →
      current.revision < revision)
    : ∃ changed, writeEntries dependency revision entries stored
      = (.ok changed, stored.insertAll
          (entries.map fun entry => (entry.1, ⟨revision, entry.2⟩))) := by
  induction entries generalizing stored with
  | nil => exact ⟨false, rfl⟩
  | cons entry rest ih =>
      obtain ⟨name, value⟩ := entry
      obtain ⟨hname, hnodup⟩ := List.nodup_cons.mp hnodup
      have hrest := @ih (stored.insert name ⟨revision, value⟩) hnodup ?_
      · obtain ⟨changed, hwritten⟩ := hrest
        refine ⟨true, ?_⟩
        cases hcurrent : stored.lookup name with
        | none => simp [writeEntries, hcurrent, hwritten, Map.insertAll_cons, Except.map]
        | some current =>
            have hlt := h (name, value) List.mem_cons_self current hcurrent
            simp [writeEntries, hcurrent, Nat.lt_asymm hlt, Nat.ne_of_gt hlt, hwritten,
              Map.insertAll_cons, Except.map]
      · intro other hother current hcurrent
        have hother' : other.1 ∈ rest.map Prod.fst := List.mem_map_of_mem hother
        have hne : other.1 ≠ name := fun heq => hname (heq ▸ hother')
        rw [Map.lookup_insert_eq, if_neg hne] at hcurrent
        exact h other (List.mem_cons_of_mem _ hother) current hcurrent

/-- Over older values of no other names, the stored values are those written. -/
theorem writeEntries_stores (dependency : String → Dependency)
    {stored : Map String (StoredField Value)} {values : Map String Value}
    (holder : ∀ name current, stored.lookup name = some current →
      values.contains name = true ∧ current.revision < revision)
    : ∃ changed written, writeEntries dependency revision values.toList stored
        = (.ok changed, written)
      ∧ StoresValues revision values written := by
  have hnames : (values.toList.map fun entry =>
      (entry.1, (⟨revision, entry.2⟩ : StoredField Value))).map Prod.fst = values.keys := by
    rw [List.map_map]
    exact values.map_fst_toList
  have holderEntry : ∀ entry ∈ values.toList, ∀ current, stored.lookup entry.1 = some current →
      current.revision < revision := fun _ _ current hcurrent => (holder _ current hcurrent).2
  obtain ⟨changed, hwritten⟩ :=
    writeEntries_of_older values.nodup_map_fst_toList holderEntry
  refine ⟨changed, _, hwritten, ?_⟩
  intro name
  cases hvalue : values.lookup name with
  | some value =>
      refine Map.lookup_insertAll_of_mem (hnames ▸ values.keys_nodup) ?_
      exact List.mem_map.mpr ⟨(name, value), Map.mem_toList.mpr hvalue, rfl⟩
  | none =>
      have hfresh : name ∉ values.keys := AList.lookup_eq_none.mp hvalue
      rw [Map.lookup_insertAll_of_notMem (hnames ▸ hfresh)]
      cases hstored : stored.lookup name with
      | none => rfl
      | some current =>
          have hknown := (holder name current hstored).1
          simp [Map.contains, hvalue] at hknown

end Entries

--------------------
-- One delivery
--------------------

/-- The stored record of a key is what an entry says. -/
def Holds (key : RecordKey) (entry : HistoryEntry) (draft : BaseDraft) : Prop :=
  ∃ record, draft.records.lookup key = some record ∧ Stores record entry

/-- The outcome of a write that does not throw and leaves this entry. -/
def LeavesEntry (key : RecordKey) (entry : HistoryEntry)
    (outcome : Except CacheError Bool × BaseDraft) : Prop :=
  (∃ changed, outcome.1 = .ok changed) ∧ Holds key entry outcome.2

/-- A row written into an opened record that has nothing newer. -/
theorem writeOpened_leaves {write : RecordWrite} {clock : RecordClock}
    {record : StoredRecord} (begins : Bool) (draft : BaseDraft)
    (hlive : record.tombstoneRevision = none)
    (hincarnation : record.incarnation = clock.incarnation)
    (hrevision : record.revision ≤ clock.revision)
    (hfields : ∀ name current, record.fields.lookup name = some current →
      write.fields.contains name = true ∧ current.revision < clock.revision)
    (hlinks : ∀ name current, record.links.lookup name = some current →
      write.links.contains name = true ∧ current.revision < clock.revision)
    : LeavesEntry write.key ⟨clock, some ⟨write.fields, write.links⟩⟩
        (writeOpened write clock record begins draft) := by
  obtain ⟨fieldsChanged, fields, hfieldsWritten, hfieldsStored⟩ :=
    writeEntries_stores (.recordField write.key) hfields
  obtain ⟨linksChanged, links, hlinksWritten, hlinksStored⟩ :=
    writeEntries_stores (.recordLink write.key) hlinks
  have hadvances : (if decide (clock.incarnation = record.incarnation
      ∧ record.revision < clock.revision) then clock.revision else record.revision)
      = clock.revision := by
    simp only [hincarnation, true_and, decide_eq_true_eq]
    split <;> omega
  simp only [writeOpened, hfieldsWritten, hlinksWritten, hadvances]
  refine ⟨⟨_, rfl⟩, { record with fields, links, revision := clock.revision }, ?_, ?_⟩
  · split <;> simp [BaseDraft.mark, BaseDraft.setRecord]
  · refine ⟨?_, fun h => (by cases h), ?_⟩
    · simp [StoredRecord.clock, hincarnation]
    · rintro row ⟨⟩
      exact ⟨hlive, hfieldsStored, hlinksStored⟩

/-- A row that is stored already changes nothing. -/
theorem writeOpened_leaves_again {write : RecordWrite} {clock : RecordClock}
    {record : StoredRecord} (draft : BaseDraft)
    (hrecord : Stores record ⟨clock, some ⟨write.fields, write.links⟩⟩)
    : LeavesEntry write.key ⟨clock, some ⟨write.fields, write.links⟩⟩
        (writeOpened write clock record false draft) := by
  obtain rfl : record.clock = clock := hrecord.clock
  obtain ⟨-, hfields, hlinks⟩ := hrecord.written _ rfl
  have hfieldsKept : writeEntries (.recordField write.key) record.clock.revision
      write.fields.toList record.fields = (.ok false, record.fields) := by
    refine writeEntries_of_stored fun entry hentry => ?_
    rw [hfields entry.1, Map.mem_toList.mp hentry]
    rfl
  have hlinksKept : writeEntries (.recordLink write.key) record.clock.revision
      write.links.toList record.links = (.ok false, record.links) := by
    refine writeEntries_of_stored fun entry hentry => ?_
    rw [hlinks entry.1, Map.mem_toList.mp hentry]
    rfl
  have hkept : ¬(record.clock.incarnation = record.incarnation
      ∧ record.revision < record.clock.revision) := by
    simp [StoredRecord.clock]
  simp only [writeOpened, hfieldsKept, hlinksKept, hkept, decide_false, Bool.false_or]
  refine ⟨⟨_, rfl⟩, record, ?_, hrecord⟩
  simp [BaseDraft.setRecord]

section Delivery

variable {key : RecordKey} {draft : BaseDraft} {entry stored : HistoryEntry}
  {record : StoredRecord}

theorem admitRecordWrite_of_valid {clock : RecordClock} {row : RecordRow}
    {revision incarnation : Revision} (hkey : key ≠ "")
    (hrevision : revisionToken revision = .ok clock.revision)
    (hincarnation : revisionToken incarnation = .ok clock.incarnation)
    (hvalid : checkFieldNames (row.fields.toList.map Prod.fst) = .ok ()
      ∧ checkLinks row.links.toList = .ok ()) (current : Option StoredRecord)
    : admitRecordWrite ⟨key, revision, some incarnation, row.fields, row.links⟩ current
      = admitClock key (some clock.incarnation) clock.revision current := by
  simp [admitRecordWrite, validateRecordKey, assertName, hkey, hrevision, hincarnation,
    hvalid.1, hvalid.2, optionalToken, Except.map]

/-- The first write of a life, into a record without fields. -/
theorem writeOpened_fresh_leaves (write : RecordWrite) (clock : RecordClock)
    (draft : BaseDraft)
    : LeavesEntry write.key ⟨clock, some ⟨write.fields, write.links⟩⟩
        (writeOpened write clock (.fresh clock) true draft) := by
  refine writeOpened_leaves true draft rfl rfl le_rfl ?_ ?_
  · intro name current h
    simp [StoredRecord.fresh] at h
  · intro name current h
    simp [StoredRecord.fresh] at h

/-- What the delivery of `entry` needs of the entry stored before it. -/
structure Comparable (stored entry : HistoryEntry) : Prop where
  same : stored.clock = entry.clock → stored = entry
  full : ∀ row ∈ stored.row, ∀ other ∈ entry.row, ∀ name,
    row.fields.contains name = other.fields.contains name
    ∧ row.links.contains name = other.links.contains name
  revived : stored.clock.Before entry.clock → stored.row.isNone → entry.row.isSome →
    stored.clock.incarnation < entry.clock.incarnation

theorem older_of_storesValues {Value : Type} {revision later : Nat}
    {values others : Map String Value} {fields : Map String (StoredField Value)}
    (h : StoresValues revision values fields) (hlater : revision < later)
    (hnames : ∀ name, values.contains name = others.contains name)
    : ∀ name current, fields.lookup name = some current →
        others.contains name = true ∧ current.revision < later := by
  intro name current hcurrent
  rw [h name] at hcurrent
  obtain ⟨value, hvalue, rfl⟩ := Option.map_eq_some_iff.mp hcurrent
  refine ⟨?_, hlater⟩
  rw [← hnames name]
  simp [Map.contains, hvalue]

theorem Stores.tombstoned_iff (h : Stores record stored)
    : record.tombstoneRevision.isSome = true ↔ stored.row = none := by
  cases hrow : stored.row with
  | none => simp [(h.deleted hrow).1]
  | some row => simp [(h.written row hrow).1]

/-- A newer row: it begins a life, or its names replace their older values. -/
theorem writeOpened_newer_leaves {write : RecordWrite} {clock : RecordClock}
    (draft : BaseDraft)
    (hcomparable : Comparable stored ⟨clock, some ⟨write.fields, write.links⟩⟩)
    (hstored : Stores record stored) (hafter : stored.clock.Before clock)
    : LeavesEntry write.key ⟨clock, some ⟨write.fields, write.links⟩⟩
        (writeOpened write clock (openRecord clock (some record)).1
          (openRecord clock (some record)).2 draft) := by
  have hclock : record.clock = stored.clock := hstored.clock
  simp only [openRecord]
  by_cases hlife : record.incarnation < clock.incarnation
  · rw [if_pos hlife]
    exact writeOpened_fresh_leaves write clock draft
  · rw [if_neg hlife]
    have hincarnation : ¬stored.clock.incarnation < clock.incarnation := hclock ▸ hlife
    obtain ⟨hsame, hrevision⟩ := hafter.resolve_left hincarnation
    cases hrow : stored.row with
    | none =>
        exact absurd (hcomparable.revived hafter (by simp [hrow]) rfl) hincarnation
    | some row =>
        obtain ⟨hlive, hfields, hlinks⟩ := hstored.written row hrow
        have hnames := hcomparable.full row hrow _ rfl
        refine writeOpened_leaves false draft hlive ?_ ?_
          (older_of_storesValues hfields hrevision fun name => (hnames name).1)
          (older_of_storesValues hlinks hrevision fun name => (hnames name).2)
        · exact (congrArg RecordClock.incarnation hclock).trans hsame
        · exact le_of_lt (lt_of_eq_of_lt (congrArg RecordClock.revision hclock) hrevision)

/-- A row delivered after `stored`: dropped when older, kept when equal, written when
newer. -/
theorem writeBaseRecord_leaves {clock : RecordClock} {row : RecordRow}
    {revision incarnation : Revision} (hkey : key ≠ "")
    (hrevision : revisionToken revision = .ok clock.revision)
    (hincarnation : revisionToken incarnation = .ok clock.incarnation)
    (hvalid : checkFieldNames (row.fields.toList.map Prod.fst) = .ok ()
      ∧ checkLinks row.links.toList = .ok ())
    (hcomparable : Comparable stored ⟨clock, some row⟩)
    (hrecord : draft.records.lookup key = some record) (hstored : Stores record stored)
    : LeavesEntry key (if stored.clock.Before clock then ⟨clock, some row⟩ else stored)
        (writeBaseRecord ⟨key, revision, some incarnation, row.fields, row.links⟩ draft) := by
  have hadmit := admitRecordWrite_of_valid hkey hrevision hincarnation hvalid (some record)
  simp only [writeBaseRecord, hrecord, hadmit, admitClock, Option.getD_some, reduceCtorEq,
    false_and, if_false]
  rcases clock.before_trichotomy stored.clock with hbefore | rfl | hafter
  · -- out of date
    have hcompare : compareRecordTuple clock record.clock = .lt :=
      compareRecordTuple_eq_lt.mpr (hstored.clock ▸ hbefore)
    simp only [hcompare, if_neg hbefore.asymm]
    exact ⟨⟨false, rfl⟩, record, hrecord, hstored⟩
  · -- the same entry once more
    have hentry := hcomparable.same rfl
    have hcompare : compareRecordTuple stored.clock record.clock = .eq :=
      compareRecordTuple_eq_eq.mpr hstored.clock.symm
    have hlive : record.tombstoneRevision.isSome = false := by
      simp [(hstored.written row (congrArg HistoryEntry.row hentry)).1]
    have hopened : openRecord stored.clock (some record) = (record, false) := by
      rw [← hstored.clock]
      simp [openRecord, StoredRecord.clock]
    simp only [hcompare, hlive, Bool.false_eq_true, if_false, hopened]
    rw [if_neg fun h => h.asymm h, hentry]
    exact writeOpened_leaves_again draft (hentry ▸ hstored)
  · -- newer
    have hcompare : compareRecordTuple clock record.clock = .gt :=
      compareRecordTuple_eq_gt.mpr (hstored.clock ▸ hafter)
    have hrevived : ¬(record.tombstoneRevision.isSome = true
        ∧ clock.incarnation = record.incarnation) := by
      rintro ⟨htombstoned, hsame⟩
      have hrow := hstored.tombstoned_iff.mp htombstoned
      have hlater := hcomparable.revived hafter (by simp [hrow]) rfl
      have hclock := congrArg RecordClock.incarnation hstored.clock
      exact absurd (hsame.trans hclock) (Nat.ne_of_gt hlater)
    simp only [hcompare, if_neg hrevived, if_pos hafter]
    exact writeOpened_newer_leaves _ hcomparable hstored hafter

theorem tombstone_holds (key : RecordKey) (clock : RecordClock) (draft : BaseDraft)
    : Holds key ⟨clock, none⟩
        (((draft.setRecord key (.tombstone clock)).invalidateIndexes key).mark
          (recordDependencies key)) := by
  refine ⟨.tombstone clock, ?_, rfl, fun _ => ⟨rfl, rfl, rfl⟩, fun _ h => (by cases h)⟩
  simp [BaseDraft.mark, BaseDraft.invalidateIndexes, BaseDraft.setRecord]

theorem tombstoneBaseRecord_leaves {clock : RecordClock} {revision incarnation : Revision}
    (hkey : key ≠ "") (hrevision : revisionToken revision = .ok clock.revision)
    (hincarnation : revisionToken incarnation = .ok clock.incarnation)
    (hcomparable : Comparable stored ⟨clock, none⟩)
    (hrecord : draft.records.lookup key = some record) (hstored : Stores record stored)
    : LeavesEntry key (if stored.clock.Before clock then ⟨clock, none⟩ else stored)
        (tombstoneBaseRecord key revision (some incarnation) draft) := by
  simp only [tombstoneBaseRecord, validateRecordKey, assertName, hkey, if_false, hrevision,
    hincarnation, optionalToken, Except.map, Result.ok_bind, hrecord, admitTombstone,
    Option.getD_some]
  rcases clock.before_trichotomy stored.clock with hbefore | rfl | hafter
  · have hcompare : compareRecordTuple clock record.clock = .lt :=
      compareRecordTuple_eq_lt.mpr (hstored.clock ▸ hbefore)
    simp only [hcompare, if_neg hbefore.asymm]
    exact ⟨⟨false, rfl⟩, record, hrecord, hstored⟩
  · have hcompare : compareRecordTuple stored.clock record.clock = .eq :=
      compareRecordTuple_eq_eq.mpr hstored.clock.symm
    have htombstoned : record.tombstoneRevision.isSome = true :=
      hstored.tombstoned_iff.mpr (congrArg HistoryEntry.row (hcomparable.same rfl))
    simp only [hcompare, htombstoned, if_true, if_neg fun h => RecordClock.Before.asymm h h]
    exact ⟨⟨false, rfl⟩, record, hrecord, hstored⟩
  · have hcompare : compareRecordTuple clock record.clock = .gt :=
      compareRecordTuple_eq_gt.mpr (hstored.clock ▸ hafter)
    simp only [hcompare, if_pos hafter]
    exact ⟨⟨true, rfl⟩, tombstone_holds key clock draft⟩

/-- The first row delivered for a key. -/
theorem writeBaseRecord_first_leaves {clock : RecordClock} {row : RecordRow}
    {revision incarnation : Revision} (hkey : key ≠ "")
    (hrevision : revisionToken revision = .ok clock.revision)
    (hincarnation : revisionToken incarnation = .ok clock.incarnation)
    (hvalid : checkFieldNames (row.fields.toList.map Prod.fst) = .ok ()
      ∧ checkLinks row.links.toList = .ok ())
    (hfresh : draft.records.lookup key = none)
    : LeavesEntry key ⟨clock, some row⟩
        (writeBaseRecord ⟨key, revision, some incarnation, row.fields, row.links⟩ draft) := by
  have hadmit := admitRecordWrite_of_valid hkey hrevision hincarnation hvalid none
  simp only [writeBaseRecord, hfresh, hadmit, admitClock, Option.getD_some, openRecord]
  exact writeOpened_fresh_leaves ⟨key, revision, some incarnation, row.fields, row.links⟩
    clock _

theorem tombstoneBaseRecord_first_leaves {clock : RecordClock}
    {revision incarnation : Revision} (hkey : key ≠ "")
    (hrevision : revisionToken revision = .ok clock.revision)
    (hincarnation : revisionToken incarnation = .ok clock.incarnation)
    (hfresh : draft.records.lookup key = none)
    : LeavesEntry key ⟨clock, none⟩
        (tombstoneBaseRecord key revision (some incarnation) draft) := by
  simp only [tombstoneBaseRecord, validateRecordKey, assertName, hkey, if_false, hrevision,
    hincarnation, optionalToken, Except.map, Result.ok_bind, hfresh, admitTombstone,
    Option.getD_some]
  exact ⟨⟨true, rfl⟩, tombstone_holds key clock draft⟩

--------------------
-- All deliveries
--------------------

/-- A call does not throw and leaves this entry. -/
def Accepts (host : Host) (key : RecordKey) (entry : HistoryEntry) (call : BaseCall)
    (draft : BaseDraft) : Prop :=
  (∃ changed, (call.run host draft).1 = .ok (.changed changed))
  ∧ Holds key entry (call.run host draft).2

theorem LeavesEntry.answer {outcome : Except CacheError Bool × BaseDraft}
    (h : LeavesEntry key entry outcome)
    : (∃ changed, (BaseCall.run.answer outcome).1 = .ok (.changed changed))
      ∧ Holds key entry (BaseCall.run.answer outcome).2 := by
  obtain ⟨⟨changed, hchanged⟩, hholds⟩ := h
  refine ⟨⟨changed, ?_⟩, hholds⟩
  rw [BaseCall.run.answer, hchanged]
  rfl

/-- The facts about an entry that its delivery relies on. -/
def ValidEntry (entry : HistoryEntry) : Prop :=
  ∀ row ∈ entry.row, checkFieldNames (row.fields.toList.map Prod.fst) = .ok ()
    ∧ checkLinks row.links.toList = .ok ()

theorem Delivers.accepts_first (host : Host) {call : BaseCall}
    (hcall : Delivers key entry call) (hkey : key ≠ "") (hvalid : ValidEntry entry)
    (hfresh : draft.records.lookup key = none)
    : Accepts host key entry call draft := by
  cases hcall with
  | write hrevision hincarnation =>
      exact (writeBaseRecord_first_leaves hkey hrevision hincarnation (hvalid _ rfl)
        hfresh).answer
  | delete hrevision hincarnation =>
      exact (tombstoneBaseRecord_first_leaves hkey hrevision hincarnation hfresh).answer

theorem Delivers.accepts (host : Host) {call : BaseCall}
    (hcall : Delivers key entry call) (hkey : key ≠ "") (hvalid : ValidEntry entry)
    (hcomparable : Comparable stored entry) (hholds : Holds key stored draft)
    : Accepts host key (if stored.clock.Before entry.clock then entry else stored) call
        draft := by
  obtain ⟨record, hrecord, hstored⟩ := hholds
  cases hcall with
  | write hrevision hincarnation =>
      exact (writeBaseRecord_leaves hkey hrevision hincarnation (hvalid _ rfl) hcomparable
        hrecord hstored).answer
  | delete hrevision hincarnation =>
      exact (tombstoneBaseRecord_leaves hkey hrevision hincarnation hcomparable hrecord
        hstored).answer

variable {entries : List HistoryEntry}

theorem ServerHistory.eq_of_clock_eq (h : ServerHistory entries) (hstored : stored ∈ entries)
    (hentry : entry ∈ entries) (hclock : stored.clock = entry.clock)
    : stored = entry := by
  rcases pairwise_connected h.ascending hstored hentry with hsame | hbefore | hbefore
  · exact hsame
  · exact absurd hbefore (hclock ▸ fun hself => hself.asymm hself)
  · exact absurd hbefore (hclock ▸ fun hself => hself.asymm hself)

theorem ServerHistory.comparable (h : ServerHistory entries) (hrevived : RevivedAnew entries)
    (hstored : stored ∈ entries) (hentry : entry ∈ entries)
    : Comparable stored entry where
  same := h.eq_of_clock_eq hstored hentry
  full := h.full stored hstored entry hentry
  revived := by
    intro hbefore hdeleted hwritten
    rcases pairwise_connected (h.ascending.and hrevived) hstored hentry
      with rfl | ⟨-, hanew⟩ | ⟨hafter, -⟩
    · exact absurd hbefore hbefore.asymm
    · exact hanew hdeleted hwritten
    · exact absurd hbefore hafter.asymm

/-- The entry that is stored is one of those delivered, and none of them is later. -/
def Latest (delivered : List HistoryEntry) (entry : HistoryEntry) : Prop :=
  entry ∈ delivered ∧ ∀ other ∈ delivered, ¬entry.clock.Before other.clock

/-- The later of two entries is the one to compare the rest with. -/
theorem Latest.of_later {rest : List HistoryEntry} {latest : HistoryEntry}
    (h : Latest ((if stored.clock.Before entry.clock then entry else stored) :: rest) latest)
    : Latest (stored :: entry :: rest) latest := by
  obtain ⟨hmem, hnone⟩ := h
  have hlater := hnone _ List.mem_cons_self
  have hrest := fun other hother => hnone other (List.mem_cons_of_mem _ hother)
  by_cases hbefore : stored.clock.Before entry.clock
  · rw [if_pos hbefore] at hmem hlater
    refine ⟨List.mem_cons_of_mem _ hmem, ?_⟩
    rintro other (_ | ⟨_, _ | ⟨_, hother⟩⟩)
    · exact fun hless => hlater (hless.trans hbefore)
    · exact hlater
    · exact hrest other hother
  · rw [if_neg hbefore] at hmem hlater
    refine ⟨?_, ?_⟩
    · rcases List.mem_cons.mp hmem with rfl | hmem
      · exact List.mem_cons_self
      · exact List.mem_cons_of_mem _ (List.mem_cons_of_mem _ hmem)
    · rintro other (_ | ⟨_, _ | ⟨_, hother⟩⟩)
      · exact hlater
      · intro hless
        rcases entry.clock.before_trichotomy stored.clock with hearlier | hsame | hafter
        · exact hlater (hless.trans hearlier)
        · exact hlater (hsame ▸ hless)
        · exact hbefore hafter
      · exact hrest other hother

variable {host : Host}

/-- By induction on the deliveries: after each of them the key holds the latest entry. -/
theorem deliver_from (h : ServerHistory entries) (hrevived : RevivedAnew entries)
    (hkey : key ≠ "") (deliveries : List (HistoryEntry × BaseCall))
    (hdelivers : ∀ delivery ∈ deliveries,
      delivery.1 ∈ entries ∧ Delivers key delivery.1 delivery.2)
    (hstored : stored ∈ entries) (hholds : Holds key stored draft)
    : (∀ answer ∈ (deliver host (deliveries.map Prod.snd) draft).1,
        ∃ changed, answer = .ok (.changed changed))
      ∧ ∃ latest, Latest (stored :: deliveries.map Prod.fst) latest
        ∧ Holds key latest (deliver host (deliveries.map Prod.snd) draft).2 := by
  induction deliveries generalizing draft stored with
  | nil =>
      refine ⟨by simp [deliver], stored, ⟨List.mem_cons_self, ?_⟩, hholds⟩
      intro other hother
      rw [List.mem_singleton.mp hother]
      exact fun hself => hself.asymm hself
  | cons delivery rest ih =>
      obtain ⟨entry, call⟩ := delivery
      obtain ⟨hentry, hcall⟩ := hdelivers _ List.mem_cons_self
      obtain ⟨hanswer, hnext⟩ := hcall.accepts host hkey (h.valid entry hentry)
        (h.comparable hrevived hstored hentry) hholds
      have hmem : (if stored.clock.Before entry.clock then entry else stored) ∈ entries := by
        split
        · exact hentry
        · exact hstored
      obtain ⟨hanswers, latest, hlatest, hlast⟩ := ih
        (fun other hother => hdelivers other (List.mem_cons_of_mem _ hother)) hmem hnext
      refine ⟨?_, latest, hlatest.of_later, hlast⟩
      intro answer hanswer'
      rcases List.mem_cons.mp hanswer' with rfl | hrest
      · exact hanswer
      · exact hanswers answer hrest

end Delivery

/-- Whatever of a record's history is delivered, in whatever order and however often: no
delivery throws, and the stored record is the latest entry delivered. -/
theorem deliveries_converge (host : Host) (key : RecordKey) (hkey : key ≠ "")
    (entries : List HistoryEntry) (hhistory : ServerHistory entries)
    (hrevived : RevivedAnew entries) (draft : BaseDraft)
    (hfresh : draft.records.lookup key = none)
    (deliveries : List (HistoryEntry × BaseCall))
    (hdelivers : ∀ delivery ∈ deliveries,
      delivery.1 ∈ entries ∧ Delivers key delivery.1 delivery.2)
    : (∀ answer ∈ (deliver host (deliveries.map Prod.snd) draft).1,
        ∃ changed, answer = .ok (.changed changed))
      ∧ ∀ latest, Latest (deliveries.map Prod.fst) latest →
          Holds key latest (deliver host (deliveries.map Prod.snd) draft).2 := by
  cases deliveries with
  | nil => exact ⟨by simp [deliver], fun latest hlatest => (by cases hlatest.1)⟩
  | cons delivery rest =>
      obtain ⟨entry, call⟩ := delivery
      obtain ⟨hentry, hcall⟩ := hdelivers _ List.mem_cons_self
      obtain ⟨hanswer, hnext⟩ :=
        hcall.accepts_first host hkey (hhistory.valid entry hentry) hfresh
      obtain ⟨hanswers, stored, hstored, hlast⟩ := deliver_from hhistory hrevived hkey rest
        (fun other hother => hdelivers other (List.mem_cons_of_mem _ hother)) hentry hnext
      constructor
      · intro answer hanswer'
        rcases List.mem_cons.mp hanswer' with rfl | hrest
        · exact hanswer
        · exact hanswers answer hrest
      · intro latest hlatest
        have hmember : ∀ other ∈ entry :: rest.map Prod.fst, other ∈ entries := by
          rintro other (_ | ⟨_, hother⟩)
          · exact hentry
          · obtain ⟨delivery, hdelivery, rfl⟩ := List.mem_map.mp hother
            exact (hdelivers delivery (List.mem_cons_of_mem _ hdelivery)).1
        have hclock : stored.clock = latest.clock := by
          rcases stored.clock.before_trichotomy latest.clock with hless | hsame | hless
          · exact absurd hless (hstored.2 latest hlatest.1)
          · exact hsame
          · exact absurd hless (hlatest.2 stored hstored.1)
        have hsame : stored = latest :=
          hhistory.eq_of_clock_eq (hmember _ hstored.1) (hmember _ hlatest.1) hclock
        exact hsame ▸ hlast

--------------------
-- A todo written, deleted and written again
--------------------

def todoRow (title : String) : RecordRow :=
  ⟨(∅ : Map String CacheValue).insert "title" (.string title), ∅⟩

/-- The second write has the given clock. -/
def todoHistory (clock : RecordClock) : List HistoryEntry :=
  [⟨⟨1, 1⟩, some (todoRow "Buy milk")⟩, ⟨⟨1, 2⟩, none⟩, ⟨clock, some (todoRow "Buy tea")⟩]

def todoCall (entry : HistoryEntry) : BaseCall :=
  match entry.row with
  | some row =>
      .writeRecord ⟨"Todo:1", .bigint entry.clock.revision,
        some (.bigint entry.clock.incarnation), row.fields, row.links⟩
  | none =>
      .tombstoneRecord "Todo:1" (.bigint entry.clock.revision)
        (some (.bigint entry.clock.incarnation))

def emptyDraft : BaseDraft := ⟨∅, ∅, [], .none⟩

theorem revisionToken_natCast (token : Nat) : revisionToken (.bigint token) = .ok token := by
  simp [revisionToken]

theorem todoCall_delivers (entry : HistoryEntry) : Delivers "Todo:1" entry (todoCall entry) := by
  obtain ⟨clock, _ | row⟩ := entry
  · exact .delete (revisionToken_natCast _) (revisionToken_natCast _)
  · exact .write (revisionToken_natCast _) (revisionToken_natCast _)

theorem todoHistory_row {clock : RecordClock} {entry : HistoryEntry} {row : RecordRow}
    (hentry : entry ∈ todoHistory clock) (hrow : entry.row = some row)
    : ∃ title, row = todoRow title := by
  simp only [todoHistory, List.mem_cons, List.not_mem_nil, or_false] at hentry
  rcases hentry with rfl | rfl | rfl
  · exact ⟨_, (Option.some.inj hrow).symm⟩
  · cases hrow
  · exact ⟨_, (Option.some.inj hrow).symm⟩

theorem todoHistory_serverHistory {clock : RecordClock}
    (h : (⟨1, 2⟩ : RecordClock).Before clock)
    : ServerHistory (todoHistory clock) where
  ascending := by
    have hfirst : (⟨1, 1⟩ : RecordClock).Before ⟨1, 2⟩ := by decide
    simp [todoHistory, h, hfirst, hfirst.trans h]
  valid := by
    intro entry hentry row hrow
    obtain ⟨title, rfl⟩ := todoHistory_row hentry hrow
    exact ⟨rfl, rfl⟩
  full := by
    intro first hfirst second hsecond row hrow other hother name
    obtain ⟨title, rfl⟩ := todoHistory_row hfirst hrow
    obtain ⟨later, rfl⟩ := todoHistory_row hsecond hother
    simp only [todoRow, Map.contains, Map.lookup_insert_eq]
    split <;> simp
  renewed := by simp [todoHistory]

/-- A new life, delivered out of order and twice. -/
theorem deliveries_converge_todo
    : Holds "Todo:1" ⟨⟨2, 3⟩, some (todoRow "Buy tea")⟩
        (deliver ⟨fun _ => ""⟩
          ([2, 0, 1, 2].filterMap (fun place => (todoHistory ⟨2, 3⟩)[place]?.map todoCall))
          emptyDraft).2 := by
  have hconverge := deliveries_converge ⟨fun _ => ""⟩ "Todo:1" (by decide)
    (todoHistory ⟨2, 3⟩) (todoHistory_serverHistory (by decide))
    (by simp [RevivedAnew, todoHistory]) emptyDraft rfl
    ([2, 0, 1, 2].filterMap fun place =>
      (todoHistory ⟨2, 3⟩)[place]?.map fun entry => (entry, todoCall entry))
    (by
      intro delivery hdelivery
      obtain ⟨place, -, hplace⟩ := List.mem_filterMap.mp hdelivery
      obtain ⟨entry, hentry, rfl⟩ := Option.map_eq_some_iff.mp hplace
      exact ⟨List.mem_of_getElem? hentry, todoCall_delivers entry⟩)
  refine hconverge.2 _ ⟨?_, ?_⟩
  · simp [todoHistory]
  · simp [todoHistory]
    decide

/-- A second write in the incarnation that was deleted throws. -/
theorem revived_in_same_incarnation_throws
    : ServerHistory (todoHistory ⟨1, 3⟩)
      ∧ (∀ entry ∈ todoHistory ⟨1, 3⟩, Delivers "Todo:1" entry (todoCall entry))
      ∧ (deliver ⟨fun _ => ""⟩ ((todoHistory ⟨1, 3⟩).map todoCall) emptyDraft).1[2]?
        = some (.error (.revisionConflict (.recordSeen "Todo:1") 3)) :=
  ⟨todoHistory_serverHistory (by decide), fun entry _ => todoCall_delivers entry, rfl⟩

end Distributed.CacheEngine
