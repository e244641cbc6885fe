import Distributed.Entities.Recording
import Distributed.InMemoryRepo.Streams

/-! Entity handles that callers load, record on and commit.
Any number of handles is open on any streams; the repository serves other callers in
between.
-/

namespace Distributed.InMemoryRepo

open Distributed.Entities Distributed.Foundation Distributed.Platform

open Distributed.ProjectionProtocol Distributed.Repository Distributed.Snapshot

/-- The batch of a plain commit. -/
def streamBatch (write : StreamWrite) : CommitBatch := { streams := [write] }

theorem validateAppendedEvents_of_sequences {identity : StreamIdentity} {expected : Nat}
    {events : List EventRecord} (hcodecs : ∀ event ∈ events, event.HasSupportedCodec)
    (h : events.map EventRecord.sequence = List.range' expected events.length)
    : validateAppendedEvents identity expected events = .ok () := by
  induction events generalizing expected with
  | nil => rfl
  | cons event events ih =>
      rw [List.map_cons, List.length_cons, List.range'_succ, List.cons.injEq] at h
      obtain ⟨hsequence, hrest⟩ := h
      obtain ⟨hcodec, hversion⟩ := hcodecs event List.mem_cons_self
      have hlater := ih (fun later hlater => hcodecs later (List.mem_cons_of_mem _ hlater)) hrest
      simp [validateAppendedEvents, validateSupportedEventCodec, hcodec, hversion, hsequence,
        hlater]

section Single

variable {crates : Crates} {clock : CommitClock} {write : StreamWrite}
  {repository : InMemoryRepository}

theorem validateBatch_streamBatch (hcoherent : write.entity.Coherent)
    (hid : write.entity.id = write.identity.aggregateId)
    : validateBatch clock (streamBatch write) none none = .ok [.fromStreamWrite write] := by
  have happend : validatePreparedAppend (.fromStreamWrite write) = .ok () :=
    validateAppendedEvents_of_sequences hcoherent.codecs hcoherent.newEvents_sequences
  simp [validateBatch, validateCommitBatch, streamBatch, rejectDuplicateStreams,
    rejectDuplicateStreamsFrom, rejectDuplicateOutboxMessages,
    rejectDuplicateOutboxMessagesFrom, validateEntityIdMatchesIdentity, hid, happend,
    ofRepository, Except.mapError]

theorem checkStores_streamBatch
    : checkStores repository clock (streamBatch write) none none [.fromStreamWrite write]
      = ofRepository (checkExpectedVersion repository.eventStore (.fromStreamWrite write)) := by
  have hplans : rejectCausalOwnedPlans repository.causalTables (streamBatch write).readModelPlans
      = .ok () := rfl
  simp only [checkStores, hplans, checkAttempt, ofTable, ofLedger, Except.mapError,
    Result.ok_bind, List.forM_eq_forM, List.forM_cons, List.forM_nil]
  cases checkExpectedVersion repository.eventStore (.fromStreamWrite write) with
  | error error => rfl
  | ok _ => rfl

theorem checkExpectedVersion_fromStreamWrite (storage : EventStore)
    : checkExpectedVersion storage (.fromStreamWrite write)
      = if (streamEvents storage write.identity).length = write.entity.committedVersion then
        .ok ()
      else
        .error (.concurrentWrite write.identity.text write.entity.committedVersion
          (streamEvents storage write.identity).length) := by
  simp only [checkExpectedVersion, PreparedEventAppend.fromStreamWrite,
    storedStreamVersion_eq, ne_eq, ite_not]

/-- The repository after the events of one write were appended. -/
def appended (repository : InMemoryRepository) (write : StreamWrite) : InMemoryRepository :=
  { repository with
    eventStore := appendEvents repository.eventStore (.fromStreamWrite write) }

/-- A plain commit of a coherent entity fails for one reason only: the stream is not at the
version the entity was loaded at. -/
theorem commitBatch_streamBatch (hcoherent : write.entity.Coherent)
    (hid : write.entity.id = write.identity.aggregateId)
    : commitBatch crates clock (streamBatch write) repository
      = if (streamEvents repository.eventStore write.identity).length
          = write.entity.committedVersion then
        (.ok [{ write with entity := write.entity.markCommitted }], appended repository write)
      else
        (.error (.concurrentWrite write.identity.text write.entity.committedVersion
          (streamEvents repository.eventStore write.identity).length), repository) := by
  by_cases hfresh : (streamEvents repository.eventStore write.identity).length
      = write.entity.committedVersion
  · have hchecked : checkStores repository clock (streamBatch write) none none
        [.fromStreamWrite write] = .ok () := by
      rw [checkStores_streamBatch, checkExpectedVersion_fromStreamWrite, if_pos hfresh]
      rfl
    have hstaged : stageBatch crates clock (streamBatch write) none none repository
        = (.ok ⟨[.fromStreamWrite write], [], ∅, none, none⟩, repository) := by
      simp only [stageBatch, validateBatch_streamBatch hcoherent hid, Txn.lift_ok_bind,
        Txn.current_bind_apply, hchecked]
      rfl
    rw [if_pos hfresh, commitBatch, Txn.mapError_apply, commitBatchInner, Txn.bind_ok hstaged,
      Txn.bind_ok (publishBatch_apply _ _ _)]
    rfl
  · have hchecked : checkStores repository clock (streamBatch write) none none
        [.fromStreamWrite write]
        = .error (.repository (.concurrentWrite write.identity.text
          write.entity.committedVersion
          (streamEvents repository.eventStore write.identity).length)) := by
      rw [checkStores_streamBatch, checkExpectedVersion_fromStreamWrite, if_neg hfresh]
      rfl
    rw [if_neg hfresh]
    simp only [commitBatch, commitBatchInner, stageBatch, Txn.mapError_apply,
      validateBatch_streamBatch hcoherent hid, Txn.lift_ok_bind, Txn.bind_apply,
      Txn.current_apply, hchecked, Txn.lift_apply]
    rfl

end Single

/-- The repository and the handles its callers hold, by a number the caller gives. -/
structure HandleSystem where
  repository : InMemoryRepository
  handles : Map Nat StreamWrite := ∅

inductive HandleOp where
  | create (handle : Nat) (identity : StreamIdentity) (now : SystemTime)
  | load (handle : Nat) (identity : StreamIdentity) (now : SystemTime)
  | loadTail (handle : Nat) (identity : StreamIdentity) (afterVersion : Nat)
      (now : SystemTime)
  | record (handle : Nat) (name : String) (version : Nat)
      (encoded : Except EventRecordError Bytes) (recordedAt now : SystemTime)
  | commit (handle : Nat) (clock : CommitClock)
  | repository (op : RepositoryOp)

/-- The operation loads or creates an entity under the handle. -/
def HandleOp.Opens (handle : Nat) : HandleOp → Prop
  | .create other _ _ | .load other _ _ | .loadTail other _ _ _ => other = handle
  | _ => False

inductive HandleAnswer where
  | opened (found : Bool)
  | recorded (result : Except EventRecordError Unit)
  | committed (result : Except RepositoryError Unit)
  | answered (answer : RepositoryAnswer)
  | noHandle

namespace HandleSystem

def openHandle (handle : Nat) (identity : StreamIdentity) (entity : Option Entity)
    (system : HandleSystem) : HandleAnswer × HandleSystem :=
  match entity with
  | none => (.opened false, system)
  | some entity =>
      (.opened true,
        { system with handles := system.handles.insert handle ⟨identity, entity⟩ })

/-- A commit marks the entity it was given, when it succeeds. -/
def commitHandle (crates : Crates) (handle : Nat) (clock : CommitClock) (write : StreamWrite)
    (system : HandleSystem) : HandleAnswer × HandleSystem :=
  match commitBatch crates clock (streamBatch write) system.repository with
  | (.error error, repository) => (.committed (.error error), { system with repository })
  | (.ok _, repository) =>
      (.committed (.ok ()), {
        repository
        handles := system.handles.insert handle
          { write with entity := write.entity.markCommitted } })

def step (crates : Crates) : HandleOp → HandleSystem → HandleAnswer × HandleSystem
  | .create handle identity now, system =>
      system.openHandle handle identity (some (Entity.withId identity.aggregateId now))
  | .load handle identity now, system =>
      system.openHandle handle identity (getStream identity now system.repository)
  | .loadTail handle identity afterVersion now, system =>
      system.openHandle handle identity
        (getStreamTail identity afterVersion now system.repository)
  | .record handle name version encoded recordedAt now, system =>
      match system.handles.lookup handle with
      | none => (.noHandle, system)
      | some write =>
          match write.entity.digestV name version encoded recordedAt now with
          | .error error => (.recorded (.error error), system)
          | .ok entity =>
              (.recorded (.ok ()),
                { system with handles := system.handles.insert handle { write with entity } })
  | .commit handle clock, system =>
      match system.handles.lookup handle with
      | none => (.noHandle, system)
      | some write => system.commitHandle crates handle clock write
  | .repository op, system =>
      let (answer, repository) := InMemoryRepo.step crates op system.repository
      (.answered answer, { system with repository })

/-- The stored events of a handle's stream. -/
def stored (system : HandleSystem) (write : StreamWrite) : List EventRecord :=
  streamEvents system.repository.eventStore write.identity

end HandleSystem

theorem trueVersion_of_numbered {events : List EventRecord}
    (h : Numbered EventRecord.sequence events)
    : trueVersion events = events.length := by
  rw [trueVersion, numbered_iff.mp h]
  cases hlength : events.length with
  | zero => rfl
  | succ count =>
      have hmax : (List.range' 1 (count + 1)).max? = some (count + 1) := by
        rw [List.max?_eq_some_iff]
        refine ⟨?_, fun number hnumber => ?_⟩
        · rw [List.mem_range'_1]
          omega
        · rw [List.mem_range'_1] at hnumber
          omega
      rw [hmax, Option.getD_some]

theorem postSnapshotTail_of_numbered {events : List EventRecord}
    (h : Numbered EventRecord.sequence events) (afterVersion : Nat)
    : postSnapshotTail events afterVersion = events.drop afterVersion := by
  have hfilter := h.filter_drop (Nat.zero_le afterVersion)
  rwa [List.drop_zero] at hfilter

/-- An entity whose stored part is a beginning of the stream. -/
structure HandleValid (storage : EventStore) (write : StreamWrite) : Prop where
  coherent : write.entity.Coherent
  id_eq : write.entity.id = write.identity.aggregateId
  committed_le : write.entity.committedVersion ≤ (streamEvents storage write.identity).length

/-- A load finds the entity at the version of its stream. -/
theorem getStream_valid {repository : InMemoryRepository} {identity : StreamIdentity}
    {now : SystemTime} {entity : Entity} (hgapless : Gapless repository.eventStore)
    (h : getStream identity now repository = some entity)
    : HandleValid repository.eventStore ⟨identity, entity⟩ := by
  rw [getStream, Option.map_eq_some_iff] at h
  obtain ⟨events, hevents, rfl⟩ := h
  refine ⟨.loadFromHistory (numbered_iff.mp (hgapless _ events hevents)), rfl, ?_⟩
  rw [streamEvents, hevents]
  exact Nat.le_refl _

/-- A load of the events after any version also finds the entity at the version of its
stream. -/
theorem getStreamTail_valid {repository : InMemoryRepository} {identity : StreamIdentity}
    {afterVersion : Nat} {now : SystemTime} {entity : Entity}
    (hgapless : Gapless repository.eventStore)
    (h : getStreamTail identity afterVersion now repository = some entity)
    : HandleValid repository.eventStore ⟨identity, entity⟩ := by
  rw [getStreamTail, Option.map_eq_some_iff] at h
  obtain ⟨events, hevents, rfl⟩ := h
  have hnumbered := hgapless _ events hevents
  rw [postSnapshotTail_of_numbered hnumbered, trueVersion_of_numbered hnumbered]
  refine ⟨.loadTailFromHistory ?_, rfl, ?_⟩
  · rw [List.map_drop, numbered_iff.mp hnumbered, List.drop_range', List.length_drop]
    rcases Nat.le_total afterVersion events.length with hle | hle
    · rw [Nat.min_eq_left hle]
      congr 1
      omega
    · rw [Nat.sub_eq_zero_of_le hle]
      rfl
  · rw [streamEvents, hevents]
    simp only [Entity.loadTailFromHistory, List.length_drop, Option.getD_some]
    omega

theorem HandleValid.extends {streams : List StreamWrite} {before after : EventStore}
    {write : StreamWrite} (h : HandleValid before write)
    (hextends : StreamsExtend streams before after)
    : HandleValid after write := by
  have hgrows := (hextends.streamEvents_grows write.identity).length_le
  exact ⟨h.coherent, h.id_eq, h.committed_le.trans hgrows⟩

namespace HandleSystem

variable {crates : Crates} {system : HandleSystem}

/-- The streams are gapless and every handle is at a version its stream has reached. -/
structure Valid (system : HandleSystem) : Prop where
  gapless : Gapless system.repository.eventStore
  handles : ∀ handle write, system.handles.lookup handle = some write →
    HandleValid system.repository.eventStore write

theorem Valid.insert (h : system.Valid) {handle : Nat} {write : StreamWrite}
    (hwrite : HandleValid system.repository.eventStore write)
    : Valid { system with handles := system.handles.insert handle write } := by
  refine ⟨h.gapless, fun other found hfound => ?_⟩
  rw [Map.lookup_insert_eq] at hfound
  split at hfound
  · cases hfound
    exact hwrite
  · exact h.handles other found hfound

theorem Valid.openHandle (h : system.Valid) {handle : Nat} {identity : StreamIdentity}
    {entity : Option Entity}
    (hentity : ∀ found, entity = some found →
      HandleValid system.repository.eventStore ⟨identity, found⟩)
    : (system.openHandle handle identity entity).2.Valid := by
  cases entity with
  | none => exact h
  | some found => exact h.insert (hentity found rfl)

/-- A step of the repository keeps the handles valid, whatever they are open on. -/
theorem Valid.repository (h : system.Valid) (op : RepositoryOp)
    : Valid { system with repository := (InMemoryRepo.step crates op system.repository).2 } := by
  have hextends := step_streams crates op system.repository
  exact ⟨hextends.gapless h.gapless,
    fun handle write hwrite => (h.handles handle write hwrite).extends hextends⟩

/-- The commit of an open handle succeeds exactly when its stream is at the handle's version,
and a refused one changes nothing. -/
theorem Valid.commit (h : system.Valid) {handle : Nat} {write : StreamWrite}
    (hwrite : system.handles.lookup handle = some write) (clock : CommitClock)
    : step crates (.commit handle clock) system
      = if (system.stored write).length = write.entity.committedVersion then
        (.committed (.ok ()), {
          repository := appended system.repository write
          handles := system.handles.insert handle
            { write with entity := write.entity.markCommitted } })
      else
        (.committed (.error (.concurrentWrite write.identity.text
          write.entity.committedVersion (system.stored write).length)), system) := by
  have hvalid := h.handles handle write hwrite
  simp only [step, hwrite, commitHandle, commitBatch_streamBatch hvalid.coherent hvalid.id_eq,
    stored]
  by_cases hfresh : (streamEvents system.repository.eventStore write.identity).length
      = write.entity.committedVersion
  · simp [hfresh]
  · simp [hfresh]

/-- The stream of an accepted handle ends with the handle's new events. -/
theorem streamEvents_appended (repository : InMemoryRepository) (write : StreamWrite)
    : streamEvents (appended repository write).eventStore write.identity
      = streamEvents repository.eventStore write.identity ++ write.entity.newEvents := by
  simp [streamEvents, appended, appendEvents, PreparedEventAppend.fromStreamWrite]

/-- An accepted handle is at the version its commit left the stream at. -/
theorem Valid.committedVersion_accepted (h : system.Valid) {handle : Nat}
    {write : StreamWrite} (hwrite : system.handles.lookup handle = some write)
    (hfresh : (system.stored write).length = write.entity.committedVersion)
    : write.entity.markCommitted.committedVersion
      = (streamEvents (appended system.repository write).eventStore write.identity).length := by
  rw [streamEvents_appended, List.length_append]
  rw [stored] at hfresh
  rw [hfresh]
  exact (h.handles handle write hwrite).coherent.length_newEvents.symm

theorem extends_appended {repository : InMemoryRepository} {write : StreamWrite}
    (hcoherent : write.entity.Coherent)
    (hfresh : (streamEvents repository.eventStore write.identity).length
      = write.entity.committedVersion)
    : StreamsExtend [write] repository.eventStore (appended repository write).eventStore where
  expected stream hstream := List.mem_singleton.mp hstream ▸ hfresh
  numbered stream hstream := List.mem_singleton.mp hstream ▸ hcoherent.newEvents_sequences
  stored stream hstream := by
    cases List.mem_singleton.mp hstream
    exact AList.lookup_insert _
  others key hkey := by
    rw [List.map_singleton, List.mem_singleton] at hkey
    exact AList.lookup_insert_ne hkey

theorem Valid.accepted (h : system.Valid) {handle : Nat} {write : StreamWrite}
    (hwrite : system.handles.lookup handle = some write)
    (hfresh : (system.stored write).length = write.entity.committedVersion)
    : Valid {
        repository := appended system.repository write
        handles := system.handles.insert handle
          { write with entity := write.entity.markCommitted } } := by
  have hvalid := h.handles handle write hwrite
  have hextends := extends_appended hvalid.coherent hfresh
  have happended : Valid { system with repository := appended system.repository write } :=
    ⟨hextends.gapless h.gapless,
      fun other found hfound => (h.handles other found hfound).extends hextends⟩
  exact happended.insert ⟨hvalid.coherent.markCommitted, hvalid.id_eq,
    (h.committedVersion_accepted hwrite hfresh).le⟩

theorem Valid.step (h : system.Valid) (op : HandleOp) : (step crates op system).2.Valid := by
  cases op with
  | create handle identity now =>
      refine h.openHandle ?_
      rintro found ⟨⟩
      exact ⟨.withId _ _, rfl, Nat.zero_le _⟩
  | load handle identity now =>
      exact h.openHandle fun found hfound => getStream_valid h.gapless hfound
  | loadTail handle identity afterVersion now =>
      exact h.openHandle fun found hfound => getStreamTail_valid h.gapless hfound
  | record handle name version encoded recordedAt now =>
      simp only [HandleSystem.step]
      split
      · exact h
      · rename_i write hwrite
        split
        · exact h
        · rename_i entity hrecord
          have hvalid := h.handles handle write hwrite
          obtain ⟨hcoherent, hid, hcommitted, -⟩ := hvalid.coherent.digestV hrecord
          exact h.insert ⟨hcoherent, hid.trans hvalid.id_eq, hcommitted ▸ hvalid.committed_le⟩
  | commit handle clock =>
      cases hwrite : system.handles.lookup handle with
      | none =>
          simp only [HandleSystem.step, hwrite]
          exact h
      | some write =>
          rw [h.commit hwrite]
          split
          · rename_i hfresh
            exact h.accepted hwrite hfresh
          · exact h
  | repository op => exact h.repository op

theorem valid_of_reachable {retention : ProjectionChangeRetention}
    {Allowed : Event HandleSystem HandleOp HandleAnswer → Prop}
    (h : Reachable (step crates) Allowed { repository := .new retention } system)
    : system.Valid := by
  refine h.invariant ⟨gapless_new retention, ?_⟩ fun system op hvalid _ => hvalid.step op
  intro handle write hwrite
  exact absurd hwrite (by simp)

/-- In every run, the commit of an open handle succeeds exactly when its stream is at the
version the handle was loaded at. It then appends the handle's new events and leaves the
handle at the new version without new events; otherwise it reports both versions and changes
neither the stores nor the handle. -/
theorem handle_commits_follow_stream (crates : Crates) (retention : ProjectionChangeRetention)
    {ops : List HandleOp} {event : Event HandleSystem HandleOp HandleAnswer}
    (hevent : event ∈ history (step crates) { repository := .new retention } ops)
    {handle : Nat} {clock : CommitClock} {write : StreamWrite}
    (hop : event.op = .commit handle clock)
    (hopen : event.before.handles.lookup handle = some write)
    : if (event.before.stored write).length = write.entity.committedVersion then
        event.answer = .committed (.ok ())
        ∧ event.after.stored write = event.before.stored write ++ write.entity.newEvents
        ∧ ∃ marked, event.after.handles.lookup handle = some marked
          ∧ marked.entity.committedVersion = (event.after.stored write).length
          ∧ marked.entity.newEvents = []
      else
        event.answer = .committed (.error (.concurrentWrite write.identity.text
          write.entity.committedVersion (event.before.stored write).length))
        ∧ event.after = event.before := by
  have hvalid : event.before.Valid := valid_of_reachable
    (history_reachable (fun _ => True) (fun _ _ => trivial) event hevent).1
  have hstep := history_step hevent
  rw [hop, hvalid.commit hopen] at hstep
  split
  · rename_i hfresh
    rw [if_pos hfresh, Prod.mk.injEq] at hstep
    obtain ⟨hanswer, hafter⟩ := hstep
    rw [← hanswer, ← hafter]
    refine ⟨rfl, streamEvents_appended _ write, _, AList.lookup_insert _,
      hvalid.committedVersion_accepted hopen hfresh, ?_⟩
    have hmarked := (hvalid.handles handle write hopen).coherent.markCommitted.length_newEvents
    exact List.eq_nil_of_length_eq_zero (Nat.left_eq_add.mp hmarked.symm)
  · rename_i hstale
    rw [if_neg hstale, Prod.mk.injEq] at hstep
    exact ⟨hstep.1.symm, hstep.2.symm⟩

/-- Two handles on one new stream; the second is committed after the first. -/
def twoHandles : List HandleOp :=
  [.create 1 todoStream 0, .create 2 todoStream 0, .record 1 "created" 1 (.ok []) 0 0,
    .commit 1 createTodoClock, .commit 2 createTodoClock]

/-- The two handles after the first of their operations. -/
def twoHandlesAfter (count : Nat) : HandleSystem :=
  finalState (step nullOutcomeCrates) { repository := .new defaultProjectionChangeRetention }
    (twoHandles.take count)

/-- The first handle before its commit. -/
def todoCreated : StreamWrite where
  identity := todoStream
  entity := (Entity.withId "1" 0).pushNewEvent (.newVersioned "created" [] 1 1 0) 0

theorem first_todo_handle_commits
    : (twoHandlesAfter 4).stored todoCreated
      = (twoHandlesAfter 3).stored todoCreated ++ todoCreated.entity.newEvents := by
  have hevent : Event.ofStep (step nullOutcomeCrates) (twoHandlesAfter 3)
      (.commit 1 createTodoClock) ∈ history (step nullOutcomeCrates)
        { repository := .new defaultProjectionChangeRetention } (twoHandles.take 4) :=
    List.mem_of_getElem? (i := 3) rfl
  have hfollows := handle_commits_follow_stream nullOutcomeCrates
    defaultProjectionChangeRetention hevent rfl (show _ = some todoCreated from rfl)
  rw [if_pos (by decide +kernel)] at hfollows
  exact hfollows.2.1

/-- The stream has moved past the version the handle was loaded at. -/
def Stale (handle : Nat) (system : HandleSystem) : Prop :=
  ∃ write, system.handles.lookup handle = some write
    ∧ write.entity.committedVersion < (system.stored write).length

/-- The commit of the handle reported a concurrent write and changed nothing. -/
def Refused (handle : Nat) (event : Event HandleSystem HandleOp HandleAnswer) : Prop :=
  ∃ write, event.before.handles.lookup handle = some write
    ∧ event.answer = .committed (.error (.concurrentWrite write.identity.text
      write.entity.committedVersion (event.before.stored write).length))
    ∧ event.after = event.before

variable {handle : Nat}

theorem Stale.extends (h : system.Stale handle) {streams : List StreamWrite}
    {repository : InMemoryRepository} {handles : Map Nat StreamWrite}
    (hextends : StreamsExtend streams system.repository.eventStore repository.eventStore)
    (hkept : handles.lookup handle = system.handles.lookup handle)
    : Stale handle ⟨repository, handles⟩ := by
  obtain ⟨write, hwrite, hless⟩ := h
  exact ⟨write, hkept.trans hwrite,
    hless.trans_le (hextends.streamEvents_grows write.identity).length_le⟩

theorem Stale.insert (h : system.Stale handle) {other : Nat} {write : StreamWrite}
    (hne : other ≠ handle)
    : Stale handle { system with handles := system.handles.insert other write } := by
  obtain ⟨found, hfound, hless⟩ := h
  exact ⟨found, (AList.lookup_insert_ne hne.symm).trans hfound, hless⟩

theorem Stale.openHandle (h : system.Stale handle) {other : Nat} {identity : StreamIdentity}
    {entity : Option Entity} (hne : other ≠ handle)
    : Stale handle (system.openHandle other identity entity).2 := by
  cases entity with
  | none => exact h
  | some entity => exact h.insert hne

theorem Stale.refused (h : system.Stale handle) (hvalid : system.Valid) (clock : CommitClock)
    : Refused handle (.ofStep (step crates) system (.commit handle clock)) := by
  obtain ⟨write, hwrite, hless⟩ := h
  refine ⟨write, hwrite, ?_⟩
  simp only [Event.ofStep]
  rw [hvalid.commit hwrite, if_neg (Nat.ne_of_gt hless)]
  exact ⟨rfl, rfl⟩

/-- A stale handle stays stale until an entity is loaded under it again. -/
theorem Stale.step (h : system.Stale handle) (hvalid : system.Valid) {op : HandleOp}
    (hop : ¬op.Opens handle)
    : Stale handle (step crates op system).2 := by
  cases op with
  | create other identity now => exact h.openHandle hop
  | load other identity now => exact h.openHandle hop
  | loadTail other identity afterVersion now => exact h.openHandle hop
  | record other name version encoded recordedAt now =>
      simp only [HandleSystem.step]
      split
      · exact h
      · rename_i write hwrite
        split
        · exact h
        · rename_i entity hrecord
          by_cases hother : other = handle
          · subst hother
            obtain ⟨found, hfound, hless⟩ := h
            cases hfound.symm.trans hwrite
            have hcoherent := (hvalid.handles other write hwrite).coherent
            obtain ⟨-, -, hcommitted, -⟩ := hcoherent.digestV hrecord
            exact ⟨_, AList.lookup_insert _, hcommitted ▸ hless⟩
          · exact h.insert hother
  | commit other clock =>
      by_cases hother : other = handle
      · subst hother
        have hrefused : Refused other (.ofStep (HandleSystem.step crates) system _) :=
          h.refused hvalid clock
        obtain ⟨-, -, -, hsame⟩ := hrefused
        simp only [Event.ofStep] at hsame
        rwa [hsame]
      · cases hwrite : system.handles.lookup other with
        | none =>
            simp only [HandleSystem.step, hwrite]
            exact h
        | some write =>
            rw [hvalid.commit hwrite]
            split
            · rename_i hfresh
              have hcoherent := (hvalid.handles other write hwrite).coherent
              exact h.extends (extends_appended hcoherent hfresh)
                (AList.lookup_insert_ne (Ne.symm hother))
            · exact h
  | repository op => exact h.extends (step_streams crates op system.repository) rfl

/-- Once a stream has moved past the version a handle was loaded at, whoever moved it, every
commit of that handle is refused until an entity is loaded under it again. Nobody replaces the
events meanwhile. -/
theorem stale_handle_is_refused (crates : Crates) (retention : ProjectionChangeRetention)
    {ops : List HandleOp} {earlier later : List (Event HandleSystem HandleOp HandleAnswer)}
    {event : Event HandleSystem HandleOp HandleAnswer}
    (hsplit : history (step crates) { repository := .new retention } ops
      = earlier ++ event :: later)
    {handle : Nat} (hstale : event.after.Stale handle)
    (hkept : ∀ next ∈ later, ¬next.op.Opens handle)
    : ∀ next ∈ later, ∀ clock, next.op = .commit handle clock → Refused handle next := by
  intro next hnext clock hop
  have hevent := mem_history_of_split hsplit
  have hvalid : event.after.Valid := valid_of_reachable
    (history_reachable (fun _ => True) (fun _ _ => trivial) event hevent).2
  obtain ⟨-, rest, -, -, -, rfl, -⟩ := history_split hsplit
  have hreach := (history_reachable (fun next => ¬next.op.Opens handle) hkept next hnext).1
  have hbefore : next.before.Valid ∧ next.before.Stale handle := by
    generalize next.before = system at hreach
    induction hreach with
    | start => exact ⟨hvalid, hstale⟩
    | next op _ hallowed ih => exact ⟨ih.1.step op, ih.2.step ih.1 hallowed⟩
  have hrefused : Refused handle (.ofStep (step crates) next.before (.commit handle clock)) :=
    hbefore.2.refused hbefore.1 clock
  have hstep := history_step hnext
  rw [hop] at hstep
  rw [Event.ofStep, hstep] at hrefused
  obtain ⟨write, hwrite, hanswer, hafter⟩ := hrefused
  exact ⟨write, hwrite, hanswer, hafter⟩

theorem second_todo_handle_is_refused
    : Refused 2 (.ofStep (step nullOutcomeCrates) (twoHandlesAfter 4)
        (.commit 2 createTodoClock)) := by
  have hsplit : history (step nullOutcomeCrates)
      { repository := .new defaultProjectionChangeRetention } twoHandles
      = history (step nullOutcomeCrates)
          { repository := .new defaultProjectionChangeRetention } (twoHandles.take 3)
        ++ .ofStep (step nullOutcomeCrates) (twoHandlesAfter 3) (.commit 1 createTodoClock)
          :: [.ofStep (step nullOutcomeCrates) (twoHandlesAfter 4)
            (.commit 2 createTodoClock)] := rfl
  refine stale_handle_is_refused nullOutcomeCrates defaultProjectionChangeRetention hsplit
    ⟨_, rfl, by decide +kernel⟩ ?_ _ List.mem_cons_self _ rfl
  intro next hnext
  cases List.mem_singleton.mp hnext
  exact id

end HandleSystem

end Distributed.InMemoryRepo
