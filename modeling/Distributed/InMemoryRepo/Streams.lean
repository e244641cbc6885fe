import Distributed.Foundation.Log
import Distributed.InMemoryRepo.ServiceSteps

/-! Event streams over whole runs: gapless, append-only and free of lost updates.
-/

namespace Distributed.InMemoryRepo

open Distributed.CommandLedger Distributed.Entities Distributed.Foundation

open Distributed.Platform Distributed.ProjectionProtocol Distributed.Repository

abbrev EventStore : Type := Map String (List EventRecord)

/-- The stored events of a stream; a missing stream has none. -/
def streamEvents (storage : EventStore) (identity : StreamIdentity) : List EventRecord :=
  (storage.lookup identity.storageKey).getD []

theorem storedStreamVersion_eq (storage : EventStore) (identity : StreamIdentity)
    : storedStreamVersion (storage.lookup identity.storageKey)
      = (streamEvents storage identity).length := by
  rw [streamEvents, storedStreamVersion]
  cases storage.lookup identity.storageKey with
  | none => rfl
  | some events => rfl

/-- Each write extends its own stream, which is at the version the write expects, and no
other stream changes. -/
structure StreamsExtend (streams : List StreamWrite) (before after : EventStore) : Prop where
  expected : ∀ stream ∈ streams,
    (streamEvents before stream.identity).length = stream.entity.committedVersion
  numbered : ∀ stream ∈ streams, stream.entity.newEvents.map EventRecord.sequence
    = List.range' (stream.entity.committedVersion + 1) stream.entity.newEvents.length
  stored : ∀ stream ∈ streams, after.lookup stream.identity.storageKey
    = some (streamEvents before stream.identity ++ stream.entity.newEvents)
  others : ∀ key, key ∉ streams.map (fun stream => stream.identity.storageKey) →
    after.lookup key = before.lookup key

theorem checkExpectedVersion_ok {storage : EventStore} {append : PreparedEventAppend}
    (h : checkExpectedVersion storage append = .ok ())
    : (streamEvents storage append.identity).length = append.expectedVersion := by
  rw [checkExpectedVersion, Result.guard_eq_ok_iff, not_not, storedStreamVersion_eq] at h
  exact h.1

theorem checkStores_versions {repository : InMemoryRepository} {clock : CommitClock}
    {batch : CommitBatch} {completion : Option CommandCompletion}
    {direct : Option SameTransactionProjectionBatch} {prepared : List PreparedEventAppend}
    (h : checkStores repository clock batch completion direct prepared = .ok ())
    : prepared.forM (checkExpectedVersion repository.eventStore) = .ok () := by
  unfold checkStores at h
  cases direct with
  | none =>
      simp only [Result.bind_eq_ok_iff, ofRepository, Result.mapError_eq_ok_iff] at h
      obtain ⟨_, -, _, -, _, -, hversions⟩ := h
      exact hversions
  | some projection =>
      simp only [Result.bind_eq_ok_iff, ofRepository, Result.mapError_eq_ok_iff] at h
      obtain ⟨_, -, _, -, _, -, hversions⟩ := h
      exact hversions

theorem Commits.extends {crates : Crates} {batch : CommitBatch}
    {before after : InMemoryRepository} (h : Commits crates batch before after)
    : StreamsExtend batch.streams before.eventStore after.eventStore := by
  cases h with
  | @published clock completion direct staged h =>
      have hbatch := h.validatedBatch
      have hversions := checkStores_versions h.checked
      rw [Result.forM_eq_ok_iff, hbatch.prepared_eq] at hversions
      refine ⟨fun stream hstream => ?_, hbatch.sequences, h.present.streams, fun key hkey => ?_⟩
      · have hexpected := checkExpectedVersion_ok (hversions _ (List.mem_map_of_mem hstream))
        exact hexpected
      · refine lookup_foldl_appendEvents_of_notMem fun hmem => hkey ?_
        rwa [hbatch.prepared_eq, List.map_map] at hmem

/-- The streams after an operation: extended by the batch it stored, or the same. -/
theorem step_streams (crates : Crates) (op : RepositoryOp) (repository : InMemoryRepository)
    : StreamsExtend ((storedBatch crates op (step crates op repository).1).elim [] (·.streams))
        repository.eventStore (step crates op repository).2.eventStore := by
  rcases step_service crates op repository with ⟨batch, hbatch, hcommits⟩ | ⟨hnone, hother⟩
  · rw [hbatch]
    exact hcommits.extends
  · rw [hnone]
    refine ⟨?_, ?_, ?_, fun key _ => by rw [hother.events]⟩
    all_goals exact fun stream hstream => absurd hstream List.not_mem_nil

/-- Every stream after the step starts with what it held before. -/
theorem StreamsExtend.grows {streams : List StreamWrite} {before after : EventStore}
    (h : StreamsExtend streams before after) {key : String} {events : List EventRecord}
    (hevents : before.lookup key = some events)
    : ∃ grown, after.lookup key = some grown ∧ events <+: grown := by
  by_cases hkey : key ∈ streams.map fun stream => stream.identity.storageKey
  · obtain ⟨stream, hstream, rfl⟩ := List.mem_map.mp hkey
    refine ⟨_, h.stored stream hstream, ?_⟩
    rw [streamEvents, hevents]
    exact List.prefix_append _ _
  · exact ⟨events, (h.others key hkey).trans hevents, List.prefix_rfl⟩

theorem StreamsExtend.streamEvents_grows {streams : List StreamWrite}
    {before after : EventStore} (h : StreamsExtend streams before after)
    (identity : StreamIdentity)
    : streamEvents before identity <+: streamEvents after identity := by
  rw [streamEvents, streamEvents]
  cases hevents : before.lookup identity.storageKey with
  | none => exact List.nil_prefix
  | some events =>
      obtain ⟨grown, hgrown, hprefix⟩ := h.grows hevents
      rw [hgrown]
      exact hprefix

/-- The events of every stream are numbered from one. -/
def Gapless (storage : EventStore) : Prop :=
  ∀ key events, storage.lookup key = some events → Numbered EventRecord.sequence events

theorem Gapless.streamEvents {storage : EventStore} (h : Gapless storage)
    (identity : StreamIdentity)
    : Numbered EventRecord.sequence (streamEvents storage identity) := by
  rw [InMemoryRepo.streamEvents]
  cases hevents : storage.lookup identity.storageKey with
  | none => exact .nil
  | some events => exact h _ events hevents

theorem StreamsExtend.gapless {streams : List StreamWrite} {before after : EventStore}
    (h : StreamsExtend streams before after) (hgapless : Gapless before)
    : Gapless after := by
  intro key events hevents
  by_cases hkey : key ∈ streams.map fun stream => stream.identity.storageKey
  · obtain ⟨stream, hstream, rfl⟩ := List.mem_map.mp hkey
    cases (h.stored stream hstream).symm.trans hevents
    refine (hgapless.streamEvents stream.identity).append_all ?_
    rw [h.expected stream hstream]
    exact h.numbered stream hstream
  · exact hgapless key events ((h.others key hkey).symm.trans hevents)

theorem gapless_new (retention : ProjectionChangeRetention)
    : Gapless (InMemoryRepository.new retention).eventStore :=
  fun _ _ hevents => absurd hevents (by simp [InMemoryRepository.new])

theorem gapless_of_reachable {crates : Crates} {retention : ProjectionChangeRetention}
    {Allowed : Event InMemoryRepository RepositoryOp RepositoryAnswer → Prop}
    {repository : InMemoryRepository}
    (h : Reachable (step crates) Allowed (.new retention) repository)
    : Gapless repository.eventStore := by
  induction h with
  | start => exact gapless_new retention
  | next op _ _ ih => exact (step_streams crates op _).gapless ih

section Runs

variable {crates : Crates} {repository : InMemoryRepository}

/-- A stream keeps its events, in place, to the end of a run. -/
theorem finalState_grows (ops : List RepositoryOp) {key : String} {events : List EventRecord}
    (hevents : repository.eventStore.lookup key = some events)
    : ∃ grown, (finalState (step crates) repository ops).eventStore.lookup key = some grown
      ∧ events <+: grown := by
  induction ops generalizing repository events with
  | nil => exact ⟨events, hevents, List.prefix_rfl⟩
  | cons op ops ih =>
      obtain ⟨middle, hmiddle, hfirst⟩ := (step_streams crates op repository).grows hevents
      obtain ⟨grown, hgrown, hrest⟩ := ih hmiddle
      exact ⟨grown, hgrown, hfirst.trans hrest⟩

/-- The stored events of a write: those between its expected version and its own. -/
def StoredAt (stream : StreamWrite) (events : List EventRecord) : Prop :=
  (events.drop stream.entity.committedVersion).take stream.entity.newEvents.length
    = stream.entity.newEvents

theorem StreamsExtend.storedAt {streams : List StreamWrite} {before after : EventStore}
    (h : StreamsExtend streams before after) {stream : StreamWrite} (hstream : stream ∈ streams)
    {grown : List EventRecord}
    (hgrown : streamEvents before stream.identity ++ stream.entity.newEvents <+: grown)
    : StoredAt stream grown := by
  obtain ⟨rest, rfl⟩ := hgrown
  rw [StoredAt, ← h.expected stream hstream, List.append_assoc, List.drop_left,
    List.take_left]

end Runs

/-- Streams over every run of a new repository in which no store is replaced: each is numbered
from one without gaps, keeps whatever it held at an earlier time at its start, and holds the
events of every successful commit, in one piece, right after the version the commit expected. -/
theorem streams_are_append_only (crates : Crates) (retention : ProjectionChangeRetention)
    (ops : List RepositoryOp)
    : Gapless (finalState (step crates) (.new retention) ops).eventStore
      ∧ ∀ earlier event later,
        history (step crates) (.new retention) ops = earlier ++ event :: later →
        (∀ key events, event.after.eventStore.lookup key = some events →
          ∃ grown, (finalState (step crates) (.new retention) ops).eventStore.lookup key
              = some grown
            ∧ events <+: grown)
        ∧ ∀ batch, storedBatch crates event.op event.answer = some batch →
          ∀ stream ∈ batch.streams,
            StoredAt stream
              (streamEvents (finalState (step crates) (.new retention) ops).eventStore
                stream.identity) := by
  constructor
  · exact gapless_of_reachable
      (finalState_reachable (fun _ => True) fun _ _ => trivial)
  · intro earlier event later hsplit
    obtain ⟨-, rest, -, -, -, -, hfinal⟩ := history_split hsplit
    have hgrows : ∀ key events, event.after.eventStore.lookup key = some events →
        ∃ grown, (finalState (step crates) (.new retention) ops).eventStore.lookup key
            = some grown
          ∧ events <+: grown := by
      intro key events hevents
      rw [hfinal]
      exact finalState_grows rest hevents
    refine ⟨hgrows, fun batch hbatch stream hstream => ?_⟩
    have hevent := mem_history_of_split hsplit
    have hextends := step_streams crates event.op event.before
    rw [history_step hevent, hbatch] at hextends
    obtain ⟨grown, hgrown, hprefix⟩ := hgrows _ _ (hextends.stored stream hstream)
    rw [streamEvents, hgrown]
    exact hextends.storedAt hstream hprefix

/-- Of two commits to one stream, the second starts at the version the first left or later. -/
def CommitsInTurn (crates : Crates)
    (first second : Event InMemoryRepository RepositoryOp RepositoryAnswer) : Prop :=
  ∀ batch later,
    storedBatch crates first.op first.answer = some batch →
    storedBatch crates second.op second.answer = some later →
    ∀ stream ∈ batch.streams, ∀ next ∈ later.streams,
      stream.identity.storageKey = next.identity.storageKey →
      stream.entity.committedVersion + stream.entity.newEvents.length
        ≤ next.entity.committedVersion

/-- No update is lost: in every run without a restore, two successful commits to one stream
never start from the same version once the first of them stored an event. -/
theorem commits_are_taken_in_turn (crates : Crates) (retention : ProjectionChangeRetention)
    (ops : List RepositoryOp)
    : (history (step crates) (.new retention) ops).Pairwise (CommitsInTurn crates) := by
  refine history_pairwise _ (fun repository op rest second hsecond => ?_) _ ops
  intro batch later hbatch hlater stream hstream next hnext hsame
  have hfirst := step_streams crates op repository
  have hlast := step_streams crates second.op second.before
  rw [history_step hsecond, hlater] at hlast
  rw [show storedBatch crates op (step crates op repository).1 = some batch from hbatch]
    at hfirst
  obtain ⟨taken, hbefore⟩ := history_before hsecond
  obtain ⟨grown, hgrown, hprefix⟩ :=
    finalState_grows taken (hfirst.stored stream hstream)
  have hexpected := hlast.expected next hnext
  rw [streamEvents, ← hsame, hbefore, hgrown] at hexpected
  have hlength := hprefix.length_le
  rw [List.length_append, hfirst.expected stream hstream] at hlength
  exact hlength.trans (Nat.le_of_eq hexpected)

end Distributed.InMemoryRepo
