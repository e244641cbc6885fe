import Distributed.Foundation.Log
import Distributed.InMemoryRepo.ProtocolTransitions

/-! The change log of a partition, and consumers that follow it.
-/

namespace Distributed.InMemoryRepo

open Distributed.Foundation Distributed.Platform Distributed.ProjectionProtocol

open InMemoryProjectionProtocolState

/-- The place of a change in the log of its partition. -/
def changePlace (change : ProjectionChange) : Nat := change.cursor.position

/-- The partition has appended exactly `log` and retains what it has not compacted. -/
structure LogOk (key : PartitionKey) (log : List ProjectionChange) (state : PartitionState)
    : Prop where
  numbered : Numbered changePlace log
  cursors : ∀ change ∈ log, change.cursor.topology = key.topology
    ∧ change.cursor.projectionPartition = key.partition
    ∧ change.cursor.epoch = state.changeEpoch
  head : state.changeHead = log.length
  floor : state.compactedThrough ≤ log.length
  retained : state.changes.entries
    = (log.drop state.compactedThrough).map fun change => (changePlace change, change)

section Partition

variable {key : PartitionKey} {log : List ProjectionChange} {state final : PartitionState}

theorem LogOk.new (changeEpoch : ProjectionEpoch) : LogOk key [] (.new changeEpoch) where
  numbered := .nil
  cursors _ h := absurd h List.not_mem_nil
  head := rfl
  floor := le_refl 0
  retained := rfl

theorem LogOk.appended {change : ProjectionChange} (h : LogOk key log state)
    (hnext : IsNext key state change)
    : LogOk key (log ++ [change]) (state.appended change) where
  numbered := h.numbered.append (hnext.position.trans (congrArg (· + 1) h.head))
  cursors other hother := by
    rcases List.mem_append.mp hother with hother | hother
    · exact h.cursors other hother
    · rw [List.mem_singleton.mp hother]
      exact ⟨hnext.topology, hnext.partition, hnext.epoch⟩
  head := by simp [PartitionState.appended, h.head]
  floor := by simp [PartitionState.appended, h.floor, Nat.le_succ_of_le]
  retained := by
    have hlast : ∀ entry ∈ state.changes.entries, entry.1 < state.changeHead + 1 := by
      intro entry hentry
      rw [h.retained] at hentry
      obtain ⟨other, hother, rfl⟩ := List.mem_map.mp hentry
      have hplace := (h.numbered.of_mem_drop hother).2
      rw [h.head]
      exact Nat.lt_succ_of_le hplace
    rw [PartitionState.appended, SortedMap.entries_insert_of_gt change hlast, h.retained,
      List.drop_append_of_le_length h.floor, List.map_append]
    simp [changePlace, hnext.position]

theorem LogOk.extended {changes : List ProjectionChange} (h : LogOk key log state)
    (hfollows : Follows key state changes)
    : LogOk key (log ++ changes) (state.extended changes) := by
  induction changes generalizing log state with
  | nil => simpa [PartitionState.extended] using h
  | cons change changes ih =>
      have hrest := ih (h.appended hfollows.1) hfollows.2
      rwa [List.append_assoc] at hrest

theorem LogOk.compacted {through : Nat} (h : LogOk key log state)
    (hnew : state.compactedThrough < through) (hhead : through ≤ state.changeHead)
    : LogOk key log (state.compacted through) where
  numbered := h.numbered
  cursors := h.cursors
  head := h.head
  floor := h.head ▸ hhead
  retained := by
    rw [PartitionState.compacted, SortedMap.filterKeys]
    dsimp only
    rw [h.retained, List.filter_map, ← h.numbered.filter_drop (Nat.le_of_lt hnew)]
    rfl

theorem LogOk.retains (h : LogOk key log state) (hretains : Retains state final)
    : LogOk key log final := by
  obtain rfl | ⟨through, hnew, hhead, rfl⟩ := hretains
  · exact h
  · exact h.compacted hnew hhead

/-- The log does not depend on the generation and the fences. -/
theorem LogOk.refence (h : LogOk key log state) (activeGeneration : ProjectionGeneration)
    (stoppedFailureId pendingRetryFailureId : Option String)
    : LogOk key log
        { state with activeGeneration, stoppedFailureId, pendingRetryFailureId } :=
  ⟨h.numbered, h.cursors, h.head, h.floor, h.retained⟩

/-- A page after a position that is not compacted is the log's next entries. -/
theorem LogOk.changesAfter {position limit : Nat} (h : LogOk key log state)
    (hposition : state.compactedThrough ≤ position)
    : state.changesAfter position limit = (log.drop position).take limit := by
  rw [PartitionState.changesAfter, h.retained, List.filter_map,
    ← h.numbered.filter_drop hposition, ← List.map_take, List.map_map]
  exact List.map_id _

end Partition

/-- The changes a partition has appended; an unknown partition has appended none. -/
def HasLog (key : PartitionKey) (log : List ProjectionChange)
    (protocol : InMemoryProjectionProtocolState) : Prop :=
  (protocol.partitions.lookup key).elim (log = []) (LogOk key log)

section Steps

variable {key written : PartitionKey} {log : List ProjectionChange}
  {before after : InMemoryProjectionProtocolState}

theorem HasLog.of_known {state : PartitionState}
    (hstate : before.partitions.lookup key = some state)
    : HasLog key log before ↔ LogOk key log state := by
  rw [HasLog, hstate]
  rfl

theorem HasLog.congr (hsame : after.partitions.lookup key = before.partitions.lookup key)
    : HasLog key log after ↔ HasLog key log before := by
  rw [HasLog, HasLog, hsame]

theorem Opens.logOk {base : PartitionState} (hlog : HasLog key log before)
    (hopens : Opens before key base)
    : LogOk key log base := by
  obtain hknown | ⟨hunknown, hnew⟩ := hopens
  · exact (HasLog.of_known hknown).mp hlog
  · rw [HasLog, hunknown] at hlog
    cases (show log = [] from hlog)
    rw [hnew]
    exact .new _

/-- An operation that writes a partition appends to its log and to no other. -/
theorem LogEffect.extendsLog {epoch : ProjectionEpoch} {changes : List ProjectionChange}
    {stopped : Option String} (hlog : HasLog key log before)
    (h : LogEffect written epoch before after changes stopped)
    : HasLog key (if key = written then log ++ changes else log) after := by
  obtain ⟨base, final, hopens, -, hfollows, hretains, hwrites⟩ := h.partition
  split
  · rename_i hkey
    subst hkey
    have hextended := (hopens.logOk hlog).extended hfollows
    rw [HasLog.of_known hwrites.lookup_self]
    exact (hextended.refence _ _ _).retains hretains
  · rename_i hkey
    exact (HasLog.congr ((hwrites key).trans (if_neg hkey))).mpr hlog

theorem LogEffect.hasLog {epoch : ProjectionEpoch} {changes : List ProjectionChange}
    {stopped : Option String} (hlog : HasLog key log before)
    (h : LogEffect written epoch before after changes stopped)
    : ∃ grown, log <+: grown ∧ HasLog key grown after := by
  refine ⟨_, ?_, h.extendsLog hlog⟩
  split
  · exact List.prefix_append _ _
  · exact List.prefix_refl _

theorem WritesPartition.hasLog {state final : PartitionState} (hlog : HasLog key log before)
    (hstate : before.partitions.lookup written = some state)
    (hok : ∀ log, LogOk written log state → LogOk written log final)
    (h : WritesPartition before after written final)
    : HasLog key log after := by
  by_cases hkey : key = written
  · subst hkey
    rw [HasLog.of_known h.lookup_self]
    exact hok log ((HasLog.of_known hstate).mp hlog)
  · exact (HasLog.congr ((h key).trans (if_neg hkey))).mpr hlog

theorem ProtocolStep.hasLog {op : RepositoryOp} {answer : RepositoryAnswer}
    (hlog : HasLog key log before) (h : ProtocolStep before after op answer)
    : ∃ grown, log <+: grown ∧ HasLog key grown after := by
  cases h with
  | unchanged hsame _ => exact ⟨log, List.prefix_refl _, hsame ▸ hlog⟩
  | registered hafter _ _ =>
      exact ⟨log, List.prefix_refl _, (HasLog.congr (by rw [hafter])).mpr hlog⟩
  | applied _ heffect _ => exact heffect.log.hasLog hlog
  | redelivered _ _ hsame => exact ⟨log, List.prefix_refl _, hsame ▸ hlog⟩
  | failed _ _ heffect => exact heffect.log.hasLog hlog
  | repaired heffect =>
      exact ⟨log, List.prefix_refl _,
        heffect.writes.hasLog hlog heffect.known fun log hok => hok.refence _ _ _⟩
  | compacted hstate hcompacts _ =>
      obtain ⟨final, hretains, hwrites, -⟩ := hcompacts.writes hstate
      exact ⟨log, List.prefix_refl _,
        hwrites.hasLog hlog hstate fun log hok => hok.retains hretains⟩
  | direct _ heffect _ => exact heffect.log.hasLog hlog

end Steps

/-- A consumer of one partition: the cursor it continues from, everything it received, and
whether it was told to reset. -/
structure ChangeConsumer where
  cursor : Option ProjectionChangeCursor
  received : List ProjectionChange := []
  reset : Bool := false

/-- One call of `projection_changes`. The consumer continues from the last cursor it
received. -/
def ChangeConsumer.poll (protocol : InMemoryProjectionProtocolState) (key : PartitionKey)
    (limit : Nat) (consumer : ChangeConsumer) : ChangeConsumer :=
  match projectionChanges protocol key.topology key.partition consumer.cursor limit with
  | .ok (.changes _ _ changes) =>
      { consumer with
        cursor := (changes.getLast?.map ProjectionChange.cursor).or consumer.cursor
        received := consumer.received ++ changes }
  | .ok (.resetRequired _ _) => { consumer with reset := true }
  | .error _ => consumer

/-- The entries before a cursor. -/
def cursorPosition (cursor : Option ProjectionChangeCursor) : Nat :=
  (cursor.map ProjectionChangeCursor.position).getD 0

/-- The consumer has every change after its start, up to its cursor, or was told to reset. -/
def CaughtUp (start : Option ProjectionChangeCursor) (log : List ProjectionChange)
    (consumer : ChangeConsumer) : Prop :=
  consumer.reset = true
    ∨ Received log (cursorPosition start) consumer.received
      ∧ cursorPosition consumer.cursor = cursorPosition start + consumer.received.length

section Poll

variable {key : PartitionKey} {log : List ProjectionChange}
  {protocol : InMemoryProjectionProtocolState} {start : Option ProjectionChangeCursor}
  {consumer : ChangeConsumer}

theorem resumePosition_eq_some {state : PartitionState}
    {cursor : Option ProjectionChangeCursor} {position : Nat}
    (h : state.resumePosition key cursor = some position)
    : position = cursorPosition cursor ∧ state.compactedThrough ≤ position
      ∧ position ≤ state.changeHead := by
  unfold PartitionState.resumePosition at h
  cases cursor with
  | none =>
      dsimp only at h
      split at h
      · cases h
      · rename_i hfloor
        cases h
        exact ⟨rfl, Nat.le_of_not_lt hfloor, Nat.zero_le _⟩
  | some cursor =>
      dsimp only at h
      split at h
      · cases h
      · rename_i hvalid
        simp only [not_or, not_lt] at hvalid
        cases h
        exact ⟨rfl, hvalid.2.2.2.2, hvalid.2.2.2.1⟩

/-- The newest change has a valid cursor, so the head of the log can be reported. -/
theorem LogOk.headCursor {state : PartitionState} (h : LogOk key log state)
    : ∃ head, state.headCursor key = .ok head := by
  unfold PartitionState.headCursor
  split
  · exact ⟨none, rfl⟩
  · rename_i hhead
    have hlast : log.length - 1 < log.length := by
      have hlength := h.head
      omega
    have hplace := h.numbered (log.length - 1) _ (List.getElem?_eq_getElem hlast)
    have hvalid : ValidPosition state.changeHead := by
      have hposition := (log[log.length - 1]).cursor.position_valid
      rw [show (log[log.length - 1]).cursor.position = log.length - 1 + 1 from hplace,
        Nat.sub_add_cancel (Nat.one_le_of_lt hlast), ← h.head] at hposition
      exact hposition
    refine ⟨some ⟨key.topology, key.partition, state.changeEpoch, state.changeHead, hvalid⟩, ?_⟩
    rw [ProjectionChangeCursor.new, validatePosition_eq_ok hvalid]
    rfl

/-- A poll answers with the log's next entries after the consumer's cursor, or with a reset. -/
theorem projectionChanges_eq (cursor : Option ProjectionChangeCursor) (limit : Nat)
    (hlog : HasLog key log protocol)
    : (∃ head floor, projectionChanges protocol key.topology key.partition cursor limit
        = .ok (.resetRequired head floor))
      ∨ cursorPosition cursor ≤ log.length
        ∧ ∃ head floor, projectionChanges protocol key.topology key.partition cursor limit
          = .ok (.changes head floor ((log.drop (cursorPosition cursor)).take limit)) := by
  unfold projectionChanges
  cases hstate : protocol.partitions.lookup key with
  | none =>
      rw [HasLog, hstate] at hlog
      cases (show log = [] from hlog)
      simp only [hstate]
      cases cursor with
      | none => exact .inr ⟨le_refl 0, none, 0, by simp⟩
      | some cursor => exact .inl ⟨none, 0, rfl⟩
  | some state =>
      have hok := (HasLog.of_known hstate).mp hlog
      obtain ⟨head, hhead⟩ := hok.headCursor
      simp only [hstate, hhead, Result.ok_bind]
      cases hresume : state.resumePosition key cursor with
      | none => exact .inl ⟨head, state.compactedThrough, rfl⟩
      | some position =>
          obtain ⟨rfl, hfloor, hposition⟩ := resumePosition_eq_some hresume
          refine .inr ⟨hok.head ▸ hposition, head, state.compactedThrough, ?_⟩
          rw [← hok.changesAfter hfloor]

theorem CaughtUp.poll (limit : Nat) (hlog : HasLog key log protocol)
    (hnumbered : Numbered changePlace log) (h : CaughtUp start log consumer)
    : CaughtUp start log (consumer.poll protocol key limit) := by
  unfold ChangeConsumer.poll
  obtain ⟨head, floor, hread⟩ | ⟨-, head, floor, hread⟩ :=
    projectionChanges_eq consumer.cursor limit hlog
  · rw [hread]
    exact .inl rfl
  · rw [hread]
    refine h.imp id ?_
    rintro ⟨hreceived, hcursor⟩
    -- The page ends at the entry the consumer continues from.
    have hpage := hreceived.page limit
    rw [← hcursor] at hpage
    generalize (log.drop (cursorPosition consumer.cursor)).take limit = page at hpage ⊢
    refine ⟨hpage, ?_⟩
    dsimp only
    cases hlast : page.getLast? with
    | none =>
        cases List.getLast?_eq_none_iff.mp hlast
        simpa using hcursor
    | some last =>
        have hall : (consumer.received ++ page).getLast? = some last := by
          rw [List.getLast?_append, hlast]
          rfl
        exact hpage.number_getLast hnumbered hall

/-- A poll that was not told to reset leaves out no entry it has room for. -/
theorem CaughtUp.poll_length {limit : Nat} (hlog : HasLog key log protocol)
    (h : CaughtUp start log consumer)
    (hreset : (consumer.poll protocol key limit).reset = false)
    : cursorPosition start + (consumer.poll protocol key limit).received.length
      = min (cursorPosition start + consumer.received.length + limit) log.length := by
  unfold ChangeConsumer.poll at hreset ⊢
  obtain ⟨head, floor, hread⟩ | ⟨hposition, head, floor, hread⟩ :=
    projectionChanges_eq consumer.cursor limit hlog
  · rw [hread] at hreset
    cases hreset
  · rw [hread] at hreset ⊢
    obtain hdone | ⟨-, hcursor⟩ := h
    · rw [hdone] at hreset
      cases hreset
    · simp only [List.length_append, List.length_take, List.length_drop]
      omega

end Poll

/-- A repository and a consumer of one of its partitions. -/
structure ChangeFeed where
  repository : InMemoryRepository
  consumer : ChangeConsumer

inductive FeedOp where
  | operate (op : RepositoryOp)
  | poll (limit : Nat)

def feedStep (crates : Crates) (key : PartitionKey) : FeedOp → ChangeFeed → Unit × ChangeFeed
  | .operate op, feed =>
      ((), { feed with repository := (step crates op feed.repository).2 })
  | .poll limit, feed =>
      ((), { feed with
        consumer := feed.consumer.poll feed.repository.projectionProtocol key limit })

/-- A consumer that starts at a cursor of a new repository. -/
def ChangeFeed.new (retention : ProjectionChangeRetention)
    (start : Option ProjectionChangeCursor) : ChangeFeed :=
  ⟨.new retention, { cursor := start }⟩

/-- What the full log of a partition says about one event of a run. -/
structure FollowsLog (key : PartitionKey) (start : Option ProjectionChangeCursor)
    (log : List ProjectionChange) (event : Event ChangeFeed FeedOp Unit) : Prop where
  /-- The partition retains the entries it has appended and not compacted. -/
  stored : ∀ state,
    event.after.repository.projectionProtocol.partitions.lookup key = some state →
      state.changeHead ≤ log.length
      ∧ state.changes.entries
        = ((log.take state.changeHead).drop state.compactedThrough).map
          fun change => (changePlace change, change)
  /-- The consumer has the entries after its start, or knows that it must reset. -/
  received : event.after.consumer.reset = true
    ∨ Received log (cursorPosition start) event.after.consumer.received
  /-- A poll leaves out an entry only for want of room. -/
  polled : ∀ limit, event.op = .poll limit → event.after.consumer.reset = false →
    ∀ state, event.before.repository.projectionProtocol.partitions.lookup key = some state →
      cursorPosition start + event.after.consumer.received.length
        = min (cursorPosition start + event.before.consumer.received.length + limit)
          state.changeHead

section Runs

variable {key : PartitionKey} {start : Option ProjectionChangeCursor}
  {log grown : List ProjectionChange}

theorem HasLog.numbered {protocol : InMemoryProjectionProtocolState}
    (h : HasLog key log protocol)
    : Numbered changePlace log
      ∧ ∀ change ∈ log, change.cursor.topology = key.topology
        ∧ change.cursor.projectionPartition = key.partition := by
  cases hstate : protocol.partitions.lookup key with
  | none =>
      rw [HasLog, hstate] at h
      cases (show log = [] from h)
      exact ⟨.nil, fun _ h => absurd h List.not_mem_nil⟩
  | some state =>
      have hok := (HasLog.of_known hstate).mp h
      exact ⟨hok.numbered, fun change hchange =>
        ⟨(hok.cursors change hchange).1, (hok.cursors change hchange).2.1⟩⟩

theorem CaughtUp.grow {consumer : ChangeConsumer} (h : CaughtUp start log consumer)
    (hgrows : log <+: grown)
    : CaughtUp start grown consumer :=
  h.imp id fun hreceived => ⟨hreceived.1.grow hgrows, hreceived.2⟩

theorem FollowsLog.grow {event : Event ChangeFeed FeedOp Unit}
    (h : FollowsLog key start log event) (hgrows : log <+: grown)
    : FollowsLog key start grown event where
  stored state hstate := by
    obtain ⟨hhead, hentries⟩ := h.stored state hstate
    obtain ⟨rest, rfl⟩ := hgrows
    refine ⟨hhead.trans (by simp), ?_⟩
    rw [List.take_append_of_le_length hhead]
    exact hentries
  received := h.received.imp id fun hreceived => hreceived.grow hgrows
  polled := h.polled

/-- The consumer's step: its repository's log grows and the consumer keeps up with it. -/
theorem feedStep_followsLog (crates : Crates) {feed : ChangeFeed} (op : FeedOp)
    (hlog : HasLog key log feed.repository.projectionProtocol)
    (hconsumer : CaughtUp start log feed.consumer)
    : ∃ grown, log <+: grown
      ∧ (HasLog key grown (feedStep crates key op feed).2.repository.projectionProtocol
        ∧ CaughtUp start grown (feedStep crates key op feed).2.consumer)
      ∧ FollowsLog key start grown (.ofStep (feedStep crates key) feed op) := by
  have hstored : ∀ {log : List ProjectionChange} {protocol state}, HasLog key log protocol →
      protocol.partitions.lookup key = some state →
      state.changeHead ≤ log.length ∧ state.changes.entries
        = ((log.take state.changeHead).drop state.compactedThrough).map
          fun change => (changePlace change, change) := by
    intro log protocol state hlog hstate
    have hok := (HasLog.of_known hstate).mp hlog
    refine ⟨hok.head.le, ?_⟩
    rw [hok.head, List.take_length]
    exact hok.retained
  cases op with
  | operate op =>
      obtain ⟨grown, hgrows, hafter⟩ :=
        (step_protocolStep crates feed.repository op).hasLog hlog
      have hcaught := hconsumer.grow hgrows
      exact ⟨grown, hgrows, ⟨hafter, hcaught⟩, fun _ => hstored hafter,
        hcaught.imp id fun h => h.1, nofun⟩
  | poll limit =>
      have hcaught := hconsumer.poll limit hlog hlog.numbered.1
      refine ⟨log, List.prefix_refl _, ⟨hlog, hcaught⟩, fun _ => hstored hlog,
        hcaught.imp id fun h => h.1, ?_⟩
      rintro _ ⟨⟩ hreset state hstate
      rw [((HasLog.of_known hstate).mp hlog).head]
      exact hconsumer.poll_length hlog hreset

end Runs

/-- For every run there is one log of the partition such that a consumer has, after each of
its polls, every change after its starting cursor exactly once and in order, up to the head
or its limit, or was told to reset. -/
theorem change_feed_misses_nothing (crates : Crates) (retention : ProjectionChangeRetention)
    (key : PartitionKey) (start : Option ProjectionChangeCursor) (ops : List FeedOp)
    : ∃ log, Numbered changePlace log
      ∧ (∀ change ∈ log, change.cursor.topology = key.topology
        ∧ change.cursor.projectionPartition = key.partition)
      ∧ ∀ event ∈ history (feedStep crates key) (.new retention start) ops,
        FollowsLog key start log event := by
  have hstart : HasLog key [] (ChangeFeed.new retention start).repository.projectionProtocol
      ∧ CaughtUp start [] (ChangeFeed.new retention start).consumer :=
    ⟨rfl, .inr ⟨.nil _ _, rfl⟩⟩
  obtain ⟨log, -, ⟨hlog, -⟩, hevents⟩ := history_ghost (feedStep crates key) (· <+: ·)
    (fun log feed => HasLog key log feed.repository.projectionProtocol
      ∧ CaughtUp start log feed.consumer)
    (FollowsLog key start) List.prefix_refl List.IsPrefix.trans
    (fun hgrows hgood => hgood.grow hgrows)
    (fun log feed op hinv => feedStep_followsLog crates op hinv.1 hinv.2) hstart ops
  exact ⟨log, hlog.numbered.1, hlog.numbered.2, hevents⟩

end Distributed.InMemoryRepo
