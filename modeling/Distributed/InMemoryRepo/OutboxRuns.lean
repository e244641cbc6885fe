import Distributed.InMemoryRepo.ServiceSteps
import Distributed.OutboxWorker.Claims

/-! The messages of the outbox over whole runs.
-/

namespace Distributed.InMemoryRepo

open Distributed.Foundation Distributed.Outbox Distributed.OutboxWorker

open Distributed.Platform Distributed.ProjectionProtocol Distributed.Repository

/-- The claims an operation presents, with what it does to their messages. -/
def presented : RepositoryOp → List (Settlement × OutboxClaimRef × SystemTime)
  | .settleOutbox settlement claim now => [(settlement, claim, now)]
  | .completeManyOutbox claims now => claims.map fun claim => (.complete, claim, now)
  | _ => []

/-- Every way an operation can change a stored message. -/
inductive OutboxChange (op : RepositoryOp) (id : String) (message : OutboxMessage)
    : OutboxMessage → Prop
  | same : OutboxChange op id message message
  | leased {request : ClaimOutboxMessages} {now : SystemTime} {checked : Nat → SystemTime}
      {index : Nat} (deadline : SystemTime)
      : op = .claimOutbox request now checked → message.isClaimableAt now = true →
        message.isClaimableAt (checked index) = true →
        OutboxChange op id message (leasedTo request.workerId deadline message)
  | settled {settlement : Settlement} {claim : OutboxClaimRef} {now : SystemTime}
      : (settlement, claim, now) ∈ presented op → claim.messageId = id →
        HeldUnder message claim now →
        OutboxChange op id message (settlement.settled message)

section Step

variable {crates : Crates} {repository : InMemoryRepository} {storage : OutboxStorage}
  {id : String} {message : OutboxMessage} {op : RepositoryOp} {now : SystemTime}

theorem lookup_settle (settlement : Settlement) (claim : OutboxClaimRef)
    (h : storage.lookup id = some message)
    : (settle crates settlement claim now storage).2.lookup id = some message
      ∨ claim.messageId = id ∧ HeldUnder message claim now
        ∧ (settle crates settlement claim now storage).2.lookup id
          = some (settlement.settled message) := by
  rcases settle_cases settlement claim with ⟨found, hfound, hheld, hsettle⟩ | ⟨_, hsettle⟩
  · rw [hsettle]
    by_cases hid : id = claim.messageId
    · subst hid
      cases hfound.symm.trans h
      exact .inr ⟨rfl, hheld, AList.lookup_insert _⟩
    · exact .inl ((AList.lookup_insert_ne hid).trans h)
  · rw [hsettle]
    exact .inl h

theorem completeMany_cons (claim : OutboxClaimRef) (claims : List OutboxClaimRef)
    : completeMany crates now (claim :: claims) storage
        = (settle crates .complete claim now >>= fun _ => completeMany crates now claims)
          storage :=
  rfl

/-- The state that a completed or refused claim leaves to the rest of its batch. -/
theorem completeMany_state (claim : OutboxClaimRef) (claims : List OutboxClaimRef)
    : (completeMany crates now (claim :: claims) storage).2
        = (settle crates .complete claim now storage).2
      ∨ completeMany crates now (claim :: claims) storage
          = completeMany crates now claims (settle crates .complete claim now storage).2
        ∧ (settle crates .complete claim now storage).1 = .ok () := by
  rw [completeMany_cons]
  rcases settle_cases .complete claim with ⟨found, -, -, hsettle⟩ | ⟨error, hsettle⟩
  · rw [Txn.bind_ok hsettle, hsettle]
    exact .inr ⟨rfl, rfl⟩
  · rw [Txn.bind_apply, hsettle]
    exact .inl rfl

theorem lookup_completeMany (claims : List OutboxClaimRef)
    (h : storage.lookup id = some message)
    : ∃ next, (completeMany crates now claims storage).2.lookup id = some next
      ∧ OutboxChange (.completeManyOutbox claims now) id message next := by
  induction claims generalizing storage message with
  | nil => exact ⟨message, h, .same⟩
  | cons claim claims ih =>
      -- a message settled by the first claim is not in flight for the later ones
      have hpresented : (.complete, claim, now)
          ∈ presented (.completeManyOutbox (claim :: claims) now) := List.mem_cons_self
      rcases completeMany_state claim claims with hstop | ⟨hrest, -⟩
      · rw [hstop]
        rcases lookup_settle .complete claim h with hsame | ⟨hid, hheld, hsettled⟩
        · exact ⟨message, hsame, .same⟩
        · exact ⟨_, hsettled, .settled hpresented hid hheld⟩
      · rw [hrest]
        rcases lookup_settle .complete claim h with hsame | ⟨hid, hheld, hsettled⟩
        · obtain ⟨next, hnext, hchange⟩ := ih hsame
          refine ⟨next, hnext, ?_⟩
          cases hchange with
          | same => exact .same
          | leased deadline hop => cases hop
          | settled hlater hid hheld =>
              exact .settled (List.mem_cons_of_mem _ hlater) hid hheld
        · obtain ⟨next, hnext, hchange⟩ := ih hsettled
          cases hchange with
          | same => exact ⟨_, hnext, .settled hpresented hid hheld⟩
          | leased deadline hop => cases hop
          | settled _ _ hagain =>
              exact absurd hagain.inFlight (Settlement.settled_not_inFlight _ _)

theorem keyedById_completeMany (h : KeyedById storage) (claims : List OutboxClaimRef)
    : KeyedById (completeMany crates now claims storage).2 := by
  induction claims generalizing storage with
  | nil => exact h
  | cons claim claims ih =>
      rcases completeMany_state claim claims with hstop | ⟨hrest, -⟩
      · rw [hstop]
        exact h.settle .complete claim
      · rw [hrest]
        exact ih (h.settle .complete claim)

/-- A commit stores new messages only. -/
theorem Commits.outbox {batch : CommitBatch} {after : InMemoryRepository}
    (h : Commits crates batch repository after)
    (hmessage : repository.outboxStore.lookup id = some message)
    : after.outboxStore.lookup id = some message := by
  cases h with
  | published h =>
      have hfresh := Result.forM_eq_ok_iff.mp h.outbox
      refine (Map.lookup_insertAll_of_notMem fun hmem => ?_).trans hmessage
      rw [List.map_map] at hmem
      obtain ⟨added, hadded, hid⟩ := List.mem_map.mp hmem
      have hnew := hfresh added hadded
      rw [checkOutboxMessage, Result.guard_eq_ok_iff] at hnew
      rw [← hid] at hmessage
      exact hnew.1 (by rw [Map.contains]; exact Option.isSome_of_mem hmessage)

theorem Commits.keyedById {batch : CommitBatch} {after : InMemoryRepository}
    (h : Commits crates batch repository after) (hkeyed : KeyedById repository.outboxStore)
    : KeyedById after.outboxStore := by
  cases h with
  | published _ =>
      have hall : ∀ (messages : List OutboxMessage) (storage : OutboxStorage),
          KeyedById storage →
            KeyedById (storage.insertAll (messages.map fun message => (message.id, message))) := by
        intro messages
        induction messages with
        | nil => exact fun storage h => h
        | cons message messages ih => exact fun storage h => ih _ (h.insert rfl)
      exact hall _ _ hkeyed

/-- Every operation leaves a stored message as it is, leases it to a worker because it is
claimable, or settles it under the claim it is held by. -/
theorem step_outbox (crates : Crates) (op : RepositoryOp)
    (hkeyed : KeyedById repository.outboxStore)
    : KeyedById (step crates op repository).2.outboxStore
      ∧ ∀ id message, repository.outboxStore.lookup id = some message →
        ∃ next, (step crates op repository).2.outboxStore.lookup id = some next
          ∧ OutboxChange op id message next := by
  rcases step_service crates op repository with ⟨batch, -, hcommits⟩ | ⟨-, hother⟩
  · exact ⟨hcommits.keyedById hkeyed,
      fun id message h => ⟨message, hcommits.outbox h, .same⟩⟩
  · rw [hother.outbox]
    cases op with
    | claimOutbox request now checked =>
        refine ⟨hkeyed.claim, fun id message h => ?_⟩
        obtain ⟨next, hnext, hleased⟩ := lookup_claim hkeyed h
        refine ⟨next, hnext, ?_⟩
        cases hleased with
        | same => exact .same
        | taken deadline hclaimable hchecked => exact .leased deadline rfl hclaimable hchecked
    | settleOutbox settlement claim now =>
        refine ⟨hkeyed.settle settlement claim, fun id message h => ?_⟩
        rcases lookup_settle settlement claim h with hsame | ⟨hid, hheld, hsettled⟩
        · exact ⟨message, hsame, .same⟩
        · exact ⟨_, hsettled, .settled (List.mem_singleton.mpr rfl) hid hheld⟩
    | completeManyOutbox claims now =>
        exact ⟨keyedById_completeMany hkeyed claims,
          fun id message h => lookup_completeMany claims h⟩
    | _ => exact ⟨hkeyed, fun id message h => ⟨message, h, .same⟩⟩

end Step

/-- A message at a later time: its content is the same, and if it was published or failed,
everything is. -/
structure Delivers (message later : OutboxMessage) : Prop where
  content : later = { message with
    status := later.status
    attempts := later.attempts
    lastError := later.lastError
    workerId := later.workerId
    leasedUntil := later.leasedUntil }
  final : message.status = .published ∨ message.status = .failed → later = message

theorem Delivers.refl (message : OutboxMessage) : Delivers message message :=
  ⟨rfl, fun _ => rfl⟩

theorem Delivers.trans {first second third : OutboxMessage} (h : Delivers first second)
    (hnext : Delivers second third)
    : Delivers first third := by
  refine ⟨?_, fun hfinal => ?_⟩
  · rw [hnext.content, h.content]
  · have hsame := h.final hfinal
    rw [hnext.final (hsame ▸ hfinal), hsame]

theorem OutboxChange.delivers {op : RepositoryOp} {id : String} {message next : OutboxMessage}
    (h : OutboxChange op id message next)
    : Delivers message next := by
  cases h with
  | same => exact .refl message
  | leased deadline _ hclaimable _ =>
      refine ⟨rfl, fun hfinal => ?_⟩
      simp only [OutboxMessage.isClaimableAt, OutboxMessage.isPending,
        OutboxMessage.hasExpiredLeaseAt, OutboxMessage.isInFlight] at hclaimable
      rcases hfinal with hfinal | hfinal <;> simp [hfinal] at hclaimable
  | @settled settlement _ _ _ _ hheld =>
      refine ⟨by cases settlement <;> rfl, fun hfinal => ?_⟩
      rcases hfinal with hfinal | hfinal <;> cases hheld.inFlight.symm.trans hfinal

theorem finalState_outbox {crates : Crates} {repository : InMemoryRepository}
    (hkeyed : KeyedById repository.outboxStore) (ops : List RepositoryOp)
    : KeyedById (finalState (step crates) repository ops).outboxStore
      ∧ ∀ id message, repository.outboxStore.lookup id = some message →
        ∃ later, (finalState (step crates) repository ops).outboxStore.lookup id = some later
          ∧ Delivers message later := by
  induction ops generalizing repository with
  | nil => exact ⟨hkeyed, fun id message h => ⟨message, h, .refl message⟩⟩
  | cons op ops ih =>
      obtain ⟨hnext, hsteps⟩ := step_outbox crates op hkeyed
      obtain ⟨hfinal, hlater⟩ := ih hnext
      refine ⟨hfinal, fun id message h => ?_⟩
      obtain ⟨next, hmessage, hchange⟩ := hsteps id message h
      obtain ⟨later, hfound, hdelivers⟩ := hlater id next hmessage
      exact ⟨later, hfound, hchange.delivers.trans hdelivers⟩

theorem keyedById_new (retention : ProjectionChangeRetention)
    : KeyedById (InMemoryRepository.new retention).outboxStore :=
  fun _ _ h => absurd h (by simp [InMemoryRepository.new])

/-- Over every run of a new repository in which nobody replaces the outbox, a stored message
keeps its content and is never dropped, a published or failed one never changes again, and every
change of a message is a lease of a claimable message or a settlement under the claim it is held
by. -/
theorem outbox_messages_are_delivered (crates : Crates) (retention : ProjectionChangeRetention)
    (ops : List RepositoryOp)
    : KeyedById (finalState (step crates) (.new retention) ops).outboxStore
      ∧ ∀ earlier event later,
        history (step crates) (.new retention) ops = earlier ++ event :: later →
        (∀ id message, event.before.outboxStore.lookup id = some message →
          ∃ next, event.after.outboxStore.lookup id = some next
            ∧ OutboxChange event.op id message next)
        ∧ ∀ id message, event.after.outboxStore.lookup id = some message →
          ∃ last, (finalState (step crates) (.new retention) ops).outboxStore.lookup id
              = some last
            ∧ Delivers message last := by
  refine ⟨(finalState_outbox (keyedById_new retention) ops).1, ?_⟩
  intro earlier event later hsplit
  obtain ⟨taken, rest, -, -, hbefore, -, hfinal⟩ := history_split hsplit
  have hevent := mem_history_of_split hsplit
  have hkeyed : KeyedById event.before.outboxStore := by
    rw [hbefore]
    exact (finalState_outbox (keyedById_new retention) taken).1
  have hstep := step_outbox crates event.op hkeyed
  rw [history_step hevent] at hstep
  refine ⟨hstep.2, ?_⟩
  rw [hfinal]
  exact (finalState_outbox hstep.1 rest).2

/-- The operation claims before the deadline, and presents the claim a message is held by
only after it. -/
structure RespectsClaim (id : String) (message : OutboxMessage) (deadline : SystemTime)
    (op : RepositoryOp) : Prop where
  claims : ∀ request now checked, op = .claimOutbox request now checked →
    now < deadline ∨ ∀ index, checked index < deadline
  settles : ∀ settlement claim now, (settlement, claim, now) ∈ presented op →
    claim.messageId = id → message.workerId = some claim.workerId →
    message.attempts = claim.attempt → deadline ≤ now

theorem not_claimable_before {message : OutboxMessage} {deadline now : SystemTime}
    (hflight : message.status = .inFlight) (hlease : message.leasedUntil = some deadline)
    (hnow : now < deadline)
    : message.isClaimableAt now = false := by
  simp [OutboxMessage.isClaimableAt, OutboxMessage.isPending, OutboxMessage.hasExpiredLeaseAt,
    OutboxMessage.isInFlight, hflight, hlease, hnow]

theorem OutboxChange.eq_of_respects {op : RepositoryOp} {id : String}
    {message next : OutboxMessage} {deadline : SystemTime} (h : OutboxChange op id message next)
    (hflight : message.status = .inFlight) (hlease : message.leasedUntil = some deadline)
    (hop : RespectsClaim id message deadline op)
    : next = message := by
  cases h with
  | same => rfl
  | @leased request now checked index _ hclaim hclaimable hchecked =>
      have hnever : ∀ reading, reading < deadline → message.isClaimableAt reading = false :=
        fun _ => not_claimable_before hflight hlease
      rcases hop.claims _ _ _ hclaim with hnow | hnow
      · rw [hnever now hnow] at hclaimable
        cases hclaimable
      · rw [hnever _ (hnow index)] at hchecked
        cases hchecked
  | settled hpresented hid hheld =>
      have hover := hop.settles _ _ _ hpresented hid hheld.worker hheld.attempt
      have hexpired := hheld.leased
      simp [OutboxMessage.hasExpiredLeaseAt, OutboxMessage.isInFlight, hflight, hlease, hover]
        at hexpired

/-- A message is its holder's until the lease is over: while the others claim at readings
before the deadline, present other claims, or this one too late, and do not replace the outbox,
whatever they do, in any order, leaves the message as the holder's claim left it. -/
theorem leased_message_is_kept (crates : Crates) {repository : InMemoryRepository}
    (hkeyed : KeyedById repository.outboxStore) {id : String} {message : OutboxMessage}
    {deadline : SystemTime} (hmessage : repository.outboxStore.lookup id = some message)
    (hflight : message.status = .inFlight) (hlease : message.leasedUntil = some deadline)
    {ops : List RepositoryOp} (hops : ∀ op ∈ ops, RespectsClaim id message deadline op)
    : (finalState (step crates) repository ops).outboxStore.lookup id = some message := by
  induction ops generalizing repository with
  | nil => exact hmessage
  | cons op ops ih =>
      obtain ⟨hnext, hsteps⟩ := step_outbox crates op hkeyed
      obtain ⟨next, hfound, hchange⟩ := hsteps id message hmessage
      rw [hchange.eq_of_respects hflight hlease (hops op List.mem_cons_self)] at hfound
      exact ih hnext hfound fun other hother => hops other (List.mem_cons_of_mem _ hother)

/-- A message that a worker has claimed until the given reading. -/
def claimedMessage (deadline : SystemTime) : OutboxMessage where
  id := "m1"
  eventType := "todo.created"
  payload := []
  payloadCodec := "json"
  payloadCodecVersion := 1
  status := .inFlight
  createdAt := 0
  attempts := 1
  lastError := none
  workerId := some "first"
  leasedUntil := some deadline
  destination := none
  metadata := ∅
  sourceAggregateType := none
  sourceAggregateId := none
  sourceSequence := none

def claimedRepository : InMemoryRepository where
  outboxStore := AList.singleton "m1" (claimedMessage 10)
  projectionChangeRetention := defaultProjectionChangeRetention

theorem claimedRepository_keyedById : KeyedById claimedRepository.outboxStore := by
  intro id message h
  have hentry := AList.mem_lookup_iff.mp h
  cases List.mem_singleton.mp hentry
  rfl

/-- A second worker asks for every message before the lease of the first is over. -/
theorem second_worker_gets_nothing
    : (finalState (step nullOutcomeCrates) claimedRepository
        [.claimOutbox ⟨"second", 5, 10, none, none⟩ 3 fun _ => 3]).outboxStore.lookup "m1"
      = some (claimedMessage 10) := by
  refine leased_message_is_kept nullOutcomeCrates claimedRepository_keyedById rfl rfl rfl ?_
  intro op hop
  cases List.mem_singleton.mp hop
  refine ⟨?_, fun _ _ _ hpresented => absurd hpresented List.not_mem_nil⟩
  rintro request now checked ⟨⟩
  exact .inl (by decide)

/-- The messages that an operation found in flight and left otherwise, with their attempts,
whatever it answered. -/
def settledAttempts (event : Event InMemoryRepository RepositoryOp RepositoryAnswer)
    : List (String × UInt32) :=
  (event.before.outboxStore.entries.filter fun entry =>
      decide (entry.2.status = .inFlight)
        && (event.after.outboxStore.lookup entry.1).any fun next => next.status ≠ .inFlight).map
    fun entry => (entry.1, entry.2.attempts)

theorem mem_settledAttempts {event : Event InMemoryRepository RepositoryOp RepositoryAnswer}
    {id : String} {attempt : UInt32}
    : (id, attempt) ∈ settledAttempts event
      ↔ ∃ message next, event.before.outboxStore.lookup id = some message
        ∧ message.status = .inFlight ∧ message.attempts = attempt
        ∧ event.after.outboxStore.lookup id = some next ∧ next.status ≠ .inFlight := by
  simp only [settledAttempts, List.mem_map, List.mem_filter, Bool.and_eq_true,
    decide_eq_true_eq, Option.any_eq_true, Prod.mk.injEq]
  constructor
  · rintro ⟨⟨_, message⟩, ⟨hentry, hflight, next, hnext, hstatus⟩, rfl, rfl⟩
    exact ⟨message, next, AList.mem_lookup_iff.mpr hentry, hflight, rfl, hnext, hstatus⟩
  · rintro ⟨message, next, hmessage, hflight, rfl, hnext, hstatus⟩
    exact ⟨⟨id, message⟩, ⟨AList.mem_lookup_iff.mp hmessage, hflight, next, hnext, hstatus⟩,
      rfl, rfl⟩

theorem settledAttempts_nodup (event : Event InMemoryRepository RepositoryOp RepositoryAnswer)
    : (settledAttempts event).Nodup := by
  refine List.Nodup.of_map Prod.fst ?_
  rw [settledAttempts, List.map_map]
  exact event.before.outboxStore.nodupKeys.sublist List.filter_sublist

/-- The attempt can not be settled any more. -/
def AttemptOver (attempt : UInt32) (message : OutboxMessage) : Prop :=
  attempt < message.attempts ∨ attempt = message.attempts ∧ message.status ≠ .inFlight

/-- Each of the attempts was settled once, and is over. -/
structure SettledOnce (attempts : List (String × UInt32)) (storage : OutboxStorage)
    : Prop where
  distinct : attempts.Nodup
  finished : ∀ id attempt, (id, attempt) ∈ attempts →
    ∃ message, storage.lookup id = some message ∧ AttemptOver attempt message

theorem OutboxChange.attemptOver {op : RepositoryOp} {id : String}
    {message next : OutboxMessage} (h : OutboxChange op id message next)
    (hcount : message.attempts.toNat + 1 < 2 ^ 32) {attempt : UInt32}
    (hover : AttemptOver attempt message)
    : AttemptOver attempt next := by
  cases h with
  | same => exact hover
  | leased =>
      have hnext : (message.attempts + 1).toNat = message.attempts.toNat + 1 := by
        rw [UInt32.toNat_add, UInt32.toNat_one, Nat.mod_eq_of_lt hcount]
      refine .inl ?_
      rw [leasedTo, UInt32.lt_iff_toNat_lt, hnext]
      rcases hover with hless | ⟨rfl, -⟩
      · have := UInt32.lt_iff_toNat_lt.mp hless
        omega
      · omega
  | @settled settlement _ _ _ _ hheld =>
      have hsame : (settlement.settled message).attempts = message.attempts := by
        cases settlement <;> rfl
      rcases hover with hless | ⟨-, hstatus⟩
      · exact .inl (hsame ▸ hless)
      · exact absurd hheld.inFlight hstatus

section SettledOnce

variable {crates : Crates} {storage next : OutboxStorage} {now : SystemTime}
  {attempts : List (String × UInt32)}

/-- The claim is held before, and no longer in flight after. -/
def Settles (claim : OutboxClaimRef) (now : SystemTime) (storage next : OutboxStorage) : Prop :=
  ∃ message later, storage.lookup claim.messageId = some message ∧ HeldUnder message claim now
    ∧ next.lookup claim.messageId = some later ∧ later.status ≠ .inFlight

theorem settles_of_settle {settlement : Settlement} {claim : OutboxClaimRef}
    (h : settle crates settlement claim now storage = (.ok (), next))
    : Settles claim now storage next := by
  rcases settle_cases settlement claim with ⟨message, hmessage, hheld, hok⟩ | ⟨error, herror⟩
  · cases h.symm.trans hok
    exact ⟨message, _, hmessage, hheld, AList.lookup_insert _,
      settlement.settled_not_inFlight _⟩
  · cases h.symm.trans herror

/-- A batch that succeeds settles every claim, each of another message. -/
theorem settles_of_completeMany {claims : List OutboxClaimRef}
    (h : completeMany crates now claims storage = (.ok (), next))
    : (claims.map OutboxClaimRef.messageId).Nodup
      ∧ ∀ claim ∈ claims, Settles claim now storage next := by
  induction claims generalizing storage with
  | nil => exact ⟨.nil, fun _ hclaim => absurd hclaim List.not_mem_nil⟩
  | cons first claims ih =>
      rw [completeMany_cons, Txn.bind_eq_ok] at h
      obtain ⟨_, middle, hfirst, hrest⟩ := h
      obtain ⟨hnodup, hsettles⟩ := ih hrest
      obtain ⟨message, settled, hmessage, hheld, hsettled, hstatus⟩ := settles_of_settle hfirst
      have hothers : ∀ claim ∈ claims, claim.messageId ≠ first.messageId := by
        intro claim hclaim hsame
        obtain ⟨found, -, hfound, hagain, -⟩ := hsettles claim hclaim
        rw [hsame, hsettled] at hfound
        cases hfound
        exact hstatus hagain.inFlight
      refine ⟨List.nodup_cons.mpr ⟨fun hmem => ?_, hnodup⟩, fun claim hclaim => ?_⟩
      · obtain ⟨claim, hclaim, hsame⟩ := List.mem_map.mp hmem
        exact hothers claim hclaim hsame
      · rcases List.mem_cons.mp hclaim with rfl | hclaim
        · obtain ⟨later, hlater, hchange⟩ := lookup_completeMany claims hsettled
          rw [hrest] at hlater
          refine ⟨message, later, hmessage, hheld, hlater, ?_⟩
          cases hchange with
          | same => exact hstatus
          | leased deadline hop => cases hop
          | settled _ _ hagain => exact absurd hagain.inFlight hstatus
        · obtain ⟨found, later, hfound, hlive, hlater, hover⟩ := hsettles claim hclaim
          refine ⟨found, later, ?_, hlive, hlater, hover⟩
          rcases settle_cases .complete first with ⟨_, -, -, hok⟩ | ⟨error, herror⟩
          · cases hfirst.symm.trans hok
            rwa [AList.lookup_insert_ne (hothers claim hclaim)] at hfound
          · cases hfirst.symm.trans herror

/-- An operation that reports its claims settled settled them, each of another message. -/
theorem settledAttempts_of_answer {repository : InMemoryRepository} {op : RepositoryOp}
    (h : (step crates op repository).1 = .settled (.ok ()))
    : ((presented op).map fun entry => entry.2.1.messageId).Nodup
      ∧ ∀ entry ∈ presented op, (entry.2.1.messageId, entry.2.1.attempt)
          ∈ settledAttempts (.ofStep (step crates) repository op) := by
  have hmem : ∀ (claim : OutboxClaimRef) (now : SystemTime),
      Settles claim now repository.outboxStore (step crates op repository).2.outboxStore →
      (claim.messageId, claim.attempt)
        ∈ settledAttempts (.ofStep (step crates) repository op) := by
    rintro claim now ⟨message, later, hmessage, hheld, hlater, hstatus⟩
    exact mem_settledAttempts.mpr
      ⟨message, later, hmessage, hheld.inFlight, hheld.attempt, hlater, hstatus⟩
  cases op with
  | settleOutbox settlement claim now =>
      have hrun : settle crates settlement claim now repository.outboxStore = (.ok (), _) :=
        Prod.ext (RepositoryAnswer.settled.inj h) rfl
      refine ⟨List.nodup_singleton _, fun entry hentry => ?_⟩
      cases List.mem_singleton.mp hentry
      exact hmem claim now (settles_of_settle hrun)
  | completeManyOutbox claims now =>
      have hrun : completeMany crates now claims repository.outboxStore = (.ok (), _) :=
        Prod.ext (RepositoryAnswer.settled.inj h) rfl
      obtain ⟨hnodup, hsettles⟩ := settles_of_completeMany hrun
      refine ⟨by simpa [presented, Function.comp_def] using hnodup, fun entry hentry => ?_⟩
      obtain ⟨claim, hclaim, rfl⟩ := List.mem_map.mp hentry
      exact hmem claim now (hsettles claim hclaim)
  | _ => exact ⟨.nil, fun entry hentry => absurd hentry List.not_mem_nil⟩

theorem SettledOnce.after_step (crates : Crates) {repository : InMemoryRepository}
    (h : SettledOnce attempts repository.outboxStore)
    (hkeyed : KeyedById repository.outboxStore)
    (hcount : ∀ message ∈ repository.outboxStore.values, message.attempts.toNat + 1 < 2 ^ 32)
    (op : RepositoryOp)
    : SettledOnce (attempts ++ settledAttempts (.ofStep (step crates) repository op))
        (step crates op repository).2.outboxStore := by
  have hchanges := (step_outbox crates op hkeyed).2
  refine ⟨List.nodup_append.mpr ⟨h.distinct, settledAttempts_nodup _, ?_⟩, ?_⟩
  · -- an attempt that was settled before is over, and its message is not in flight under it
    rintro ⟨id, attempt⟩ hold _ hnew rfl
    obtain ⟨found, hfound, hover⟩ := h.finished id attempt hold
    obtain ⟨message, -, hmessage, hflight, rfl, -⟩ := mem_settledAttempts.mp hnew
    cases hfound.symm.trans hmessage
    rcases hover with hless | ⟨-, hstatus⟩
    · exact absurd rfl (UInt32.ne_of_lt hless)
    · exact hstatus hflight
  · intro id attempt hmem
    rcases List.mem_append.mp hmem with hold | hnew
    · obtain ⟨message, hmessage, hover⟩ := h.finished id attempt hold
      obtain ⟨next, hnext, hchange⟩ := hchanges id message hmessage
      exact ⟨next, hnext,
        hchange.attemptOver (hcount message (Map.mem_values.mpr ⟨id, hmessage⟩)) hover⟩
    · obtain ⟨message, next, hmessage, hflight, rfl, hnext, hstatus⟩ :=
        mem_settledAttempts.mp hnew
      obtain ⟨found, hfound, hchange⟩ := hchanges id message hmessage
      cases hfound.symm.trans hnext
      refine ⟨next, hnext, .inr ⟨?_, hstatus⟩⟩
      cases hchange with
      | same => rfl
      | leased => exact absurd rfl hstatus
      | @settled settlement => cases settlement <;> rfl

theorem SettledOnce.after_run {repository : InMemoryRepository}
    (h : SettledOnce attempts repository.outboxStore)
    (hkeyed : KeyedById repository.outboxStore) {ops : List RepositoryOp}
    (hcount : ∀ event ∈ history (step crates) repository ops,
      ∀ message ∈ event.before.outboxStore.values, message.attempts.toNat + 1 < 2 ^ 32)
    : SettledOnce (attempts ++ (history (step crates) repository ops).flatMap settledAttempts)
        (finalState (step crates) repository ops).outboxStore := by
  induction ops generalizing repository attempts with
  | nil => rwa [history, List.flatMap_nil, List.append_nil]
  | cons op ops ih =>
      have hfirst := h.after_step crates hkeyed (hcount _ List.mem_cons_self) op
      have hrest := ih hfirst (step_outbox crates op hkeyed).1
        fun event hevent => hcount event (List.mem_cons_of_mem _ hevent)
      rwa [List.append_assoc, ← List.flatMap_cons] at hrest

end SettledOnce

/-- Every attempt to deliver a message is settled at most once over a whole run in which nobody
replaces the outbox, by whatever workers, as long as no attempt counter is about to wrap; and
every operation that reports its claims settled settled them, the claims of a batch being of
different messages. -/
theorem attempts_are_settled_once (crates : Crates) {repository : InMemoryRepository}
    (hkeyed : KeyedById repository.outboxStore) {ops : List RepositoryOp}
    (hcount : ∀ event ∈ history (step crates) repository ops,
      ∀ message ∈ event.before.outboxStore.values, message.attempts.toNat + 1 < 2 ^ 32)
    : ((history (step crates) repository ops).flatMap settledAttempts).Nodup
      ∧ ∀ event ∈ history (step crates) repository ops, event.answer = .settled (.ok ()) →
        ((presented event.op).map fun entry => entry.2.1.messageId).Nodup
        ∧ ∀ entry ∈ presented event.op,
          (entry.2.1.messageId, entry.2.1.attempt) ∈ settledAttempts event := by
  have hstart : SettledOnce [] repository.outboxStore :=
    ⟨.nil, fun _ _ h => absurd h List.not_mem_nil⟩
  refine ⟨(hstart.after_run hkeyed hcount).distinct, fun event hevent hanswer => ?_⟩
  have hstep := history_step hevent
  have hanswered : (step crates event.op event.before).1 = .settled (.ok ()) := by
    rw [hstep, hanswer]
  have hsettled := settledAttempts_of_answer hanswered
  have hsame : Event.ofStep (step crates) event.before event.op = event := by
    rw [Event.ofStep, hstep]
  rwa [hsame] at hsettled

/-- The first worker completes its claim and one it does not hold, and the claim once more: the
batch fails with the first claim settled. -/
def completedTwice : List RepositoryOp :=
  [.completeManyOutbox [⟨"m1", "first", 10, 1⟩, ⟨"m2", "first", 10, 1⟩] 3,
    .settleOutbox .complete ⟨"m1", "first", 10, 1⟩ 4]

theorem second_completion_is_refused
    : (history (step nullOutcomeCrates) claimedRepository completedTwice).flatMap
        settledAttempts = [("m1", 1)]
      ∧ ((history (step nullOutcomeCrates) claimedRepository completedTwice).flatMap
        settledAttempts).Nodup := by
  refine ⟨by decide +kernel,
    (attempts_are_settled_once nullOutcomeCrates claimedRepository_keyedById ?_).1⟩
  decide +kernel

end Distributed.InMemoryRepo
