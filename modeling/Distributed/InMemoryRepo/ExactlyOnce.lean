import Distributed.InMemoryRepo.AtMostOnce
import Distributed.InMemoryRepo.ProtocolTransitions
import Mathlib.Data.List.Nodup

/-! Projection inputs are applied once, in the order of their source.
-/

namespace Distributed.InMemoryRepo

open Distributed.Foundation Distributed.Platform Distributed.ProjectionProtocol

open InMemoryProjectionProtocolState

/-- The generation a partition runs in. -/
def activeGeneration? (protocol : InMemoryProjectionProtocolState) (key : PartitionKey)
    : Option ProjectionGeneration :=
  (protocol.partitions.lookup key).map PartitionState.activeGeneration

section Generations

variable {before after : InMemoryProjectionProtocolState} {key other : PartitionKey}

theorem Retains.activeGeneration {state final : PartitionState} (h : Retains state final)
    : final.activeGeneration = state.activeGeneration := by
  obtain rfl | ⟨through, -, -, rfl⟩ := h
  · rfl
  · rfl

theorem Opens.activeGeneration {base : PartitionState} (h : Opens before key base)
    : base.activeGeneration = (activeGeneration? before key).getD .initial := by
  obtain hknown | ⟨hunknown, hnew⟩ := h
  · simp [activeGeneration?, hknown]
  · rw [hnew]
    simp [activeGeneration?, hunknown, PartitionState.new]

theorem WritesPartition.activeGeneration {final : PartitionState}
    (h : WritesPartition before after key final)
    : activeGeneration? after other
      = if other = key then some final.activeGeneration else activeGeneration? before other := by
  rw [activeGeneration?, h other]
  split
  · rfl
  · rfl

/-- Only opening a partition and repairing it set its generation. -/
theorem LogEffect.activeGeneration {epoch : ProjectionEpoch}
    {changes : List ProjectionChange} {stopped : Option String}
    (h : LogEffect key epoch before after changes stopped)
    : activeGeneration? after other
      = if other = key then some ((activeGeneration? before key).getD .initial)
        else activeGeneration? before other := by
  obtain ⟨base, final, hopens, -, -, hretains, hwrites⟩ := h.partition
  rw [hwrites.activeGeneration, hretains.activeGeneration, ← hopens.activeGeneration]
  simp only [(base.extended_flags changes).2.2.1]

theorem InMemoryProjectionProtocolState.Compacts.activeGeneration {state : PartitionState}
    (hstate : before.partitions.lookup key = some state)
    (h : Compacts key before state after)
    : activeGeneration? after other = activeGeneration? before other := by
  obtain ⟨final, hretains, hwrites, -⟩ := h.writes hstate
  rw [hwrites.activeGeneration, hretains.activeGeneration]
  split
  · rename_i hother
    rw [activeGeneration?, hother, hstate]
    rfl
  · rfl

theorem RepairEffect.activeGeneration {failureId : String} {state : PartitionState}
    {generation : ProjectionGeneration}
    (h : RepairEffect key failureId before after state generation)
    : activeGeneration? after other
      = if other = key then some generation else activeGeneration? before other :=
  h.writes.activeGeneration

end Generations

/-- Inputs are stored for generations a partition has reached, with the capability their
source is registered for. -/
def InputsKept (protocol : InMemoryProjectionProtocolState) : Prop :=
  ∀ (key : InputKey) (stored : StoredInput), protocol.inputs.lookup key = some stored →
    protocol.gapFreeCapabilities.lookup ⟨key.partition, key.source⟩ = some stored.gapFree
    ∧ ∃ generation, activeGeneration? protocol key.partition = some generation
      ∧ key.generation.value ≤ generation.value

/-- The newest applied input of a source in a partition, with its source's capability. -/
def lastInput (key : PartitionKey) (source : ProjectionSource)
    (protocol : InMemoryProjectionProtocolState) : Option (ProjectionInputCursor × Bool) :=
  (activeGeneration? protocol key).bind fun generation =>
    (protocol.inputs.lookup ⟨key, source, generation⟩).map fun stored =>
      (stored.cursor, stored.gapFree)

section Inputs

variable {before after : InMemoryProjectionProtocolState}

theorem mem_copiedInputs {key : PartitionKey} {current next : ProjectionGeneration}
    {pair : InputKey × StoredInput}
    : pair ∈ copiedInputs before key current next ↔
      pair.1.partition = key ∧ pair.1.generation = next
        ∧ before.inputs.lookup { pair.1 with generation := current } = some pair.2 := by
  obtain ⟨⟨partition, source, generation⟩, stored⟩ := pair
  simp only [copiedInputs, List.mem_map, List.mem_filter, Prod.exists, Map.mem_toList,
    decide_eq_true_eq, Prod.mk.injEq, InputKey.mk.injEq]
  constructor
  · rintro ⟨entry, value, ⟨hentry, hpartition, hcurrent⟩, ⟨rfl, rfl, rfl⟩, rfl⟩
    subst hcurrent
    exact ⟨hpartition, rfl, hentry⟩
  · rintro ⟨hpartition, rfl, hstored⟩
    exact ⟨_, stored, ⟨hstored, hpartition, rfl⟩, ⟨rfl, rfl, rfl⟩, rfl⟩

/-- Repair copies the inputs of the last generation, and nothing else, to the next one. -/
theorem RepairEffect.lookup_inputs {key : PartitionKey} {failureId : String}
    {state : PartitionState} {generation : ProjectionGeneration}
    (hkept : InputsKept before) (h : RepairEffect key failureId before after state generation)
    (inputKey : InputKey)
    : after.inputs.lookup inputKey
      = if inputKey.partition = key ∧ inputKey.generation = generation then
          before.inputs.lookup { inputKey with generation := state.activeGeneration }
        else before.inputs.lookup inputKey := by
  rw [h.after_eq]
  split
  · rename_i hcopy
    obtain ⟨hpartition, hgeneration⟩ := hcopy
    cases hsource : before.inputs.lookup
        { inputKey with generation := state.activeGeneration } with
    | some stored =>
        have hmem : (inputKey, stored)
            ∈ copiedInputs before key state.activeGeneration generation :=
          mem_copiedInputs.mpr ⟨hpartition, hgeneration, hsource⟩
        refine Map.lookup_insertAll_of_forall (List.mem_map_of_mem hmem) fun pair hpair heq => ?_
        obtain ⟨-, -, hpair⟩ := mem_copiedInputs.mp hpair
        rw [heq, hsource] at hpair
        cases hpair
        rfl
    | none =>
        rw [Map.lookup_insertAll_of_notMem]
        · -- No input was stored for a generation the partition had not reached.
          cases hnext : before.inputs.lookup inputKey with
          | none => rfl
          | some stored =>
              obtain ⟨-, active, hactive, hle⟩ := hkept inputKey stored hnext
              rw [hpartition, activeGeneration?, h.known] at hactive
              cases hactive
              rw [hgeneration, h.generation_eq] at hle
              omega
        · intro hmem
          obtain ⟨pair, hpair, rfl⟩ := List.mem_map.mp hmem
          obtain ⟨-, -, hpair⟩ := mem_copiedInputs.mp hpair
          rw [hsource] at hpair
          cases hpair
  · rename_i hother
    refine Map.lookup_insertAll_of_notMem fun hmem => hother ?_
    obtain ⟨pair, hpair, rfl⟩ := List.mem_map.mp hmem
    obtain ⟨hpartition, hgeneration, -⟩ := mem_copiedInputs.mp hpair
    exact ⟨hpartition, hgeneration⟩

/-- The capability of a source is registered once. -/
theorem registerGapFree_lookup {input : TrustedProjectionInput} {key : SourceCapabilityKey}
    {registered : Bool} (h : before.gapFreeCapabilities.lookup key = some registered)
    : (before.registerGapFree input).gapFreeCapabilities.lookup key = some registered := by
  rw [registerGapFree]
  exact Map.lookup_insert_if_new h

theorem Admitted.registered {input : TrustedProjectionInput} (h : Admitted before input)
    : (before.registerGapFree input).gapFreeCapabilities.lookup (.new input.cursor)
      = some input.gapFree := by
  rw [registerGapFree]
  exact Map.lookup_insert_if_new_self h.capability

theorem InputsKept.mono (hkept : InputsKept before) (hinputs : after.inputs = before.inputs)
    (hcapabilities : ∀ key registered,
      before.gapFreeCapabilities.lookup key = some registered →
        after.gapFreeCapabilities.lookup key = some registered)
    (hgenerations : ∀ key generation, activeGeneration? before key = some generation →
      activeGeneration? after key = some generation)
    : InputsKept after := by
  intro key stored hstored
  rw [hinputs] at hstored
  obtain ⟨hcapability, generation, hgeneration, hle⟩ := hkept key stored hstored
  exact ⟨hcapabilities _ _ hcapability, generation, hgenerations _ _ hgeneration, hle⟩

theorem LogEffect.keeps_generation {key other : PartitionKey} {epoch : ProjectionEpoch}
    {changes : List ProjectionChange} {stopped : Option String}
    {generation : ProjectionGeneration}
    (h : LogEffect key epoch before after changes stopped)
    (hgeneration : activeGeneration? before other = some generation)
    : activeGeneration? after other = some generation := by
  rw [h.activeGeneration]
  split
  · rename_i hother
    rw [← hother, hgeneration]
    rfl
  · exact hgeneration

/-- An admitted input belongs to the generation its partition runs in afterwards. -/
theorem Admitted.activeGeneration {input : TrustedProjectionInput} (h : Admitted before input)
    : (activeGeneration? before (.fromInput input.cursor)).getD .initial
      = input.generation := by
  cases hstate : before.partitions.lookup (.fromInput input.cursor) with
  | none => simp [activeGeneration?, hstate, h.first hstate]
  | some state => simp [activeGeneration?, hstate, (h.running state hstate).1]

theorem AppliedEffect.inputsKept {batch : ProjectionCommitBatch}
    {result : ProjectionCommitResult} (hkept : InputsKept before)
    (hadmitted : Admitted before batch.input) (h : AppliedEffect batch before after result)
    : InputsKept after := by
  obtain ⟨stored, -, hgapFree, hinputs⟩ := h.inputs
  intro key found hfound
  rw [hinputs, Map.lookup_insert_eq] at hfound
  split at hfound
  · rename_i hkey
    cases hfound
    subst hkey
    refine ⟨?_, batch.input.generation, ?_, le_refl _⟩
    · rw [h.capabilities, hgapFree]
      exact hadmitted.registered
    · rw [h.log.activeGeneration, hadmitted.activeGeneration]
      exact if_pos rfl
  · obtain ⟨hcapability, generation, hgeneration, hle⟩ := hkept key found hfound
    refine ⟨?_, generation, h.log.keeps_generation hgeneration, hle⟩
    rw [h.capabilities]
    exact registerGapFree_lookup hcapability

theorem RepairEffect.inputsKept {key : PartitionKey} {failureId : String}
    {state : PartitionState} {generation : ProjectionGeneration}
    (hkept : InputsKept before) (h : RepairEffect key failureId before after state generation)
    : InputsKept after := by
  have hcapabilities : after.gapFreeCapabilities = before.gapFreeCapabilities := by
    rw [h.after_eq]
  intro inputKey stored hstored
  rw [h.lookup_inputs hkept] at hstored
  rw [hcapabilities, h.activeGeneration]
  split at hstored
  · rename_i hcopy
    obtain ⟨hcapability, -⟩ := hkept _ stored hstored
    exact ⟨hcapability, generation, if_pos hcopy.1, hcopy.2 ▸ le_refl _⟩
  · obtain ⟨hcapability, active, hactive, hle⟩ := hkept _ stored hstored
    refine ⟨hcapability, ?_⟩
    split
    · rename_i hpartition
      rw [hpartition, activeGeneration?, h.known] at hactive
      cases hactive
      exact ⟨generation, rfl, by rw [h.generation_eq]; omega⟩
    · exact ⟨active, hactive, hle⟩

theorem ProtocolStep.inputsKept {op : RepositoryOp} {answer : RepositoryAnswer}
    (hkept : InputsKept before) (h : ProtocolStep before after op answer)
    : InputsKept after := by
  cases h with
  | unchanged hsame _ => exact hsame ▸ hkept
  | registered hafter _ _ =>
      exact hkept.mono (by rw [hafter]) (by rw [hafter]; exact fun _ _ h => h)
        (by rw [hafter]; exact fun _ _ h => h)
  | applied hadmitted heffect _ => exact heffect.inputsKept hkept hadmitted
  | redelivered _ _ hsame => exact hsame ▸ hkept
  | failed _ _ heffect =>
      refine hkept.mono heffect.inputs (fun key registered hregistered => ?_)
        fun _ _ => heffect.log.keeps_generation
      rw [heffect.capabilities]
      exact registerGapFree_lookup hregistered
  | repaired heffect => exact heffect.inputsKept hkept
  | compacted hstate hcompacts _ =>
      obtain ⟨-, -, -, hafter⟩ := hcompacts.writes hstate
      exact hkept.mono (by rw [hafter]) (by rw [hafter]; exact fun _ _ h => h)
        fun _ _ hgeneration => (hcompacts.activeGeneration hstate).trans hgeneration
  | direct _ heffect _ =>
      exact hkept.mono heffect.inputs (heffect.capabilities ▸ fun _ _ h => h)
        fun _ _ => heffect.log.keeps_generation

end Inputs

/-- The input an operation applied. -/
def appliedInput : RepositoryOp → RepositoryAnswer → Option TrustedProjectionInput
  | .commitProjection batch, .projected (.ok result) =>
      if result.outcome = .applied then some batch.input else none
  | _, _ => none

/-- The input an operation applied, if it is of the source and in the partition. -/
def appliedFrom (key : PartitionKey) (source : ProjectionSource) (op : RepositoryOp)
    (answer : RepositoryAnswer) : Option (ProjectionInputCursor × Bool) :=
  (appliedInput op answer).bind fun input =>
    if .fromInput input.cursor = key ∧ input.cursor.source = source then
      some (input.cursor, input.gapFree)
    else none

section Last

variable {before after : InMemoryProjectionProtocolState} {key : PartitionKey}
  {source : ProjectionSource}

theorem appliedInput_of_quiet {op : RepositoryOp} {answer : RepositoryAnswer}
    (h : answer.Quiet)
    : appliedInput op answer = none := by
  unfold appliedInput
  split
  · exact if_neg h
  · rfl

/-- The newest input is the same when the stored inputs are and the partition was not
repaired. -/
theorem LogEffect.lastInput {written : PartitionKey} {epoch : ProjectionEpoch}
    {changes : List ProjectionChange} {stopped : Option String} (hkept : InputsKept before)
    (h : LogEffect written epoch before after changes stopped)
    (hinputs : ∀ generation, after.inputs.lookup ⟨key, source, generation⟩
      = before.inputs.lookup ⟨key, source, generation⟩)
    : lastInput key source after = lastInput key source before := by
  unfold InMemoryRepo.lastInput
  simp only [hinputs]
  cases hbefore : activeGeneration? before key with
  | some generation => rw [h.keeps_generation hbefore]
  | none =>
      cases hafter : activeGeneration? after key with
      | none => rfl
      | some generation =>
          rw [Option.bind_some, Option.bind_none, Option.map_eq_none_iff]
          cases hstored : before.inputs.lookup ⟨key, source, generation⟩ with
          | none => rfl
          | some stored =>
              obtain ⟨-, active, hactive, -⟩ := hkept _ stored hstored
              rw [hbefore] at hactive
              cases hactive

theorem RepairEffect.lastInput {repaired : PartitionKey} {failureId : String}
    {state : PartitionState} {generation : ProjectionGeneration} (hkept : InputsKept before)
    (h : RepairEffect repaired failureId before after state generation)
    : lastInput key source after = lastInput key source before := by
  unfold InMemoryRepo.lastInput
  rw [h.activeGeneration]
  simp only [h.lookup_inputs hkept]
  split
  · rename_i hkey
    subst hkey
    have hactive : activeGeneration? before key = some state.activeGeneration := by
      rw [activeGeneration?, h.known]
      rfl
    simp [hactive]
  · rename_i hkey
    simp [hkey]

/-- An applied input becomes the newest one of its source and of no other. -/
theorem AppliedEffect.lastInput {batch : ProjectionCommitBatch}
    {result : ProjectionCommitResult} (hkept : InputsKept before)
    (hadmitted : Admitted before batch.input) (h : AppliedEffect batch before after result)
    : lastInput key source after
      = if .fromInput batch.input.cursor = key ∧ batch.input.cursor.source = source then
          some (batch.input.cursor, batch.input.gapFree)
        else lastInput key source before := by
  obtain ⟨stored, hcursor, hgapFree, hinputs⟩ := h.inputs
  split
  · rename_i hsame
    obtain ⟨rfl, rfl⟩ := hsame
    rw [InMemoryRepo.lastInput, h.log.activeGeneration, if_pos rfl,
      hadmitted.activeGeneration, hinputs, Option.bind_some]
    rw [show (⟨.fromInput batch.input.cursor, batch.input.cursor.source,
      batch.input.generation⟩ : InputKey) = .new batch.input.cursor batch.input.generation
      from rfl, AList.lookup_insert, Option.map_some, hcursor, hgapFree]
  · rename_i hother
    refine h.log.lastInput hkept fun generation => ?_
    rw [hinputs, Map.lookup_insert_eq, if_neg]
    intro hkey
    simp only [InputKey.new, InputKey.mk.injEq] at hkey
    exact hother ⟨hkey.1.symm, hkey.2.1.symm⟩

/-- An applied input is the next one of its source. -/
theorem Admitted.follows {input : TrustedProjectionInput} (hkept : InputsKept before)
    (h : Admitted before input) {previous : ProjectionInputCursor × Bool}
    (hlast : lastInput (.fromInput input.cursor) input.cursor.source before = some previous)
    : Succeeds input.gapFree input.cursor previous.1 ∧ previous.2 = input.gapFree := by
  obtain ⟨generation, hgeneration, hlast⟩ := Option.bind_eq_some_iff.mp hlast
  obtain ⟨stored, hstored, rfl⟩ := Option.map_eq_some_iff.mp hlast
  have hactive := h.activeGeneration
  rw [hgeneration] at hactive
  cases hactive
  exact ⟨h.succeeds stored hstored, h.capability _ (hkept _ stored hstored).1⟩

/-- Every operation keeps the newest input of a source or applies the next one. -/
theorem ProtocolStep.lastInput {op : RepositoryOp} {answer : RepositoryAnswer}
    (hkept : InputsKept before) (h : ProtocolStep before after op answer)
    : appliedFrom key source op answer = none
        ∧ lastInput key source after = lastInput key source before
      ∨ ∃ item, appliedFrom key source op answer = some item
        ∧ lastInput key source after = some item
        ∧ ∀ previous, lastInput key source before = some previous →
          Succeeds item.2 item.1 previous.1 ∧ previous.2 = item.2 := by
  have hquiet : ∀ {op answer}, RepositoryAnswer.Quiet answer →
      appliedFrom key source op answer = none := by
    intro op answer hanswer
    rw [appliedFrom, appliedInput_of_quiet hanswer]
    rfl
  cases h with
  | unchanged hsame hanswer => exact .inl ⟨hquiet hanswer, hsame ▸ rfl⟩
  | registered hafter _ hanswer => exact .inl ⟨hquiet hanswer, by rw [hafter]; rfl⟩
  | applied hadmitted heffect happlied =>
      rw [appliedFrom, appliedInput, if_pos happlied, Option.bind_some,
        heffect.lastInput hkept hadmitted]
      split
      · rename_i hsame
        obtain ⟨rfl, rfl⟩ := hsame
        exact .inr ⟨_, rfl, rfl, fun previous => hadmitted.follows hkept⟩
      · exact .inl ⟨rfl, rfl⟩
  | redelivered _ _ hsame => exact .inl ⟨rfl, hsame ▸ rfl⟩
  | failed _ _ heffect =>
      exact .inl ⟨rfl, heffect.log.lastInput hkept fun _ => by rw [heffect.inputs]⟩
  | repaired heffect => exact .inl ⟨rfl, heffect.lastInput hkept⟩
  | compacted hstate hcompacts hanswer =>
      obtain ⟨-, -, -, hafter⟩ := hcompacts.writes hstate
      refine .inl ⟨hquiet hanswer, ?_⟩
      rw [InMemoryRepo.lastInput, hcompacts.activeGeneration hstate, hafter]
      rfl
  | direct _ heffect hanswer =>
      exact .inl ⟨hquiet hanswer,
        heffect.log.lastInput hkept fun _ => by rw [heffect.inputs]⟩

end Last

/-- The inputs of one source within one of its epochs, as one partition receives them. -/
structure SourceStream where
  partition : PartitionKey
  source : ProjectionSource
  epoch : ProjectionEpoch
deriving DecidableEq

def SourceStream.ofCursor (cursor : ProjectionInputCursor) : SourceStream :=
  ⟨.fromInput cursor, cursor.source, cursor.epoch⟩

/-- The inputs a run from a new repository applied, in commit order. -/
def appliedInputs (crates : Crates) (retention : ProjectionChangeRetention)
    (ops : List RepositoryOp) : List TrustedProjectionInput :=
  (history (step crates) (.new retention) ops).filterMap fun event =>
    appliedInput event.op event.answer

/-- The applied inputs of one stream. -/
def appliedTo (crates : Crates) (retention : ProjectionChangeRetention)
    (ops : List RepositoryOp) (stream : SourceStream) : List TrustedProjectionInput :=
  (appliedInputs crates retention ops).filter fun input => .ofCursor input.cursor = stream

section Runs

variable (crates : Crates) (retention : ProjectionChangeRetention) (ops : List RepositoryOp)

/-- Of one source a partition applies each input after the one before it. -/
theorem appliedInputs_isChain (key : PartitionKey) (source : ProjectionSource)
    : ((appliedInputs crates retention ops).filter fun input =>
        .fromInput input.cursor = key ∧ input.cursor.source = source).IsChain
      fun earlier later => Succeeds later.gapFree later.cursor earlier.cursor
        ∧ earlier.gapFree = later.gapFree := by
  have hstart : InputsKept (InMemoryRepository.new retention).projectionProtocol := by
    intro _ _ h
    cases h
  have hchain := history_isChain (step crates)
    (fun repository => InputsKept repository.projectionProtocol)
    (fun earlier later => Succeeds later.2 later.1 earlier.1 ∧ earlier.2 = later.2)
    (fun repository => lastInput key source repository.projectionProtocol)
    (fun event => appliedFrom key source event.op event.answer)
    (fun repository op hkept => (step_protocolStep crates repository op).inputsKept hkept)
    (fun repository op hkept => (step_protocolStep crates repository op).lastInput hkept)
    hstart ops
  have hitems : (history (step crates) (.new retention) ops).filterMap
        (fun event => appliedFrom key source event.op event.answer)
      = ((appliedInputs crates retention ops).filter fun input =>
          .fromInput input.cursor = key ∧ input.cursor.source = source).map
        fun input => (input.cursor, input.gapFree) := by
    rw [appliedInputs, ← List.filterMap_eq_filter, List.filterMap_filterMap, List.map_filterMap]
    refine List.filterMap_congr fun event _ => ?_
    rw [appliedFrom]
    cases appliedInput event.op event.answer with
    | none => rfl
    | some input => simp [Option.guard, apply_ite]
  rw [hitems] at hchain
  exact (List.isChain_map _).mp hchain

/-- The epoch and the capability of a source, which all its applied inputs share. -/
structure SameSource (first second : TrustedProjectionInput) : Prop where
  epoch : first.cursor.epoch = second.cursor.epoch
  capability : first.gapFree = second.gapFree

theorem SameSource.refl (input : TrustedProjectionInput) : SameSource input input := ⟨rfl, rfl⟩

instance : Std.Symm SameSource where
  symm _ _ h := ⟨h.epoch.symm, h.capability.symm⟩

/-- Along a chain the epoch and the capability stay and the positions grow. -/
structure Precedes (earlier later : TrustedProjectionInput) : Prop
    extends SameSource earlier later where
  position : earlier.cursor.position < later.cursor.position

instance : Trans Precedes Precedes Precedes where
  trans hfirst hsecond := ⟨⟨hfirst.epoch.trans hsecond.epoch,
    hfirst.capability.trans hsecond.capability⟩, hfirst.position.trans hsecond.position⟩

theorem appliedTo_eq_filter (stream : SourceStream)
    : appliedTo crates retention ops stream
      = ((appliedInputs crates retention ops).filter fun input =>
          .fromInput input.cursor = stream.partition
            ∧ input.cursor.source = stream.source).filter
        fun input => input.cursor.epoch = stream.epoch := by
  rw [appliedTo, List.filter_filter]
  refine List.filter_congr fun input _ => ?_
  obtain ⟨partition, source, epoch⟩ := stream
  simp [SourceStream.ofCursor, and_comm, and_assoc]

theorem appliedInputs_pairwise (key : PartitionKey) (source : ProjectionSource)
    : ((appliedInputs crates retention ops).filter fun input =>
        .fromInput input.cursor = key ∧ input.cursor.source = source).Pairwise Precedes := by
  refine List.IsChain.pairwise ?_
  exact (appliedInputs_isChain crates retention ops key source).imp fun earlier later h =>
    ⟨⟨h.1.epoch.symm, h.2⟩, h.1.newer⟩

theorem appliedTo_pairwise (stream : SourceStream)
    : (appliedTo crates retention ops stream).Pairwise Precedes := by
  rw [appliedTo_eq_filter]
  exact (appliedInputs_pairwise crates retention ops _ _).filter _

/-- One gap-free input makes the whole stream gap-free, and then nothing is skipped. -/
theorem appliedTo_consecutive {stream : SourceStream} {input : TrustedProjectionInput}
    (hinput : input ∈ appliedTo crates retention ops stream) (hgapFree : input.gapFree = true)
    : (appliedTo crates retention ops stream).IsChain fun earlier later =>
        later.cursor.position = earlier.cursor.position + 1 := by
  rw [appliedTo_eq_filter] at hinput ⊢
  obtain ⟨hmem, hepoch⟩ := List.mem_filter.mp hinput
  have hall := List.Pairwise.forall_of_forall (fun input _ => .refl input)
    ((appliedInputs_pairwise crates retention ops stream.partition stream.source).imp
      fun h => h.toSameSource)
  rw [List.filter_eq_self.mpr fun other hother => ?_]
  · refine (appliedInputs_isChain crates retention ops _ _).imp_of_mem_imp ?_
    intro earlier later _ hlater h
    exact h.1.next ((hall hmem hlater).capability.symm.trans hgapFree)
  · rw [← (hall hmem hother).epoch]
    exact hepoch

/-- Every input of a stream was applied at most once and in the order of the source, across
all repair generations; a gap-free source's inputs were applied without a gap. -/
theorem projection_inputs_apply_once (stream : SourceStream)
    : ((appliedTo crates retention ops stream).map fun input =>
        input.cursor.position).Pairwise (· < ·)
      ∧ ((appliedInputs crates retention ops).map TrustedProjectionInput.cursor).Nodup
      ∧ ((∃ input ∈ appliedTo crates retention ops stream, input.gapFree = true) →
        ((appliedTo crates retention ops stream).map fun input =>
          input.cursor.position).IsChain fun earlier later => later = earlier + 1) := by
  refine ⟨?_, ?_, ?_⟩
  · exact List.pairwise_map.mpr
      ((appliedTo_pairwise crates retention ops stream).imp fun h => h.position)
  · refine List.pairwise_map.mpr (List.pairwise_iff_forall_sublist.mpr ?_)
    intro earlier later hsublist hsame
    -- Two inputs with one cursor are in one stream, where positions grow.
    have hstream := hsublist.filter fun input => .ofCursor input.cursor
      = SourceStream.ofCursor earlier.cursor
    simp only [hsame, decide_true, List.filter_cons_of_pos, List.filter_nil] at hstream
    have hprecedes := List.pairwise_iff_forall_sublist.mp
      (appliedTo_pairwise crates retention ops (.ofCursor later.cursor)) hstream
    exact absurd hprecedes.position (hsame ▸ lt_irrefl _)
  · rintro ⟨input, hinput, hgapFree⟩
    exact (List.isChain_map _).mpr (appliedTo_consecutive crates retention ops hinput hgapFree)

end Runs

def todoTopology : ProjectorTopologyId :=
  ⟨1, "todos", .replicate 3, by decide, by decide⟩

def todoPartition : ProjectionPartition := ⟨[1], by decide⟩

def todoSource : ProjectionSource := ⟨"todo-events", [0], by decide, by decide⟩

theorem todoEpoch_valid : ValidOpaque maxProjectionEpochBytes "epoch-1" := by decide

def todoEpoch : ProjectionEpoch := ⟨"epoch-1", todoEpoch_valid⟩

def todoOwner : ProjectionModelOwnership := ⟨"Todo", "todos", by decide, by decide⟩

theorem todoModel_valid : ValidName maxProjectionModelNameBytes "Todo" := by decide

theorem todoKey_valid : ValidCanonicalBytes maxProjectionRecordKeyBytes [7] := by decide

def todoRecord : ProjectionRecordScope :=
  ⟨todoTopology, todoPartition, "Todo", [7], todoModel_valid, todoKey_valid⟩

/-- The input at a position of the gap-free source. -/
def todoInput (position : Nat) (hposition : position ≤ maxProjectionPosition)
    (messageId : String) (hmessage : ValidOpaque maxMessageIdBytes messageId)
    : TrustedProjectionInput where
  cursor := ⟨todoTopology, todoPartition, todoSource, todoEpoch, position, hposition⟩
  fingerprint := .replicate 4
  messageId
  causationId := "cause"
  generation := .initial
  gapFree := true
  message_valid := hmessage
  causation_valid := by decide

def firstTodo : TrustedProjectionInput := todoInput 1 (by decide) "message-1" (by decide)

def secondTodo : TrustedProjectionInput := todoInput 2 (by decide) "message-2" (by decide)

/-- A commit that only moves the checkpoint. -/
def checkpointCommit (input : TrustedProjectionInput) : ProjectionCommitBatch where
  input
  changeEpoch := todoEpoch
  ownership := [todoOwner]
  mutations := []
  observations := []

/-- Two inputs, the first of them delivered twice. -/
def todoDeliveries : List RepositoryOp :=
  [.registerProjectionModels todoTopology [todoOwner],
    .commitProjection (checkpointCommit firstTodo),
    .commitProjection (checkpointCommit firstTodo),
    .commitProjection (checkpointCommit secondTodo)]

theorem todoDeliveries_apply_once
    : appliedTo nullOutcomeCrates defaultProjectionChangeRetention todoDeliveries
          (.ofCursor firstTodo.cursor)
        = [firstTodo, secondTodo]
      ∧ ((appliedTo nullOutcomeCrates defaultProjectionChangeRetention todoDeliveries
          (.ofCursor firstTodo.cursor)).map fun input => input.cursor.position).IsChain
        fun earlier later => later = earlier + 1 := by
  have happlied : appliedTo nullOutcomeCrates defaultProjectionChangeRetention todoDeliveries
      (.ofCursor firstTodo.cursor) = [firstTodo, secondTodo] := by
    decide +kernel
  refine ⟨happlied, ?_⟩
  refine (projection_inputs_apply_once _ _ _ _).2.2 ⟨firstTodo, ?_, rfl⟩
  rw [happlied]
  exact List.mem_cons_self ..

end Distributed.InMemoryRepo
