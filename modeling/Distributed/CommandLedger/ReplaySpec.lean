import Distributed.CommandLedger.Transitions

/-! What a completed row replays.
A row keeps the text of its envelope, so the replay is the completion's own outcome exactly
when that text reads back.
-/

namespace Distributed.CommandLedger

open Distributed.Foundation Distributed.Platform Distributed.Platform.Serde

open Distributed.ProjectionProtocol

namespace CompletionRequest

/-- The stored envelope, with the evidence of a direct projection if there is one. -/
def envelope (crates : Crates) (request : CompletionRequest) (direct : Option Json)
    : JsonFields :=
  direct.elim (replayEnvelope crates request)
    fun evidence => JsonFields.insert "direct_projection" evidence (replayEnvelope crates request)

/-- The text stored for the completion: that of its envelope, or with evidence that of what
the envelope's own text reads as, the evidence put in. -/
def StoresText (crates : Crates) (request : CompletionRequest) (text : String)
    : Option Json → Prop
  | none => text = crates.jsonToString (.object (replayEnvelope crates request))
  | some evidence => ∃ fields,
      crates.jsonFromStr (crates.jsonToString (.object (replayEnvelope crates request)))
        = .ok (.object fields)
      ∧ text = crates.jsonToString
        (.object (JsonFields.insert "direct_projection" evidence fields))

/-- The replay a caller must get for the completion. -/
def expectedReplay (request : CompletionRequest) (commandName : String)
    (direct : Option Json) : CommandReplay where
  commandId := request.attempt.key.id
  commandName := commandName
  state := request.state.toLedgerState
  causationId := request.attempt.causationId
  outcome := request.outcome
  projectionObligations := request.projectionObligations
  projectionMetadata := request.projectionMetadata
  directProjection := direct

/-- The crates read back what they wrote for this completion. -/
structure Readable (crates : Crates) (request : CompletionRequest) (direct : Option Json)
    : Prop where
  metadata : ∀ bytes, request.projectionMetadata = some bytes →
    crates.base64Decode (crates.base64Encode bytes) = some bytes
  plain : crates.ReadsBack (.object (replayEnvelope crates request))
  stored : crates.ReadsBack (.object (request.envelope crates direct))

theorem StoresText.eq_envelope {crates : Crates} {request : CompletionRequest} {text : String}
    {direct : Option Json} (h : request.StoresText crates text direct)
    (hread : crates.ReadsBack (.object (replayEnvelope crates request)))
    : text = crates.jsonToString (.object (request.envelope crates direct)) := by
  cases direct with
  | none => exact h
  | some evidence =>
      obtain ⟨fields, hfields, rfl⟩ := h
      rw [Crates.ReadsBack] at hread
      cases hread.symm.trans hfields
      rfl

/-- The envelope's fields in the order of their names. -/
theorem envelope_eq (crates : Crates) (request : CompletionRequest) (direct : Option Json)
    : request.envelope crates direct
      = direct.toList.map (fun evidence => ("direct_projection", evidence))
        ++ [("outcome", request.outcome)]
        ++ request.projectionMetadata.toList.map
          (fun bytes => ("projection_metadata", .string (crates.base64Encode bytes)))
        ++ [("projection_obligations",
              .array (request.projectionObligations.map ResolvedProjectionObligation.toJson)),
            ("version", .ofNat commandReplayVersion)] := by
  obtain ⟨attempt, state, outcome, obligations, metadata, retention, deadline⟩ := request
  cases metadata with
  | none => cases direct <;> rfl
  | some bytes => cases direct <;> rfl

theorem complete_ok {crates : Crates} {request : CompletionRequest}
    {completion : CommandCompletion} (h : request.complete crates = .ok completion)
    : (request.projectionMetadata = none →
        validateProjectionObligationSemantics request.state.toLedgerState
          request.projectionObligations = .ok ())
      ∧ validateProjectionMetadataBytes request.state.toLedgerState
          request.projectionMetadata = .ok ()
      ∧ (request.projectionMetadata.isSome = true → request.projectionObligations = [])
      ∧ completion = {
        attempt := request.attempt
        state := request.state
        replay := crates.jsonToString (.object (replayEnvelope crates request))
        directProjection := none
        retention := request.retention
        retentionExpiresAt := request.retentionExpiresAt } := by
  simp only [complete, Result.bind_eq_ok_iff, Result.optional_eq_ok_iff,
    Result.error_bind, Result.guard_eq_ok_iff, Result.mapError_eq_ok_iff] at h
  obtain ⟨_, -, hsemantics, _, hmetadata, hmixed, h⟩ := h
  cases h
  refine ⟨hsemantics, hmetadata, fun hsome => ?_, rfl⟩
  simpa [hsome] using hmixed

end CompletionRequest

theorem CommandCompletion.attachDirectProjection_ok {crates : Crates}
    {completion attached : CommandCompletion} {evidence : SameTransactionProjectionEvidence}
    (h : completion.attachDirectProjection crates evidence = .ok attached)
    : completion.state = .atomic
      ∧ validateReplayValue crates (evidence.replayValue crates) = .ok ()
      ∧ ∃ fields, crates.jsonFromStr completion.replay = .ok (.object fields)
        ∧ attached = {
          completion with
          replay := crates.jsonToString
            (.object (JsonFields.insert "direct_projection" (evidence.replayValue crates) fields))
          directProjection := some (evidence.replayValue crates) } := by
  simp only [attachDirectProjection, Result.bind_eq_ok_iff, Result.error_bind,
    Result.guard_eq_ok_iff, Result.mapError_eq_ok_iff] at h
  obtain ⟨hstate, -, _, hvalid, replay, hread, h⟩ := h
  cases replay with
  | object fields =>
      simp only [Result.guard_eq_ok_iff] at h
      obtain ⟨-, h⟩ := h
      cases h
      exact ⟨by simpa using hstate, hvalid, fields, hread, rfl⟩
  | null | bool | number | string | array => cases h

theorem CommandCompletion.validateDirectProjection_ok {completion : CommandCompletion}
    (h : completion.validateDirectProjection = .ok ())
    : completion.directProjection.isSome = true ↔ completion.state = .atomic := by
  unfold validateDirectProjection at h
  split at h <;> simp_all

theorem CompletionRequest.Stored.fields {crates : Crates} {request : CompletionRequest}
    {completion : CommandCompletion} (h : request.Stored crates completion)
    : completion.attempt = request.attempt ∧ completion.state = request.state
      ∧ (∃ completion, request.complete crates = .ok completion)
      ∧ (∀ value, completion.directProjection = some value →
          validateReplayValue crates value = .ok ())
      ∧ request.StoresText crates completion.replay completion.directProjection := by
  cases h with
  | plain hcomplete =>
      obtain ⟨-, -, -, rfl⟩ := complete_ok hcomplete
      exact ⟨rfl, rfl, ⟨_, hcomplete⟩, by simp, rfl⟩
  | attached evidence hcomplete hattach =>
      obtain ⟨-, hvalid, fields, hparse, rfl⟩ :=
        CommandCompletion.attachDirectProjection_ok hattach
      obtain ⟨-, -, -, rfl⟩ := complete_ok hcomplete
      refine ⟨rfl, rfl, ⟨_, hcomplete⟩, ?_, fields, hparse, rfl⟩
      rintro value ⟨⟩
      exact hvalid

/-- The row was written by this completion, with this evidence of a direct projection. -/
structure CommandLedgerRecord.CompletedFrom (crates : Crates) (record : CommandLedgerRecord)
    (request : CompletionRequest) (direct : Option Json) : Prop where
  state : record.state = request.state.toLedgerState
  key : record.key = request.attempt.key
  causation : record.causationId = request.attempt.causationId
  contract : record.contractFingerprint = request.attempt.contractFingerprint
  input : record.inputHash = request.attempt.inputHash
  accepted : ∃ completion, request.complete crates = .ok completion
  evidence : ∀ value, direct = some value → validateReplayValue crates value = .ok ()
  projected : direct.isSome = true ↔ request.state = .atomic
  text : ∃ text, record.outcomeJson = some text ∧ request.StoresText crates text direct

namespace CommandLedgerRecord

variable {crates : Crates} {record : CommandLedgerRecord} {request : CompletionRequest}
  {direct : Option Json}

/-- Completing a row with a stored completion leaves a row completed from the request. -/
theorem complete_completedFrom {next : CommandLedgerRecord} {completion : CommandCompletion}
    {now : SystemTime} (hstored : request.Stored crates completion)
    (h : record.complete completion now = .ok next)
    : next.CompletedFrom crates request completion.directProjection
      ∧ next.commandName = record.commandName := by
  obtain ⟨hattempt, hstate, haccepted, hevidence, htext⟩ := hstored.fields
  obtain ⟨hdirect, hfence, -, retention, rfl⟩ := complete_ok h
  obtain ⟨-, hidentity, -⟩ := matchesFence_iff.mp hfence
  rw [hattempt] at hidentity
  have hprojected := CommandCompletion.validateDirectProjection_ok hdirect
  rw [hstate] at hprojected
  refine ⟨⟨congrArg TerminalCommandState.toLedgerState hstate, ?_, ?_, ?_, ?_, haccepted,
    hevidence, hprojected, _, rfl, htext⟩, rfl⟩
  · exact (congrArg CommandAttempt.key hidentity).symm
  · exact (congrArg CommandAttempt.causationId hidentity).symm
  · exact (congrArg CommandAttempt.contractFingerprint hidentity).symm
  · exact (congrArg CommandAttempt.inputHash hidentity).symm

theorem CompletedFrom.replayFields (h : record.CompletedFrom crates request direct)
    (hread : request.Readable crates direct)
    : record.replayFields crates = .ok (request.envelope crates direct) := by
  have hparse : crates.jsonFromStr
      (crates.jsonToString (.object (request.envelope crates direct)))
      = .ok (.object (request.envelope crates direct)) := hread.stored
  obtain ⟨text, htext, hstores⟩ := h.text
  cases hstores.eq_envelope hread.plain
  simp [CommandLedgerRecord.replayFields, h.state, htext, hparse, Except.mapError]

/-- A completed row whose text does not parse is reported as corrupt. -/
theorem replay_of_unparsed {text error : String} (hstate : record.state.isReplayable = true)
    (htext : record.outcomeJson = some text) (hread : crates.jsonFromStr text = .error error)
    : record.replay crates
      = .error (record.corruptCommand ("outcome is invalid JSON: " ++ error)) := by
  simp [replay, CommandLedgerRecord.replayFields, hstate, htext, hread, Except.mapError]

theorem replayObligations_toJson (obligations : List ResolvedProjectionObligation)
    : record.replayObligations (.array (obligations.map ResolvedProjectionObligation.toJson))
      = .ok obligations := by
  have hitems : (obligations.map ResolvedProjectionObligation.toJson).mapM
      ResolvedProjectionObligation.fromJson = .ok obligations :=
    Result.mapM_map_eq_ok fun obligation _ => obligation.fromJson_toJson
  simp [replayObligations, asArray, hitems, Except.mapError]

theorem CompletedFrom.replayMetadata (h : record.CompletedFrom crates request direct)
    (hread : request.Readable crates direct) {bytes : Bytes}
    (hbytes : request.projectionMetadata = some bytes)
    : record.replayMetadata crates (.string (crates.base64Encode bytes)) = .ok bytes := by
  obtain ⟨completion, haccepted⟩ := h.accepted
  have hvalid := (CompletionRequest.complete_ok haccepted).2.1
  rw [← h.state, hbytes] at hvalid
  simp [CommandLedgerRecord.replayMetadata, hread.metadata bytes hbytes, hvalid,
    Except.mapError]

theorem CompletedFrom.replayObligationSemantics
    (h : record.CompletedFrom crates request direct)
    : record.replayObligationSemantics request.projectionObligations
        request.projectionMetadata = .ok () := by
  obtain ⟨completion, haccepted⟩ := h.accepted
  obtain ⟨hsemantics, -, hmixed, -⟩ := CompletionRequest.complete_ok haccepted
  rw [← h.state] at hsemantics
  cases hmetadata : request.projectionMetadata with
  | none =>
      simp [CommandLedgerRecord.replayObligationSemantics, hsemantics hmetadata,
        Except.mapError]
  | some bytes =>
      have hempty := hmixed (by simp [hmetadata])
      simp [CommandLedgerRecord.replayObligationSemantics, hempty, pure, Except.pure]

theorem CompletedFrom.replayDirectProjection
    (h : record.CompletedFrom crates request direct)
    : record.replayDirectProjection crates direct = .ok () := by
  have hprojected := h.projected
  have hstate := h.state
  cases hdirect : direct with
  | none =>
      have hatomic : request.state ≠ .atomic := fun hatomic => by
        simpa [hdirect] using hprojected.mpr hatomic
      cases hcase : request.state with
      | atomic => exact absurd hcase hatomic
      | succeeded | succeededPendingProjection | rejected =>
          rw [hcase] at hstate
          simp [CommandLedgerRecord.replayDirectProjection, hstate,
            TerminalCommandState.toLedgerState]
  | some value =>
      have hatomic := hprojected.mp (by simp [hdirect])
      rw [hatomic] at hstate
      simp [CommandLedgerRecord.replayDirectProjection, hstate,
        TerminalCommandState.toLedgerState, h.evidence value hdirect, Except.mapError]

/-- A completed row whose envelope reads back replays exactly the completion. -/
theorem CompletedFrom.replay_eq (h : record.CompletedFrom crates request direct)
    (hread : request.Readable crates direct)
    : record.replay crates = .ok (request.expectedReplay record.commandName direct) := by
  have hversion : record.replayVersion (some (.ofNat commandReplayVersion)) = .ok () := by
    simp [replayVersion, Json.ofNat, Json.asU64?]
  have hsemantics := h.replayObligationSemantics
  have hdirect := h.replayDirectProjection
  rw [replay, h.replayFields hread, request.envelope_eq]
  -- The fields are removed by name, so only which of them are present matters.
  cases hbytes : request.projectionMetadata with
  | none =>
      rw [hbytes] at hsemantics
      cases direct <;>
        simp [JsonFields.remove, JsonFields.get?, hversion, replayObligations_toJson,
          hsemantics, hdirect, CompletionRequest.expectedReplay, h.state, h.key,
          h.causation, hbytes]
  | some bytes =>
      rw [hbytes] at hsemantics
      have hmetadata := h.replayMetadata hread hbytes
      cases direct <;>
        simp [JsonFields.remove, JsonFields.get?, hversion, replayObligations_toJson,
          hmetadata, hsemantics, hdirect, CompletionRequest.expectedReplay, h.state, h.key,
          h.causation, hbytes]

end CommandLedgerRecord

end Distributed.CommandLedger
