import ExamSystem.IncidentVersions
import ExamSystem.SystemIncidents

/-!
# The replay of an incident command

A retry is answered from the event of the first call. The comparison keeps every
field of the normalised input, but the event of a severity change stores more
than it is compared with.
-/

namespace ExamSystem.Incidents

open Tx Interleaving

/-! ## Inputs and their payloads -/

/-- The input of a command as it is compared, apart from the operation: its
texts are trimmed, a blank reason is none, and the default severity is filled in. -/
def IncidentCommand.normalized : IncidentCommand → IncidentCommand
  | createExamIncident input _ =>
    .createExamIncident
      { input with
        operationId := "", severity := some (input.severity.getD .info),
        description := trimText input.description } ""
  | startIncidentInvestigation incidentId input =>
    .startIncidentInvestigation incidentId
      { input with
        operationId := ""
        reasonCode := normalizeString input.reasonCode
        reasonText := normalizeString input.reasonText }
  | addIncidentNote incidentId input =>
    .addIncidentNote incidentId { input with operationId := "", body := trimText input.body }
  | changeIncidentSeverity incidentId input =>
    .changeIncidentSeverity incidentId
      { input with
        operationId := ""
        reasonCode := normalizeString input.reasonCode
        reasonText := normalizeString input.reasonText }
  | resolveExamIncident incidentId input =>
    .resolveExamIncident incidentId
      { input with
        operationId := ""
        resolutionSummary := trimText input.resolutionSummary
        reasonCode := normalizeString input.reasonCode }
  | dismissExamIncident incidentId input =>
    .dismissExamIncident incidentId
      { input with
        operationId := "", reasonText := trimText input.reasonText,
        reasonCode := normalizeString input.reasonCode }
  | linkIncidentAction incidentId input =>
    .linkIncidentAction incidentId { input with operationId := "" }
  | linkIncidentAttempt incidentId input =>
    .linkIncidentAttempt incidentId { input with operationId := "" }
  | linkIncidentInterruption incidentId input =>
    .linkIncidentInterruption incidentId { input with operationId := "" }

theorem normalized_commandType (c : IncidentCommand) : c.normalized.commandType = c.commandType := by
  cases c <;> rfl

theorem normalizeRequiredString_ok {s field trimmed : String} {max : Nat}
    (h : normalizeRequiredString s field max = .ok trimmed) :
    trimmed = trimText s := by
  simp only [normalizeRequiredString, bind_eq_ok, pure_eq_ok] at h
  obtain ⟨_, _, _, _, rfl⟩ := h
  rfl

def IncidentCommand.fields : IncidentCommand → Payload
  | createExamIncident input _ =>
    [("examId", .text input.examId), ("attemptId", optionalText input.attemptId),
      ("candidateId", optionalText input.candidateId),
      ("type", .text input.type.text), ("severity", .text (input.severity.getD .info).text),
      ("occurredAt", optionalInstant input.occurredAt), ("description", .text input.description)]
  | startIncidentInvestigation incidentId input =>
    [("incidentId", .text incidentId), ("expectedVersion", .number input.expectedVersion),
      ("reasonCode", optionalText input.reasonCode), ("reasonText", optionalText input.reasonText)]
  | addIncidentNote incidentId input => [("incidentId", .text incidentId), ("body", .text input.body)]
  | changeIncidentSeverity incidentId input =>
    [("incidentId", .text incidentId), ("expectedVersion", .number input.expectedVersion),
      ("severity", .text input.severity.text),
      ("reasonCode", optionalText input.reasonCode), ("reasonText", optionalText input.reasonText)]
  | resolveExamIncident incidentId input =>
    [("incidentId", .text incidentId), ("expectedVersion", .number input.expectedVersion),
      ("resolutionSummary", .text input.resolutionSummary), ("reasonCode",
        optionalText input.reasonCode)]
  | dismissExamIncident incidentId input =>
    [("incidentId", .text incidentId), ("expectedVersion", .number input.expectedVersion),
      ("reasonText", .text input.reasonText), ("reasonCode", optionalText input.reasonCode)]
  | linkIncidentAction incidentId input => linkActionPayload incidentId input.actionType input.actionId
  | linkIncidentAttempt incidentId input => linkAttemptPayload incidentId input
  | linkIncidentInterruption incidentId input => linkInterruptionPayload incidentId input

theorem canonicalPayload_fields {c : IncidentCommand} {payload : Payload}
    (h : c.canonicalPayload = .ok payload) :
    payload = c.normalized.fields := by
  cases c with
  | createExamIncident input freshId =>
    simp only [IncidentCommand.canonicalPayload, createPayload, bind_eq_ok, pure_eq_ok] at h
    obtain ⟨description, hd, rfl⟩ := h
    rw [normalizeRequiredString_ok hd]
    rfl
  | addIncidentNote incidentId input =>
    simp only [IncidentCommand.canonicalPayload, notePayload, bind_eq_ok, pure_eq_ok] at h
    obtain ⟨body, hb, rfl⟩ := h
    rw [normalizeRequiredString_ok hb]
    rfl
  | resolveExamIncident incidentId input =>
    simp only [IncidentCommand.canonicalPayload, bind_eq_ok, pure_eq_ok] at h
    obtain ⟨summary, hs, rfl⟩ := h
    rw [normalizeRequiredString_ok hs]
    rfl
  | dismissExamIncident incidentId input =>
    simp only [IncidentCommand.canonicalPayload, bind_eq_ok, pure_eq_ok] at h
    obtain ⟨text, ht, rfl⟩ := h
    rw [normalizeRequiredString_ok ht]
    rfl
  | startIncidentInvestigation incidentId input | changeIncidentSeverity incidentId input
  | linkIncidentAction incidentId input
  | linkIncidentAttempt incidentId input | linkIncidentInterruption incidentId input =>
    cases (pure_eq_ok _ _).mp h
    rfl

/-! ### The comparison keeps every field -/

theorem payloadsEqual_perm {p q : Payload} (h : payloadsEqual p q = true) : p.Perm q := by
  simp only [payloadsEqual, decide_eq_true_eq] at h
  have hp : (sortKeys p).Perm p := List.mergeSort_perm p _
  have hq : (sortKeys q).Perm q := List.mergeSort_perm q _
  exact hp.symm.trans (h ▸ hq)

theorem optionalText_injective {a b : Option String} (h : optionalText a = optionalText b) : a = b := by
  cases a <;> cases b <;> simp_all [optionalText]

theorem optionalInstant_injective {a b : Option Int} (h : optionalInstant a = optionalInstant b) :
    a = b := by
  cases a <;> cases b <;> simp_all [optionalInstant]

theorem type_text_injective {a b : IncidentType} (h : a.text = b.text) : a = b := by
  revert h
  cases a <;> cases b <;> decide

theorem severity_text_injective {a b : IncidentSeverity} (h : a.text = b.text) : a = b := by
  revert h
  cases a <;> cases b <;> decide

theorem actionType_text_injective {a b : IncidentActionType} (h : a.text = b.text) : a = b := by
  revert h
  cases a <;> cases b <;> decide

theorem relationship_text_injective {a b : IncidentRelationshipType} (h : a.text = b.text) : a = b := by
  revert h
  cases a <;> cases b <;> decide

theorem fields_injective {c c' : IncidentCommand} (hc : c.commandType = c'.commandType)
    (h : payloadsEqual c.normalized.fields c'.normalized.fields = true) :
    c.normalized = c'.normalized := by
  have hsub : ∀ kv ∈ c.normalized.fields, kv ∈ c'.normalized.fields :=
    fun kv hkv => (payloadsEqual_perm h).subset hkv
  cases c with
  | createExamIncident input freshId =>
    cases c' with
    | createExamIncident input' freshId' =>
      simp [IncidentCommand.fields, IncidentCommand.normalized] at hsub
      obtain ⟨hexam, hattempt, hcandidate, htype, hseverity, hoccurred, hdescription⟩ := hsub
      simp only [IncidentCommand.normalized, hexam, optionalText_injective hattempt,
        optionalText_injective hcandidate, type_text_injective htype,
        severity_text_injective hseverity, optionalInstant_injective hoccurred, hdescription]
    | _ => cases hc
  | startIncidentInvestigation incidentId input =>
    cases c' with
    | startIncidentInvestigation incidentId' input' =>
      simp [IncidentCommand.fields, IncidentCommand.normalized] at hsub
      obtain ⟨hid, hversion, hcode, htext⟩ := hsub
      simp only [IncidentCommand.normalized, hid, hversion, optionalText_injective hcode,
          optionalText_injective htext]
    | _ => cases hc
  | addIncidentNote incidentId input =>
    cases c' with
    | addIncidentNote incidentId' input' =>
      simp [IncidentCommand.fields, IncidentCommand.normalized] at hsub
      simp only [IncidentCommand.normalized, hsub.1, hsub.2]
    | _ => cases hc
  | changeIncidentSeverity incidentId input =>
    cases c' with
    | changeIncidentSeverity incidentId' input' =>
      simp [IncidentCommand.fields, IncidentCommand.normalized] at hsub
      obtain ⟨hid, hversion, hseverity, hcode, htext⟩ := hsub
      simp only [IncidentCommand.normalized, hid, hversion, severity_text_injective hseverity,
        optionalText_injective hcode, optionalText_injective htext]
    | _ => cases hc
  | resolveExamIncident incidentId input =>
    cases c' with
    | resolveExamIncident incidentId' input' =>
      simp [IncidentCommand.fields, IncidentCommand.normalized] at hsub
      obtain ⟨hid, hversion, hsummary, hcode⟩ := hsub
      simp only [IncidentCommand.normalized, hid, hversion, hsummary, optionalText_injective hcode]
    | _ => cases hc
  | dismissExamIncident incidentId input =>
    cases c' with
    | dismissExamIncident incidentId' input' =>
      simp [IncidentCommand.fields, IncidentCommand.normalized] at hsub
      obtain ⟨hid, hversion, htext, hcode⟩ := hsub
      simp only [IncidentCommand.normalized, hid, hversion, htext, optionalText_injective hcode]
    | _ => cases hc
  | linkIncidentAction incidentId input =>
    cases c' with
    | linkIncidentAction incidentId' input' =>
      simp [IncidentCommand.fields, IncidentCommand.normalized, linkActionPayload] at hsub
      obtain ⟨hid, htype, haction⟩ := hsub
      simp only [IncidentCommand.normalized, hid, actionType_text_injective htype, haction]
    | _ => cases hc
  | linkIncidentAttempt incidentId input =>
    cases c' with
    | linkIncidentAttempt incidentId' input' =>
      simp [IncidentCommand.fields, IncidentCommand.normalized, linkAttemptPayload] at hsub
      obtain ⟨hid, hattempt, htype⟩ := hsub
      simp only [IncidentCommand.normalized, hid, hattempt, relationship_text_injective htype]
    | _ => cases hc
  | linkIncidentInterruption incidentId input =>
    cases c' with
    | linkIncidentInterruption incidentId' input' =>
      simp [IncidentCommand.fields, IncidentCommand.normalized, linkInterruptionPayload] at hsub
      simp only [IncidentCommand.normalized, hsub.1, hsub.2]
    | _ => cases hc

/-! ## What a command does first -/

/-- The command reads `s` once and answers from it: it locks and writes nothing. -/
def AnswersAt (p : Action (Option CommandResult)) (s : Db) (x : Result (Option CommandResult)) : Prop :=
  ∃ next, p = .stmt (fun _ => []) (fun _ => []) next ∧ next s = .ofExcept x

theorem AnswersAt.unique {p : Action (Option CommandResult)} {s : Db}
    {x y : Result (Option CommandResult)} (h : AnswersAt p s x) (h' : AnswersAt p s y) : x = y := by
  obtain ⟨next, rfl, hx⟩ := h
  obtain ⟨next', hp, hy⟩ := h'
  cases hp
  rw [hx] at hy
  cases x <;> cases y <;> cases hy <;> rfl

section
variable {s : Db} {ctx : CommandContext} {eventId : String}

/-- A command that starts with the lookup of its operation. -/
theorem answers_of_lookup {organizationId operationId : String} {commandType : CommandType}
    {payload : Payload} {x : Result (Option CommandResult)}
    {g : Db → Option CommandResult → Action (Option CommandResult)}
    (hg : ∀ snap r, g snap (some r) = .done (some r)) (hne : x ≠ .ok none)
    (hx : preReadOperationId s organizationId operationId commandType payload = x) :
    AnswersAt (Prog.snapshot >>= fun snap => Prog.ofExcept
        (preReadOperationId snap organizationId operationId commandType payload) >>= g snap)
      s x := by
  refine ⟨_, rfl, ?_⟩
  show (Prog.ofExcept (preReadOperationId s organizationId operationId commandType payload) >>= g s) = _
  rw [hx]
  rcases x with e | _ | r
  · rfl
  · exact absurd rfl hne
  · exact hg s r

theorem command_answers {c : IncidentCommand} {payload : Payload}
    {x : Result (Option CommandResult)} (hp : c.canonicalPayload = .ok payload) (hne : x ≠ .ok none)
    (hx : preReadOperationId s ctx.organizationId c.operationId c.commandType payload = x) :
    AnswersAt (c.action ctx eventId) s x := by
  cases c with
  | createExamIncident input freshId =>
    show AnswersAt (Incidents.createExamIncident ctx eventId input freshId) s x
    unfold Incidents.createExamIncident
    rw [show createPayload input = .ok payload from hp]
    exact answers_of_lookup (fun _ _ => rfl) hne hx
  | addIncidentNote incidentId input =>
    show AnswersAt (Incidents.addIncidentNote ctx eventId incidentId input) s x
    unfold Incidents.addIncidentNote
    rw [show notePayload incidentId input = .ok payload from hp]
    exact answers_of_lookup (fun _ _ => rfl) hne hx
  | startIncidentInvestigation incidentId input =>
    cases hp
    exact answers_of_lookup (fun _ _ => rfl) hne hx
  | changeIncidentSeverity incidentId input =>
    cases hp
    exact answers_of_lookup (fun _ _ => rfl) hne hx
  | resolveExamIncident incidentId input =>
    simp only [IncidentCommand.canonicalPayload, bind_eq_ok, pure_eq_ok] at hp
    obtain ⟨summary, hs, rfl⟩ := hp
    show AnswersAt (Incidents.resolveExamIncident ctx eventId incidentId input) s x
    unfold Incidents.resolveExamIncident
    rw [hs]
    exact answers_of_lookup (fun _ _ => rfl) hne hx
  | dismissExamIncident incidentId input =>
    simp only [IncidentCommand.canonicalPayload, bind_eq_ok, pure_eq_ok] at hp
    obtain ⟨text, ht, rfl⟩ := hp
    show AnswersAt (Incidents.dismissExamIncident ctx eventId incidentId input) s x
    unfold Incidents.dismissExamIncident
    rw [ht]
    exact answers_of_lookup (fun _ _ => rfl) hne hx
  | linkIncidentAction incidentId input =>
    cases hp
    exact answers_of_lookup (fun _ _ => rfl) hne hx
  | linkIncidentAttempt incidentId input =>
    cases hp
    exact answers_of_lookup (fun _ _ => rfl) hne hx
  | linkIncidentInterruption incidentId input =>
    cases hp
    exact answers_of_lookup (fun _ _ => rfl) hne hx

/-! ## What the lookup finds -/

theorem findEvent_stored (hk : s.Keys) {e : ExamIncidentEvent} (he : e ∈ s.events)
    {organizationId operationId : String} (ho : e.organizationId = organizationId)
    (hop : e.operationId = uuidText operationId) :
    s.findEventByOperationId organizationId operationId = some e := by
  cases hf : s.findEventByOperationId organizationId operationId with
  | none =>
    unfold Db.findEventByOperationId at hf
    rw [List.find?_eq_none] at hf
    exact absurd (hf e he) (by simp [ho, hop])
  | some e' =>
    obtain ⟨he', ho', hop'⟩ := findEvent_some hf
    exact congrArg some (List.inj_on_of_nodup_map hk.operations he' he (by rw [ho, ho', hop, hop']))

section
variable {e : ExamIncidentEvent} {organizationId operationId : String} {commandType : CommandType}
    {payload : Payload}

theorem lookup_matching (hs : Sane s) (he : e ∈ s.events) (ho : e.organizationId = organizationId)
    (hop : e.operationId = uuidText operationId)
    (hm : isMatchingCommittedOperation e commandType payload = true) :
    ∃ i ∈ s.incidents, i.id = e.incidentId ∧
      preReadOperationId s organizationId operationId commandType payload = .ok
        (some ⟨.idempotentReplayed, i⟩) := by
  obtain ⟨i, hi, hid⟩ := findById_incident hs he
  refine ⟨i, (findById_some hi).1, hid, ?_⟩
  rw [preReadOperationId, replayOf, findEvent_stored (intact_keys hs.intact) he ho hop]
  dsimp only
  rw [if_pos hm, ← ho, hi]
  rfl

theorem lookup_conflict (hs : Sane s) (he : e ∈ s.events) (ho : e.organizationId = organizationId)
    (hop : e.operationId = uuidText operationId)
    (hm : isMatchingCommittedOperation e commandType payload = false) :
    preReadOperationId s organizationId operationId commandType payload = .error
      (alreadyUsed operationId e) := by
  rw [preReadOperationId, replayOf, findEvent_stored (intact_keys hs.intact) he ho hop]
  dsimp only
  rw [if_neg (by rw [hm]; exact Bool.false_ne_true)]

end

/-- A stored receipt matches the same input, unless it is the receipt of a severity change. -/
theorem matching_iff (hs : Sane s) {call call' : Call} {e : ExamIncidentEvent} (he : e ∈ s.events)
    (hreceipt : ReceiptOf call e) {payload : Payload}
    (hp : call'.command.canonicalPayload = .ok payload) :
    isMatchingCommittedOperation e call'.command.commandType payload = true ↔
      call.command.normalized = call'.command.normalized ∧
      call.command.commandType ≠ .changeIncidentSeverity := by
  obtain ⟨stored, hstored, hequal⟩ := hreceipt.payload
  have hf := canonicalPayload_fields hstored
  have hf' := canonicalPayload_fields hp
  rw [isMatchingCommittedOperation, decide_eq_true_eq, hreceipt.command]
  constructor
  · rintro ⟨htype, hpe⟩
    have hne : call.command.commandType ≠ .changeIncidentSeverity := by
      intro hsev
      cases hc : call'.command with
      | changeIncidentSeverity incidentId input =>
        have hpayload : payload = versionBumpPayload incidentId input.expectedVersion
            (severityFields input) := by
          rw [hc] at hp
          exact ((pure_eq_ok _ _).mp hp).symm
        rw [hpayload, severity_unmatched hs he (hreceipt.command.trans hsev)] at hpe
        cases hpe
      | _ =>
        rw [hsev, hc] at htype
        cases htype
    refine ⟨fields_injective htype ?_, hne⟩
    rw [← hf, ← hf']
    exact payloadsEqual_trans (payloadsEqual_symm (hequal hne)) hpe
  · rintro ⟨hsame, hne⟩
    refine ⟨?_, ?_⟩
    · rw [← normalized_commandType call.command, hsame, normalized_commandType]
    · rw [hf', ← hsame, ← hf]
      exact hequal hne

end

/-! ## Every run -/

/-- What is promised of a call after a call of the same operation was applied to
the incident: the same input is a replay, and another one is a conflict. -/
def AnsweredAgain (s : Db) (incidentId : String) (call call' : Call) : Prop :=
  (call.command.normalized = call'.command.normalized →
    ∃ i ∈ s.incidents, i.id = incidentId ∧
    AnswersAt call'.action s (.ok (some ⟨.idempotentReplayed, i⟩))) ∧
  (call.command.normalized ≠ call'.command.normalized →
    ∃ text, AnswersAt call'.action s (.error (.idempotencyConflict text)))

theorem answeredAgain_iff {s : Db} (hs : Sane s) {call call' : Call} {e : ExamIncidentEvent}
    (he : e ∈ s.events) (hreceipt : ReceiptOf call e) (hlookup : call'.lookup = false)
    (horg : call'.ctx.organizationId = call.ctx.organizationId)
    (hop : uuidText call'.command.operationId = uuidText call.command.operationId)
    {payload : Payload} (hp : call'.command.canonicalPayload = .ok payload) :
    AnsweredAgain s e.incidentId call call' ↔
      ¬(call.command.normalized = call'.command.normalized ∧
        call.command.commandType = .changeIncidentSeverity) := by
  have haction : call'.action = call'.command.action call'.ctx call'.eventId := by
    simp [Call.action, hlookup]
  have heo : e.organizationId = call'.ctx.organizationId := hreceipt.organization.trans horg.symm
  have heop : e.operationId = uuidText call'.command.operationId := hreceipt.operation.trans hop.symm
  have hmatch := matching_iff hs he hreceipt hp
  rw [AnsweredAgain, haction]
  by_cases hm : isMatchingCommittedOperation e call'.command.commandType payload = true
  · obtain ⟨hsame, hne⟩ := hmatch.mp hm
    obtain ⟨i, hi, hid, hpre⟩ := lookup_matching hs he heo heop hm
    refine iff_of_true ⟨fun _ => ⟨i, hi, hid, ?_⟩, fun h => absurd hsame h⟩ fun h => hne h.2
    exact command_answers hp (fun h => by cases h) hpre
  · have hpre := lookup_conflict hs he heo heop (Bool.eq_false_iff.mpr hm)
    have hanswers : AnswersAt (call'.command.action call'.ctx call'.eventId) s
        (.error (alreadyUsed call'.command.operationId e)) :=
      command_answers hp (fun h => by cases h) hpre
    constructor
    · rintro ⟨hreplay, -⟩ ⟨hsame, -⟩
      obtain ⟨i, -, -, hi⟩ := hreplay hsame
      cases hi.unique hanswers
    · intro h
      have hdiff : call.command.normalized ≠ call'.command.normalized := fun hsame =>
        h ⟨hsame, Classical.not_not.mp fun hne => hm (hmatch.mpr ⟨hsame, hne⟩)⟩
      exact ⟨fun hsame => absurd hsame hdiff, fun _ => ⟨_, hanswers⟩⟩

/-- An applied call leaves its receipt on the incident of its reply, for good. -/
theorem applied_receipt [Sha1] (es : List (Event Request)) {c : Commit Db LockKey Request Reply}
    {call : Call} {result : CommandResult}
    (hc : c ∈ (Machine.run transaction (.idle empty) es).history)
    (hrequest : c.request = .call call) (hreply : c.reply = .ok (some result))
    (houtcome : result.outcome = .applied) :
    ∃ e ∈ (Machine.run transaction (.idle empty) es).committed.events, ReceiptOf call e ∧
    e.incidentId = result.incident.id := by
  have hsound := (holds_run es).commits c hc
  obtain ⟨e, he, hreceipt, -, hid, -⟩ := applied_event hsound hrequest hreply houtcome
  have hx : Extends c.after (Machine.run transaction (.idle empty) es).committed :=
    run_keeps_after transaction Extends.refl (fun _ _ _ => .trans) extends_apply es (.idle empty)
      (fun _ h => absurd h List.not_mem_nil)
      c hc
  exact ⟨e, hx.events.subset he, hreceipt, hid⟩

/-- The retry of a severity change is never answered as promised. -/
theorem severity_retry [Sha1] (es : List (Event Request)) {c : Commit Db LockKey Request Reply}
    {call call' : Call} {result : CommandResult} {payload : Payload}
    (hc : c ∈ (Machine.run transaction (.idle empty) es).history)
    (hrequest : c.request = .call call) (hreply : c.reply = .ok (some result))
    (houtcome : result.outcome = .applied) (hlookup : call'.lookup = false)
    (horg : call'.ctx.organizationId = call.ctx.organizationId)
    (hop : uuidText call'.command.operationId = uuidText call.command.operationId)
    (hvalid : call'.command.canonicalPayload = .ok payload)
    (hsame : call.command.normalized = call'.command.normalized)
    (hseverity : call.command.commandType = .changeIncidentSeverity) :
    ¬AnsweredAgain (Machine.run transaction (.idle empty) es).committed result.incident.id call
      call' := by
  obtain ⟨e, he, hreceipt, hid⟩ := applied_receipt es hc hrequest hreply houtcome
  rw [← hid]
  exact fun h => (answeredAgain_iff (holds_run es).inv he hreceipt hlookup horg hop hvalid).mp h
    ⟨hsame, hseverity⟩

/-- In every run a retry is answered as promised exactly when it is not the
retry of a severity change with its own input. -/
theorem incident_replays_iff [Sha1] (es : List (Event Request))
    (c : Commit Db LockKey Request Reply) (call call' : Call) (result : CommandResult)
    (payload : Payload) (hc : c ∈ (Machine.run transaction (.idle empty) es).history)
    (hrequest : c.request = .call call) (hreply : c.reply = .ok (some result))
    (houtcome : result.outcome = .applied) (hlookup : call'.lookup = false)
    (horg : call'.ctx.organizationId = call.ctx.organizationId)
    (hop : uuidText call'.command.operationId = uuidText call.command.operationId)
    (hvalid : call'.command.canonicalPayload = .ok payload) :
    AnsweredAgain (Machine.run transaction (.idle empty) es).committed result.incident.id call call' ↔
      ¬(call.command.normalized = call'.command.normalized ∧
        call.command.commandType = .changeIncidentSeverity) := by
  obtain ⟨e, he, hreceipt, hid⟩ := applied_receipt es hc hrequest hreply houtcome
  rw [← hid]
  exact answeredAgain_iff (holds_run es).inv he hreceipt hlookup horg hop hvalid

def sampleIncidentId : String := "5d0c4a4e-2b1f-4c3d-8e9f-0a1b2c3d4e01"

def sampleCall (requestId : Nat) (now : Int) (command : IncidentCommand) : Call :=
  { requestId := requestId, ctx := ⟨"org", "proctor", false, now⟩, eventId := s!"event-{requestId}",
    command := command, lookup := false }

def sampleCreate : IncidentCommand :=
  .createExamIncident ⟨"5d0c4a4e-2b1f-4c3d-8e9f-0a1b2c3d4e02", "exam", none, none, .powerFailure,
    none, none, "no power"⟩ sampleIncidentId

def sampleNote : IncidentCommand :=
  .addIncidentNote sampleIncidentId ⟨"5d0c4a4e-2b1f-4c3d-8e9f-0a1b2c3d4e03", "seen"⟩

def sampleSeverity : IncidentCommand :=
  .changeIncidentSeverity sampleIncidentId ⟨"5d0c4a4e-2b1f-4c3d-8e9f-0a1b2c3d4e04", 1, .major,
    none, none⟩

def sampleCommands : List (Event Request) :=
  [.start (.outside (.insertExam ⟨"exam", "org"⟩)),
    .start (.call (sampleCall 1 1000 sampleCreate))] ++ (List.replicate 8 0).map .advance ++
  (List.replicate 8 1).map .advance ++ [.start (.call (sampleCall 2 2000 sampleNote))] ++
    (List.replicate 8 2).map .advance ++
  [.start (.call (sampleCall 3 3000 sampleSeverity))] ++ (List.replicate 8 3).map .advance

def sampleCommandRun : Machine Db Write LockKey EngineError Request Reply :=
  Machine.run (@transaction sampleSha1) (.idle empty) sampleCommands

def sampleIncident (severity : IncidentSeverity) (version : Nat) (updatedAt : Int) : ExamIncident :=
  { id := sampleIncidentId, organizationId := "org", examId := "exam", attemptId := none,
    candidateId := none, type := .powerFailure
    severity := severity, status := .opened, occurredAt := none, description := "no power"
    resolutionSummary := none
    resolvedAt := none, resolvedBy := none, reportedBy := "proctor", version := version
    createdAt := 1000, updatedAt := updatedAt }

def hasCommit (call : Call) (result : CommandResult) : Bool :=
  sampleCommandRun.history.any fun c => c.request = .call call ∧ c.reply = .ok (some result)

theorem commit_of_hasCommit {call : Call} {result : CommandResult} (h : hasCommit call result = true) :
    ∃ c ∈ sampleCommandRun.history, c.request = .call call ∧ c.reply = .ok (some result) := by
  simpa [hasCommit] using h

theorem incident_replays_iff_sample :
    AnsweredAgain sampleCommandRun.committed sampleIncidentId (sampleCall 2 2000 sampleNote)
      (sampleCall 4 9000 sampleNote) := by
  have hcommit : hasCommit (sampleCall 2 2000 sampleNote) ⟨.applied,
    sampleIncident .info 1 1000⟩ = true := by decide +kernel
  obtain ⟨c, hc, hrequest, hreply⟩ := commit_of_hasCommit hcommit
  exact (@incident_replays_iff sampleSha1 sampleCommands c (sampleCall 2 2000 sampleNote)
      (sampleCall 4 9000 sampleNote)
    ⟨.applied, sampleIncident .info 1 1000⟩ [("incidentId", .text sampleIncidentId),
      ("body", .text "seen")] hc hrequest hreply
    rfl rfl rfl rfl (by decide +kernel)).mpr (by decide +kernel)

/-- The severity change was applied, and its retry is a conflict. -/
theorem severity_retry_conflicts :
    ∃ c ∈ sampleCommandRun.history, c.request = .call (sampleCall 3 3000 sampleSeverity) ∧
      c.reply = .ok (some ⟨.applied, sampleIncident .major 2 3000⟩) ∧
      ¬AnsweredAgain sampleCommandRun.committed sampleIncidentId (sampleCall 3 3000 sampleSeverity)
        (sampleCall 4 9000 sampleSeverity) := by
  have hcommit : hasCommit (sampleCall 3 3000 sampleSeverity) ⟨.applied,
    sampleIncident .major 2 3000⟩ = true := by decide +kernel
  obtain ⟨c, hc, hrequest, hreply⟩ := commit_of_hasCommit hcommit
  have hretry := @severity_retry sampleSha1 sampleCommands c (sampleCall 3 3000 sampleSeverity)
    (sampleCall 4 9000 sampleSeverity)
    ⟨.applied, sampleIncident .major 2 3000⟩ _ hc hrequest hreply rfl rfl rfl rfl rfl rfl rfl
  exact ⟨c, hc, hrequest, hreply, hretry⟩

end ExamSystem.Incidents
