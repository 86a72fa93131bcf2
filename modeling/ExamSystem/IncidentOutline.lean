import ExamSystem.IncidentChanges

/-!
# The outline of the incident transactions

Each transaction commits one of the listed changes with the receipt of its
operation, or replays a stored receipt, or writes nothing.
-/

namespace ExamSystem.Incidents

open Tx Interleaving

/-! ## Canonical identifiers -/

theorem hexDigit_toLower (n : Nat) : (hexDigit n).toLower = hexDigit n := by
  by_cases h : n < 16
  · have hall : ∀ k < 16, (hexDigit k).toLower = hexDigit k := by decide
    exact hall n h
  · have hlen : "0123456789abcdef".toList.length ≤ n := by
      rw [show "0123456789abcdef".toList.length = 16 from rfl]
      omega
    unfold hexDigit
    rw [List.getD_eq_getElem?_getD, List.getElem?_eq_none hlen]
    rfl

theorem hex_toLower (bytes : List UInt8) : ∀ c ∈ hex bytes, c.toLower = c := by
  intro c hc
  obtain ⟨b, _, hc⟩ := List.mem_flatMap.mp hc
  simp only [List.mem_cons, List.not_mem_nil, or_false] at hc
  rcases hc with rfl | rfl <;> exact hexDigit_toLower _

@[simp] theorem uuidText_operationId [Sha1] (episodeId : String) :
    uuidText (systemIncidentOperationId episodeId) = systemIncidentOperationId episodeId := by
  unfold systemIncidentOperationId
  apply uuidText_ofList
  intro c hc
  have hdash : '-'.toLower = '-' := rfl
  simp only [List.mem_append, List.mem_cons] at hc
  rcases hc with ((((hc | hc | hc) | hc | hc) | hc | hc) | hc | hc)
  all_goals first
    | exact hc ▸ hdash
    | exact hex_toLower _ c (List.mem_of_mem_take hc)
    | exact hex_toLower _ c (List.mem_of_mem_drop (List.mem_of_mem_take hc))

/-! ## Scope checks -/

section
variable {ctx : CommandContext} {s : Db} {i : ExamIncident}

theorem inScope_of_validate {a : AttemptScopeRow} {attemptId : String} {u : Unit}
    (ho : i.organizationId = ctx.organizationId)
    (ha : s.findAttempt ctx.organizationId attemptId = some a)
    (h : validateScopeQuadruple i a attemptId ctx.organizationId = .ok u) :
    InScope s i attemptId := by
  obtain ⟨hm, hao, hid⟩ := findAttempt_some ha
  simp only [validateScopeQuadruple, bind_eq_ok, require_eq_ok] at h
  obtain ⟨_, _, _, hexam, _, hanchor, hcandidate⟩ := h
  exact ⟨⟨a, hm, hid, hao.trans ho.symm, hexam, hcandidate⟩, hanchor⟩

/-- The check of an action reads one state, and its ledger row may be in a later one. -/
theorem actionInScope_of_check {s' : Db} {lookup : String → Option String}
    {actionType : IncidentActionType} {actionId attemptId : String}
    (ho : i.organizationId = ctx.organizationId) (hx : Extends s s')
    (hlookup : ∀ a, lookup actionId = some a → ∃ x ∈ s'.adjustments, x.id = actionId ∧
      x.organizationId = ctx.organizationId ∧ x.attemptId = a)
    (h : actionScope ctx s lookup i actionType actionId = .ok attemptId)
    (actorId operationId : String) (linkedAt : Int) :
    ActionInScope s' i ⟨ctx.organizationId, i.id, actionType, actionId, attemptId, actorId,
      linkedAt, operationId⟩ := by
  simp only [actionScope, bind_eq_ok, require_eq_ok, orThrow_eq_ok, pure_eq_ok] at h
  obtain ⟨_, _, x, hx', a, ha, _, hv, _, hforce, rfl⟩ := h
  refine ⟨rfl, ho.symm, (inScope_of_validate ho ha hv).extends hx rfl, ?_, ?_⟩
  · intro hg
    replace hg : actionType = .timeGrant := hg
    rw [hg] at hx'
    obtain ⟨y, hm, hid, hyo, hya⟩ := hlookup x ((orThrow_eq_ok _ _ _).mp hx')
    exact ⟨y, hm, hid, hyo.trans ho.symm, hya⟩
  · intro hf
    replace hf : actionType = .forceSubmit := hf
    rw [hf] at hx'
    have hid : actionId = x := (pure_eq_ok _ _).mp hx'
    have hforced := hforce hf
    simp only [Db.wasForceSubmitted, List.any_eq_true, decide_eq_true_eq] at hforced
    obtain ⟨f, hm, hfo, hfa⟩ := hforced
    exact ⟨hid, f, hx.forceSubmits.subset hm, hfo.trans ho.symm, hfa⟩

theorem inScope_of_grant {a : AttemptScopeRow} {attemptId : String} {u : Unit} (hm : a ∈ s.attempts)
    (hid : a.id = attemptId) (ho : a.organizationId = i.organizationId) (h : grantScope i a = .ok u) :
    InScope s i attemptId := by
  simp only [grantScope, bind_eq_ok, require_eq_ok] at h
  obtain ⟨_, hexam, _, hanchor, hcandidate⟩ := h
  exact ⟨⟨a, hm, hid, ho, hexam.symm, hcandidate⟩, fun k hk => (hanchor k hk).trans hid⟩

theorem attemptInScope_of_check {attemptId : String} {u : Unit}
    (ho : i.organizationId = ctx.organizationId) (h : membershipScope ctx s i attemptId = .ok u)
    (relationshipType : IncidentRelationshipType) (linkedBy operationId : String) (linkedAt : Int) :
    AttemptInScope s i ⟨ctx.organizationId, i.id, attemptId, relationshipType, linkedAt, linkedBy,
      operationId⟩ := by
  simp only [membershipScope, bind_eq_ok, require_eq_ok, orThrow_eq_ok] at h
  obtain ⟨_, hnone, a, ha, hv⟩ := h
  exact ⟨rfl, ho.symm, inScope_of_validate ho ha hv, hnone⟩

theorem interruptionInScope_of_check {interruptionId : String} {x : EpisodeRow}
    (ho : i.organizationId = ctx.organizationId)
    (h : interruptionScope ctx s i interruptionId = .ok x) (linkedBy operationId : String)
    (linkedAt : Int) :
    InterruptionInScope s i
      ⟨ctx.organizationId, i.id, x.attemptId, uuidText interruptionId, linkedAt, linkedBy,
        operationId⟩ := by
  simp only [interruptionScope, bind_eq_ok, require_eq_ok, orThrow_eq_ok, pure_eq_ok] at h
  obtain ⟨y, hy, a, ha, _, hv, _, _, rfl⟩ := h
  obtain ⟨hm, hyo, hid⟩ := findEpisode_some hy
  exact ⟨rfl, ho.symm, inScope_of_validate ho ha hv, y, hm, hid, hyo.trans ho.symm, rfl⟩

end

/-! ## What a transaction does -/

-- the goals are taken apart by the rules alone: unfolding one evaluates a command
attribute [local irreducible] Prog.wpe

theorem noWrites {s : Db} : ∀ w ∈ ([] : List Write), w.Outer s := fun _ hw => absurd hw List.not_mem_nil

structure Sane (s : Db) : Prop where
  intact : s.intact = true
  ids : ∀ i ∈ s.incidents, uuidText i.id = i.id
  severities : ∀ e ∈ s.events, e.commandType = .changeIncidentSeverity → e.payload.length = 7

section
variable {held : List LockKey} {s snap : Db}

theorem findById_incident (hs : Sane s) {e : ExamIncidentEvent} (he : e ∈ s.events) :
    ∃ i, s.findById e.organizationId e.incidentId = some i ∧ i.id = e.incidentId := by
  have href := (intact_references hs.intact).events e he
  simp only [Db.hasIncident, List.any_eq_true, decide_eq_true_eq] at href
  obtain ⟨i, hi, ho, hid⟩ := href
  have hcanonical : uuidText e.incidentId = e.incidentId := hid ▸ hs.ids i hi
  cases hf : s.findById e.organizationId e.incidentId with
  | none =>
    unfold Db.findById at hf
    rw [List.find?_eq_none] at hf
    exact absurd (hf i hi) (by simp [ho, hid, hcanonical])
  | some j => exact ⟨j, rfl, (findById_some hf).2.2.trans hcanonical⟩

theorem replayOf_some {organizationId operationId : String} {commandType : CommandType}
    {payload : Payload} {missing : EngineError} {result : CommandResult} (hs : Sane s)
    (h : replayOf s organizationId operationId commandType payload missing = .ok (some result)) :
    result.outcome = .idempotentReplayed ∧ ∃ e ∈ s.events, e.organizationId = organizationId ∧
      e.operationId = uuidText operationId ∧
      e.commandType = commandType ∧ payloadsEqual e.payload payload = true ∧
      e.incidentId = result.incident.id := by
  unfold replayOf at h
  cases hf : s.findEventByOperationId organizationId operationId with
  | none => rw [hf] at h; cases h
  | some e =>
    rw [hf] at h
    dsimp only at h
    obtain ⟨he, ho, hop⟩ := findEvent_some hf
    by_cases hm : isMatchingCommittedOperation e commandType payload = true
    · simp only [hm, if_true, bind_eq_ok, orThrow_eq_ok, pure_eq_ok, Option.some.injEq] at h
      obtain ⟨i, hi, rfl⟩ := h
      simp only [isMatchingCommittedOperation, decide_eq_true_eq] at hm
      obtain ⟨j, hj, hid⟩ := findById_incident hs he
      rw [ho, hi] at hj
      cases hj
      exact ⟨rfl, e, he, ho, hop, hm.1, hm.2, hid.symm⟩
    · rw [if_neg hm] at h
      cases h

theorem replayOf_none {organizationId operationId : String} {commandType : CommandType}
    {payload : Payload} {missing : EngineError}
    (h : replayOf s organizationId operationId commandType payload missing = .ok none) :
    s.findEventByOperationId organizationId operationId = none := by
  unfold replayOf at h
  cases hf : s.findEventByOperationId organizationId operationId with
  | none => rfl
  | some e =>
    rw [hf] at h
    dsimp only at h
    split at h
    · simp only [bind_eq_ok, pure_eq_ok] at h
      obtain ⟨_, _, h⟩ := h
      cases h
    · cases h

theorem Grows.drop {K : List LockKey} {s s' : Db} (h : Grows (K ++ held) s s') : Grows held s s' :=
  h.less fun _ hk => List.mem_append_right _ hk

end

/-- A transaction commits a change whose event is its receipt, or it replays a
stored receipt. What is known of the event of a change, `applied` says. -/
def Did [Sha1] (receipt applied : ExamIncidentEvent → Prop) (reply : Option CommandResult)
    (log : List Write) (s : Db) : Prop :=
  ∃ o, Change s o log ∧ (∀ e ∈ o, receipt e ∧ applied e) ∧ ∀ result, reply = some result →
    (∃ e, o = some e ∧ e.incidentId = result.incident.id ∧ result.outcome = .applied) ∨
      (o = none ∧ result.outcome = .idempotentReplayed ∧ ∃ e ∈ s.events, receipt e ∧
        e.incidentId = result.incident.id)

section
variable [Sha1] {receipt applied : ExamIncidentEvent → Prop} {held : List LockKey}
    {log : List Write} {s : Db}

abbrev Does (receipt applied : ExamIncidentEvent → Prop) (p : Action (Option CommandResult))
    (held : List LockKey) (log : List Write) (s : Db) : Prop :=
  p.wpe Grows Sane (fun reply _ log s => Did receipt applied reply log s) (fun _ _ => True) held log s

theorem did_change {e : ExamIncidentEvent} {result : CommandResult} (hc : Change s (some e) log)
    (hr : receipt e) (ha : applied e) (hid : e.incidentId = result.incident.id)
    (ho : result.outcome = .applied) : Did receipt applied (some result) log s := by
  refine ⟨some e, hc, fun e' he' => ?_, fun result' hr' => ?_⟩
  · cases he'
    exact ⟨hr, ha⟩
  · cases hr'
    exact .inl ⟨e, rfl, hid, ho⟩

/-- The step that every command makes first: a receipt of the operation is replayed. -/
theorem does_replay {snap : Db} {organizationId operationId : String} {commandType : CommandType}
    {payload : Payload} {missing : EngineError}
    {f : Option CommandResult → Action (Option CommandResult)} (hs : Sane snap)
    (hx : Extends snap s) (hlog : ∀ w ∈ log, w.Outer s)
    (hreplay : ∀ result, f (some result) = .done (some result))
    (hreceipt : ∀ e ∈ snap.events, e.organizationId = organizationId →
      e.operationId = uuidText operationId → e.commandType = commandType →
      payloadsEqual e.payload payload = true → receipt e)
    (hfresh : snap.findEventByOperationId organizationId operationId = none →
      Does receipt applied (f none) held log s) :
    Does receipt applied
      (Prog.ofExcept (replayOf snap organizationId operationId commandType payload missing) >>= f)
      held log s := by
  refine wpe_ofExcept ?_ fun _ _ _ _ => trivial
  intro o ho
  cases o with
  | none => exact hfresh (replayOf_none ho)
  | some result =>
    rw [hreplay]
    refine wpe_done fun s' hg _ => ?_
    obtain ⟨hout, e, he, heo, heop, het, hep, hid⟩ := replayOf_some hs ho
    refine ⟨none, .outside rfl fun w hw => (hlog w hw).extends hg.grown,
      fun _ h => absurd h (Option.not_mem_none _), fun result' hr => ?_⟩
    cases hr
    exact .inr ⟨rfl, hout, e, (hx.trans hg.grown).events.subset he, hreceipt e he heo heop het hep, hid⟩

/-! ### The commands -/

section
variable {ctx : CommandContext} {eventId : String}

omit [Sha1] in
theorem anchor_inScope {input : CreateIncidentInput} {anchor : Option String × Option String}
    {freshId description : String} (h : resolveAnchor ctx s input = .ok anchor) :
    ∀ a ∈ (newIncident ctx input freshId anchor description).attemptId,
    InScope s (newIncident ctx input freshId anchor description) a := by
  unfold resolveAnchor at h
  cases hi : input.attemptId with
  | none =>
    rw [hi] at h
    have hnone : anchor.1 = none := by
      dsimp only at h
      split at h
      · simp only [bind_eq_ok, pure_eq_ok] at h
        obtain ⟨_, _, rfl⟩ := h
        rfl
      · rw [← (pure_eq_ok _ _).mp h]
    intro a ha
    rw [show (newIncident ctx input freshId anchor description).attemptId = anchor.1 from rfl,
      hnone] at ha
    cases ha
  | some attemptId =>
    rw [hi] at h
    simp only [bind_eq_ok, require_eq_ok, orThrow_eq_ok, pure_eq_ok] at h
    obtain ⟨x, hx, _, hexam, _, hcandidate, rfl⟩ := h
    obtain ⟨hm, hxo, hid⟩ := findAttempt_some hx
    intro a ha
    cases ha
    exact ⟨⟨x, hm, hid, hxo, hexam, fun c hc => hc⟩, fun b hb => (Option.some.inj hb).symm⟩

theorem create_does {input : CreateIncidentInput} {freshId : String}
    (hreceipt : ∀ payload e, createPayload input = .ok payload →
      e.organizationId = ctx.organizationId → e.operationId = uuidText input.operationId →
      e.commandType = .createExamIncident → payloadsEqual e.payload payload = true → receipt e)
    (happlied : ∀ e, e.eventType = .incidentCreated → applied e) :
    Does receipt applied (createExamIncident ctx eventId input freshId) [] [] s := by
  unfold createExamIncident preReadOperationId audit appendEvent
  refine wpe_ofExcept ?_ fun _ _ _ _ => trivial
  intro payload hp
  refine wpe_snapshot fun snap _ hsnap => ?_
  refine does_replay hsnap (.refl snap) noWrites (fun _ => rfl)
    (fun e _ ho hop ht hpe => hreceipt payload e hp ho hop ht hpe) fun _ => ?_
  refine wpe_ofExcept (fun _ _ => ?_) fun _ _ _ _ => trivial
  refine wpe_ofExcept (fun anchor hanchor => ?_) fun _ _ _ _ => trivial
  refine wpe_write fun s₁ h₁ _ => ?_
  refine wpe_insert (fun s₂ h₂ _ _ => ?_) fun _ _ _ _ _ => trivial
  refine wpe_write fun s₃ h₃ _ => ?_
  refine wpe_done fun s₄ h₄ _ => ?_
  have hx : Extends snap s₄ := ((h₁.grown.trans h₂.grown).trans h₃.grown).trans h₄.grown
  obtain ⟨description, hd, rfl⟩ : ∃ description,
      normalizeRequiredString input.description "description" 1000 = .ok description ∧ _ := by
    simpa only [createPayload, bind_eq_ok, pure_eq_ok] using hp
  refine did_change (.create _ _ _ rfl rfl ?_ rfl)
    (hreceipt _ _ hp rfl rfl rfl (payloadsEqual_refl _)) (happlied _ rfl) rfl rfl
  exact
    { id := uuidText_uuidText freshId
      incident := rfl
      organization := rfl
      eventType := rfl
      version := ⟨rfl, rfl, rfl⟩
      replay := rfl
      anchor := fun a ha => (anchor_inScope hanchor a ha).extends hx rfl }

omit [Sha1] in
/-- The event of a command that leaves its incident as it is. -/
theorem passive_later {snap : Db} {incidentId : String} {i : ExamIncident}
    (hi : snap.findById ctx.organizationId incidentId = some i) (hx : Extends snap s)
    (e : ExamIncidentEvent) (hid : e.incidentId = i.id) (ho : e.organizationId = ctx.organizationId)
    (ht : e.eventType.bumps = false) (hc : e.eventType ≠ .incidentCreated) :
    ∃ i', Passive s i' e ∧ i'.id = i.id ∧ i'.anchor = i.anchor := by
  obtain ⟨hm, hio, _⟩ := findById_some hi
  obtain ⟨i', hm', hid', ha⟩ := hx.incidents i hm
  exact ⟨i', ⟨hm', hid.trans hid'.symm, ho.trans (hio.symm.trans (anchor_eq ha).1.symm), ht, hc⟩,
    hid', ha⟩

theorem note_does {incidentId : String} {input : AddNoteInput}
    (hreceipt : ∀ payload e, notePayload incidentId input = .ok payload →
      e.organizationId = ctx.organizationId → e.operationId = uuidText input.operationId →
      e.commandType = .addIncidentNote → payloadsEqual e.payload payload = true → receipt e)
    (happlied : ∀ e, e.eventType.bumps = false → applied e) :
    Does receipt applied (addIncidentNote ctx eventId incidentId input) [] [] s := by
  unfold addIncidentNote preReadOperationId audit appendEvent
  refine wpe_ofExcept ?_ fun _ _ _ _ => trivial
  intro payload hp
  refine wpe_snapshot fun snap _ hsnap => ?_
  refine does_replay hsnap (.refl snap) noWrites (fun _ => rfl)
    (fun e _ ho hop ht hpe => hreceipt payload e hp ho hop ht hpe) fun _ => ?_
  refine wpe_ofExcept (fun i hi => ?_) fun _ _ _ _ => trivial
  refine wpe_insert (fun s₁ h₁ _ _ => ?_) fun _ _ _ _ _ => trivial
  refine wpe_write fun s₂ h₂ _ => ?_
  refine wpe_done fun s₃ h₃ _ => ?_
  have hx : Extends snap s₃ := (h₁.grown.trans h₂.grown).trans h₃.grown
  obtain ⟨i', hpassive, _⟩ := passive_later ((orThrow_eq_ok _ _ _).mp hi) hx
    (newEvent ctx eventId i.id .noteAdded .addIncidentNote input.operationId i.version i.version
        payload) rfl rfl rfl nofun
  exact did_change (.note i' _ _ rfl rfl hpassive rfl)
    (hreceipt _ _ hp rfl rfl rfl (payloadsEqual_refl _)) (happlied _ rfl) rfl rfl

theorem linkActionFrom_does {snap : Db} {lookup : String → Option String} {incidentId : String}
    {input : LinkActionInput} {outer : List Write} (hs : Sane snap) (hx : Extends snap s)
    (houter : ∀ w ∈ outer, w.Outer s)
    (hlookup : ∀ t, Extends snap t → ∀ a, lookup input.actionId = some a →
      ∃ x ∈ (applyAll t outer).adjustments, x.id = input.actionId ∧
      x.organizationId = ctx.organizationId ∧ x.attemptId = a)
    (hreceipt : ∀ e, e.organizationId = ctx.organizationId →
      e.operationId = uuidText input.operationId → e.commandType = .linkIncidentAction →
      payloadsEqual e.payload (linkActionPayload incidentId input.actionType input.actionId) =
        true → receipt e) (happlied : ∀ e, e.eventType.bumps = false → applied e) :
    Does receipt applied (linkIncidentActionFrom ctx eventId snap lookup incidentId input) held
      outer s := by
  unfold linkIncidentActionFrom preReadOperationId audit appendEvent insertActionLink
  refine does_replay hs hx houter (fun _ => rfl) (fun e _ ho hop ht hpe => hreceipt e ho hop ht hpe)
    fun _ => ?_
  refine wpe_ofExcept (fun i hi => ?_) fun _ _ _ _ => trivial
  refine wpe_ofExcept (fun attemptId hscope => ?_) fun _ _ _ _ => trivial
  refine wpe_insert (fun s₁ h₁ _ _ => ?_) fun _ _ _ _ _ => trivial
  refine wpe_insert (fun s₂ h₂ _ _ => ?_) fun _ _ _ _ _ => trivial
  refine wpe_write fun s₃ h₃ _ => ?_
  refine wpe_done fun s₄ h₄ _ => ?_
  have hgrown : Extends s s₄ := ((h₁.grown.trans h₂.grown).trans h₃.grown).trans h₄.grown
  have houter : ∀ w ∈ outer, w.Outer s₄ := fun w hw => (houter w hw).extends hgrown
  have hx : Extends snap s₄ := hx.trans hgrown
  have hi := (orThrow_eq_ok _ _ _).mp hi
  obtain ⟨i', hpassive, hid, ha⟩ :=
    passive_later hi hx (newEvent ctx eventId i.id .actionLinked .linkIncidentAction input.operationId
    i.version i.version (linkActionPayload incidentId input.actionType input.actionId)) rfl
      rfl rfl nofun
  have hlink := actionInScope_of_check (findById_some hi).2.1 (hx.trans (extends_applyAll s₄ outer))
    (hlookup s₄ hx) hscope ctx.actorId
    (uuidText input.operationId) ctx.now
  simp only [List.append_assoc, List.cons_append, List.nil_append]
  exact did_change (.linkAction outer i' _ _ _ rfl rfl houter hpassive rfl
      (hlink.extends (.refl _) hid ha))
    (hreceipt _ rfl rfl rfl (payloadsEqual_refl _)) (happlied _ rfl) rfl rfl

theorem linkAction_does {incidentId : String} {input : LinkActionInput}
    (hreceipt : ∀ e, e.organizationId = ctx.organizationId →
      e.operationId = uuidText input.operationId → e.commandType = .linkIncidentAction →
      payloadsEqual e.payload (linkActionPayload incidentId input.actionType input.actionId) =
        true → receipt e) (happlied : ∀ e, e.eventType.bumps = false → applied e) :
    Does receipt applied (linkIncidentAction ctx eventId incidentId input) [] [] s := by
  unfold linkIncidentAction
  refine wpe_snapshot fun snap _ hsnap => ?_
  refine linkActionFrom_does hsnap (.refl snap) noWrites ?_ hreceipt happlied
  intro t ht a ha
  obtain ⟨x, hx, rfl⟩ := Option.map_eq_some_iff.mp ha
  obtain ⟨hm, ho, hid⟩ := findAdjustment_some hx
  exact ⟨x, ht.adjustments.subset hm, hid, ho, rfl⟩

/-- A grant: its ledger row is stored, or among the writes. -/
theorem grant_does {operationId attemptId incidentId freshId : String}
    (hreceipt : ∀ e, e.organizationId = ctx.organizationId → e.operationId = uuidText operationId →
      e.commandType = .linkIncidentAction → receipt e)
    (happlied : ∀ e, e.eventType.bumps = false → applied e) :
    Does receipt applied (grantAndLink ctx eventId operationId attemptId incidentId freshId)
      [] [] s := by
  unfold grantAndLink
  refine wpe_snapshot fun snap _ hsnap => ?_
  have hreceipt' : ∀ {e : ExamIncidentEvent} {payload : Payload},
      e.organizationId = ctx.organizationId →
      e.operationId = uuidText operationId → e.commandType = .linkIncidentAction →
      payloadsEqual e.payload payload = true → receipt e :=
    fun ho hop ht _ => hreceipt _ ho hop ht
  refine wpe_ofExcept (fun attempt hattempt => ?_) fun _ _ _ _ => trivial
  obtain ⟨hm, hao, hid⟩ := findAttempt_some ((orThrow_eq_ok _ _ _).mp hattempt)
  rw [applyAll_nil]
  cases hf : snap.findAdjustmentByOperationId ctx.organizationId operationId with
  | some existing =>
    refine wpe_ofExcept (fun _ hsame => ?_) fun _ _ _ _ => trivial
    obtain ⟨hat, -⟩ := (require_eq_ok _ _ _).mp hsame
    refine linkActionFrom_does hsnap (.refl snap) noWrites ?_ (fun _ => hreceipt') happlied
    intro t ht a ha
    have ho : existing.organizationId = ctx.organizationId := by
      have hkey := List.find?_some hf
      simp only [decide_eq_true_eq] at hkey
      exact hkey.1
    exact ⟨existing, ht.adjustments.subset (List.mem_of_find?_eq_some hf), rfl, ho,
      hat.trans (Option.some.inj ha)⟩
  | none =>
    refine wpe_ofExcept (fun incident hincident => ?_) fun _ _ _ _ => trivial
    refine wpe_ofExcept (fun _ hscope => ?_) fun _ _ _ _ => trivial
    refine wpe_write fun s₁ h₁ _ => ?_
    obtain ⟨hi, hio, hiid⟩ := findById_some ((orThrow_eq_ok _ _ _).mp hincident)
    refine linkActionFrom_does hsnap h₁.grown ?_ ?_ (fun _ => hreceipt') happlied
    · intro w hw
      rw [List.mem_singleton.mp hw]
      refine Attributed.extends (fun k hk => ⟨incident, hi, hiid.trans (Option.some.inj hk), hio,
          ?_⟩) h₁.grown
      exact inScope_of_grant hm hid (hao.trans hio.symm) hscope
    · intro t _ a ha
      exact ⟨_, List.mem_append_right _ List.mem_cons_self, rfl, rfl, Option.some.inj ha⟩

theorem linkAttempt_does {incidentId : String} {input : LinkAttemptInput}
    (hreceipt : ∀ e, e.organizationId = ctx.organizationId →
      e.operationId = uuidText input.operationId → e.commandType = .linkIncidentAttempt →
      payloadsEqual e.payload (linkAttemptPayload incidentId input) = true → receipt e)
    (happlied : ∀ e, e.eventType.bumps = false → applied e) :
    Does receipt applied (linkIncidentAttempt ctx eventId incidentId input) [] [] s := by
  unfold linkIncidentAttempt preReadOperationId audit appendEvent insertAttemptMembership
  refine wpe_snapshot fun snap _ hsnap => ?_
  refine does_replay hsnap (.refl snap) noWrites (fun _ => rfl)
    (fun e _ ho hop ht hpe => hreceipt e ho hop ht hpe) fun _ => ?_
  refine wpe_ofExcept (fun i hi => ?_) fun _ _ _ _ => trivial
  refine wpe_ofExcept (fun _ hscope => ?_) fun _ _ _ _ => trivial
  refine wpe_insert (fun s₁ h₁ _ _ => ?_) fun _ _ _ _ _ => trivial
  refine wpe_insert (fun s₂ h₂ _ _ => ?_) fun _ _ _ _ _ => trivial
  refine wpe_write fun s₃ h₃ _ => ?_
  refine wpe_done fun s₄ h₄ _ => ?_
  have hx : Extends snap s₄ := ((h₁.grown.trans h₂.grown).trans h₃.grown).trans h₄.grown
  have hi := (orThrow_eq_ok _ _ _).mp hi
  obtain ⟨i', hpassive, hid, ha⟩ :=
    passive_later hi hx
      (newEvent ctx eventId i.id .attemptLinked .linkIncidentAttempt input.operationId
    i.version i.version (linkAttemptPayload incidentId input)) rfl rfl rfl nofun
  have hlink := attemptInScope_of_check (findById_some hi).2.1 hscope input.relationshipType
    ctx.actorId (uuidText input.operationId) ctx.now
  exact did_change (.linkAttempt i' _ _ _ rfl rfl hpassive rfl (hlink.extends hx hid ha))
    (hreceipt _ rfl rfl rfl (payloadsEqual_refl _))
    (happlied _ rfl) rfl rfl

theorem linkInterruption_does {incidentId : String} {input : LinkInterruptionInput}
    (hreceipt : ∀ e, e.organizationId = ctx.organizationId →
      e.operationId = uuidText input.operationId → e.commandType = .linkIncidentInterruption →
      payloadsEqual e.payload (linkInterruptionPayload incidentId input) = true → receipt e)
    (happlied : ∀ e, e.eventType.bumps = false → applied e) :
    Does receipt applied (linkIncidentInterruption ctx eventId incidentId input) [] [] s := by
  unfold linkIncidentInterruption preReadOperationId audit appendEvent insertInterruptionLink
  refine wpe_snapshot fun snap _ hsnap => ?_
  refine does_replay hsnap (.refl snap) noWrites (fun _ => rfl)
    (fun e _ ho hop ht hpe => hreceipt e ho hop ht hpe) fun _ => ?_
  refine wpe_ofExcept (fun i hi => ?_) fun _ _ _ _ => trivial
  refine wpe_ofExcept (fun episode hscope => ?_) fun _ _ _ _ => trivial
  refine wpe_insert (fun s₁ h₁ _ _ => ?_) fun _ _ _ _ _ => trivial
  refine wpe_insert (fun s₂ h₂ _ _ => ?_) fun _ _ _ _ _ => trivial
  refine wpe_write fun s₃ h₃ _ => ?_
  refine wpe_done fun s₄ h₄ _ => ?_
  have hx : Extends snap s₄ := ((h₁.grown.trans h₂.grown).trans h₃.grown).trans h₄.grown
  have hi := (orThrow_eq_ok _ _ _).mp hi
  obtain ⟨i', hpassive, hid, ha⟩ :=
    passive_later hi hx (newEvent ctx eventId i.id .interruptionLinked .linkIncidentInterruption
    input.operationId i.version i.version (linkInterruptionPayload incidentId input)) rfl rfl rfl nofun
  have hlink := interruptionInScope_of_check (findById_some hi).2.1 hscope ctx.actorId
    (uuidText input.operationId) ctx.now
  exact did_change (.linkInterruption i' _ _ _ rfl rfl hpassive rfl (hlink.extends hx hid ha) rfl)
    (hreceipt _ rfl rfl rfl (payloadsEqual_refl _)) (happlied _ rfl) rfl rfl

/-! ### The version-bumping commands -/

def bumpEvent (ctx : CommandContext) (eventId incidentId operationId : String)
    (expectedVersion : Nat) (deps : VersionBump) (i : ExamIncident) : ExamIncidentEvent :=
  newEvent ctx eventId i.id deps.eventType deps.commandType operationId i.version (i.version + 1)
    (spread (versionBumpPayload incidentId expectedVersion deps.bodyFields)
      (deps.eventPayload i (i.update (deps.updateFields (i.version + 1) ctx.now))))

structure BumpSound (ctx : CommandContext) (eventId incidentId operationId : String)
    (expectedVersion : Nat) (deps : VersionBump) : Prop where
  eventType : deps.eventType.bumps = true
  version : ∀ n t, (deps.updateFields n t).version = n
  notSystem : deps.commandType ≠ .createSystemIncidentFromHeartbeatEpisode
  severity : ∀ i, deps.commandType = .changeIncidentSeverity →
    (bumpEvent ctx eventId incidentId operationId expectedVersion deps i).payload.length = 7
  replay : ∀ i : ExamIncident, replayEvent i.replayed
    (bumpEvent ctx eventId incidentId operationId expectedVersion deps i) =
    (i.update (deps.updateFields (i.version + 1) ctx.now)).replayed

omit [Sha1] in
theorem locked_stored {snap t : Db} {incidentId : String} {i : ExamIncident}
    (hi : snap.findById ctx.organizationId incidentId = some i)
    (hsame : t.findById ctx.organizationId incidentId = snap.findById ctx.organizationId incidentId)
    (ht : Sane t) (hrow : s.row i.id = t.row i.id) : i ∈ s.incidents := by
  have hrow' : t.row i.id = some i :=
    row_of_mem (intact_keys ht.intact) (findById_some (hsame.trans hi)).1
  exact List.mem_of_find?_eq_some (hrow.trans hrow')

theorem versionBump_does {incidentId operationId : String} {expectedVersion : Nat}
    {deps : VersionBump}
    (hsound : BumpSound ctx eventId incidentId operationId expectedVersion deps)
    (hreceipt : ∀ snap e, Sane snap → e ∈ snap.events → e.organizationId = ctx.organizationId →
      e.operationId = uuidText operationId → e.commandType = deps.commandType →
      payloadsEqual e.payload (versionBumpPayload incidentId expectedVersion deps.bodyFields) =
        true → receipt e) (hfresh : ∀ i : ExamIncident, i.id = uuidText incidentId →
      i.version = expectedVersion →
      receipt (bumpEvent ctx eventId incidentId operationId expectedVersion deps i) ∧
      applied (bumpEvent ctx eventId incidentId operationId expectedVersion deps i)) :
    Does receipt applied
      (versionBumpCommand ctx eventId incidentId operationId expectedVersion deps) [] [] s := by
  unfold versionBumpCommand preReadOperationId audit appendEvent
  refine wpe_snapshot fun snap _ hsnap => ?_
  refine does_replay hsnap (.refl snap) noWrites (fun _ => rfl)
    (fun e he ho hop ht hpe => hreceipt snap e hsnap he ho hop ht hpe)
    fun hnone => ?_
  refine wpe_ofExcept (fun i hi => ?_) fun _ _ _ _ => trivial
  have hi := (orThrow_eq_ok _ _ _).mp hi
  refine wpe_hold (fun s₁ _ hs₁ hsame => ?_) fun _ _ => trivial
  refine wpe_ofExcept (fun o ho => ?_) fun _ _ _ _ => trivial
  -- the second look is at the same snapshot, so it finds nothing either
  have hagain : o = none := by
    unfold lockedReplay at ho
    rw [hnone] at ho
    exact ((pure_eq_ok _ _).mp ho).symm
  rw [hagain]
  refine wpe_ofExcept (fun _ hcheck => ?_) fun _ _ _ _ => trivial
  simp only [checkTransition, bind_eq_ok, require_eq_ok] at hcheck
  obtain ⟨_, hversion, _, hstatus, _⟩ := hcheck
  refine wpe_write fun s₂ h₂ _ => ?_
  refine wpe_insert (fun s₃ h₃ _ _ => ?_) fun _ _ _ _ _ => trivial
  refine wpe_write fun s₄ h₄ _ => ?_
  refine wpe_done fun s₅ h₅ _ => ?_
  have hgrows : Grows [.incident i.id] s₁ s₅ :=
    ((h₂.trans h₃.drop).trans h₄.drop.drop).trans h₅.drop.drop.drop
  have hstored : i ∈ s₅.incidents := locked_stored hi hsame hs₁ (hgrows.rows i.id List.mem_cons_self)
  obtain ⟨_, ho, hid⟩ := findById_some hi
  have hbumped : Bumped s₅ i (deps.updateFields (i.version + 1) ctx.now)
      (bumpEvent ctx eventId incidentId operationId expectedVersion deps i) :=
    { stored := hstored
      status := hstatus
      incident := rfl
      organization := ho.symm
      eventType := hsound.eventType
      version := ⟨rfl, rfl, hsound.version _ _⟩
      replay := hsound.replay i }
  obtain ⟨hreceipt', happlied⟩ := hfresh i hid hversion
  rw [← ho]
  exact did_change (.bump i _ _ _ rfl rfl hbumped hsound.notSystem (hsound.severity i)) hreceipt'
    happlied rfl rfl

/-! ### The other transactions -/

omit [Sha1] in
/-- The facts of an episode place it in the scope of the incident made from them. -/
theorem checkFact_scope {episodeId : String} {fact : HeartbeatEpisodeFact}
    (h : checkFact ctx s episodeId = .ok fact) (freshId linkedBy operationId : String)
    (linkedAt : Int) :
    fact.interruptionId = episodeId ∧ InterruptionInScope s (systemIncident ctx fact freshId)
      ⟨ctx.organizationId, uuidText freshId, fact.attemptId, uuidText episodeId, linkedAt, linkedBy,
        operationId⟩ := by
  simp only [checkFact, bind_eq_ok, require_eq_ok, orThrow_eq_ok, pure_eq_ok] at h
  obtain ⟨_, _, x, hx, _, _, _, _, a, ha, rfl⟩ := h
  obtain ⟨hm, hxo, hid⟩ := findEpisode_some hx
  obtain ⟨ham, hao, haid⟩ := findAttempt_some ha
  exact ⟨rfl, rfl, rfl, ⟨⟨a, ham, haid, hao, rfl, fun _ hc => hc⟩,
      fun b hb => (Option.some.inj hb).symm⟩, x, hm, hid, hxo, rfl⟩

theorem delivery_does {episodeId freshId : String} (hcanonical : uuidText episodeId = episodeId)
    (hreceipt : ∀ e, e.organizationId = ctx.organizationId →
      e.operationId = systemIncidentOperationId episodeId →
      e.commandType = .createSystemIncidentFromHeartbeatEpisode → receipt e)
    (happlied : ∀ e, e.eventType = .incidentCreated → applied e) :
    Does receipt applied (createSystemIncidentFromHeartbeatEpisode ctx eventId episodeId freshId)
      [] [] s := by
  unfold createSystemIncidentFromHeartbeatEpisode preReadOperationId audit appendEvent
    insertInterruptionLink
  refine wpe_snapshot fun snap _ hsnap => ?_
  refine wpe_ofExcept (fun fact hfact => ?_) fun _ _ _ _ => trivial
  refine does_replay hsnap (.refl snap) noWrites (fun _ => rfl)
    (fun e _ ho hop ht _ => hreceipt e ho (hop.trans (uuidText_operationId episodeId)) ht) fun _ => ?_
  refine wpe_write fun s₁ h₁ _ => ?_
  refine wpe_insert (fun s₂ h₂ _ _ => ?_) fun _ _ _ _ _ => trivial
  refine wpe_insert (fun s₃ h₃ _ _ => ?_) fun _ _ _ _ _ => trivial
  refine wpe_write fun s₄ h₄ _ => ?_
  refine wpe_done fun s₅ h₅ _ => ?_
  have hx : Extends snap s₅ :=
    (((h₁.grown.trans h₂.grown).trans h₃.grown).trans h₄.grown).trans h₅.grown
  have hlink := (checkFact_scope hfact freshId ctx.actorId
      (uuidText (systemIncidentOperationId episodeId)) ctx.now).2
  have hcreated : Created s₅ (systemIncident ctx fact freshId)
      (newEvent ctx eventId (uuidText freshId) .incidentCreated
      .createSystemIncidentFromHeartbeatEpisode (systemIncidentOperationId episodeId) 0 1
        (deriveSystemIncidentCanonicalPayload fact)) :=
    { id := uuidText_uuidText freshId
      incident := rfl
      organization := rfl
      eventType := rfl
      version := ⟨rfl, rfl, rfl⟩
      replay := rfl
      anchor := fun a ha => Option.some.inj ha ▸ hlink.scope.extends hx rfl }
  refine did_change (.deliver _ _ _ _ rfl rfl hcreated rfl (hlink.extends hx rfl rfl) rfl ?_)
    (hreceipt _ rfl (uuidText_operationId episodeId) rfl) (happlied _ rfl) rfl rfl
  show uuidText (systemIncidentOperationId episodeId) = systemIncidentOperationId (uuidText episodeId)
  rw [hcanonical, uuidText_operationId]

theorem did_nothing (hlog : ∀ w ∈ log, w.Outer s) : Did receipt applied none log s := by
  refine ⟨none, .outside rfl hlog, fun _ h => absurd h (Option.not_mem_none _), ?_⟩
  intro result h
  cases h

/-- The read-only lookup only replays. -/
theorem lookup_does {organizationId operationId : String} {commandType : CommandType}
    {canonicalPayload : Result Payload}
    (hreceipt : ∀ payload snap e, canonicalPayload = .ok payload → Sane snap → e ∈ snap.events →
      e.organizationId = organizationId → e.operationId = uuidText operationId →
      e.commandType = commandType → payloadsEqual e.payload payload = true → receipt e) :
    Does receipt applied
      (resolveCommittedOperation organizationId operationId commandType canonicalPayload)
      [] [] s := by
  have hdone : ∀ x : Result (Option CommandResult),
      (Prog.ofExcept x : Action _) = Prog.ofExcept x >>= fun o => .done o := by
    intro x
    cases x <;> rfl
  unfold resolveCommittedOperation
  refine wpe_ofExcept ?_ fun _ _ _ _ => trivial
  intro payload hp
  refine wpe_snapshot fun snap _ hsnap => ?_
  rw [hdone]
  refine does_replay hsnap (.refl snap) noWrites (fun _ => rfl)
    (fun e he ho hop ht hpe => hreceipt payload snap e hp hsnap he ho hop ht hpe) fun _ => ?_
  exact wpe_done fun _ _ _ => did_nothing noWrites

theorem outside_does (o : Outside) : Does receipt applied o.action [] [] s := by
  cases o with
  | detectInterruption e d =>
    refine wpe_write fun _ _ _ => wpe_write fun _ _ _ => wpe_done fun _ _ _ => did_nothing ?_
    intro w hw
    rcases List.mem_append.mp hw with hw | hw
    · rw [List.mem_singleton.mp hw]; trivial
    · rw [List.mem_singleton.mp hw]; trivial
  | insertAdjustment a =>
    refine wpe_write fun _ _ _ => wpe_done fun _ _ _ => did_nothing ?_
    intro w hw
    rw [List.mem_singleton.mp hw]
    exact fun k hk => absurd hk (Option.not_mem_none k)
  | _ =>
    refine wpe_write fun _ _ _ => wpe_done fun _ _ _ => did_nothing ?_
    intro w hw
    rw [List.mem_singleton.mp hw]
    trivial

end

end

/-! ### The calls -/

attribute [local irreducible] createPayload notePayload normalizeRequiredString

def IncidentCommand.expected : IncidentCommand → Option (String × Nat)
  | startIncidentInvestigation incidentId input => some (uuidText incidentId, input.expectedVersion)
  | changeIncidentSeverity incidentId input => some (uuidText incidentId, input.expectedVersion)
  | resolveExamIncident incidentId input => some (uuidText incidentId, input.expectedVersion)
  | dismissExamIncident incidentId input => some (uuidText incidentId, input.expectedVersion)
  | _ => none

structure ReceiptOf (call : Call) (e : ExamIncidentEvent) : Prop where
  organization : e.organizationId = call.ctx.organizationId
  operation : e.operationId = uuidText call.command.operationId
  command : e.commandType = call.command.commandType
  payload : ∃ payload, call.command.canonicalPayload = .ok payload ∧
    (call.command.commandType ≠ .changeIncidentSeverity → payloadsEqual e.payload payload = true)

/-- The event that a version-bumping call leaves is at the version that it expects. -/
def AppliedBy (call : Call) (e : ExamIncidentEvent) : Prop :=
  ∀ incidentId version, call.command.expected = some (incidentId, version) →
    e.incidentId = incidentId ∧ e.beforeVersion = version ∧ e.eventType.bumps = true

theorem severityPayload_length (incidentId : String) (input : ChangeSeverityInput) :
    (versionBumpPayload incidentId input.expectedVersion (severityFields input)).length = 5 := by
  simp [versionBumpPayload, severityFields, reasonFields, spread, setField]

/-- The stored event of a severity change has more fields than the payload it is compared with. -/
theorem severity_unmatched {s : Db} (hs : Sane s) {e : ExamIncidentEvent} (he : e ∈ s.events)
    (hc : e.commandType = .changeIncidentSeverity) (incidentId : String)
    (input : ChangeSeverityInput) :
    payloadsEqual e.payload (versionBumpPayload incidentId input.expectedVersion
        (severityFields input)) = false := by
  rw [Bool.eq_false_iff]
  intro h
  have hlength := payloadsEqual_length h
  rw [hs.severities e he hc, severityPayload_length] at hlength
  cases hlength

theorem receipt_stored {call : Call} {payload : Payload}
    (hp : call.command.canonicalPayload = .ok payload) {e : ExamIncidentEvent}
    (ho : e.organizationId = call.ctx.organizationId)
    (hop : e.operationId = uuidText call.command.operationId)
    (hc : e.commandType = call.command.commandType) (hpe : payloadsEqual e.payload payload = true) :
    ReceiptOf call e :=
  ⟨ho, hop, hc, payload, hp, fun _ => hpe⟩

theorem investigate_sound (ctx : CommandContext) (eventId incidentId : String)
    (input : StartInvestigationInput) :
    BumpSound ctx eventId incidentId input.operationId input.expectedVersion
      (investigateBump input) where
  eventType := rfl
  version _ _ := rfl
  notSystem := nofun
  severity _ h := nomatch h
  replay _ := rfl

theorem severity_sound (ctx : CommandContext) (eventId incidentId : String)
    (input : ChangeSeverityInput) :
    BumpSound ctx eventId incidentId input.operationId input.expectedVersion (severityBump input) where
  eventType := rfl
  version _ _ := rfl
  notSystem := nofun
  severity _ _ := by
    simp [bumpEvent, newEvent, severityBump, versionBumpPayload, severityFields, reasonFields,
      spread, setField]
  replay _ := by
    simp [bumpEvent, newEvent, severityBump, versionBumpPayload, severityFields, reasonFields,
      spread, setField, replayEvent, ExamIncident.replayed, ExamIncident.update, List.lookup_cons]

theorem resolve_sound (ctx : CommandContext) (eventId incidentId : String)
    (input : ResolveIncidentInput) (resolutionSummary : String) :
    BumpSound ctx eventId incidentId input.operationId input.expectedVersion
      (resolveBump ctx input resolutionSummary) where
  eventType := rfl
  version _ _ := rfl
  notSystem := nofun
  severity _ h := nomatch h
  replay _ := rfl

theorem dismiss_sound (ctx : CommandContext) (eventId incidentId : String)
    (input : DismissIncidentInput) (reasonText : String) :
    BumpSound ctx eventId incidentId input.operationId input.expectedVersion
      (dismissBump ctx input reasonText) where
  eventType := rfl
  version _ _ := rfl
  notSystem := nofun
  severity _ h := nomatch h
  replay _ := rfl

section
variable [Sha1] {s : Db} {call : Call}

/-- A version-bumping call, given what it stores. -/
theorem bump_does {incidentId operationId : String} {expectedVersion : Nat} {deps : VersionBump}
    (hsound : BumpSound call.ctx call.eventId incidentId operationId expectedVersion deps)
    (hop : operationId = call.command.operationId)
    (ht : deps.commandType = call.command.commandType)
    (hexpected : call.command.expected = some (uuidText incidentId, expectedVersion))
    (hp : call.command.canonicalPayload = .ok
        (versionBumpPayload incidentId expectedVersion deps.bodyFields))
    (hstored : call.command.commandType ≠ .changeIncidentSeverity →
      ∀ before after, spread (versionBumpPayload incidentId expectedVersion deps.bodyFields)
        (deps.eventPayload before after) = versionBumpPayload incidentId expectedVersion
        deps.bodyFields) :
    Does (ReceiptOf call) (AppliedBy call)
      (versionBumpCommand call.ctx call.eventId incidentId operationId expectedVersion deps)
      [] [] s := by
  refine versionBump_does hsound ?_ ?_
  · intro snap e _ _ ho hop' hc hpe
    exact receipt_stored hp ho (hop ▸ hop') (hc.trans ht) hpe
  · intro i hid hv
    refine ⟨⟨rfl, by rw [← hop]; rfl, ht, _, hp, fun hne => ?_⟩, ?_⟩
    · show payloadsEqual (spread _ _) _ = true
      rw [hstored hne]
      exact payloadsEqual_refl _
    · intro incidentId' version' h
      rw [hexpected] at h
      cases h
      exact ⟨hid, hv, hsound.eventType⟩

/-- The command of a call, with the receipts of its operation. -/
theorem command_does (requestId : Nat) (ctx : CommandContext) (eventId : String) (lookup : Bool)
    (command : IncidentCommand) :
    Does (ReceiptOf ⟨requestId, ctx, eventId, command, lookup⟩) (AppliedBy ⟨requestId, ctx, eventId,
        command, lookup⟩)
      (command.action ctx eventId) [] [] s := by
  cases command with
  | createExamIncident input freshId =>
    refine create_does (fun payload e hp ho hop hc hpe => ⟨ho, hop, hc, payload, hp, fun _ => hpe⟩) ?_
    intro e _ incidentId version h
    cases h
  | startIncidentInvestigation incidentId input =>
    refine bump_does (investigate_sound ctx eventId incidentId input) rfl rfl rfl rfl fun _ _ _ => ?_
    simp [investigateBump, investigateFields, versionBumpPayload, reasonFields, spread, setField]
  | addIncidentNote incidentId input =>
    refine note_does (fun payload e hp ho hop hc hpe => ⟨ho, hop, hc, payload, hp, fun _ => hpe⟩) ?_
    intro e _ incidentId version h
    cases h
  | changeIncidentSeverity incidentId input =>
    exact bump_does (severity_sound ctx eventId incidentId input) rfl rfl rfl rfl fun h => absurd rfl h
  | resolveExamIncident incidentId input =>
    refine wpe_ofExcept (fun resolutionSummary hsummary => ?_) fun _ _ _ _ => trivial
    refine bump_does (resolve_sound ctx eventId incidentId input resolutionSummary) rfl rfl rfl ?_
      fun _ _ _ => ?_
    · show (normalizeRequiredString _ _ _ >>= _) = _
      rw [hsummary]
      rfl
    · simp [resolveBump, resolveFields, versionBumpPayload, spread, setField]
  | dismissExamIncident incidentId input =>
    refine wpe_ofExcept (fun reasonText htext => ?_) fun _ _ _ _ => trivial
    refine bump_does (dismiss_sound ctx eventId incidentId input reasonText) rfl rfl rfl ?_
      fun _ _ _ => ?_
    · show (normalizeRequiredString _ _ _ >>= _) = _
      rw [htext]
      rfl
    · simp [dismissBump, dismissFields, versionBumpPayload, spread, setField]
  | linkIncidentAction incidentId input =>
    refine linkAction_does (fun e ho hop hc hpe => receipt_stored rfl ho hop hc hpe) ?_
    intro e _ incidentId version h
    cases h
  | linkIncidentAttempt incidentId input =>
    refine linkAttempt_does (fun e ho hop hc hpe => receipt_stored rfl ho hop hc hpe) ?_
    intro e _ incidentId version h
    cases h
  | linkIncidentInterruption incidentId input =>
    refine linkInterruption_does (fun e ho hop hc hpe => receipt_stored rfl ho hop hc hpe) ?_
    intro e _ incidentId version h
    cases h

theorem call_does (call : Call) : Does (ReceiptOf call) (AppliedBy call) call.action [] [] s := by
  unfold Call.action
  split
  · exact lookup_does fun payload _ e hp _ _ ho hop hc hpe => receipt_stored hp ho hop hc hpe
  · exact command_does call.requestId call.ctx call.eventId call.lookup call.command

/-! ## Every run -/

def Request.Receipt (r : Request) (e : ExamIncidentEvent) : Prop :=
  match r with
  | .call c => ReceiptOf c e
  | .delivery d => e.organizationId = d.ctx.organizationId ∧
      e.operationId = systemIncidentOperationId d.episodeId ∧
      e.commandType = .createSystemIncidentFromHeartbeatEpisode
  | .grant _ ctx _ operationId _ _ _ => e.organizationId = ctx.organizationId ∧
      e.operationId = uuidText operationId ∧ e.commandType = .linkIncidentAction
  | .outside _ => False

def Request.Applied (r : Request) (e : ExamIncidentEvent) : Prop :=
  match r with
  | .call c => AppliedBy c e
  | _ => True

theorem request_does (r : Request) : Does r.Receipt r.Applied r.action [] [] s := by
  cases r with
  | call c => exact call_does c
  | delivery d =>
    unfold Request.action Delivery.action
    dsimp only
    split
    · exact lookup_does fun _ _ e _ _ _ ho hop hc _ => ⟨ho, hop.trans (uuidText_operationId _), hc⟩
    · exact delivery_does (uuidText_uuidText _) (fun e ho hop hc => ⟨ho, hop, hc⟩) fun _ _ => trivial
  | grant requestId ctx eventId operationId attemptId incidentId freshId =>
    exact grant_does (fun e ho hop hc => ⟨ho, hop, hc⟩) fun _ _ => trivial
  | outside o => exact outside_does o

def Committed (r : Request) (reply : Reply) (log : List Write) (s : Db) : Prop :=
  match reply with
  | .ok reply => Did r.Receipt r.Applied reply log s
  | .error _ => log = []

theorem transaction_does (r : Request) (s : Db) :
    (transaction r).wp Grows Sane (fun reply _ log s => Committed r reply log s) [] [] s := by
  refine wp_mono ?_ (wp_settle (fun _ _ _ _ => .trans) (fun _ _ _ _ hk h => h.less hk)
      (fun _ _ _ _ _ _ h => h) (request_does r))
  intro reply held log s _ h
  cases reply with
  | ok reply => exact h
  | error e => exact h.1

theorem committed_change {r : Request} {reply : Reply} {log : List Write}
    (h : Committed r reply log s) :
    ∃ o, Change s o log ∧ ∀ e ∈ o, r.Receipt e ∧ r.Applied e := by
  cases reply with
  | ok reply =>
    obtain ⟨o, hc, ho, _⟩ := h
    exact ⟨o, hc, ho⟩
  | error e =>
    have hlog : log = [] := h
    exact ⟨none, hlog ▸ .nothing s, fun _ h => absurd h (Option.not_mem_none _)⟩

theorem change_sane {o : Option ExamIncidentEvent} {log : List Write} (hs : Sane s) (h : Change s o log)
    (hintact : (applyAll s log).intact = true) : Sane (applyAll s log) := by
  refine ⟨hintact, ?_, ?_⟩
  · intro j hj
    rcases change_incidents h with ⟨hi, _⟩ | ⟨i, e, _, hcreated, hi⟩ | ⟨i, u, e, _, _, hi⟩
    · exact hs.ids j (hi ▸ hj)
    · rw [hi] at hj
      rcases List.mem_append.mp hj with hj | hj
      · exact hs.ids j hj
      · rw [List.mem_singleton.mp hj]
        exact hcreated.id
    · rw [hi] at hj
      obtain ⟨k, hk, rfl⟩ := List.mem_map.mp hj
      split
      · exact hs.ids k hk
      · exact hs.ids k hk
  · intro e he hc
    rw [change_events h] at he
    rcases List.mem_append.mp he with he | he
    · exact hs.severities e he hc
    · exact change_severity h e (Option.mem_toList.mp he) hc

def outline : Outline transaction fun _ => True where
  Inv := Sane
  Rely := Grows
  Post r reply _ log s := Committed r reply log s
  refl := Grows.refl
  trans _ _ _ _ := .trans
  start r s _ := transaction_does r s
  commit c held log hs hpost hafter hlocked hapart hintact _ := by
    obtain ⟨o, hchange, _⟩ := committed_change hpost
    rw [hafter] at hintact ⊢
    refine ⟨change_sane hs hchange hintact, fun K hK => grows_applyAll hlocked ?_⟩
    exact fun k hk hheld => hapart k hheld (hK k hk)

omit [Sha1] in
theorem empty_sane : Sane empty where
  intact := by decide
  ids i hi := absurd hi List.not_mem_nil
  severities e he := absurd he List.not_mem_nil

section
variable {es : List (Event Request)}

theorem holds_run (es : List (Event Request)) :
    outline.Holds (Machine.run transaction (.idle empty) es) :=
  outline.holds_run es (outline.holds_idle empty_sane) fun _ _ => trivial

/-- What every change keeps holds of every committed state, and around every commit. -/
theorem committed_invariant {P : Db → Prop} (hP : P empty)
    (hchange : ∀ s o log, Sane s → Change s o log → Sane (applyAll s log) → P s → P (applyAll s log)) :
    P (Machine.run transaction (.idle empty) es).committed ∧
      ∀ c ∈ (Machine.run transaction (.idle empty) es).history, P c.before ∧ P c.after := by
  obtain ⟨_, hsound, hpath⟩ := outline.sound empty_sane es fun _ _ => trivial
  have hkeeps : ∀ c ∈ (Machine.run transaction (.idle empty) es).history, P c.before → P c.after := by
    intro c hc hbefore
    have hc := hsound c hc
    obtain ⟨_, log, hpost, hafter⟩ := hc.post
    obtain ⟨o, hchange', _⟩ := committed_change hpost
    have hs := hc.after
    rw [hafter] at hs ⊢
    exact hchange c.before o log hc.before hchange' hs hbefore
  exact ⟨path_keeps hpath hkeeps hP, path_visits hpath hkeeps hP⟩

end

end

end ExamSystem.Incidents
