import ExamSystem.IncidentCommands

/-!
# What a transaction on the incidents writes

`Extends` says what every write keeps. `Change` lists what a transaction may
write, in terms of the state it commits on; the invariants of the incidents are
derived from it.
-/

namespace ExamSystem.Incidents

open Tx Interleaving

/-! ## What every write keeps -/

def ExamIncident.anchor (i : ExamIncident) : String × String × Option String × Option String :=
  (i.organizationId, i.examId, i.attemptId, i.candidateId)

structure Extends (s s' : Db) : Prop where
  incidents : ∀ i ∈ s.incidents, ∃ i' ∈ s'.incidents, i'.id = i.id ∧ i'.anchor = i.anchor
  events : s.events <+: s'.events
  actions : s.actions <+: s'.actions
  memberships : s.memberships <+: s'.memberships
  interruptionLinks : s.interruptionLinks <+: s'.interruptionLinks
  attempts : s.attempts <+: s'.attempts
  adjustments : s.adjustments <+: s'.adjustments
  forceSubmits : s.forceSubmits <+: s'.forceSubmits
  episodes : s.episodes <+: s'.episodes
  detected : s.detected <+: s'.detected

theorem Extends.refl (s : Db) : Extends s s where
  incidents i hi := ⟨i, hi, rfl, rfl⟩
  events := List.prefix_rfl
  actions := List.prefix_rfl
  memberships := List.prefix_rfl
  interruptionLinks := List.prefix_rfl
  attempts := List.prefix_rfl
  adjustments := List.prefix_rfl
  forceSubmits := List.prefix_rfl
  episodes := List.prefix_rfl
  detected := List.prefix_rfl

theorem Extends.trans {s t u : Db} (h : Extends s t) (h' : Extends t u) : Extends s u where
  incidents i hi := by
    obtain ⟨j, hj, hid, ha⟩ := h.incidents i hi
    obtain ⟨k, hk, hid', ha'⟩ := h'.incidents j hj
    exact ⟨k, hk, hid'.trans hid, ha'.trans ha⟩
  events := h.events.trans h'.events
  actions := h.actions.trans h'.actions
  memberships := h.memberships.trans h'.memberships
  interruptionLinks := h.interruptionLinks.trans h'.interruptionLinks
  attempts := h.attempts.trans h'.attempts
  adjustments := h.adjustments.trans h'.adjustments
  forceSubmits := h.forceSubmits.trans h'.forceSubmits
  episodes := h.episodes.trans h'.episodes
  detected := h.detected.trans h'.detected

theorem extends_apply (s : Db) (w : Write) : Extends s (Journal.apply s w) := by
  have hsame : ∀ i ∈ s.incidents, ∃ i' ∈ s.incidents, i'.id = i.id ∧ i'.anchor = i.anchor :=
    fun i hi => ⟨i, hi, rfl, rfl⟩
  cases w with
  | insertIncident i =>
    exact { Extends.refl s with incidents := fun j hj => ⟨j, List.mem_append_left _ hj, rfl, rfl⟩ }
  | updateIncident organizationId incidentId u =>
    refine { Extends.refl s with incidents := fun j hj => ⟨_, List.mem_map.mpr ⟨j, hj, rfl⟩, ?_, ?_⟩ }
    · split <;> rfl
    · split <;> rfl
  | _ => constructor <;> first | exact hsame | exact List.prefix_rfl | exact List.prefix_append _ _

theorem extends_applyAll (s : Db) (log : List Write) : Extends s (applyAll s log) :=
  applyAll_invariant (P := Extends s) (fun w _ t ht => ht.trans (extends_apply t w)) (.refl s)

/-! ## Lookups -/

section
variable {s : Db} {organizationId : String}

theorem findById_some {incidentId : String} {i : ExamIncident}
    (h : s.findById organizationId incidentId = some i) :
    i ∈ s.incidents ∧ i.organizationId = organizationId ∧ i.id = uuidText incidentId :=
  ⟨List.mem_of_find?_eq_some h, by simpa [Db.findById] using List.find?_some h⟩

theorem findAttempt_some {attemptId : String} {a : AttemptScopeRow}
    (h : s.findAttempt organizationId attemptId = some a) :
    a ∈ s.attempts ∧ a.organizationId = organizationId ∧ a.id = attemptId :=
  ⟨List.mem_of_find?_eq_some h, by simpa [Db.findAttempt] using List.find?_some h⟩

theorem findEvent_some {operationId : String} {e : ExamIncidentEvent}
    (h : s.findEventByOperationId organizationId operationId = some e) :
    e ∈ s.events ∧ e.organizationId = organizationId ∧ e.operationId = uuidText operationId :=
  ⟨List.mem_of_find?_eq_some h, by simpa [Db.findEventByOperationId] using List.find?_some h⟩

theorem findAdjustment_some {adjustmentId : String} {a : AdjustmentRow}
    (h : s.findAdjustment organizationId adjustmentId = some a) :
    a ∈ s.adjustments ∧ a.organizationId = organizationId ∧ a.id = adjustmentId :=
  ⟨List.mem_of_find?_eq_some h, by simpa [Db.findAdjustment] using List.find?_some h⟩

theorem findEpisode_some {interruptionId : String} {e : EpisodeRow}
    (h : s.findEpisode organizationId interruptionId = some e) :
    e ∈ s.episodes ∧ e.organizationId = organizationId ∧ e.id = uuidText interruptionId :=
  ⟨List.mem_of_find?_eq_some h, by simpa [Db.findEpisode] using List.find?_some h⟩

end

/-! ## The row of an incident under its lock -/

def Db.row (s : Db) (id : String) : Option ExamIncident := s.incidents.find? fun i => i.id = id

theorem row_of_mem {s : Db} (h : s.Keys) {i : ExamIncident} (hi : i ∈ s.incidents) :
    s.row i.id = some i := by
  cases hf : s.row i.id with
  | none =>
    unfold Db.row at hf
    rw [List.find?_eq_none] at hf
    exact absurd (hf i hi) (by simp)
  | some j =>
    have hid : j.id = i.id := by simpa using List.find?_some hf
    rw [List.inj_on_of_nodup_map h.incidents (List.mem_of_find?_eq_some hf) hi hid]

theorem row_apply {s : Db} {w : Write} {id : String} (h : LockKey.incident id ∉ w.keys) :
    (Journal.apply s w).row id = s.row id := by
  cases w with
  | insertIncident i =>
    have hne : i.id ≠ id := by
      intro hid
      exact h (by simp [Write.keys, hid])
    show (s.incidents ++ [i]).find? _ = _
    rw [List.find?_append]
    cases hf : s.incidents.find? fun i => decide (i.id = id) with
    | none => simp [Db.row, hf, hne]
    | some j => simp [Db.row, hf]
  | updateIncident organizationId incidentId u =>
    have hne : incidentId ≠ id := by
      intro hid
      exact h (by simp [Write.keys, hid])
    show (s.incidents.map _).find? _ = _
    rw [List.find?_map]
    have hkeep : (fun i : ExamIncident => decide (i.id = id)) ∘
        (fun i => if i.organizationId = organizationId ∧ i.id = incidentId then i.update u else i) =
          fun i => decide (i.id = id) := by
      funext i
      show decide ((if _ then i.update u else i).id = id) = _
      split <;> rfl
    rw [hkeep]
    cases hf : s.incidents.find? fun i => decide (i.id = id) with
    | none => simp [Db.row, hf]
    | some j =>
      have hid : j.id = id := by simpa using List.find?_some hf
      have hother : ¬ (j.organizationId = organizationId ∧ j.id = incidentId) :=
        fun hj => hne (hj.2.symm.trans hid)
      simp [Db.row, hf, hother]
  | _ => rfl

structure Grows (held : List LockKey) (s s' : Db) : Prop where
  grown : Extends s s'
  rows : ∀ id, .incident id ∈ held → s'.row id = s.row id

theorem Grows.refl (held : List LockKey) (s : Db) : Grows held s s := ⟨.refl s, fun _ _ => rfl⟩

theorem Grows.trans {held : List LockKey} {s t u : Db} (h : Grows held s t) (h' : Grows held t u) :
    Grows held s u :=
  ⟨h.grown.trans h'.grown, fun id hid => (h'.rows id hid).trans (h.rows id hid)⟩

theorem Grows.less {held held' : List LockKey} {s s' : Db} (hk : ∀ k ∈ held, k ∈ held')
    (h : Grows held' s s') : Grows held s s' :=
  ⟨h.grown, fun id hid => h.rows id (hk _ hid)⟩

theorem grows_applyAll {s : Db} {log : List Write} {held K : List LockKey}
    (hlocked : ∀ w ∈ log, ∀ k ∈ Journal.keys Db w, k ∈ held) (hapart : ∀ k ∈ K, k ∉ held) :
    Grows K s (applyAll s log) := by
  refine ⟨extends_applyAll s log, fun id hid => ?_⟩
  refine applyAll_invariant (P := fun t : Db => t.row id = s.row id) (fun w hw t ht => ?_) rfl
  rw [row_apply fun hk => hapart _ hid (hlocked w hw _ hk), ht]

/-! ## What a transaction writes -/

/-- The attempt is in the organisation and the exam of the incident, and agrees with its anchor. -/
structure InScope (s : Db) (i : ExamIncident) (attemptId : String) : Prop where
  attempt : ∃ a ∈ s.attempts, a.id = attemptId ∧ a.organizationId = i.organizationId ∧
    a.examId = i.examId ∧ ∀ c ∈ i.candidateId, a.candidateId = some c
  anchor : ∀ a ∈ i.attemptId, a = attemptId

structure ActionInScope (s : Db) (i : ExamIncident) (l : ExamIncidentAction) : Prop where
  incident : l.incidentId = i.id
  organization : l.organizationId = i.organizationId
  scope : InScope s i l.attemptId
  grant : l.actionType = .timeGrant →
    ∃ a ∈ s.adjustments, a.id = l.actionId ∧ a.organizationId = i.organizationId ∧
    a.attemptId = l.attemptId
  force : l.actionType = .forceSubmit →
    l.actionId = l.attemptId ∧ ∃ f ∈ s.forceSubmits, f.organizationId = i.organizationId ∧
    f.attemptId = l.attemptId

structure AttemptInScope (s : Db) (i : ExamIncident) (l : ExamIncidentAttempt) : Prop where
  incident : l.incidentId = i.id
  organization : l.organizationId = i.organizationId
  scope : InScope s i l.attemptId
  unanchored : i.attemptId = none

structure InterruptionInScope (s : Db) (i : ExamIncident) (l : ExamIncidentInterruptionLink) :
    Prop where
  incident : l.incidentId = i.id
  organization : l.organizationId = i.organizationId
  scope : InScope s i l.attemptId
  episode : ∃ x ∈ s.episodes, x.id = l.interruptionId ∧ x.organizationId = i.organizationId ∧
    x.attemptId = l.attemptId

def IncidentEventType.bumps : IncidentEventType → Bool
  | .investigationStarted | .severityChanged | .incidentResolved | .incidentDismissed => true
  | _ => false

def replayEvent (st : Option (IncidentStatus × Field)) (e : ExamIncidentEvent) :
    Option (IncidentStatus × Field) :=
  match e.eventType, st with
  | .incidentCreated, _ => (e.payload.lookup "severity").map fun severity => (.opened, severity)
  | .investigationStarted, some (_, severity) => some (.investigating, severity)
  | .severityChanged, some (status, _) => (e.payload.lookup "afterSeverity").map fun severity =>
    (status, severity)
  | .incidentResolved, some (_, severity) => some (.resolved, severity)
  | .incidentDismissed, some (_, severity) => some (.dismissed, severity)
  | _, st => st

def ExamIncident.replayed (i : ExamIncident) : Option (IncidentStatus × Field) :=
  some (i.status, .text i.severity.text)

structure Created (s : Db) (i : ExamIncident) (e : ExamIncidentEvent) : Prop where
  id : uuidText i.id = i.id
  incident : e.incidentId = i.id
  organization : e.organizationId = i.organizationId
  eventType : e.eventType = .incidentCreated
  version : i.version = 1 ∧ e.beforeVersion = 0 ∧ e.afterVersion = 1
  replay : replayEvent none e = i.replayed
  anchor : ∀ a ∈ i.attemptId, InScope s i a

structure Passive (s : Db) (i : ExamIncident) (e : ExamIncidentEvent) : Prop where
  stored : i ∈ s.incidents
  incident : e.incidentId = i.id
  organization : e.organizationId = i.organizationId
  eventType : e.eventType.bumps = false ∧ e.eventType ≠ .incidentCreated

structure Bumped (s : Db) (i : ExamIncident) (u : UpdateIncidentInput)
    (e : ExamIncidentEvent) : Prop where
  stored : i ∈ s.incidents
  status : i.status ∉ TERMINAL_STATUSES
  incident : e.incidentId = i.id
  organization : e.organizationId = i.organizationId
  eventType : e.eventType.bumps = true
  version : e.beforeVersion = i.version ∧ e.afterVersion = i.version + 1 ∧ u.version = i.version + 1
  replay : replayEvent i.replayed e = (i.update u).replayed

/-- The incident that an adjustment names is there, and has its attempt in scope. -/
def Attributed (s : Db) (a : AdjustmentRow) : Prop :=
  ∀ k ∈ a.incidentId, ∃ i ∈ s.incidents, i.id = k ∧ i.organizationId = a.organizationId ∧
    InScope s i a.attemptId

/-- A write to a table that the commands read, and not to those of the incidents. -/
def Write.Outer (s : Db) : Write → Prop
  | insertExam _ | insertAttempt _ | insertEnrollment _ | recordForceSubmit _ | insertEpisode
      _ | insertDetected _ => True
  | insertAdjustment a => Attributed s a
  | _ => False

/-- What a transaction writes on `s`, and the event among it. -/
inductive Change [Sha1] (s : Db) (event : Option ExamIncidentEvent) (log : List Write) : Prop
  | outside (he : event = none) (ho : ∀ w ∈ log, w.Outer s)
  | create (i : ExamIncident) (e : ExamIncidentEvent) (r : IncidentAudit) (he : event = some e)
      (hlog : log = [.insertIncident i, .appendEvent e, .audit r]) (h : Created s i e)
        (hc : e.commandType = .createExamIncident)
  | deliver (i : ExamIncident) (e : ExamIncidentEvent) (l : ExamIncidentInterruptionLink)
      (r : IncidentAudit) (he : event = some e)
      (hlog : log = [.insertIncident i, .appendEvent e, .insertInterruptionLink l, .audit r])
        (h : Created s i e)
      (hc : e.commandType = .createSystemIncidentFromHeartbeatEpisode) (hl : InterruptionInScope s i l)
      (ho : l.operationId = e.operationId)
        (hop : e.operationId = systemIncidentOperationId l.interruptionId)
  | note (i : ExamIncident) (e : ExamIncidentEvent) (r : IncidentAudit) (he : event = some e)
      (hlog : log = [.appendEvent e, .audit r])
      (h : Passive s i e) (hc : e.commandType = .addIncidentNote)
  | linkAction (outer : List Write) (i : ExamIncident) (e : ExamIncidentEvent)
      (l : ExamIncidentAction) (r : IncidentAudit)
      (he : event = some e) (hlog : log = outer ++ [.appendEvent e, .insertActionLink l, .audit r])
      (houter : ∀ w ∈ outer, w.Outer s) (h : Passive s i e) (hc : e.commandType = .linkIncidentAction)
      (hl : ActionInScope (applyAll s outer) i l)
  | linkAttempt (i : ExamIncident) (e : ExamIncidentEvent) (l : ExamIncidentAttempt)
      (r : IncidentAudit) (he : event = some e)
      (hlog : log = [.appendEvent e, .insertAttemptMembership l, .audit r]) (h : Passive s i e)
        (hc : e.commandType = .linkIncidentAttempt)
      (hl : AttemptInScope s i l)
  | linkInterruption (i : ExamIncident) (e : ExamIncidentEvent) (l : ExamIncidentInterruptionLink)
      (r : IncidentAudit) (he : event = some e)
      (hlog : log = [.appendEvent e, .insertInterruptionLink l, .audit r]) (h : Passive s i e)
      (hc : e.commandType = .linkIncidentInterruption) (hl : InterruptionInScope s i l)
        (ho : l.operationId = e.operationId)
  | bump (i : ExamIncident) (u : UpdateIncidentInput) (e : ExamIncidentEvent) (r : IncidentAudit)
      (he : event = some e)
      (hlog : log = [.updateIncident i.organizationId i.id u, .appendEvent e, .audit r])
        (h : Bumped s i u e)
      (hc : e.commandType ≠ .createSystemIncidentFromHeartbeatEpisode)
      (hp : e.commandType = .changeIncidentSeverity → e.payload.length = 7)

theorem Change.nothing [Sha1] (s : Db) : Change s none [] :=
  .outside rfl fun _ hw => absurd hw List.not_mem_nil

/-! ### A bigger state -/

section
variable {s s' : Db} {i i' : ExamIncident}

theorem anchor_eq (h : i'.anchor = i.anchor) :
    i'.organizationId = i.organizationId ∧ i'.examId = i.examId ∧ i'.attemptId = i.attemptId ∧
    i'.candidateId = i.candidateId := by
  simpa [ExamIncident.anchor] using h

theorem InScope.extends {attemptId : String} (h : InScope s i attemptId) (hx : Extends s s')
    (ha : i'.anchor = i.anchor) :
    InScope s' i' attemptId := by
  obtain ⟨ho, he, hat, hc⟩ := anchor_eq ha
  obtain ⟨a, hm, hid, hao, hae, hac⟩ := h.attempt
  refine ⟨⟨a, hx.attempts.subset hm, hid, hao.trans ho.symm, hae.trans he.symm, ?_⟩, ?_⟩
  · rw [hc]
    exact hac
  · rw [hat]
    exact h.anchor

theorem ActionInScope.extends {l : ExamIncidentAction} (h : ActionInScope s i l) (hx : Extends s s')
    (hid : i'.id = i.id) (ha : i'.anchor = i.anchor) : ActionInScope s' i' l := by
  have ho := (anchor_eq ha).1
  refine ⟨h.incident.trans hid.symm, h.organization.trans ho.symm, h.scope.extends hx ha, ?_, ?_⟩
  · intro hg
    obtain ⟨a, hm, haid, hao, hat⟩ := h.grant hg
    exact ⟨a, hx.adjustments.subset hm, haid, hao.trans ho.symm, hat⟩
  · intro hf
    obtain ⟨haid, f, hm, hfo, hfa⟩ := h.force hf
    exact ⟨haid, f, hx.forceSubmits.subset hm, hfo.trans ho.symm, hfa⟩

theorem AttemptInScope.extends {l : ExamIncidentAttempt} (h : AttemptInScope s i l)
    (hx : Extends s s') (hid : i'.id = i.id) (ha : i'.anchor = i.anchor) :
    AttemptInScope s' i' l := by
  obtain ⟨ho, _, hat, _⟩ := anchor_eq ha
  exact ⟨h.incident.trans hid.symm, h.organization.trans ho.symm, h.scope.extends hx ha,
    hat.trans h.unanchored⟩

theorem InterruptionInScope.extends {l : ExamIncidentInterruptionLink}
    (h : InterruptionInScope s i l) (hx : Extends s s') (hid : i'.id = i.id)
    (ha : i'.anchor = i.anchor) : InterruptionInScope s' i' l := by
  have ho := (anchor_eq ha).1
  obtain ⟨x, hm, hxid, hxo, hxa⟩ := h.episode
  exact ⟨h.incident.trans hid.symm, h.organization.trans ho.symm, h.scope.extends hx ha,
    x, hx.episodes.subset hm, hxid, hxo.trans ho.symm, hxa⟩

theorem Attributed.extends {a : AdjustmentRow} (h : Attributed s a) (hx : Extends s s') :
    Attributed s' a := by
  intro k hk
  obtain ⟨i, hi, hid, ho, hscope⟩ := h k hk
  obtain ⟨i', hi', hid', ha⟩ := hx.incidents i hi
  exact ⟨i', hi', hid'.trans hid, (anchor_eq ha).1.trans ho, hscope.extends hx ha⟩

theorem Write.Outer.extends {w : Write} (h : w.Outer s) (hx : Extends s s') : w.Outer s' := by
  cases w with
  | insertAdjustment a => exact Attributed.extends h hx
  | _ => exact h

end

/-! ### What a change does to the tables -/

theorem outside_keeps {s t : Db} {log : List Write} (ho : ∀ w ∈ log, w.Outer t) :
    (applyAll s log).incidents = s.incidents ∧ (applyAll s log).events = s.events ∧
      (applyAll s log).actions = s.actions ∧
      (applyAll s log).memberships = s.memberships ∧
      (applyAll s log).interruptionLinks = s.interruptionLinks := by
  refine applyAll_invariant (P := fun t : Db => t.incidents = s.incidents ∧ t.events = s.events ∧
    t.actions = s.actions ∧
    t.memberships = s.memberships ∧ t.interruptionLinks = s.interruptionLinks) (fun w hw t ht =>
      ?_) ⟨rfl, rfl, rfl, rfl, rfl⟩
  have hout := ho w hw
  cases w with
  | insertIncident | updateIncident | appendEvent | insertActionLink | insertAttemptMembership
  | insertInterruptionLink | audit =>
    cases hout
  | _ => exact ht

section
variable [Sha1] {s : Db} {o : Option ExamIncidentEvent} {log : List Write}

theorem change_events (h : Change s o log) : (applyAll s log).events = s.events ++ o.toList := by
  cases h with
  | outside he ho => rw [he, (outside_keeps ho).2.1]; simp
  | linkAction outer i e l r he hlog houter _ _ _ =>
    rw [he, hlog, applyAll_append]
    show (applyAll s outer).events ++ [e] = _
    rw [(outside_keeps houter).2.1]
    rfl
  | create i e r he hlog | deliver i e l r he hlog | note i e r he hlog | linkAttempt i e l r he hlog
  | linkInterruption i e l r he hlog | bump i u e r he hlog => rw [he, hlog]; rfl

/-- A change leaves the incidents, or creates one, or updates one. -/
theorem change_incidents (h : Change s o log) :
    ((applyAll s log).incidents = s.incidents ∧ ∀ e ∈ o, ∃ i, Passive s i e) ∨
    (∃ i e, o = some e ∧ Created s i e ∧ (applyAll s log).incidents = s.incidents ++ [i]) ∨
    ∃ i u e, o = some e ∧ Bumped s i u e ∧ (applyAll s log).incidents = s.incidents.map fun j =>
      if j.organizationId = i.organizationId ∧ j.id = i.id then j.update u else j := by
  have hpassive : ∀ {i e}, o = some e → Passive s i e → ∀ e ∈ o, ∃ i, Passive s i e := by
    intro i e he hp e' he'
    rw [he] at he'
    cases he'
    exact ⟨i, hp⟩
  cases h with
  | outside he ho => exact .inl ⟨(outside_keeps ho).1,
      fun e h => absurd (he ▸ h) (Option.not_mem_none e)⟩
  | create i e r he hlog hcreated => exact .inr (.inl ⟨i, e, he, hcreated, by rw [hlog]; rfl⟩)
  | deliver i e l r he hlog hcreated => exact .inr (.inl ⟨i, e, he, hcreated, by rw [hlog]; rfl⟩)
  | note i e r he hlog hp => exact .inl ⟨by rw [hlog]; rfl, hpassive he hp⟩
  | linkAction outer i e l r he hlog houter hp =>
    refine .inl ⟨?_, hpassive he hp⟩
    rw [hlog, applyAll_append]
    exact (outside_keeps houter).1
  | linkAttempt i e l r he hlog hp => exact .inl ⟨by rw [hlog]; rfl, hpassive he hp⟩
  | linkInterruption i e l r he hlog hp => exact .inl ⟨by rw [hlog]; rfl, hpassive he hp⟩
  | bump i u e r he hlog hb => exact .inr (.inr ⟨i, u, e, he, hb, by rw [hlog]; rfl⟩)

theorem change_severity (h : Change s o log) :
    ∀ e ∈ o, e.commandType = .changeIncidentSeverity → e.payload.length = 7 := by
  intro e heo hc
  cases h with
  | outside he => exact absurd (he ▸ heo) (Option.not_mem_none e)
  | bump i u e' r he hlog hb hn hp =>
    rw [he] at heo
    cases heo
    exact hp hc
  | create i e' r he hlog h hc' | deliver i e' l r he hlog h hc' | note i e' r he hlog h hc'
  | linkAttempt i e' l r he hlog h hc'
  | linkAction outer i e' l r he hlog houter h hc' | linkInterruption i e' l r he hlog h hc' =>
    rw [he] at heo
    cases heo
    rw [hc] at hc'
    cases hc'

end

end ExamSystem.Incidents
