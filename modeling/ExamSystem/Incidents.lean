import ExamSystem.Statements
import ExamSystem.TimeGrants

/-!
# Incidents of an exam

The incidents, their append-only events and the links to actions, attempts and
interruptions, with the constraints that the tables carry. The payload of an
event is an object of the source, kept as the list of its fields.
-/

namespace ExamSystem.Incidents

open Tx Interleaving

/-! ## Payloads -/

inductive Field
  | null
  | text (s : String)
  | number (n : Nat)
  | instant (t : Int)
  deriving DecidableEq, Repr

abbrev Payload := List (String × Field)

def optionalText : Option String → Field
  | none => .null
  | some s => .text s

def optionalInstant : Option Int → Field
  | none => .null
  | some t => .instant t

/-- `p[k] = v`. -/
def setField : Payload → String → Field → Payload
  | [], k, v => [(k, v)]
  | (k', v') :: p, k, v => if k' = k then (k, v) :: p else (k', v') :: setField p k v

/-- `{ ...p, ...q }`. -/
def spread (p q : Payload) : Payload := q.foldl (fun p kv => setField p kv.1 kv.2) p

def sortKeys (p : Payload) : Payload := p.mergeSort fun a b => a.1 ≤ b.1

def payloadsEqual (p q : Payload) : Bool := sortKeys p = sortKeys q

@[simp] theorem payloadsEqual_refl (p : Payload) : payloadsEqual p p = true := by simp [payloadsEqual]

theorem payloadsEqual_symm {p q : Payload} (h : payloadsEqual p q = true) :
    payloadsEqual q p = true := by
  simp only [payloadsEqual, decide_eq_true_eq] at h ⊢
  exact h.symm

theorem payloadsEqual_trans {p q r : Payload} (h : payloadsEqual p q = true)
    (h' : payloadsEqual q r = true) : payloadsEqual p r = true := by
  simp only [payloadsEqual, decide_eq_true_eq] at h h' ⊢
  exact h.trans h'

theorem payloadsEqual_length {p q : Payload} (h : payloadsEqual p q = true) : p.length = q.length := by
  simp only [payloadsEqual, decide_eq_true_eq] at h
  have := congrArg List.length h
  simpa [sortKeys] using this

/-! ## Rows -/

inductive IncidentStatus
  | opened | investigating | resolved | dismissed
  deriving DecidableEq, Repr

def IncidentStatus.text : IncidentStatus → String
  | .opened => "open"
  | .investigating => "investigating"
  | .resolved => "resolved"
  | .dismissed => "dismissed"

def TERMINAL_STATUSES : List IncidentStatus := [.resolved, .dismissed]

inductive IncidentType
  | networkInterruption | deviceFailure | powerFailure | candidateUnableToContinue
  | suspectedMisconduct | operatorError
  | systemOutage | environmentalDisruption | other
  deriving DecidableEq, Repr

def IncidentType.text : IncidentType → String
  | .networkInterruption => "network_interruption"
  | .deviceFailure => "device_failure"
  | .powerFailure => "power_failure"
  | .candidateUnableToContinue => "candidate_unable_to_continue"
  | .suspectedMisconduct => "suspected_misconduct"
  | .operatorError => "operator_error"
  | .systemOutage => "system_outage"
  | .environmentalDisruption => "environmental_disruption"
  | .other => "other"

inductive IncidentSeverity
  | info | minor | major | critical
  deriving DecidableEq, Repr

def IncidentSeverity.text : IncidentSeverity → String
  | .info => "info"
  | .minor => "minor"
  | .major => "major"
  | .critical => "critical"

inductive IncidentEventType
  | incidentCreated | investigationStarted | noteAdded | severityChanged | incidentResolved
  | incidentDismissed | actionLinked
  | attemptLinked | interruptionLinked
  deriving DecidableEq, Repr

inductive IncidentActionType
  | timeGrant | forceSubmit
  deriving DecidableEq, Repr

def IncidentActionType.text : IncidentActionType → String
  | .timeGrant => "time_grant"
  | .forceSubmit => "force_submit"

inductive IncidentRelationshipType
  | affected | referenced
  deriving DecidableEq, Repr

def IncidentRelationshipType.text : IncidentRelationshipType → String
  | .affected => "affected"
  | .referenced => "referenced"

inductive CommandType
  | createExamIncident | startIncidentInvestigation | addIncidentNote | changeIncidentSeverity
  | resolveExamIncident
  | dismissExamIncident | linkIncidentAction | linkIncidentAttempt | linkIncidentInterruption
  | createSystemIncidentFromHeartbeatEpisode
  deriving DecidableEq, Repr

def CommandType.text : CommandType → String
  | .createExamIncident => "createExamIncident"
  | .startIncidentInvestigation => "startIncidentInvestigation"
  | .addIncidentNote => "addIncidentNote"
  | .changeIncidentSeverity => "changeIncidentSeverity"
  | .resolveExamIncident => "resolveExamIncident"
  | .dismissExamIncident => "dismissExamIncident"
  | .linkIncidentAction => "linkIncidentAction"
  | .linkIncidentAttempt => "linkIncidentAttempt"
  | .linkIncidentInterruption => "linkIncidentInterruption"
  | .createSystemIncidentFromHeartbeatEpisode => "createSystemIncidentFromHeartbeatEpisode"

structure ExamIncident where
  id : String
  organizationId : String
  examId : String
  attemptId : Option String
  candidateId : Option String
  type : IncidentType
  severity : IncidentSeverity
  status : IncidentStatus
  occurredAt : Option Int
  description : String
  resolutionSummary : Option String
  resolvedAt : Option Int
  resolvedBy : Option String
  reportedBy : String
  version : Nat
  createdAt : Int
  updatedAt : Int
  deriving DecidableEq, Repr

structure ExamIncidentEvent where
  id : String
  organizationId : String
  incidentId : String
  eventType : IncidentEventType
  commandType : CommandType
  operationId : String
  actorId : String
  beforeVersion : Nat
  afterVersion : Nat
  payload : Payload
  createdAt : Int
  deriving DecidableEq, Repr

structure ExamIncidentAction where
  organizationId : String
  incidentId : String
  actionType : IncidentActionType
  actionId : String
  attemptId : String
  actorId : String
  linkedAt : Int
  operationId : String
  deriving DecidableEq, Repr

structure ExamIncidentAttempt where
  organizationId : String
  incidentId : String
  attemptId : String
  relationshipType : IncidentRelationshipType
  linkedAt : Int
  linkedBy : String
  operationId : String
  deriving DecidableEq, Repr

structure ExamIncidentInterruptionLink where
  organizationId : String
  incidentId : String
  attemptId : String
  interruptionId : String
  linkedAt : Int
  linkedBy : String
  operationId : String
  deriving DecidableEq, Repr

structure IncidentAudit where
  action : String
  organizationId : String
  actorId : String
  metadata : Payload
  deriving DecidableEq, Repr

/-! ### What the commands read of the other tables -/

structure ExamRow where
  id : String
  organizationId : String
  deriving DecidableEq, Repr

structure AttemptScopeRow where
  id : String
  organizationId : String
  examId : String
  candidateId : Option String
  deriving DecidableEq, Repr

structure EnrollmentRow where
  organizationId : String
  examId : String
  candidateId : String
  deriving DecidableEq, Repr

structure AdjustmentRow where
  id : String
  organizationId : String
  operationId : String
  attemptId : String
  incidentId : Option String
  deriving DecidableEq, Repr

/-- An `attempt.forceSubmit` record of the audit log. -/
structure ForceSubmitAudit where
  organizationId : String
  attemptId : String
  deriving DecidableEq, Repr

structure EpisodeRow where
  id : String
  organizationId : String
  attemptId : String
  deriving DecidableEq, Repr

/-- The `detected` event of an episode. -/
structure DetectedEvent where
  organizationId : String
  interruptionId : String
  occurredAt : Int
  observedLastActivityAt : Option Int
  timeoutSeconds : Option Nat
  heartbeat : Bool
  deriving DecidableEq, Repr

structure Db where
  incidents : List ExamIncident
  events : List ExamIncidentEvent
  actions : List ExamIncidentAction
  memberships : List ExamIncidentAttempt
  interruptionLinks : List ExamIncidentInterruptionLink
  audits : List IncidentAudit
  exams : List ExamRow
  attempts : List AttemptScopeRow
  enrollments : List EnrollmentRow
  adjustments : List AdjustmentRow
  forceSubmits : List ForceSubmitAudit
  episodes : List EpisodeRow
  detected : List DetectedEvent
  deriving DecidableEq, Repr

def empty : Db := ⟨[], [], [], [], [], [], [], [], [], [], [], [], []⟩

/-! ## Queries -/

namespace Db
variable (db : Db) (organizationId : String)

def findById (incidentId : String) : Option ExamIncident :=
  db.incidents.find? fun i => i.organizationId = organizationId ∧ i.id = uuidText incidentId

def findEventByOperationId (operationId : String) : Option ExamIncidentEvent :=
  db.events.find? fun e => e.organizationId = organizationId ∧ e.operationId = uuidText operationId

def findActionLinkByAction (actionType : IncidentActionType) (actionId : String) :
    Option ExamIncidentAction :=
  db.actions.find? fun a => a.organizationId = organizationId ∧ a.actionType = actionType ∧
    a.actionId = actionId

def findExam (examId : String) : Option ExamRow :=
  db.exams.find? fun e => e.organizationId = organizationId ∧ e.id = examId

def findAttempt (attemptId : String) : Option AttemptScopeRow :=
  db.attempts.find? fun a => a.organizationId = organizationId ∧ a.id = attemptId

def isEnrolled (examId candidateId : String) : Bool :=
  db.enrollments.any fun e => e.organizationId = organizationId ∧ e.examId = examId ∧
    e.candidateId = candidateId

def findAdjustment (adjustmentId : String) : Option AdjustmentRow :=
  db.adjustments.find? fun a => a.organizationId = organizationId ∧ a.id = adjustmentId

def findAdjustmentByOperationId (operationId : String) : Option AdjustmentRow :=
  db.adjustments.find? fun a => a.organizationId = organizationId ∧ a.operationId = uuidText operationId

def wasForceSubmitted (attemptId : String) : Bool :=
  db.forceSubmits.any fun a => a.organizationId = organizationId ∧ a.attemptId = attemptId

def findEpisode (interruptionId : String) : Option EpisodeRow :=
  db.episodes.find? fun e => e.organizationId = organizationId ∧ e.id = uuidText interruptionId

def findDetected (interruptionId : String) : Option DetectedEvent :=
  db.detected.find? fun e => e.organizationId = organizationId ∧
    e.interruptionId = uuidText interruptionId

end Db
/-! ## Writes -/

/-- The fields of an update; `none` leaves a column as it is. -/
structure UpdateIncidentInput where
  status : Option IncidentStatus
  severity : Option IncidentSeverity
  version : Nat
  resolutionSummary : Option String
  resolvedBy : Option String
  resolvedAt : Option Int
  updatedAt : Int
  deriving DecidableEq, Repr

def ExamIncident.update (i : ExamIncident) (u : UpdateIncidentInput) : ExamIncident :=
  { i with
    status := u.status.getD i.status
    severity := u.severity.getD i.severity
    version := u.version
    resolutionSummary := u.resolutionSummary.or i.resolutionSummary
    resolvedBy := u.resolvedBy.or i.resolvedBy
    resolvedAt := u.resolvedAt.or i.resolvedAt
    updatedAt := u.updatedAt }

inductive Write
  | insertIncident (i : ExamIncident)
  | updateIncident (organizationId incidentId : String) (u : UpdateIncidentInput)
  | appendEvent (e : ExamIncidentEvent)
  | insertActionLink (l : ExamIncidentAction)
  | insertAttemptMembership (l : ExamIncidentAttempt)
  | insertInterruptionLink (l : ExamIncidentInterruptionLink)
  | audit (r : IncidentAudit)
  | insertExam (e : ExamRow)
  | insertAttempt (a : AttemptScopeRow)
  | insertEnrollment (e : EnrollmentRow)
  | insertAdjustment (a : AdjustmentRow)
  | recordForceSubmit (a : ForceSubmitAudit)
  | insertEpisode (e : EpisodeRow)
  | insertDetected (e : DetectedEvent)
  deriving DecidableEq, Repr

inductive LockKey
  | incident (id : String)
  | operation (organizationId operationId : String)
  | action (organizationId : String) (actionType : IncidentActionType) (actionId : String)
  | membership (incidentId attemptId : String)
  | interruption (incidentId interruptionId : String)
  | attempt (id : String)
  | adjustment (id : String)
  | episode (id : String)
  deriving DecidableEq, Repr

def Write.apply (db : Db) : Write → Db
  | insertIncident i => { db with incidents := db.incidents ++ [i] }
  | updateIncident organizationId incidentId u =>
    { db with incidents := db.incidents.map fun i =>
        if i.organizationId = organizationId ∧ i.id = incidentId then i.update u else i }
  | appendEvent e => { db with events := db.events ++ [e] }
  | insertActionLink l => { db with actions := db.actions ++ [l] }
  | insertAttemptMembership l => { db with memberships := db.memberships ++ [l] }
  | insertInterruptionLink l => { db with interruptionLinks := db.interruptionLinks ++ [l] }
  | audit r => { db with audits := db.audits ++ [r] }
  | insertExam e => { db with exams := db.exams ++ [e] }
  | insertAttempt a => { db with attempts := db.attempts ++ [a] }
  | insertEnrollment e => { db with enrollments := db.enrollments ++ [e] }
  | insertAdjustment a => { db with adjustments := db.adjustments ++ [a] }
  | recordForceSubmit a => { db with forceSubmits := db.forceSubmits ++ [a] }
  | insertEpisode e => { db with episodes := db.episodes ++ [e] }
  | insertDetected e => { db with detected := db.detected ++ [e] }

def Write.keys : Write → List LockKey
  | insertIncident i => [.incident i.id]
  | updateIncident _ incidentId _ => [.incident incidentId]
  | appendEvent e => [.operation e.organizationId e.operationId]
  | insertActionLink l => [.action l.organizationId l.actionType l.actionId]
  | insertAttemptMembership l => [.membership l.incidentId l.attemptId]
  | insertInterruptionLink l => [.interruption l.incidentId l.interruptionId]
  | insertAttempt a => [.attempt a.id]
  | insertAdjustment a => [.adjustment a.id]
  | insertEpisode e => [.episode e.id]
  | _ => []

/-! ### Constraints -/

structure Db.Keys (db : Db) : Prop where
  incidents : (db.incidents.map (·.id)).Nodup
  operations : (db.events.map fun e => (e.organizationId, e.operationId)).Nodup
  actions : (db.actions.map fun l => (l.organizationId, l.actionType, l.actionId)).Nodup
  memberships : (db.memberships.map fun l => (l.incidentId, l.attemptId)).Nodup
  interruptionLinks : (db.interruptionLinks.map fun l => (l.incidentId, l.interruptionId)).Nodup
  attempts : (db.attempts.map (·.id)).Nodup
  adjustments : (db.adjustments.map (·.id)).Nodup
  episodes : (db.episodes.map (·.id)).Nodup

def Db.hasIncident (db : Db) (organizationId incidentId : String) : Bool :=
  db.incidents.any fun i => i.organizationId = organizationId ∧ i.id = incidentId

structure Db.References (db : Db) : Prop where
  events : ∀ e ∈ db.events, db.hasIncident e.organizationId e.incidentId = true
  actions : ∀ l ∈ db.actions, db.hasIncident l.organizationId l.incidentId = true
  memberships : ∀ l ∈ db.memberships, db.hasIncident l.organizationId l.incidentId = true
  interruptionLinks : ∀ l ∈ db.interruptionLinks, db.hasIncident l.organizationId l.incidentId = true

instance (db : Db) : Decidable db.Keys :=
  decidable_of_iff
    ((db.incidents.map (·.id)).Nodup ∧
      (db.events.map fun e => (e.organizationId, e.operationId)).Nodup ∧
      (db.actions.map fun l => (l.organizationId, l.actionType, l.actionId)).Nodup ∧
      (db.memberships.map fun l => (l.incidentId, l.attemptId)).Nodup ∧
      (db.interruptionLinks.map fun l => (l.incidentId, l.interruptionId)).Nodup ∧
      (db.attempts.map (·.id)).Nodup ∧
      (db.adjustments.map (·.id)).Nodup ∧ (db.episodes.map (·.id)).Nodup)
    ⟨fun ⟨a, b, c, d, e, f, g, h⟩ => ⟨a, b, c, d, e, f, g, h⟩,
      fun ⟨a, b, c, d, e, f, g, h⟩ => ⟨a, b, c, d, e, f, g, h⟩⟩

instance (db : Db) : Decidable db.References :=
  decidable_of_iff
    ((∀ e ∈ db.events, db.hasIncident e.organizationId e.incidentId = true) ∧
      (∀ l ∈ db.actions, db.hasIncident l.organizationId l.incidentId = true) ∧
      (∀ l ∈ db.memberships, db.hasIncident l.organizationId l.incidentId = true) ∧
      ∀ l ∈ db.interruptionLinks, db.hasIncident l.organizationId l.incidentId = true)
    ⟨fun ⟨a, b, c, d⟩ => ⟨a, b, c, d⟩, fun ⟨a, b, c, d⟩ => ⟨a, b, c, d⟩⟩

def Db.intact (db : Db) : Bool := db.Keys ∧ db.References

theorem intact_keys {db : Db} (h : db.intact = true) : db.Keys := by
  simp only [Db.intact, decide_eq_true_eq] at h
  exact h.1

theorem intact_references {db : Db} (h : db.intact = true) : db.References := by
  simp only [Db.intact, decide_eq_true_eq] at h
  exact h.2

instance : Journal Db Write LockKey where
  apply := Write.apply
  keys := Write.keys
  intact := Db.intact

/-! ### Statements -/

abbrev Action := Prog Db Write LockKey EngineError

def INCIDENT_OPERATION_UNIQUE_CONSTRAINT : String := "exam_incident_events_org_operation_unique"

def appendEvent (e : ExamIncidentEvent) : Action Unit :=
  .insert [] (.appendEvent e) fun db =>
    if (db.findEventByOperationId e.organizationId e.operationId).isSome then
      some (.uniqueViolation INCIDENT_OPERATION_UNIQUE_CONSTRAINT)
    else none

/-- The violation of the unique index, as the command reports it. -/
def insertActionLink (l : ExamIncidentAction) : Action Unit :=
  .insert [] (.insertActionLink l) fun db =>
    if (db.findActionLinkByAction l.organizationId l.actionType l.actionId).isSome then
      some (.incidentActionAlreadyLinked s!"action:{l.actionType.text}:{l.actionId}")
    else none

def insertAttemptMembership (l : ExamIncidentAttempt) : Action Unit :=
  .insert [] (.insertAttemptMembership l) fun db =>
    if db.memberships.any fun k => k.incidentId = l.incidentId ∧ k.attemptId = l.attemptId then
      some (.incidentActionAlreadyLinked s!"attempt:{l.attemptId}")
    else none

/-- `violation` is what the caller reports of the unique index. -/
def insertInterruptionLink (l : ExamIncidentInterruptionLink) (violation : EngineError) : Action Unit :=
  .insert [] (.insertInterruptionLink l) fun db =>
    if db.interruptionLinks.any fun k => k.incidentId = l.incidentId ∧
      k.interruptionId = l.interruptionId then some violation
    else none

end ExamSystem.Incidents
