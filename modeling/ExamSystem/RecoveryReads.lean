import ExamSystem.IncidentReplays
import ExamSystem.SystemIncidents

/-!
# The recovery reads of the incidents

The recovery surfaces check every link of an incident again before they project
it, and answer 503 on a contradiction. They accept exactly what is in the scope
of the incident, and whatever the commands committed, in whatever order, is.
-/

namespace ExamSystem.Incidents

open Tx Interleaving

/-! ## The validator -/

structure AuthzUnavailableError where
  message : String
  deriving DecidableEq, Repr

abbrev Read (α : Type) := Except AuthzUnavailableError α

inductive ScopeViolation
  | examMismatch | candidateMismatch
  deriving DecidableEq, Repr

def incidentScopeViolation (incident : ExamIncident) (attempt : AttemptScopeRow) :
    Option ScopeViolation :=
  if attempt.examId ≠ incident.examId then some .examMismatch
  else if incident.candidateId ≠ none ∧
    attempt.candidateId ≠ incident.candidateId then some .candidateMismatch
  else none

structure IncidentGraphMembership where
  id : String
  attemptId : String
  deriving DecidableEq, Repr

structure IncidentGraphActionLink where
  id : String
  actionType : String
  actionId : String
  attemptId : String
  deriving DecidableEq, Repr

structure IncidentGraphInterruptionLink where
  id : String
  attemptId : String
  deriving DecidableEq, Repr

section
variable (codePrefix : String) (incident : ExamIncident) (attemptById : String → Option AttemptScopeRow)

def graphError (leg detail : String) : AuthzUnavailableError :=
  ⟨s!"{codePrefix}_{leg}: incident {incident.id} {detail}"⟩

def validateReference (leg detail attemptId : String) : Read Unit := do
  let fail := graphError codePrefix incident
  let attempt ← orThrow (attemptById attemptId) (fail s!"{leg}_BROKEN" detail)
  let violation := incidentScopeViolation incident attempt
  require (violation ≠ some .examMismatch)
    (fail s!"{leg}_EXAM_MISMATCH" s!"{detail} exam {attempt.examId}")
  require (violation ≠ some .candidateMismatch)
    (fail s!"{leg}_CANDIDATE_MISMATCH" (s!"{detail} candidate " ++ attempt.candidateId.getD "null"))

def validateAnchor : Read Unit :=
  match incident.attemptId with
  | none => pure ()
  | some attemptId =>
    validateReference codePrefix incident attemptById "ANCHOR" s!"attempt {attemptId}" attemptId

def validateMembership (membership : IncidentGraphMembership) : Read Unit :=
  validateReference codePrefix incident attemptById "MEMBERSHIP"
    s!"membership {membership.id} attempt {membership.attemptId}" membership.attemptId

/-- An action or an interruption may point at the anchor alone, when there is one. -/
def linkInScope (attemptId : String) : Bool :=
  match attemptById attemptId with
  | none => false
  | some attempt => (incident.attemptId = none ∨ incident.attemptId = some attemptId) ∧
      incidentScopeViolation incident attempt = none

def validateActionLink (action : IncidentGraphActionLink) : Read Unit := do
  let fail := graphError codePrefix incident
  require (linkInScope incident attemptById action.attemptId)
    (fail "ACTION_ATTEMPT_SCOPE" s!"action {action.id} attempt {action.attemptId}")
  if action.actionType = "time_grant" then pure ()
  else if action.actionType = "force_submit" then
    require (action.actionId = action.attemptId)
      (fail "FORCE_SUBMIT_ACTION_ID_MISMATCH"
          s!"action {action.id} actionId {action.actionId} attemptId {action.attemptId}")
  else throw (fail "ACTION_TYPE_UNSUPPORTED" s!"action {action.id} type {action.actionType}")

def validateInterruptionLink (link : IncidentGraphInterruptionLink) : Read Unit :=
  require (linkInScope incident attemptById link.attemptId)
    (graphError codePrefix incident "INTERRUPTION_ATTEMPT_SCOPE"
        s!"interruptionLink {link.id} attempt {link.attemptId}")

def validateIncidentRelationshipGraph (attemptMemberships : List IncidentGraphMembership)
    (actionLinks : List IncidentGraphActionLink)
    (interruptionLinks : List IncidentGraphInterruptionLink) : Read Unit := do
  require (incident.attemptId = none ∨ attemptMemberships = [])
    ⟨s!"{codePrefix}_ANCHOR_MEMBERSHIP_CONFLICT: incident {incident.id}"⟩
  validateAnchor codePrefix incident attemptById
  forEach attemptMemberships (validateMembership codePrefix incident attemptById)
  forEach actionLinks (validateActionLink codePrefix incident attemptById)
  forEach interruptionLinks (validateInterruptionLink codePrefix incident attemptById)

end

/-! ## The surfaces -/

structure CandidateProfile where
  id : String
  organizationId : String
  userId : String
  deriving DecidableEq, Repr

structure UserRow where
  id : String
  organizationId : String
  name : String
  deriving DecidableEq, Repr

structure InterruptionEventRow where
  id : String
  organizationId : String
  attemptId : String
  interruptionId : String
  timeAdjustmentId : Option String
  deriving DecidableEq, Repr

/-- What only these reads use: columns that no command reads, and the tables of the
candidates, of the users and of the events of the episodes. -/
structure Columns where
  membershipId : ExamIncidentAttempt → String
  actionId : ExamIncidentAction → String
  interruptionLinkId : ExamIncidentInterruptionLink → String
  closeAt : ExamRow → Option Int
  enrollmentId : AttemptScopeRow → String
  enrollmentRowId : EnrollmentRow → String
  interruptionId : AdjustmentRow → Option String
  candidateProfiles : List CandidateProfile
  users : List UserRow
  interruptionEvents : List InterruptionEventRow

def orderLinks {α : Type} (linkedAt : α → Int) (id : α → String) (links : List α) : List α :=
  links.mergeSort fun l l' => linkedAt l < linkedAt l' ∨ (linkedAt l = linkedAt l' ∧ id l ≤ id l')

/-- The id of a nullable column that is tested for its truth: an empty one is none. -/
def truthy (id : Option String) : List String := id.toList.filter (· ≠ "")

section
variable (cols : Columns) (db : Db) (organizationId : String)

def listActionsByIncident (incidentId : String) : List ExamIncidentAction :=
  orderLinks (·.linkedAt) cols.actionId
    (db.actions.filter fun l => l.organizationId = organizationId ∧ l.incidentId = uuidText incidentId)

def listAttemptsByIncident (incidentId : String) : List ExamIncidentAttempt :=
  orderLinks (·.linkedAt) cols.membershipId
    (db.memberships.filter fun l => l.organizationId = organizationId ∧
      l.incidentId = uuidText incidentId)

def listInterruptionLinksByIncident (incidentId : String) : List ExamIncidentInterruptionLink :=
  orderLinks (·.linkedAt) cols.interruptionLinkId
    (db.interruptionLinks.filter fun l => l.organizationId = organizationId ∧
      l.incidentId = uuidText incidentId)

def summaryAttemptIds (incident : ExamIncident) (memberships : List ExamIncidentAttempt) :
    List String :=
  truthy incident.attemptId ++ memberships.map (·.attemptId)

structure IncidentLinks where
  actions : List ExamIncidentAction
  attemptMemberships : List ExamIncidentAttempt
  interruptionLinks : List ExamIncidentInterruptionLink
  deriving DecidableEq, Repr

def readIncidentLinks (incidentId : String) : IncidentLinks :=
  { actions := listActionsByIncident cols db organizationId incidentId
    attemptMemberships := listAttemptsByIncident cols db organizationId incidentId
    interruptionLinks := listInterruptionLinksByIncident cols db organizationId incidentId }

def referencedAttemptIds (incident : ExamIncident) (links : IncidentLinks) : List String :=
  summaryAttemptIds incident links.attemptMemberships ++ links.actions.map (·.attemptId) ++
    links.interruptionLinks.map (·.attemptId)

def attemptById (referenced : List String) (attemptId : String) : Option AttemptScopeRow :=
  if attemptId ∈ referenced then db.findAttempt organizationId attemptId else none

def validateLinks (codePrefix : String) (incident : ExamIncident) (links : IncidentLinks) : Read Unit :=
  validateIncidentRelationshipGraph codePrefix incident
    (attemptById db organizationId (referencedAttemptIds incident links))
    (links.attemptMemberships.map fun l => ⟨cols.membershipId l, l.attemptId⟩)
    (links.actions.map fun l => ⟨cols.actionId l, l.actionType.text, l.actionId, l.attemptId⟩)
    (links.interruptionLinks.map fun l => ⟨cols.interruptionLinkId l, l.attemptId⟩)

def examParent (codePrefix : String) (incident : ExamIncident) : Read ExamRow :=
  orThrow (db.findExam organizationId incident.examId)
    (graphError codePrefix incident "PARENT_BROKEN" s!"exam {incident.examId}")

def timeAdjustmentSummaries (incident : ExamIncident) :
    List ExamIncidentAction → Read (List AdjustmentRow)
  | [] => pure []
  | act :: acts =>
    if act.actionType ≠ .timeGrant then timeAdjustmentSummaries incident acts
    else do
      let adjustment ← orThrow (db.findAdjustment organizationId act.actionId)
        (graphError "RECOVERY_AGG" incident "TIME_GRANT_REFERENT_BROKEN"
          s!"action {cols.actionId act} adjustment {act.actionId}")
      require (adjustment.attemptId = act.attemptId)
        (graphError "RECOVERY_AGG" incident "TIME_GRANT_ATTEMPT_MISMATCH"
          s!"action {cols.actionId act} actionAttempt {act.attemptId} adjustmentAttempt {adjustment.attemptId}")
      let rest ← timeAdjustmentSummaries incident acts
      pure (adjustment :: rest)

/-! ### The candidates -/

structure CandidateSummary where
  id : String
  displayName : String
  deriving DecidableEq, Repr

def displayName (candidate : CandidateProfile) : Option String :=
  (cols.users.find? fun u => u.id = candidate.userId ∧ u.organizationId = organizationId).map (·.name)

def listCandidates (candidateIds : List String) : List CandidateProfile :=
  (cols.candidateProfiles.filter fun c => c.organizationId = organizationId ∧
    c.id ∈ candidateIds).mergeSort fun c c' =>
    match displayName cols organizationId c, displayName cols organizationId c' with
    | some name, some name' => name < name' ∨ (name = name' ∧ c.id ≤ c'.id)
    | some _, none => true
    | none, some _ => false
    | none, none => c.id ≤ c'.id

def candidateSummaries (incident : ExamIncident) (candidateIds : List String) :
    Read (List CandidateSummary) := do
  let rows := listCandidates cols organizationId candidateIds
  let summaries ← rows.mapM fun c => do
    let name ← orThrow (displayName cols organizationId c)
      (graphError "RECOVERY_AGG" incident "CANDIDATE_USER_BROKEN" s!"candidate {c.id}")
    pure (CandidateSummary.mk c.id name)
  forEach candidateIds fun candidateId => require (candidateId ∈ rows.map (·.id))
    (graphError "RECOVERY_AGG" incident "CANDIDATE_BROKEN" s!"candidate {candidateId}")
  pure summaries

/-! ### The incidents -/

def attemptSummaries (incident : ExamIncident) (links : IncidentLinks) : List AttemptScopeRow :=
  (db.attempts.filter fun a => a.organizationId = organizationId ∧
    a.id ∈ summaryAttemptIds incident links.attemptMemberships).mergeSort fun a b => a.id ≤ b.id

/-- The candidate of the incident and those of the attempts that are summarized. -/
def focusedCandidateIds (incident : ExamIncident) (attempts : List AttemptScopeRow) : List String :=
  truthy incident.candidateId ++ attempts.flatMap fun a => truthy a.candidateId

structure IncidentAggregate where
  incident : ExamIncident
  examSummary : ExamRow
  closeAt : Option Int
  links : IncidentLinks
  candidateSummaries : List CandidateSummary
  attemptSummaries : List AttemptScopeRow
  timeAdjustmentSummaries : List AdjustmentRow
  deriving DecidableEq, Repr

def getIncidentAggregate (incidentId : String) : Read (Option IncidentAggregate) :=
  match db.findById organizationId incidentId with
  | none => pure none
  | some incident => do
    let links := readIncidentLinks cols db organizationId incidentId
    let exam ← examParent db organizationId "RECOVERY_AGG" incident
    validateLinks cols db organizationId "RECOVERY_AGG" incident links
    let adjustments ← timeAdjustmentSummaries cols db organizationId incident links.actions
    let attempts := attemptSummaries db organizationId incident links
    let candidates ← candidateSummaries cols organizationId incident
      (focusedCandidateIds incident attempts)
    pure (some
      { incident := incident
        examSummary := exam
        closeAt := cols.closeAt exam
        links := links
        candidateSummaries := candidates
        attemptSummaries := attempts
        timeAdjustmentSummaries := adjustments })

structure ProctorIncidentDetail where
  incident : ExamIncident
  examSummary : ExamRow
  links : IncidentLinks
  primaryAttempt : Option AttemptScopeRow
  deriving DecidableEq, Repr

def getProctorIncidentDetail (incidentId : String) : Read (Option ProctorIncidentDetail) :=
  match db.findById organizationId incidentId with
  | none => pure none
  | some incident => do
    let links := readIncidentLinks cols db organizationId incidentId
    let exam ← examParent db organizationId "RECOVERY_PROCTOR_DETAIL" incident
    validateLinks cols db organizationId "RECOVERY_PROCTOR_DETAIL" incident links
    pure (some
      { incident := incident
        examSummary := exam
        links := links
        primaryAttempt := (incident.attemptId.filter (· ≠ "")).bind
          (attemptById db organizationId (referencedAttemptIds incident links)) })

/-! ### One attempt and its incidents -/

def attemptError (attempt : AttemptScopeRow) (leg detail : String) : AuthzUnavailableError :=
  ⟨s!"RECOVERY_OP_{leg}: attempt {attempt.id} {detail}"⟩

def findEnrollment (attempt : AttemptScopeRow) : Option EnrollmentRow :=
  db.enrollments.find? fun e => e.organizationId = organizationId ∧
    cols.enrollmentRowId e = cols.enrollmentId attempt

def findCandidate (candidateId : Option String) : Option CandidateProfile :=
  cols.candidateProfiles.find? fun c => c.organizationId = organizationId ∧ some c.id = candidateId

def validateParents (attempt : AttemptScopeRow) : Read (ExamRow × CandidateSummary) := do
  let fail := attemptError attempt
  let exam ← orThrow (db.findExam organizationId attempt.examId)
    (fail "PARENT_BROKEN" s!"exam {attempt.examId}")
  require (cols.closeAt exam ≠ none) (fail "EXAM_CLOSEAT_NULL" s!"exam {attempt.examId}")
  let enrollment ← orThrow (findEnrollment cols db organizationId attempt)
    (fail "ENROLLMENT_BROKEN" s!"enrollment {cols.enrollmentId attempt}")
  require (enrollment.examId = attempt.examId ∧ some enrollment.candidateId = attempt.candidateId)
    (fail "ENROLLMENT_SCOPE_MISMATCH" s!"enrollment {cols.enrollmentRowId enrollment}")
  let candidateText := "candidate " ++ attempt.candidateId.getD "null"
  let candidate ← orThrow (findCandidate cols organizationId attempt.candidateId)
    (fail "CANDIDATE_BROKEN" candidateText)
  let name ← orThrow (displayName cols organizationId candidate)
    (fail "CANDIDATE_USER_BROKEN" candidateText)
  pure (exam, ⟨candidate.id, name⟩)

def episodesOf (attemptId : String) : List EpisodeRow :=
  db.episodes.filter fun e => e.organizationId = organizationId ∧ e.attemptId = attemptId

def interruptionEventsOf (attemptId : String) : List InterruptionEventRow :=
  cols.interruptionEvents.filter fun e => e.organizationId = organizationId ∧ e.attemptId = attemptId

def timeAdjustmentsOf (attemptId : String) : List AdjustmentRow :=
  db.adjustments.filter fun t => t.organizationId = organizationId ∧ t.attemptId = attemptId

def validateReferents (attempt : AttemptScopeRow) : Read Unit := do
  let fail := attemptError attempt
  let episodeIds := (episodesOf db organizationId attempt.id).map (·.id)
  let events := interruptionEventsOf cols organizationId attempt.id
  let adjustments := timeAdjustmentsOf db organizationId attempt.id
  forEach events fun e => require (e.interruptionId ∈ episodeIds)
    (fail "EVENT_EPISODE_BROKEN" s!"event {e.id} interruption {e.interruptionId}")
  forEach events fun e => forEach (truthy e.timeAdjustmentId) fun k =>
    require (k ∈ adjustments.map (·.id))
    (fail "EVENT_ADJUSTMENT_REFERENT_BROKEN" s!"event {e.id} adjustment {k}")
  forEach adjustments fun t => forEach (truthy (cols.interruptionId t)) fun k =>
    require (k ∈ episodeIds)
    (fail "ADJUSTMENT_INTERRUPTION_BROKEN" s!"adjustment {t.id} interruption {k}")

inductive RelatedEdge
  | anchor (incidentId : String)
  | membership (incidentId : String)
  | action (incidentId actionType actionId edgeAttemptId : String)
  | interruption (incidentId linkAttemptId interruptionId : String)
  deriving DecidableEq, Repr

def RelatedEdge.incidentId : RelatedEdge → String
  | anchor incidentId | membership incidentId | action incidentId _ _ _ | interruption incidentId _
      _ => incidentId

def anchoredIncidents (attemptId : String) : List ExamIncident :=
  db.incidents.filter fun i => i.organizationId = organizationId ∧ i.attemptId = some attemptId

def relatedEdges (attemptId : String) : List RelatedEdge :=
  (anchoredIncidents db organizationId attemptId).map (fun i => .anchor i.id) ++
  (db.memberships.filter fun l => l.organizationId = organizationId ∧ l.attemptId = attemptId).map
    (fun l => .membership l.incidentId) ++
  (db.actions.filter fun l => l.organizationId = organizationId ∧ l.attemptId = attemptId).map
    (fun l => .action l.incidentId l.actionType.text l.actionId l.attemptId) ++
  (db.interruptionLinks.filter fun l => l.organizationId = organizationId ∧ l.attemptId = attemptId).map
    fun l => .interruption l.incidentId l.attemptId l.interruptionId

/-- The incidents that the adjustments of the attempt name; they are no edges. -/
def adjustmentIncidentIds (attemptId : String) : List String :=
  (timeAdjustmentsOf db organizationId attemptId).filterMap (·.incidentId)

def incidentById (incidentId : String) : Option ExamIncident :=
  db.incidents.find? fun i => i.organizationId = organizationId ∧ i.id = incidentId

def operationsError (attempt : AttemptScopeRow) (leg detail : String) : AuthzUnavailableError :=
  attemptError attempt leg s!"incident {detail}"

/-- The incident has no anchor or this one, and its exam and candidate are the attempt's. -/
def incidentAdmits (incident : ExamIncident) (attempt : AttemptScopeRow) : Bool :=
  (incident.attemptId = none ∨ incident.attemptId = some attempt.id) ∧
    incidentScopeViolation incident attempt = none

def relatedIncident (attempt : AttemptScopeRow) (incidentId : String) : Read ExamIncident :=
  orThrow (incidentById db organizationId incidentId)
    (operationsError attempt "RELATED_INCIDENT_BROKEN" incidentId)

def validateEdge (attempt : AttemptScopeRow) (edge : RelatedEdge) : Read Unit := do
  let fail := operationsError attempt
  let incident ← relatedIncident db organizationId attempt edge.incidentId
  match edge with
  | .anchor _ =>
    require (incident.attemptId = some attempt.id ∧ incidentScopeViolation incident attempt = none)
      (fail "ANCHOR_SCOPE_MISMATCH" incident.id)
  | .membership _ =>
    require (incident.attemptId = none ∧ incidentScopeViolation incident attempt = none)
      (fail "MEMBERSHIP_SCOPE_MISMATCH" incident.id)
  | .action _ actionType actionId edgeAttemptId => do
    require (incidentAdmits incident attempt) (fail "ACTION_INCIDENT_SCOPE_MISMATCH" incident.id)
    require (edgeAttemptId = attempt.id) (fail "ACTION_ATTEMPT_MISMATCH" incident.id)
    if actionType = "time_grant" then
      require (actionId ∈ (timeAdjustmentsOf db organizationId attempt.id).map (·.id))
        (fail "ACTION_TIME_GRANT_REFERENT_BROKEN" s!"{incident.id} action {actionId}")
    else if actionType = "force_submit" then do
      require (actionId = attempt.id)
        (fail "ACTION_FORCE_SUBMIT_IDENTITY_BROKEN" s!"{incident.id} action {actionId}")
      require (db.wasForceSubmitted organizationId attempt.id)
        (fail "FORCE_SUBMIT_FACT_MISSING" incident.id)
    else throw (fail "ACTION_TYPE_UNKNOWN" s!"{incident.id} actionType {actionType}")
  | .interruption _ linkAttemptId interruptionId => do
    require (incidentAdmits incident attempt) (fail "INTERRUPTION_INCIDENT_SCOPE_MISMATCH" incident.id)
    require (linkAttemptId = attempt.id) (fail "INTERRUPTION_LINK_ATTEMPT_MISMATCH" incident.id)
    require (interruptionId ∈ (episodesOf db organizationId attempt.id).map (·.id))
      (fail "INTERRUPTION_LINK_REFERENT_BROKEN" s!"{incident.id} interruption {interruptionId}")

def validateAdjustmentIncident (attempt : AttemptScopeRow) (incidentId : String) : Read Unit := do
  let incident ← relatedIncident db organizationId attempt incidentId
  require (incidentAdmits incident attempt)
    (operationsError attempt "ADJUSTMENT_INCIDENT_SCOPE_MISMATCH" incidentId)

def validateRelatedIncidents (attempt : AttemptScopeRow) : Read Unit := do
  let edges := relatedEdges db organizationId attempt.id
  let adjustmentIncidents := adjustmentIncidentIds db organizationId attempt.id
  let anchored := (anchoredIncidents db organizationId attempt.id).map (·.id)
  match db.memberships.find? fun l => l.organizationId = organizationId ∧ l.incidentId ∈ anchored with
  | some l => throw (operationsError attempt "ANCHOR_MEMBERSHIP_CONFLICT" l.incidentId)
  | none => pure ()
  forEach (edges.map (·.incidentId) ++ adjustmentIncidents) fun incidentId =>
    require (incidentById db organizationId incidentId).isSome
      (operationsError attempt "RELATED_INCIDENT_BROKEN" incidentId)
  forEach edges (validateEdge db organizationId attempt)
  forEach adjustmentIncidents (validateAdjustmentIncident db organizationId attempt)

structure AttemptOperationsContext where
  attempt : AttemptScopeRow
  examSummary : ExamRow
  candidateSummary : CandidateSummary
  interruptionEpisodes : List EpisodeRow
  timeAdjustments : List AdjustmentRow
  relatedEdges : List RelatedEdge
  deriving DecidableEq, Repr

def getAttemptOperationsContext (attemptId : String) : Read (Option AttemptOperationsContext) :=
  match db.findAttempt organizationId attemptId with
  | none => pure none
  | some attempt => do
    let (exam, candidate) ← validateParents cols db organizationId attempt
    validateReferents cols db organizationId attempt
    validateRelatedIncidents db organizationId attempt
    pure (some
      { attempt := attempt
        examSummary := exam
        candidateSummary := candidate
        interruptionEpisodes := episodesOf db organizationId attempt.id
        timeAdjustments := timeAdjustmentsOf db organizationId attempt.id
        relatedEdges := relatedEdges db organizationId attempt.id })

end

/-! ## What the surfaces accept -/

def Admits (i : ExamIncident) (a : AttemptScopeRow) : Prop := a.examId = i.examId ∧
    ∀ c ∈ i.candidateId, a.candidateId = some c

theorem incidentScopeViolation_eq_none {i : ExamIncident} {a : AttemptScopeRow} :
    incidentScopeViolation i a = none ↔ Admits i a := by
  unfold incidentScopeViolation Admits
  by_cases he : a.examId = i.examId
  · cases hc : i.candidateId with
    | none => simp [he]
    | some c => by_cases ha : a.candidateId = some c <;> simp [he, ha]
  · simp [he]

section
variable {codePrefix : String} {i : ExamIncident} {lookup : String → Option AttemptScopeRow}

theorem validateReference_eq_ok {leg detail attemptId : String} :
    validateReference codePrefix i lookup leg detail attemptId = .ok () ↔
    ∃ a, lookup attemptId = some a ∧ Admits i a := by
  simp only [validateReference, bind_eq_ok, orThrow_eq_ok, require_eq_ok, exists_const]
  refine exists_congr fun a => and_congr_right fun _ => ?_
  rw [← incidentScopeViolation_eq_none]
  cases incidentScopeViolation i a with
  | none => simp
  | some v => cases v <;> simp

/-- The attempt of a link is there, admitted, and the anchor if there is one. -/
def LinkAdmitted (i : ExamIncident) (lookup : String → Option AttemptScopeRow) (attemptId : String) :
    Prop :=
  ∃ a, lookup attemptId = some a ∧ Admits i a ∧ ∀ k ∈ i.attemptId, k = attemptId

theorem anchor_agrees {o : Option String} {attemptId : String} :
    (o = none ∨ o = some attemptId) ↔ ∀ k ∈ o, k = attemptId := by
  cases o <;> simp

theorem linkInScope_iff {attemptId : String} :
    linkInScope i lookup attemptId = true ↔ LinkAdmitted i lookup attemptId := by
  unfold linkInScope LinkAdmitted
  cases lookup attemptId with
  | none => simp
  | some a =>
    rw [decide_eq_true_eq, incidentScopeViolation_eq_none, anchor_agrees]
    simp [and_comm]

theorem validateActionLink_eq_ok {l : IncidentGraphActionLink} :
    validateActionLink codePrefix i lookup l = .ok () ↔
    LinkAdmitted i lookup l.attemptId ∧
      (l.actionType = "time_grant" ∨ (l.actionType = "force_submit" ∧ l.actionId = l.attemptId)) := by
  simp only [validateActionLink, bind_eq_ok, require_eq_ok, exists_const, linkInScope_iff]
  refine and_congr_right fun _ => ?_
  by_cases hg : l.actionType = "time_grant"
  · simp [hg, pure, Except.pure]
  · by_cases hf : l.actionType = "force_submit"
    · simp [hf, require_eq_ok]
    · simp [hg, hf, throw_eq_ok]

structure GraphInScope (i : ExamIncident) (lookup : String → Option AttemptScopeRow)
    (memberships : List IncidentGraphMembership)
    (actions : List IncidentGraphActionLink)
    (interruptions : List IncidentGraphInterruptionLink) : Prop where
  exclusive : i.attemptId = none ∨ memberships = []
  anchor : ∀ k ∈ i.attemptId, ∃ a, lookup k = some a ∧ Admits i a
  memberships : ∀ l ∈ memberships, ∃ a, lookup l.attemptId = some a ∧ Admits i a
  actions : ∀ l ∈ actions, LinkAdmitted i lookup l.attemptId ∧
    (l.actionType = "time_grant" ∨ (l.actionType = "force_submit" ∧ l.actionId = l.attemptId))
  interruptions : ∀ l ∈ interruptions, LinkAdmitted i lookup l.attemptId

theorem validateIncidentRelationshipGraph_eq_ok {memberships : List IncidentGraphMembership}
    {actions : List IncidentGraphActionLink} {interruptions : List IncidentGraphInterruptionLink}
    {u : Unit} :
    validateIncidentRelationshipGraph codePrefix i lookup memberships actions interruptions = .ok u ↔
      GraphInScope i lookup memberships actions interruptions := by
  have hanchor : validateAnchor codePrefix i lookup = .ok () ↔
      ∀ k ∈ i.attemptId, ∃ a, lookup k = some a ∧ Admits i a := by
    unfold validateAnchor
    cases i.attemptId with
    | none => simp [pure, Except.pure]
    | some k => simp [validateReference_eq_ok]
  simp only [validateIncidentRelationshipGraph, bind_eq_ok, require_eq_ok, exists_const,
    forEach_eq_ok, validateMembership, validateReference_eq_ok, validateActionLink_eq_ok,
    validateInterruptionLink, linkInScope_iff]
  constructor
  · rintro ⟨he, ⟨⟩, ha, hm, hact, hint⟩
    exact ⟨he, hanchor.mp ha, hm, hact, hint⟩
  · rintro ⟨he, ha, hm, hact, hint⟩
    exact ⟨he, (), hanchor.mpr ha, hm, hact, hint⟩

end

/-! ### On a store -/

section
variable {cols : Columns} {db : Db} {organizationId incidentId : String} {i : ExamIncident}

theorem mem_orderLinks {α : Type} {linkedAt : α → Int} {id : α → String} {links : List α} {l : α} :
    l ∈ orderLinks linkedAt id links ↔ l ∈ links := List.mem_mergeSort

theorem mem_truthy {o : Option String} {k : String} : k ∈ truthy o ↔ o = some k ∧ k ≠ "" := by
  simp [truthy]

def LinkOf (i : ExamIncident) (organizationId incidentId : String) : Prop :=
  organizationId = i.organizationId ∧ incidentId = i.id

structure LinksInScope (db : Db) (i : ExamIncident) : Prop where
  exclusive : i.attemptId = none ∨ ∀ l ∈ db.memberships, ¬ LinkOf i l.organizationId l.incidentId
  anchor : ∀ k ∈ i.attemptId, ∃ a, db.findAttempt i.organizationId k = some a ∧ Admits i a
  memberships : ∀ l ∈ db.memberships, LinkOf i l.organizationId l.incidentId →
    ∃ a, db.findAttempt i.organizationId l.attemptId = some a ∧ Admits i a
  actions : ∀ l ∈ db.actions, LinkOf i l.organizationId l.incidentId →
    LinkAdmitted i (db.findAttempt i.organizationId) l.attemptId ∧
    (l.actionType = .forceSubmit → l.actionId = l.attemptId)
  interruptions : ∀ l ∈ db.interruptionLinks, LinkOf i l.organizationId l.incidentId →
    LinkAdmitted i (db.findAttempt i.organizationId) l.attemptId

def GrantsInScope (db : Db) (i : ExamIncident) : Prop :=
  ∀ l ∈ db.actions, LinkOf i l.organizationId l.incidentId → l.actionType = .timeGrant →
    ∃ a, db.findAdjustment i.organizationId l.actionId = some a ∧ a.attemptId = l.attemptId

theorem attemptById_of_mem {referenced : List String} {k : String} (h : k ∈ referenced) :
    attemptById db organizationId referenced k = db.findAttempt organizationId k := if_pos h

theorem action_supported {t : IncidentActionType} {p : Prop} :
    (t.text = "time_grant" ∨ (t.text = "force_submit" ∧ p)) ↔ (t = .forceSubmit → p) := by
  cases t <;> simp [IncidentActionType.text]

section
variable (hi : db.findById organizationId incidentId = some i)
include hi

theorem mem_readMemberships {l : ExamIncidentAttempt} :
    l ∈ (readIncidentLinks cols db organizationId incidentId).attemptMemberships ↔
      l ∈ db.memberships ∧ LinkOf i l.organizationId l.incidentId := by
  obtain ⟨-, rfl, hid⟩ := findById_some hi
  simp [readIncidentLinks, listAttemptsByIncident, mem_orderLinks, LinkOf, hid]

theorem mem_readActions {l : ExamIncidentAction} :
    l ∈ (readIncidentLinks cols db organizationId incidentId).actions ↔
      l ∈ db.actions ∧ LinkOf i l.organizationId l.incidentId := by
  obtain ⟨-, rfl, hid⟩ := findById_some hi
  simp [readIncidentLinks, listActionsByIncident, mem_orderLinks, LinkOf, hid]

theorem mem_readInterruptionLinks {l : ExamIncidentInterruptionLink} :
    l ∈ (readIncidentLinks cols db organizationId incidentId).interruptionLinks ↔
      l ∈ db.interruptionLinks ∧ LinkOf i l.organizationId l.incidentId := by
  obtain ⟨-, rfl, hid⟩ := findById_some hi
  simp [readIncidentLinks, listInterruptionLinksByIncident, mem_orderLinks, LinkOf, hid]

end

/-- The anchor is read whatever the links: no attempt has the empty id, which is not asked for. -/
theorem attemptById_anchor (hids : ∀ a ∈ db.attempts, a.id ≠ "") {links : IncidentLinks} {k : String}
    (hk : i.attemptId = some k) :
    attemptById db organizationId (referencedAttemptIds i links) k =
      db.findAttempt organizationId k := by
  by_cases hempty : k = ""
  · have hnone : db.findAttempt organizationId k = none := by
      cases hf : db.findAttempt organizationId k with
      | none => rfl
      | some b =>
        obtain ⟨hb, -, hbid⟩ := findAttempt_some hf
        exact absurd (hbid.trans hempty) (hids b hb)
    simp [attemptById, hnone]
  · apply attemptById_of_mem
    simp only [referencedAttemptIds, summaryAttemptIds, List.mem_append, mem_truthy]
    exact .inl (.inl (.inl ⟨hk, hempty⟩))

theorem validateLinks_eq_ok (hids : ∀ a ∈ db.attempts, a.id ≠ "")
    (hi : db.findById organizationId incidentId = some i) {codePrefix : String} {u : Unit} :
    validateLinks cols db organizationId codePrefix i
      (readIncidentLinks cols db organizationId incidentId) = .ok u ↔ LinksInScope db i := by
  have hmem := @mem_readMemberships cols db organizationId incidentId i hi
  have hact := @mem_readActions cols db organizationId incidentId i hi
  have hint := @mem_readInterruptionLinks cols db organizationId incidentId i hi
  obtain ⟨-, rfl, hid⟩ := findById_some hi
  simp only [validateLinks, validateIncidentRelationshipGraph_eq_ok]
  generalize readIncidentLinks cols db i.organizationId incidentId = links at *
  have href : ∀ {k : String}, k ∈ links.attemptMemberships.map (·.attemptId) ∨
      k ∈ links.actions.map (·.attemptId) ∨
      k ∈ links.interruptionLinks.map (·.attemptId) → k ∈ referencedAttemptIds i links := by
    intro k hk
    simp only [referencedAttemptIds, summaryAttemptIds, List.mem_append]
    tauto
  have hadmitted : ∀ {k : String}, k ∈ referencedAttemptIds i links →
      (LinkAdmitted i (attemptById db i.organizationId (referencedAttemptIds i links)) k ↔
        LinkAdmitted i (db.findAttempt i.organizationId) k) := by
    intro k hk
    simp only [LinkAdmitted, attemptById_of_mem hk]
  constructor
  · rintro ⟨he, ha, hm, hac, hil⟩
    refine ⟨?_, ?_, ?_, ?_, ?_⟩
    · refine he.imp id fun hnil l hl hof => ?_
      exact absurd (hmem.mpr ⟨hl, hof⟩) (by simp [List.map_eq_nil_iff.mp hnil])
    · intro k hk
      obtain ⟨a, hfind, hadm⟩ := ha k hk
      exact ⟨a, (attemptById_anchor hids hk).symm.trans hfind, hadm⟩
    · intro l hl hof
      have hin := hmem.mpr ⟨hl, hof⟩
      obtain ⟨a, hfind, hadm⟩ := hm _ (List.mem_map_of_mem hin)
      rw [attemptById_of_mem (href (.inl (List.mem_map_of_mem hin)))] at hfind
      exact ⟨a, hfind, hadm⟩
    · intro l hl hof
      have hin := hact.mpr ⟨hl, hof⟩
      obtain ⟨hadm, htype⟩ := hac _ (List.mem_map_of_mem hin)
      exact ⟨(hadmitted (href (.inr (.inl (List.mem_map_of_mem hin))))).mp hadm,
        action_supported.mp htype⟩
    · intro l hl hof
      have hin := hint.mpr ⟨hl, hof⟩
      exact (hadmitted (href (.inr (.inr (List.mem_map_of_mem hin))))).mp
        (hil _ (List.mem_map_of_mem hin))
  · intro h
    refine ⟨?_, ?_, ?_, ?_, ?_⟩
    · refine h.exclusive.imp id fun hnone => List.map_eq_nil_iff.mpr
        (List.eq_nil_iff_forall_not_mem.mpr fun l hl => ?_)
      obtain ⟨hl, hof⟩ := hmem.mp hl
      exact hnone l hl hof
    · intro k hk
      obtain ⟨a, hfind, hadm⟩ := h.anchor k hk
      exact ⟨a, (attemptById_anchor hids hk).trans hfind, hadm⟩
    · intro m hm
      obtain ⟨l, hin, rfl⟩ := List.mem_map.mp hm
      obtain ⟨hl, hof⟩ := hmem.mp hin
      rw [attemptById_of_mem (href (.inl (List.mem_map_of_mem hin)))]
      exact h.memberships l hl hof
    · intro m hm
      obtain ⟨l, hin, rfl⟩ := List.mem_map.mp hm
      obtain ⟨hl, hof⟩ := hact.mp hin
      obtain ⟨hadm, htype⟩ := h.actions l hl hof
      exact ⟨(hadmitted (href (.inr (.inl (List.mem_map_of_mem hin))))).mpr hadm,
        action_supported.mpr htype⟩
    · intro m hm
      obtain ⟨l, hin, rfl⟩ := List.mem_map.mp hm
      obtain ⟨hl, hof⟩ := hint.mp hin
      exact (hadmitted (href (.inr (.inr (List.mem_map_of_mem hin))))).mpr (h.interruptions l hl hof)

theorem timeAdjustmentSummaries_eq_ok : ∀ {acts : List ExamIncidentAction},
    (∃ rows, timeAdjustmentSummaries cols db organizationId i acts = .ok rows) ↔
      ∀ l ∈ acts, l.actionType = .timeGrant →
      ∃ a, db.findAdjustment organizationId l.actionId = some a ∧ a.attemptId = l.attemptId
  | [] => by simp [timeAdjustmentSummaries, pure, Except.pure]
  | act :: acts => by
    have ih := @timeAdjustmentSummaries_eq_ok acts
    rw [List.forall_mem_cons, ← ih]
    by_cases ht : act.actionType = .timeGrant
    · simp only [timeAdjustmentSummaries, ht, ne_eq, not_true_eq_false, if_false, bind_eq_ok,
        orThrow_eq_ok, require_eq_ok, exists_const, pure_eq_ok, true_implies]
      constructor
      · rintro ⟨_, a, hfind, ha, rows, hrows, rfl⟩
        exact ⟨⟨a, hfind, ha⟩, rows, hrows⟩
      · rintro ⟨⟨a, hfind, ha⟩, rows, hrows⟩
        exact ⟨_, a, hfind, ha, rows, hrows, rfl⟩
    · simp [timeAdjustmentSummaries, ht]

def ExamResolves (db : Db) (organizationId examId : String) : Prop :=
  ∃ e ∈ db.exams, e.organizationId = organizationId ∧ e.id = examId

theorem findExam_resolves {examId : String} :
    (∃ e, db.findExam organizationId examId = some e) ↔ ExamResolves db organizationId examId := by
  rw [← Option.isSome_iff_exists, Db.findExam, List.find?_isSome]
  simp [ExamResolves]

def IsUser (cols : Columns) (organizationId : String) (c : CandidateProfile) : Prop :=
  ∃ u ∈ cols.users, u.id = c.userId ∧ u.organizationId = organizationId

theorem displayName_isUser {c : CandidateProfile} :
    (∃ name, displayName cols organizationId c = some name) ↔ IsUser cols organizationId c := by
  rw [← Option.isSome_iff_exists, displayName, Option.isSome_map, List.find?_isSome]
  simp [IsUser]

structure CandidateResolves (cols : Columns) (organizationId k : String) : Prop where
  stored : ∃ c ∈ cols.candidateProfiles, c.organizationId = organizationId ∧ c.id = k
  named : ∀ c ∈ cols.candidateProfiles, c.organizationId = organizationId → c.id = k →
    IsUser cols organizationId c

theorem mem_listCandidates {candidateIds : List String} {c : CandidateProfile} :
    c ∈ listCandidates cols organizationId candidateIds ↔
      c ∈ cols.candidateProfiles ∧ c.organizationId = organizationId ∧ c.id ∈ candidateIds := by
  rw [listCandidates, List.mem_mergeSort, List.mem_filter, decide_eq_true_eq]

theorem candidateSummaries_eq_ok {candidateIds : List String} :
    (∃ rows, candidateSummaries cols organizationId i candidateIds = .ok rows) ↔
      ∀ k ∈ candidateIds, CandidateResolves cols organizationId k := by
  have hnamed : ∀ c, (∃ row, (do
        let name ← orThrow (displayName cols organizationId c)
          (graphError "RECOVERY_AGG" i "CANDIDATE_USER_BROKEN" s!"candidate {c.id}")
        pure (CandidateSummary.mk c.id name) : Read CandidateSummary) = .ok row) ↔
        IsUser cols organizationId c := by
    intro c
    simp only [bind_eq_ok, orThrow_eq_ok, pure_eq_ok, ← displayName_isUser]
    constructor
    · rintro ⟨_, name, hname, -⟩
      exact ⟨name, hname⟩
    · rintro ⟨name, hname⟩
      exact ⟨_, name, hname, rfl⟩
  simp only [candidateSummaries, bind_eq_ok, forEach_eq_ok, require_eq_ok, pure_eq_ok]
  constructor
  · rintro ⟨_, rows, hrows, -, hstored, -⟩ k hk
    obtain ⟨c, hc, hid⟩ := List.mem_map.mp (hstored k hk)
    obtain ⟨hc, ho, -⟩ := mem_listCandidates.mp hc
    refine ⟨⟨c, hc, ho, hid⟩, fun c' hc' ho' hid' => ?_⟩
    exact (hnamed c').mp (exists_mapM_eq_ok.mp ⟨rows, hrows⟩ c' (mem_listCandidates.mpr ⟨hc', ho',
          hid' ▸ hk⟩))
  · intro h
    obtain ⟨rows, hrows⟩ := exists_mapM_eq_ok.mpr fun c hc => (hnamed c).mpr <| by
      obtain ⟨hc, ho, hid⟩ := mem_listCandidates.mp hc
      exact (h c.id hid).named c hc ho rfl
    refine ⟨rows, rows, hrows, (), fun k hk => ?_, rfl⟩
    obtain ⟨c, hc, ho, rfl⟩ := (h k hk).stored
    exact List.mem_map.mpr ⟨c, mem_listCandidates.mpr ⟨hc, ho, hk⟩, rfl⟩

def AboutAttempt (db : Db) (i : ExamIncident) (attemptId : String) : Prop :=
  i.attemptId = some attemptId ∨ ∃ l ∈ db.memberships, LinkOf i l.organizationId l.incidentId ∧
    l.attemptId = attemptId

/-- The candidate of the incident and those of the attempts that it is about. -/
def AboutCandidate (db : Db) (i : ExamIncident) (candidateId : String) : Prop :=
  i.candidateId = some candidateId ∨
    ∃ a ∈ db.attempts, a.organizationId = i.organizationId ∧ AboutAttempt db i a.id ∧
    a.candidateId = some candidateId

def CandidatesResolve (cols : Columns) (db : Db) (i : ExamIncident) : Prop :=
  ∀ k, k ≠ "" → AboutCandidate db i k → CandidateResolves cols i.organizationId k

theorem mem_focusedCandidateIds (hids : ∀ a ∈ db.attempts, a.id ≠ "")
    (hi : db.findById organizationId incidentId = some i) {k : String} : k ∈ focusedCandidateIds i
        (attemptSummaries db organizationId i (readIncidentLinks cols db organizationId incidentId)) ↔
      k ≠ "" ∧ AboutCandidate db i k := by
  obtain ⟨-, rfl, hid⟩ := findById_some hi
  have habout : ∀ a ∈ db.attempts, a.id ∈ summaryAttemptIds i
      (readIncidentLinks cols db i.organizationId incidentId).attemptMemberships ↔
        AboutAttempt db i a.id := by
    intro a ha
    simp only [summaryAttemptIds, List.mem_append, mem_truthy, List.mem_map, mem_readMemberships hi,
      AboutAttempt]
    exact or_congr (and_iff_left (hids a ha)) (exists_congr fun l => and_assoc)
  simp only [focusedCandidateIds, attemptSummaries, List.mem_append, mem_truthy, List.mem_flatMap,
    List.mem_mergeSort, List.mem_filter, decide_eq_true_eq, AboutCandidate]
  constructor
  · rintro (⟨hk, hne⟩ | ⟨a, ⟨ha, ho, hin⟩, hk, hne⟩)
    · exact ⟨hne, .inl hk⟩
    · exact ⟨hne, .inr ⟨a, ha, ho, (habout a ha).mp hin, hk⟩⟩
  · rintro ⟨hne, hk | ⟨a, ha, ho, hab, hk⟩⟩
    · exact .inl ⟨hk, hne⟩
    · exact .inr ⟨a, ⟨ha, ho, (habout a ha).mpr hab⟩, hk, hne⟩

/-- One scope, two surfaces: the proctor's detail accepts an incident exactly when its
exam is there and its links are in scope, and the aggregate when its grants are, too,
and its candidates are users. -/
theorem recovery_surfaces_agree (cols : Columns) (db : Db) (organizationId incidentId : String)
    (i : ExamIncident) (hids : ∀ a ∈ db.attempts, a.id ≠ "")
    (hi : db.findById organizationId incidentId = some i) :
    ((∃ d, getProctorIncidentDetail cols db organizationId incidentId = .ok (some d)) ↔
      ExamResolves db i.organizationId i.examId ∧ LinksInScope db i) ∧
    ((∃ g, getIncidentAggregate cols db organizationId incidentId = .ok (some g)) ↔
      ExamResolves db i.organizationId i.examId ∧ LinksInScope db i ∧ GrantsInScope db i ∧
      CandidatesResolve cols db i) := by
  have hvalid : ∀ codePrefix, validateLinks cols db organizationId codePrefix i
      (readIncidentLinks cols db organizationId incidentId) =
      .ok () ↔ LinksInScope db i := fun _ => validateLinks_eq_ok hids hi
  have hcandidates : (∃ rows, candidateSummaries cols organizationId i (focusedCandidateIds i
      (attemptSummaries db organizationId i
          (readIncidentLinks cols db organizationId incidentId))) = .ok rows) ↔
      CandidatesResolve cols db i := by
    rw [candidateSummaries_eq_ok]
    simp only [mem_focusedCandidateIds hids hi, and_imp, CandidatesResolve, (findById_some hi).2.1]
  have hgrants : (∃ rows, timeAdjustmentSummaries cols db organizationId i
      (readIncidentLinks cols db organizationId incidentId).actions =
      .ok rows) ↔ GrantsInScope db i := by
    rw [timeAdjustmentSummaries_eq_ok]
    simp only [mem_readActions hi, and_imp, GrantsInScope, (findById_some hi).2.1]
  have hexam : (∃ e, db.findExam organizationId i.examId = some e) ↔
      ExamResolves db i.organizationId i.examId := by
    rw [findExam_resolves, (findById_some hi).2.1]
  constructor
  · simp only [getProctorIncidentDetail, hi, examParent, bind_eq_ok, orThrow_eq_ok, pure_eq_ok,
      ← hvalid "RECOVERY_PROCTOR_DETAIL", ← hexam]
    constructor
    · rintro ⟨d, e, he, ⟨⟩, hok, -⟩
      exact ⟨⟨e, he⟩, hok⟩
    · rintro ⟨⟨e, he⟩, hok⟩
      exact ⟨_, e, he, (), hok, rfl⟩
  · simp only [getIncidentAggregate, hi, examParent, bind_eq_ok, orThrow_eq_ok, pure_eq_ok,
      ← hvalid "RECOVERY_AGG", ← hgrants, ← hcandidates, ← hexam]
    constructor
    · rintro ⟨g, e, he, ⟨⟩, hok, rows, hrows, summaries, hsummaries, -⟩
      exact ⟨⟨e, he⟩, hok, ⟨rows, hrows⟩, summaries, hsummaries⟩
    · rintro ⟨⟨e, he⟩, hok, ⟨rows, hrows⟩, summaries, hsummaries⟩
      exact ⟨_, e, he, (), hok, rows, hrows, summaries, hsummaries, rfl⟩

end

def sampleColumns : Columns :=
  { membershipId := (·.operationId), actionId := (·.operationId), interruptionLinkId := (·.operationId)
    closeAt := fun _ => some 9000, enrollmentId := fun _ => "enrollment"
    enrollmentRowId := fun _ => "enrollment"
    interruptionId := fun _ => none, candidateProfiles := [⟨"candidate", "org", "user"⟩]
    users := [⟨"user", "org", "name"⟩]
    interruptionEvents := [] }

def sampleMisplaced : Db :=
  { empty with
    incidents := [{ sampleIncident .info 1 1000 with attemptId := some "attempt" }]
    exams := [⟨"exam", "org"⟩]
    attempts := [⟨"attempt", "org", "another exam", some "candidate"⟩] }

theorem recovery_surfaces_agree_sample :
    ¬ ∃ d, getProctorIncidentDetail sampleColumns sampleMisplaced "org" sampleIncidentId = .ok
      (some d) := by
  intro h
  obtain ⟨-, hscope⟩ := (recovery_surfaces_agree sampleColumns sampleMisplaced "org" sampleIncidentId
    { sampleIncident .info 1 1000 with attemptId := some "attempt" } (by decide)
      (by decide +kernel)).1.mp h
  obtain ⟨a, ha, hadm⟩ := hscope.anchor "attempt" rfl
  obtain rfl := Option.some.inj ha
  exact absurd hadm.1 (by decide)

/-! ## What the commands wrote -/

def Anchored (s : Db) : Prop := ∀ i ∈ s.incidents, ∀ k ∈ i.attemptId, InScope s i k

section
variable [Sha1] {s : Db} {o : Option ExamIncidentEvent} {log : List Write}

theorem change_anchored (h : Change s o log) (ha : Anchored s) : Anchored (applyAll s log) := by
  have hx := extends_applyAll s log
  intro i hi k hk
  have hold : ∀ j ∈ s.incidents, i.anchor = j.anchor → InScope (applyAll s log) i k := by
    intro j hj heq
    obtain ⟨-, -, hat, -⟩ := anchor_eq heq
    exact (ha j hj k (hat ▸ hk)).extends hx heq
  rcases change_incidents h with ⟨hsame, -⟩ | ⟨j, e, -, hc, hnew⟩ | ⟨j, u, e, -, -, hmap⟩
  · exact hold i (hsame ▸ hi) rfl
  · rw [hnew] at hi
    rcases List.mem_append.mp hi with hi | hi
    · exact hold i hi rfl
    · obtain rfl := List.mem_singleton.mp hi
      exact (hc.anchor k hk).extends hx rfl
  · rw [hmap] at hi
    obtain ⟨j', hj', rfl⟩ := List.mem_map.mp hi
    refine hold j' hj' ?_
    by_cases hu : j'.organizationId = j.organizationId ∧ j'.id = j.id
    · rw [if_pos hu]
      rfl
    · rw [if_neg hu]

/-- The incident that an adjustment names is there, and its attempt in scope. -/
def AllAttributed (s : Db) : Prop := ∀ a ∈ s.adjustments, Attributed s a

omit [Sha1] in
theorem outside_adjustments {t : Db} (ho : ∀ w ∈ log, w.Outer t) :
    ∀ a ∈ (applyAll s log).adjustments, a ∈ s.adjustments ∨ Attributed t a := by
  refine applyAll_invariant (P := fun u : Db => ∀ a ∈ u.adjustments, a ∈ s.adjustments ∨ Attributed t a)
    (fun w hw u hu a ha => ?_) fun a ha => .inl ha
  have hout := ho w hw
  cases w with
  | insertAdjustment b =>
    rcases List.mem_append.mp ha with ha | ha
    · exact hu a ha
    · rw [List.mem_singleton.mp ha]
      exact .inr hout
  | _ => exact hu a ha

theorem change_attributed (h : Change s o log) (ha : AllAttributed s) :
    AllAttributed (applyAll s log) := by
  have hx := extends_applyAll s log
  have hnew : ∀ a ∈ (applyAll s log).adjustments, a ∈ s.adjustments ∨ Attributed s a := by
    cases h with
    | outside he ho => exact outside_adjustments ho
    | linkAction outer i e l r he hlog houter _ _ _ =>
      rw [hlog, applyAll_append]
      exact outside_adjustments houter
    | create i e r he hlog | deliver i e l r he hlog | note i e r he hlog | linkAttempt i e l r he hlog
    | linkInterruption i e l r he hlog | bump i u e r he hlog =>
      rw [hlog]
      exact fun a ha => .inl ha
  intro a hmem
  rcases hnew a hmem with hold | hnew
  · exact (ha a hold).extends hx
  · exact hnew.extends hx

theorem attributed_run (es : List (Event Request)) :
    AllAttributed (Machine.run transaction (.idle empty) es).committed :=
  (committed_invariant (P := AllAttributed) (fun _ h => absurd h List.not_mem_nil) fun _ _ _ _ h _
      ha => change_attributed h ha).1

theorem anchored_run (es : List (Event Request)) :
    Anchored (Machine.run transaction (.idle empty) es).committed :=
  (committed_invariant (P := Anchored) (fun _ h => absurd h List.not_mem_nil) fun _ _ _ _ h _ ha =>
      change_anchored h ha).1

end

section
variable {s : Db} {i : ExamIncident} {k : String}

theorem findAttempt_of_mem (hk : s.Keys) {a : AttemptScopeRow} (ha : a ∈ s.attempts) :
    s.findAttempt a.organizationId a.id = some a := by
  cases hf : s.findAttempt a.organizationId a.id with
  | none =>
    unfold Db.findAttempt at hf
    exact absurd (List.find?_eq_none.mp hf a ha) (by simp)
  | some b =>
    obtain ⟨hb, -, hid⟩ := findAttempt_some hf
    rw [List.inj_on_of_nodup_map hk.attempts hb ha hid]

theorem incidentById_of_mem (hk : s.Keys) (hi : i ∈ s.incidents) :
    incidentById s i.organizationId i.id = some i := by
  cases hf : incidentById s i.organizationId i.id with
  | none =>
    unfold incidentById at hf
    exact absurd (List.find?_eq_none.mp hf i hi) (by simp)
  | some j =>
    have hid : j.organizationId = i.organizationId ∧ j.id = i.id := by simpa using List.find?_some hf
    rw [List.inj_on_of_nodup_map hk.incidents (List.mem_of_find?_eq_some hf) hi hid.2]

theorem InScope.admitted (h : InScope s i k) (hk : s.Keys) :
    ∃ a, s.findAttempt i.organizationId k = some a ∧ Admits i a ∧ ∀ k' ∈ i.attemptId, k' = k := by
  obtain ⟨a, ha, rfl, ho, he, hc⟩ := h.attempt
  exact ⟨a, ho ▸ findAttempt_of_mem hk ha, ⟨he, hc⟩, h.anchor⟩

theorem InScope.edge (h : InScope s i k) (hk : s.Keys) {a : AttemptScopeRow}
    (ha : s.findAttempt i.organizationId k = some a) :
    Admits i a ∧ incidentAdmits i a = true := by
  obtain ⟨b, hb, hadm, hanchor⟩ := h.admitted hk
  obtain rfl : a = b := Option.some.inj (ha.symm.trans hb)
  obtain ⟨-, -, rfl⟩ := findAttempt_some ha
  refine ⟨hadm, ?_⟩
  unfold incidentAdmits
  rw [decide_eq_true_eq, incidentScopeViolation_eq_none, anchor_agrees]
  exact ⟨hanchor, hadm⟩

theorem linksInScope_of (hk : s.Keys) (hl : Linked s) (ha : Anchored s) (hi : i ∈ s.incidents) :
    LinksInScope s i ∧ GrantsInScope s i := by
  -- the incident of a link is the only one of its id
  have hsame : ∀ {j : ExamIncident} {organizationId incidentId : String}, j ∈ s.incidents →
      incidentId = j.id → LinkOf i organizationId incidentId → j = i := fun hj hid hof =>
    List.inj_on_of_nodup_map hk.incidents hj hi (hid.symm.trans hof.2)
  refine ⟨⟨?_, ?_, ?_, ?_, ?_⟩, ?_⟩
  · by_cases hnone : i.attemptId = none
    · exact .inl hnone
    · exact .inr fun l hl' hof => hnone (membership_unanchored hl hk hi hl' hof.2)
  · intro k hk'
    obtain ⟨a, hfind, hadm, -⟩ := (ha i hi k hk').admitted hk
    exact ⟨a, hfind, hadm⟩
  · intro l hl' hof
    obtain ⟨j, hj, hscope⟩ := hl.memberships l hl'
    obtain rfl := hsame hj hscope.incident hof
    obtain ⟨a, hfind, hadm, -⟩ := hscope.scope.admitted hk
    exact ⟨a, hfind, hadm⟩
  · intro l hl' hof
    obtain ⟨j, hj, hscope⟩ := hl.actions l hl'
    obtain rfl := hsame hj hscope.incident hof
    exact ⟨hscope.scope.admitted hk, fun hf => (hscope.force hf).1⟩
  · intro l hl' hof
    obtain ⟨j, hj, hscope⟩ := hl.interruptionLinks l hl'
    obtain rfl := hsame hj hscope.incident hof
    exact hscope.scope.admitted hk
  · intro l hl' hof hg
    obtain ⟨j, hj, hscope⟩ := hl.actions l hl'
    obtain rfl := hsame hj hscope.incident hof
    obtain ⟨a, hm, hid, ho, hat⟩ := hscope.grant hg
    refine ⟨a, ?_, hat⟩
    cases hf : s.findAdjustment j.organizationId l.actionId with
    | none =>
      unfold Db.findAdjustment at hf
      exact absurd (List.find?_eq_none.mp hf a hm) (by simp [ho, hid])
    | some b =>
      obtain ⟨hb, -, hbid⟩ := findAdjustment_some hf
      rw [List.inj_on_of_nodup_map hk.adjustments hb hm (hbid.trans hid.symm)]

theorem incident_found (hk : s.Keys) (hi : i ∈ s.incidents) {organizationId incidentId : String}
    (hid : incidentId = i.id) (ho : organizationId = i.organizationId) :
    incidentById s organizationId incidentId = some i := by
  subst hid ho
  exact incidentById_of_mem hk hi

section
variable {organizationId : String} {a : AttemptScopeRow}

/-- Each edge finds its incident and passes. -/
theorem validateEdge_of (hk : s.Keys) (hl : Linked s) (ha : Anchored s)
    (hfind : s.findAttempt organizationId a.id = some a) {edge : RelatedEdge}
    (he : edge ∈ relatedEdges s organizationId a.id) :
    (∃ j, incidentById s organizationId edge.incidentId = some j) ∧
      validateEdge s organizationId a edge = .ok () := by
  simp only [relatedEdges, anchoredIncidents, List.mem_append, List.mem_map, List.mem_filter,
    decide_eq_true_eq] at he
  rcases he with ((⟨j, ⟨hj, ho, hat⟩, rfl⟩ | ⟨l, ⟨hl', ho, hat⟩, rfl⟩) | ⟨l, ⟨hl', ho, hat⟩,
      rfl⟩) | ⟨l, ⟨hl', ho, hat⟩, rfl⟩
  · have hinc := incident_found hk hj rfl ho.symm
    subst ho
    obtain ⟨hadm, -⟩ := (ha j hj a.id hat).edge hk hfind
    refine ⟨⟨j, hinc⟩, ?_⟩
    simp only [validateEdge, relatedIncident, RelatedEdge.incidentId, hinc, orThrow_some, ok_bind]
    exact Tx.require_true ⟨hat, incidentScopeViolation_eq_none.mpr hadm⟩ _
  · obtain ⟨j, hj, hscope⟩ := hl.memberships l hl'
    have hinc := incident_found hk hj hscope.incident (ho.symm.trans hscope.organization)
    obtain rfl : organizationId = j.organizationId := ho.symm.trans hscope.organization
    obtain ⟨hadm, -⟩ := hscope.scope.edge hk (hat ▸ hfind)
    refine ⟨⟨j, hinc⟩, ?_⟩
    simp only [validateEdge, relatedIncident, RelatedEdge.incidentId, hinc, orThrow_some, ok_bind]
    exact Tx.require_true ⟨hscope.unanchored, incidentScopeViolation_eq_none.mpr hadm⟩ _
  · obtain ⟨j, hj, hscope⟩ := hl.actions l hl'
    have hinc := incident_found hk hj hscope.incident (ho.symm.trans hscope.organization)
    obtain rfl : organizationId = j.organizationId := ho.symm.trans hscope.organization
    obtain ⟨-, hadmits⟩ := hscope.scope.edge hk (hat ▸ hfind)
    refine ⟨⟨j, hinc⟩, ?_⟩
    simp only [validateEdge, relatedIncident, RelatedEdge.incidentId, hinc, orThrow_some, ok_bind,
      hadmits, Tx.require_true, hat]
    cases ht : l.actionType with
    | timeGrant =>
      obtain ⟨x, hx, hid, hxo, hxa⟩ := hscope.grant ht
      rw [if_pos (show IncidentActionType.timeGrant.text = "time_grant" from rfl)]
      exact Tx.require_true (List.mem_map.mpr ⟨x,
          List.mem_filter.mpr ⟨hx, decide_eq_true ⟨hxo, hxa.trans hat⟩⟩, hid⟩) _
    | forceSubmit =>
      obtain ⟨hid, f, hf, hfo, hfa⟩ := hscope.force ht
      have hfact : s.wasForceSubmitted j.organizationId a.id = true :=
        List.any_eq_true.mpr ⟨f, hf, by simp [hfo, hfa, hat]⟩
      rw [if_neg (by decide),
        if_pos (show IncidentActionType.forceSubmit.text = "force_submit" from rfl),
        Tx.require_true (hid.trans hat), ok_bind]
      exact Tx.require_true hfact _
  · obtain ⟨j, hj, hscope⟩ := hl.interruptionLinks l hl'
    have hinc := incident_found hk hj hscope.incident (ho.symm.trans hscope.organization)
    obtain rfl : organizationId = j.organizationId := ho.symm.trans hscope.organization
    obtain ⟨-, hadmits⟩ := hscope.scope.edge hk (hat ▸ hfind)
    obtain ⟨x, hx, hid, hxo, hxa⟩ := hscope.episode
    refine ⟨⟨j, hinc⟩, ?_⟩
    simp only [validateEdge, relatedIncident, RelatedEdge.incidentId, hinc, orThrow_some, ok_bind,
      hadmits, Tx.require_true, hat]
    exact Tx.require_true (List.mem_map.mpr ⟨x,
        List.mem_filter.mpr ⟨hx, decide_eq_true ⟨hxo, hxa.trans hat⟩⟩, hid⟩) _

theorem validateAdjustmentIncident_of (hk : s.Keys) (hg : AllAttributed s)
    (hfind : s.findAttempt organizationId a.id = some a) {k : String}
    (hin : k ∈ adjustmentIncidentIds s organizationId a.id) :
    (∃ j, incidentById s organizationId k = some j) ∧
      validateAdjustmentIncident s organizationId a k = .ok () := by
  obtain ⟨t, ht, hk'⟩ := List.mem_filterMap.mp hin
  obtain ⟨ht, hdec⟩ := List.mem_filter.mp ht
  obtain ⟨hto, hta⟩ := of_decide_eq_true hdec
  obtain ⟨j, hj, hid, ho, hscope⟩ := hg t ht k hk'
  have hinc := incident_found hk hj hid.symm (hto.symm.trans ho.symm)
  obtain rfl : organizationId = j.organizationId := hto.symm.trans ho.symm
  obtain ⟨-, hadmits⟩ := hscope.edge hk (hta ▸ hfind)
  refine ⟨⟨j, hinc⟩, ?_⟩
  simp only [validateAdjustmentIncident, relatedIncident, hinc, orThrow_some, ok_bind]
  exact Tx.require_true hadmits _

theorem validateRelatedIncidents_of (hk : s.Keys) (hl : Linked s) (ha : Anchored s)
    (hg : AllAttributed s) (hfind : s.findAttempt organizationId a.id = some a) :
    validateRelatedIncidents s organizationId a = .ok () := by
  have hconflict : (s.memberships.find? fun l => l.organizationId = organizationId ∧
      l.incidentId ∈ (anchoredIncidents s organizationId a.id).map (·.id)) = none := by
    refine List.find?_eq_none.mpr fun l hl' hin => ?_
    obtain ⟨-, hanchor⟩ := of_decide_eq_true hin
    obtain ⟨j, hjf, hid⟩ := List.mem_map.mp hanchor
    obtain ⟨hj, hdec⟩ := List.mem_filter.mp hjf
    obtain ⟨-, hat⟩ := of_decide_eq_true hdec
    rw [membership_unanchored hl hk hj hl' hid.symm] at hat
    cases hat
  simp only [validateRelatedIncidents, hconflict]
  simp only [bind_eq_ok, forEach_eq_ok, require_eq_ok, exists_const, Option.isSome_iff_exists,
    List.mem_append, List.mem_map]
  refine ⟨fun k hin => ?_, fun edge he => (validateEdge_of hk hl ha hfind he).2, fun k hin =>
    (validateAdjustmentIncident_of hk hg hfind hin).2⟩
  rcases hin with ⟨edge, he, rfl⟩ | hin
  · exact (validateEdge_of hk hl ha hfind he).1
  · exact (validateAdjustmentIncident_of hk hg hfind hin).1

end

/-! ## What the rest of an attempt's context needs -/

/-- The exam of an attempt has an end, its enrollment is of this exam and candidate, and
its candidate is a user of the organisation. -/
structure ParentsResolve (cols : Columns) (db : Db) (a : AttemptScopeRow) : Prop where
  exam : ∃ e, db.findExam a.organizationId a.examId = some e ∧ cols.closeAt e ≠ none
  enrollment : ∃ e, findEnrollment cols db a.organizationId a = some e ∧ e.examId = a.examId ∧
    some e.candidateId = a.candidateId
  candidate : ∃ c, findCandidate cols a.organizationId a.candidateId = some c ∧
    IsUser cols a.organizationId c

def EpisodeOf (db : Db) (a : AttemptScopeRow) (k : String) : Prop :=
  ∃ x ∈ db.episodes, x.organizationId = a.organizationId ∧ x.attemptId = a.id ∧ x.id = k

/-- The events of an attempt are of its episodes and name its adjustments, and these name
its episodes. -/
structure ReferentsResolve (cols : Columns) (db : Db) (a : AttemptScopeRow) : Prop where
  events : ∀ e ∈ cols.interruptionEvents, e.organizationId = a.organizationId → e.attemptId = a.id →
    EpisodeOf db a e.interruptionId ∧ ∀ k ∈ e.timeAdjustmentId, k ≠ "" →
      ∃ t ∈ db.adjustments, t.organizationId = a.organizationId ∧ t.attemptId = a.id ∧ t.id = k
  adjustments : ∀ t ∈ db.adjustments, t.organizationId = a.organizationId → t.attemptId = a.id →
    ∀ k ∈ cols.interruptionId t, k ≠ "" → EpisodeOf db a k

section
variable {cols : Columns} {db : Db} {a : AttemptScopeRow}

theorem validateParents_eq_ok :
    (∃ r, validateParents cols db a.organizationId a = .ok r) ↔ ParentsResolve cols db a := by
  simp only [validateParents, bind_eq_ok, orThrow_eq_ok, require_eq_ok, pure_eq_ok, exists_const]
  constructor
  · rintro ⟨_, e, he, hclose, x, hx, hsame, c, hc, name, hname, -⟩
    exact ⟨⟨e, he, hclose⟩, ⟨x, hx, hsame⟩, c, hc, displayName_isUser.mp ⟨name, hname⟩⟩
  · rintro ⟨⟨e, he, hclose⟩, ⟨x, hx, hsame⟩, c, hc, huser⟩
    obtain ⟨name, hname⟩ := displayName_isUser.mpr huser
    exact ⟨_, e, he, hclose, x, hx, hsame, c, hc, name, hname, rfl⟩

theorem validateReferents_eq_ok {u : Unit} :
    validateReferents cols db a.organizationId a = .ok u ↔ ReferentsResolve cols db a := by
  have hepisode : ∀ k, k ∈ (episodesOf db a.organizationId a.id).map (·.id) ↔ EpisodeOf db a k := by
    simp [episodesOf, EpisodeOf, and_assoc]
  have hadjustment : ∀ k, k ∈ (timeAdjustmentsOf db a.organizationId a.id).map (·.id) ↔
      ∃ t ∈ db.adjustments, t.organizationId = a.organizationId ∧ t.attemptId = a.id ∧ t.id = k := by
    simp [timeAdjustmentsOf, and_assoc]
  simp only [validateReferents, bind_eq_ok, forEach_eq_ok, require_eq_ok, exists_const, hepisode,
    hadjustment, mem_truthy]
  simp only [interruptionEventsOf, timeAdjustmentsOf, List.mem_filter, decide_eq_true_eq, and_imp]
  constructor
  · rintro ⟨hevents, hgranted, hadjustments⟩
    exact ⟨fun e he ho hat => ⟨hevents e he ho hat, hgranted e he ho hat⟩, hadjustments⟩
  · rintro ⟨hevents, hadjustments⟩
    exact ⟨fun e he ho hat => (hevents e he ho hat).1, fun e he ho hat => (hevents e he ho hat).2,
      hadjustments⟩

end

end

/-- On every committed state of every interleaving of the commands, the deliveries and
the transactions around them, no recovery surface answers 503 for an incident that an
attempt is linked to or that an adjustment names. What is left are the rows outside the
incidents: the surfaces answer exactly when those resolve. -/
theorem recovery_reads_accept [Sha1] (es : List (Event Request)) (cols : Columns)
    (organizationId : String)
    (hids : ∀ a ∈ (Machine.run transaction (.idle empty) es).committed.attempts, a.id ≠ "") :
    let s := (Machine.run transaction (.idle empty) es).committed
    (∀ incidentId, (∃ g, getIncidentAggregate cols s organizationId incidentId = .ok g ∧
        g.map (·.incident) = s.findById organizationId incidentId) ↔
      ∀ i ∈ s.findById organizationId incidentId, ExamResolves s organizationId i.examId ∧
      CandidatesResolve cols s i) ∧
    (∀ incidentId, (∃ d, getProctorIncidentDetail cols s organizationId incidentId = .ok d ∧
        d.map (·.incident) = s.findById organizationId incidentId) ↔
      ∀ i ∈ s.findById organizationId incidentId, ExamResolves s organizationId i.examId) ∧
    ∀ attemptId, (∃ c, getAttemptOperationsContext cols s organizationId attemptId = .ok c ∧
        c.map (·.attempt) = s.findAttempt organizationId attemptId) ↔
      ∀ a ∈ s.findAttempt organizationId attemptId, ParentsResolve cols s a ∧
      ReferentsResolve cols s a := by
  intro s
  have hkeys : s.Keys := intact_keys (holds_run es).inv.intact
  have hlinked : Linked s := linked_run es
  have hanchored : Anchored s := anchored_run es
  have hattributed : AllAttributed s := attributed_run es
  refine ⟨fun incidentId => ?_, fun incidentId => ?_, fun attemptId => ?_⟩
  · cases hi : s.findById organizationId incidentId with
    | none => simp [getIncidentAggregate, hi, pure, Except.pure]
    | some i =>
      obtain ⟨hm, ho, -⟩ := findById_some hi
      obtain ⟨hlinks, hgrants⟩ := linksInScope_of hkeys hlinked hanchored hm
      have hsurface := (recovery_surfaces_agree cols s organizationId incidentId i hids hi).2
      rw [ho] at hsurface
      constructor
      · rintro ⟨g, hg, hmap⟩ j ⟨⟩
        obtain ⟨g', rfl, -⟩ := Option.map_eq_some_iff.mp hmap
        obtain ⟨hexam, -, -, hcandidates⟩ := hsurface.mp ⟨g', hg⟩
        exact ⟨hexam, hcandidates⟩
      · intro h
        obtain ⟨hexam, hcandidates⟩ := h i rfl
        obtain ⟨g, hg⟩ := hsurface.mpr ⟨hexam, hlinks, hgrants, hcandidates⟩
        refine ⟨some g, hg, ?_⟩
        simp only [getIncidentAggregate, hi, bind_eq_ok, pure_eq_ok] at hg
        obtain ⟨_, -, _, -, _, -, _, -, hg⟩ := hg
        rw [← hg]
        rfl
  · cases hi : s.findById organizationId incidentId with
    | none => simp [getProctorIncidentDetail, hi, pure, Except.pure]
    | some i =>
      obtain ⟨hm, ho, -⟩ := findById_some hi
      have hsurface := (recovery_surfaces_agree cols s organizationId incidentId i hids hi).1
      rw [ho] at hsurface
      constructor
      · rintro ⟨d, hd, hmap⟩ j ⟨⟩
        obtain ⟨d', rfl, -⟩ := Option.map_eq_some_iff.mp hmap
        exact (hsurface.mp ⟨d', hd⟩).1
      · intro h
        obtain ⟨d, hd⟩ := hsurface.mpr ⟨h i rfl, (linksInScope_of hkeys hlinked hanchored hm).1⟩
        refine ⟨some d, hd, ?_⟩
        simp only [getProctorIncidentDetail, hi, bind_eq_ok, pure_eq_ok] at hd
        obtain ⟨_, -, _, -, hd⟩ := hd
        rw [← hd]
        rfl
  · cases ha : s.findAttempt organizationId attemptId with
    | none => simp [getAttemptOperationsContext, ha, pure, Except.pure]
    | some a =>
      obtain ⟨-, rfl, hid⟩ := findAttempt_some ha
      have hrelated := validateRelatedIncidents_of hkeys hlinked hanchored hattributed (hid ▸ ha)
      simp only [getAttemptOperationsContext, ha, bind_eq_ok, pure_eq_ok, hrelated,
        ← validateParents_eq_ok, Option.mem_def,
        Option.some.injEq, forall_eq', ← @validateReferents_eq_ok cols s a ()]
      constructor
      · rintro ⟨_, ⟨r, hr, ⟨⟩, hu, -⟩, -⟩
        exact ⟨⟨r, hr⟩, hu⟩
      · rintro ⟨⟨r, hr⟩, hu⟩
        exact ⟨_, ⟨r, hr, (), hu, (), trivial, rfl⟩, rfl⟩

/-- The two incidents of the sample, a grant for the first of them, and the exam and the
enrollment of the attempt. -/
def sampleRecovery : List (Event Request) :=
  sampleDeliveries ++ [.start (.outside (.insertExam ⟨"exam", "org"⟩)),
    .start (.outside (.insertEnrollment ⟨"org", "exam", "candidate"⟩)),
    .start (.grant 5 ⟨"org", "operator", false, 3000⟩ "event-5" "grant-5" "attempt" "incident-1"
      "adjustment")] ++
  [7, 8, 9, 7, 8, 9, 7, 8, 9, 9, 9, 9, 9, 9].map .advance

theorem sampleRecovery_reads :
    ∀ s, s = (Machine.run (@transaction sampleSha1) (.idle empty) sampleRecovery).committed →
    (∀ a ∈ s.attempts, a.id ≠ "") ∧
    s.findAttempt "org" "attempt" = some ⟨"attempt", "org", "exam", some "candidate"⟩ ∧
    s.findExam "org" "exam" = some ⟨"exam", "org"⟩ ∧
    findEnrollment sampleColumns s "org" ⟨"attempt", "org", "exam", some "candidate"⟩ =
      some ⟨"org", "exam", "candidate"⟩ ∧
    (getAttemptOperationsContext sampleColumns s "org" "attempt").map
      (Option.map fun c => (c.relatedEdges.length, c.timeAdjustments.filterMap (·.incidentId))) =
        .ok (some (5, ["incident-1"])) := by
  intro s hs
  rw [hs]
  decide +kernel

theorem sampleColumns_resolve {s : Db}
    (hattempt : s.findAttempt "org" "attempt" = some ⟨"attempt", "org", "exam", some "candidate"⟩)
    (hexam : s.findExam "org" "exam" = some ⟨"exam", "org"⟩)
    (henrollment : findEnrollment sampleColumns s "org"
      ⟨"attempt", "org", "exam", some "candidate"⟩ = some ⟨"org", "exam", "candidate"⟩) :
    ∀ a ∈ s.findAttempt "org" "attempt", ParentsResolve sampleColumns s a ∧
      ReferentsResolve sampleColumns s a := by
  rw [hattempt]
  rintro _ ⟨⟩
  refine ⟨⟨⟨⟨"exam", "org"⟩, hexam, nofun⟩, ⟨⟨"org", "exam", "candidate"⟩, henrollment, rfl, rfl⟩,
    ⟨"candidate", "org", "user"⟩, by decide, _, List.mem_cons_self, rfl, rfl⟩,
    fun _ h => absurd h List.not_mem_nil, fun _ _ _ _ _ h => ?_⟩
  cases h

theorem recovery_reads_accept_sample :
    let s := (Machine.run (@transaction sampleSha1) (.idle empty) sampleRecovery).committed
    ∃ c, getAttemptOperationsContext sampleColumns s "org" "attempt" = .ok c ∧
      c.map (fun c => (c.relatedEdges.length, c.timeAdjustments.filterMap (·.incidentId))) =
        some (5, ["incident-1"]) := by
  obtain ⟨hids, hattempt, hexam, henrollment, hview⟩ := sampleRecovery_reads _ rfl
  obtain ⟨c, hc, -⟩ :=
    ((@recovery_reads_accept sampleSha1 sampleRecovery sampleColumns "org" hids).2.2
        "attempt").mpr (sampleColumns_resolve hattempt hexam henrollment)
  refine ⟨c, hc, ?_⟩
  rw [hc] at hview
  exact Except.ok.inj hview

end ExamSystem.Incidents
