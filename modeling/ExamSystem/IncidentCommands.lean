import ExamSystem.Incidents

/-!
# The incident commands

The nine commands of the operators, the creation of an incident by the system,
the link that a time grant makes, and the lookup of a committed operation after
a conflict.
-/

namespace ExamSystem.Incidents

open Tx Interleaving

structure CommandContext where
  organizationId : String
  actorId : String
  isSystem : Bool
  now : Int
  deriving DecidableEq, Repr

inductive IncidentOutcome
  | applied | idempotentReplayed
  deriving DecidableEq, Repr

structure CommandResult where
  outcome : IncidentOutcome
  incident : ExamIncident
  deriving DecidableEq, Repr

/-! ## Inputs -/

structure CreateIncidentInput where
  operationId : String
  examId : String
  attemptId : Option String
  candidateId : Option String
  type : IncidentType
  severity : Option IncidentSeverity
  occurredAt : Option Int
  description : String
  deriving DecidableEq, Repr

structure StartInvestigationInput where
  operationId : String
  expectedVersion : Nat
  reasonCode : Option String
  reasonText : Option String
  deriving DecidableEq, Repr

structure AddNoteInput where
  operationId : String
  body : String
  deriving DecidableEq, Repr

structure ChangeSeverityInput where
  operationId : String
  expectedVersion : Nat
  severity : IncidentSeverity
  reasonCode : Option String
  reasonText : Option String
  deriving DecidableEq, Repr

structure ResolveIncidentInput where
  operationId : String
  expectedVersion : Nat
  resolutionSummary : String
  reasonCode : Option String
  deriving DecidableEq, Repr

structure DismissIncidentInput where
  operationId : String
  expectedVersion : Nat
  reasonText : String
  reasonCode : Option String
  deriving DecidableEq, Repr

structure LinkActionInput where
  operationId : String
  actionType : IncidentActionType
  actionId : String
  deriving DecidableEq, Repr

structure LinkAttemptInput where
  operationId : String
  attemptId : String
  relationshipType : IncidentRelationshipType
  deriving DecidableEq, Repr

structure LinkInterruptionInput where
  operationId : String
  interruptionId : String
  deriving DecidableEq, Repr

def normalizeString (s : Option String) : Option String :=
  match s with
  | none => none
  | some s => if (trimText s).length = 0 then none else some (trimText s)

def normalizeRequiredString (s field : String) (max : Nat) : Result String := do
  let trimmed := trimText s
  require (trimmed.length ≠ 0) (.validation s!"{field} must not be empty")
  require ((js trimmed).length ≤ max) (.validation s!"{field} must be at most {max} chars")
  pure trimmed

/-! ## Canonical payloads -/

def createPayload (input : CreateIncidentInput) : Result Payload := do
  let description ← normalizeRequiredString input.description "description" 1000
  pure [("examId", .text input.examId), ("attemptId", optionalText input.attemptId),
    ("candidateId", optionalText input.candidateId),
    ("type", .text input.type.text), ("severity", .text (input.severity.getD .info).text),
    ("occurredAt", optionalInstant input.occurredAt), ("description", .text description)]

def notePayload (incidentId : String) (input : AddNoteInput) : Result Payload := do
  let body ← normalizeRequiredString input.body "body" 500
  pure [("incidentId", .text incidentId), ("body", .text body)]

def linkActionPayload (incidentId : String) (actionType : IncidentActionType) (actionId : String) :
    Payload :=
  [("incidentId", .text incidentId), ("actionType", .text actionType.text),
    ("actionId", .text actionId)]

def linkAttemptPayload (incidentId : String) (input : LinkAttemptInput) : Payload :=
  [("incidentId", .text incidentId), ("attemptId", .text input.attemptId),
    ("relationshipType", .text input.relationshipType.text)]

def linkInterruptionPayload (incidentId : String) (input : LinkInterruptionInput) : Payload :=
  [("incidentId", .text incidentId), ("interruptionId", .text input.interruptionId)]

/-- `{ incidentId, expectedVersion, ...bodyFields }`. -/
def versionBumpPayload (incidentId : String) (expectedVersion : Nat) (bodyFields : Payload) : Payload :=
  spread [("incidentId", .text incidentId), ("expectedVersion", .number expectedVersion)] bodyFields

def reasonFields (reasonCode reasonText : Option String) : Payload :=
  [("reasonCode", optionalText (normalizeString reasonCode)),
    ("reasonText", optionalText (normalizeString reasonText))]

def investigateFields (input : StartInvestigationInput) : Payload :=
  reasonFields input.reasonCode input.reasonText

def severityFields (input : ChangeSeverityInput) : Payload :=
  ("severity", .text input.severity.text) :: reasonFields input.reasonCode input.reasonText

def resolveFields (input : ResolveIncidentInput) (resolutionSummary : String) : Payload :=
  [("resolutionSummary", .text resolutionSummary),
    ("reasonCode", optionalText (normalizeString input.reasonCode))]

def dismissFields (input : DismissIncidentInput) (reasonText : String) : Payload :=
  [("reasonText", .text reasonText), ("reasonCode", optionalText (normalizeString input.reasonCode))]

/-! ## Replays -/

def isMatchingCommittedOperation (committed : ExamIncidentEvent) (commandType : CommandType)
    (canonicalPayload : Payload) : Bool :=
  committed.commandType = commandType ∧ payloadsEqual committed.payload canonicalPayload = true

def alreadyUsed (operationId : String) (existing : ExamIncidentEvent) : EngineError :=
  .idempotencyConflict s!"Operation {operationId} already used for {existing.commandType.text}"

def replayOf (db : Db) (organizationId operationId : String) (commandType : CommandType)
    (canonicalPayload : Payload) (missing : EngineError) : Result (Option CommandResult) :=
  match db.findEventByOperationId organizationId operationId with
  | none => pure none
  | some existing =>
    if isMatchingCommittedOperation existing commandType canonicalPayload then do
      let incident ← orThrow (db.findById organizationId existing.incidentId) missing
      pure (some { outcome := .idempotentReplayed, incident := incident })
    else .error (alreadyUsed operationId existing)

def preReadOperationId (db : Db) (organizationId operationId : String) (commandType : CommandType)
    (canonicalPayload : Payload) :
    Result (Option CommandResult) :=
  replayOf db organizationId operationId commandType canonicalPayload (.notFound "Incident not found")

/-! ## Scope -/

def validateScopeQuadruple (incident : ExamIncident) (targetAttempt : AttemptScopeRow)
    (targetAttemptId ctxOrgId : String) : Result Unit := do
  require (targetAttempt.organizationId = ctxOrgId) (.validation "Cross-organization attempt reference")
  require (targetAttempt.examId = incident.examId)
    (.validation "Target attempt belongs to a different exam")
  require (∀ a ∈ incident.attemptId, a = targetAttemptId)
    (.validation "Target attempt does not match incident anchor")
  require (∀ c ∈ incident.candidateId, targetAttempt.candidateId = some c)
    (.validation "Target attempt candidate does not match incident candidate")

/-! ## Append-only commands -/

section
variable (ctx : CommandContext) (eventId : String)

def newEvent (incidentId : String) (eventType : IncidentEventType) (commandType : CommandType)
    (operationId : String) (beforeVersion afterVersion : Nat) (payload : Payload) :
    ExamIncidentEvent :=
  { id := eventId, organizationId := ctx.organizationId, incidentId := incidentId,
    eventType := eventType, commandType := commandType
    operationId := uuidText operationId, actorId := ctx.actorId, beforeVersion := beforeVersion
    afterVersion := afterVersion
    payload := payload, createdAt := ctx.now }

def audit (action : String) (metadata : Payload) : Action Unit :=
  .write (.audit
    { action := action, organizationId := ctx.organizationId, actorId := ctx.actorId,
      metadata := metadata })

def resolveAnchor (db : Db) (input : CreateIncidentInput) : Result (Option String × Option String) :=
  match input.attemptId with
  | some attemptId => do
    let attempt ← orThrow (db.findAttempt ctx.organizationId attemptId) (.notFound "Attempt not found")
    require (attempt.examId = input.examId) (.validation "Anchored attempt belongs to a different exam")
    require (∀ c ∈ input.candidateId, attempt.candidateId = some c)
      (.validation "Candidate does not match attempt enrollment")
    pure (some attemptId, attempt.candidateId)
  | none =>
    match input.candidateId with
    | some candidateId => do
      require (db.isEnrolled ctx.organizationId input.examId candidateId)
        (.validation "Candidate is not enrolled in this exam")
      pure (none, some candidateId)
    | none => pure (none, none)

def newIncident (input : CreateIncidentInput) (freshId : String)
    (anchor : Option String × Option String) (description : String) :
    ExamIncident :=
  { id := uuidText freshId, organizationId := ctx.organizationId, examId := input.examId,
    attemptId := anchor.1, candidateId := anchor.2
    type := input.type, severity := input.severity.getD .info, status := .opened
    occurredAt := input.occurredAt
    description := description, resolutionSummary := none, resolvedAt := none, resolvedBy := none
    reportedBy := ctx.actorId
    version := 1, createdAt := ctx.now, updatedAt := ctx.now }

def createdMetadata (incident : ExamIncident) : Payload :=
  [("incidentId", .text incident.id), ("examId", .text incident.examId)] ++
    (incident.attemptId.map fun a => ("attemptId", Field.text a)).toList ++
    [("type", .text incident.type.text), ("version", .number 1)]

def createExamIncident (input : CreateIncidentInput) (freshId : String) :
    Action (Option CommandResult) := do
  let canonicalPayload ← .ofExcept (createPayload input)
  let snap ← .snapshot
  match ← .ofExcept
    (preReadOperationId snap ctx.organizationId input.operationId .createExamIncident
      canonicalPayload) with
  | some replay => pure (some replay)
  | none =>
    .ofExcept (require (snap.findExam ctx.organizationId input.examId).isSome
        (.notFound "Exam not found"))
    let anchor ← .ofExcept (resolveAnchor ctx snap input)
    let incident := newIncident ctx input freshId anchor (trimText input.description)
    .write (.insertIncident incident)
    appendEvent (newEvent ctx eventId incident.id .incidentCreated .createExamIncident
        input.operationId 0 1 canonicalPayload)
    audit ctx "incident.created" (createdMetadata incident)
    pure (some { outcome := .applied, incident := incident })

def addIncidentNote (incidentId : String) (input : AddNoteInput) : Action (Option CommandResult) := do
  let canonicalPayload ← .ofExcept (notePayload incidentId input)
  let snap ← .snapshot
  match ← .ofExcept (preReadOperationId snap ctx.organizationId input.operationId .addIncidentNote
      canonicalPayload) with
  | some replay => pure (some replay)
  | none =>
    let incident ← .ofExcept (orThrow (snap.findById ctx.organizationId incidentId)
        (.notFound "Incident not found"))
    appendEvent (newEvent ctx eventId incident.id .noteAdded .addIncidentNote input.operationId
        incident.version incident.version
      canonicalPayload)
    audit ctx "incident.note_added" [("incidentId", .text incidentId), ("noteId", .text eventId),
      ("version", .number incident.version)]
    pure (some { outcome := .applied, incident := incident })

def actionAttempt (lookupAdjustmentAttempt : String → Option String)
    (actionType : IncidentActionType) (actionId : String) : Result String :=
  match actionType with
  | .timeGrant => orThrow (lookupAdjustmentAttempt actionId) (.notFound "Time adjustment not found")
  | .forceSubmit => pure actionId

def actionScope (db : Db) (lookupAdjustmentAttempt : String → Option String)
    (incident : ExamIncident) (actionType : IncidentActionType) (actionId : String) :
    Result String := do
  require ((db.findActionLinkByAction ctx.organizationId actionType actionId).isNone)
    (.incidentActionAlreadyLinked s!"action:{actionType.text}:{actionId}")
  let attemptId ← actionAttempt lookupAdjustmentAttempt actionType actionId
  let attempt ← orThrow (db.findAttempt ctx.organizationId attemptId)
    (.notFound "Target attempt not found")
  validateScopeQuadruple incident attempt attemptId ctx.organizationId
  require (actionType = .forceSubmit → db.wasForceSubmitted ctx.organizationId attemptId = true)
    (.validation "Attempt was not force-submitted")
  pure attemptId

/-- The command from its first query on, whose snapshot is `snap`. -/
def linkIncidentActionFrom (snap : Db) (lookupAdjustmentAttempt : String → Option String)
    (incidentId : String) (input : LinkActionInput) :
    Action (Option CommandResult) := do
  let canonicalPayload := linkActionPayload incidentId input.actionType input.actionId
  match ← .ofExcept
    (preReadOperationId snap ctx.organizationId input.operationId .linkIncidentAction
      canonicalPayload) with
  | some replay => pure (some replay)
  | none =>
    let incident ← .ofExcept (orThrow (snap.findById ctx.organizationId incidentId)
        (.notFound "Incident not found"))
    let attemptId ← .ofExcept
      (actionScope ctx snap lookupAdjustmentAttempt incident input.actionType input.actionId)
    appendEvent (newEvent ctx eventId incident.id .actionLinked .linkIncidentAction
        input.operationId incident.version incident.version
      canonicalPayload)
    insertActionLink
      { organizationId := ctx.organizationId, incidentId := incident.id,
        actionType := input.actionType, actionId := input.actionId
        attemptId := attemptId, actorId := ctx.actorId, linkedAt := ctx.now
        operationId := uuidText input.operationId }
    audit ctx "incident.action_linked" [("incidentId", .text incidentId),
      ("actionType", .text input.actionType.text),
      ("actionId", .text input.actionId), ("attemptId", .text attemptId), ("version",
        .number incident.version)]
    pure (some { outcome := .applied, incident := incident })

def linkIncidentAction (incidentId : String) (input : LinkActionInput) :
    Action (Option CommandResult) := do
  let snap ← .snapshot
  linkIncidentActionFrom ctx eventId snap (fun id => (snap.findAdjustment ctx.organizationId id).map
      (·.attemptId)) incidentId input

/-- The check that an attempt is in the scope of an incident with no anchor. -/
def membershipScope (db : Db) (incident : ExamIncident) (attemptId : String) : Result Unit := do
  require (incident.attemptId = none)
    (.invalidStateTransition "Cannot add attempt membership to an anchored incident")
  let attempt ← orThrow (db.findAttempt ctx.organizationId attemptId)
    (.notFound "Target attempt not found")
  validateScopeQuadruple incident attempt attemptId ctx.organizationId

def linkIncidentAttempt (incidentId : String) (input : LinkAttemptInput) :
    Action (Option CommandResult) := do
  let canonicalPayload := linkAttemptPayload incidentId input
  let snap ← .snapshot
  match ← .ofExcept
    (preReadOperationId snap ctx.organizationId input.operationId .linkIncidentAttempt
      canonicalPayload) with
  | some replay => pure (some replay)
  | none =>
    let incident ← .ofExcept (orThrow (snap.findById ctx.organizationId incidentId)
        (.notFound "Incident not found"))
    .ofExcept (membershipScope ctx snap incident input.attemptId)
    appendEvent (newEvent ctx eventId incident.id .attemptLinked .linkIncidentAttempt
        input.operationId incident.version incident.version
      canonicalPayload)
    insertAttemptMembership
      { organizationId := ctx.organizationId, incidentId := incident.id, attemptId := input.attemptId
        relationshipType := input.relationshipType, linkedAt := ctx.now, linkedBy := ctx.actorId
        operationId := uuidText input.operationId }
    audit ctx "incident.attempt_linked" [("incidentId", .text incidentId),
      ("attemptId", .text input.attemptId),
      ("relationshipType", .text input.relationshipType.text), ("version", .number incident.version)]
    pure (some { outcome := .applied, incident := incident })

def interruptionScope (db : Db) (incident : ExamIncident) (interruptionId : String) :
    Result EpisodeRow := do
  let episode ← orThrow (db.findEpisode ctx.organizationId interruptionId)
    (.notFound "Interruption episode not found")
  let attempt ← orThrow (db.findAttempt ctx.organizationId episode.attemptId)
    (.notFound "Target attempt not found")
  validateScopeQuadruple incident attempt episode.attemptId ctx.organizationId
  require (∀ a ∈ incident.attemptId, a = episode.attemptId)
    (.validation "Interruption episode does not belong to the incident's anchored attempt")
  pure episode

def linkIncidentInterruption (incidentId : String) (input : LinkInterruptionInput) :
    Action (Option CommandResult) := do
  let canonicalPayload := linkInterruptionPayload incidentId input
  let snap ← .snapshot
  match ← .ofExcept
    (preReadOperationId snap ctx.organizationId input.operationId .linkIncidentInterruption
      canonicalPayload) with
  | some replay => pure (some replay)
  | none =>
    let incident ← .ofExcept (orThrow (snap.findById ctx.organizationId incidentId)
        (.notFound "Incident not found"))
    let episode ← .ofExcept (interruptionScope ctx snap incident input.interruptionId)
    appendEvent (newEvent ctx eventId incident.id .interruptionLinked .linkIncidentInterruption
        input.operationId incident.version
      incident.version canonicalPayload)
    insertInterruptionLink
      { organizationId := ctx.organizationId, incidentId := incident.id, attemptId := episode.attemptId
        interruptionId := uuidText input.interruptionId, linkedAt := ctx.now, linkedBy := ctx.actorId
        operationId := uuidText input.operationId }
      (.incidentActionAlreadyLinked s!"interruption:{input.interruptionId}")
    audit ctx "incident.interruption_linked" [("incidentId", .text incidentId),
      ("interruptionId", .text input.interruptionId),
      ("attemptId", .text episode.attemptId), ("version", .number incident.version)]
    pure (some { outcome := .applied, incident := incident })

/-! ## Version-bumping commands -/

structure VersionBump where
  commandType : CommandType
  bodyFields : Payload
  allowedStatuses : List IncidentStatus
  eventType : IncidentEventType
  auditAction : String
  auditMetadata : ExamIncident → ExamIncident → Nat → Payload
  eventPayload : ExamIncident → ExamIncident → Payload
  updateFields : Nat → Int → UpdateIncidentInput

/-- The second look at the operation, under the row lock but in the same snapshot. -/
def lockedReplay (snap : Db) (locked : ExamIncident) (operationId : String)
    (commandType : CommandType) (canonicalPayload : Payload) :
    Result (Option CommandResult) :=
  match snap.findEventByOperationId ctx.organizationId operationId with
  | none => pure none
  | some lockedEvent =>
    if lockedEvent.commandType = commandType ∧
      payloadsEqual lockedEvent.payload canonicalPayload = true then
      pure (some { outcome := .idempotentReplayed, incident := locked })
    else .error (alreadyUsed operationId lockedEvent)

def checkTransition (locked : ExamIncident) (expectedVersion : Nat)
    (allowedStatuses : List IncidentStatus) : Result Unit := do
  require (locked.version = expectedVersion) (.incidentVersionConflict expectedVersion locked.version)
  require (locked.status ∉ TERMINAL_STATUSES)
    (.invalidStateTransition "Incident is already in a terminal state")
  require (locked.status ∈ allowedStatuses)
    (.invalidStateTransition s!"Cannot transition incident from status: {locked.status.text}")

def versionBumpCommand (incidentId operationId : String) (expectedVersion : Nat)
    (deps : VersionBump) : Action (Option CommandResult) := do
  let canonicalPayload := versionBumpPayload incidentId expectedVersion deps.bodyFields
  let snap ← .snapshot
  match ← .ofExcept (preReadOperationId snap ctx.organizationId operationId deps.commandType
      canonicalPayload) with
  | some replay => pure (some replay)
  | none =>
    let locked ← .ofExcept (orThrow (snap.findById ctx.organizationId incidentId)
        (.notFound "Incident not found"))
    .hold [.incident locked.id] (fun db => db.findById ctx.organizationId incidentId) snap
      .serializationFailure
    match ← .ofExcept (lockedReplay ctx snap locked operationId deps.commandType canonicalPayload) with
    | some replay => pure (some replay)
    | none =>
      .ofExcept (checkTransition locked expectedVersion deps.allowedStatuses)
      let newVersion := locked.version + 1
      let updates := deps.updateFields newVersion ctx.now
      let updated := locked.update updates
      .write (.updateIncident ctx.organizationId locked.id updates)
      appendEvent (newEvent ctx eventId locked.id deps.eventType deps.commandType operationId
          locked.version newVersion
        (spread canonicalPayload (deps.eventPayload locked updated)))
      audit ctx deps.auditAction (deps.auditMetadata locked updated newVersion)
      pure (some { outcome := .applied, incident := updated })

def investigateBump (input : StartInvestigationInput) : VersionBump :=
  { commandType := .startIncidentInvestigation
    bodyFields := investigateFields input
    allowedStatuses := [.opened]
    eventType := .investigationStarted
    auditAction := "incident.investigated"
    auditMetadata := fun _ after newVersion => [("incidentId", .text after.id),
      ("version", .number newVersion),
      ("reasonCode", optionalText (normalizeString input.reasonCode))]
    eventPayload := fun _ _ => reasonFields input.reasonCode input.reasonText
    updateFields := fun newVersion now => ⟨some .investigating, none, newVersion, none, none,
      none, now⟩ }

def severityBump (input : ChangeSeverityInput) : VersionBump :=
  { commandType := .changeIncidentSeverity
    bodyFields := severityFields input
    allowedStatuses := [.opened, .investigating]
    eventType := .severityChanged
    auditAction := "incident.severity_changed"
    auditMetadata := fun before after newVersion => [("incidentId", .text after.id),
      ("beforeSeverity", .text before.severity.text),
      ("afterSeverity", .text after.severity.text), ("version", .number newVersion),
      ("reasonCode", optionalText (normalizeString input.reasonCode))]
    eventPayload := fun before after => [("beforeSeverity", .text before.severity.text),
      ("afterSeverity", .text after.severity.text)] ++
      reasonFields input.reasonCode input.reasonText
    updateFields := fun newVersion now => ⟨none, some input.severity, newVersion, none, none,
      none, now⟩ }

def resolveBump (input : ResolveIncidentInput) (resolutionSummary : String) : VersionBump :=
  { commandType := .resolveExamIncident
    bodyFields := resolveFields input resolutionSummary
    allowedStatuses := [.opened, .investigating]
    eventType := .incidentResolved
    auditAction := "incident.resolved"
    auditMetadata := fun _ after newVersion => [("incidentId", .text after.id),
      ("version", .number newVersion),
      ("reasonCode", optionalText (normalizeString input.reasonCode))]
    eventPayload := fun _ _ => resolveFields input resolutionSummary
    updateFields := fun newVersion now =>
      ⟨some .resolved, none, newVersion, some resolutionSummary, some ctx.actorId, some now, now⟩ }

def dismissBump (input : DismissIncidentInput) (reasonText : String) : VersionBump :=
  { commandType := .dismissExamIncident
    bodyFields := dismissFields input reasonText
    allowedStatuses := [.opened, .investigating]
    eventType := .incidentDismissed
    auditAction := "incident.dismissed"
    auditMetadata := fun _ after newVersion => [("incidentId", .text after.id),
      ("version", .number newVersion),
      ("reasonCode", optionalText (normalizeString input.reasonCode))]
    eventPayload := fun _ _ => dismissFields input reasonText
    updateFields := fun newVersion now => ⟨some .dismissed, none, newVersion, none,
      some ctx.actorId, some now, now⟩ }

def startIncidentInvestigation (incidentId : String) (input : StartInvestigationInput) :
    Action (Option CommandResult) :=
  versionBumpCommand ctx eventId incidentId input.operationId input.expectedVersion
    (investigateBump input)

def changeIncidentSeverity (incidentId : String) (input : ChangeSeverityInput) :
    Action (Option CommandResult) :=
  versionBumpCommand ctx eventId incidentId input.operationId input.expectedVersion (severityBump input)

def resolveExamIncident (incidentId : String) (input : ResolveIncidentInput) :
    Action (Option CommandResult) := do
  let resolutionSummary ← .ofExcept
    (normalizeRequiredString input.resolutionSummary "resolutionSummary" 1000)
  versionBumpCommand ctx eventId incidentId input.operationId input.expectedVersion
    (resolveBump ctx input resolutionSummary)

def dismissExamIncident (incidentId : String) (input : DismissIncidentInput) :
    Action (Option CommandResult) := do
  let reasonText ← .ofExcept (normalizeRequiredString input.reasonText "reasonText" 1000)
  versionBumpCommand ctx eventId incidentId input.operationId input.expectedVersion
    (dismissBump ctx input reasonText)

end

/-! ## The system's incidents -/

/-- `createHash("sha1")` of `node:crypto`. -/
class Sha1 where
  digest : List UInt8 → List UInt8

def hexDigit (n : Nat) : Char := "0123456789abcdef".toList.getD n '0'

def hex (bytes : List UInt8) : List Char :=
  bytes.flatMap fun b => [hexDigit (b.toNat / 16), hexDigit (b.toNat % 16)]

/-- `e710e942-731b-4016-a784-debcc5e02e59`. -/
def SYSTEM_INCIDENT_OPERATION_NAMESPACE : List UInt8 :=
  [0xe7, 0x10, 0xe9, 0x42, 0x73, 0x1b, 0x40, 0x16, 0xa7, 0x84, 0xde, 0xbc, 0xc5, 0xe0, 0x2e, 0x59]

def systemIncidentOperationId [Sha1] (episodeId : String) : String :=
  let digest := Sha1.digest (SYSTEM_INCIDENT_OPERATION_NAMESPACE ++ episodeId.toUTF8.toList)
  let digest := digest.modify 6 fun b => (b &&& 0x0f) ||| 0x50
  let digest := digest.modify 8 fun b => (b &&& 0x3f) ||| 0x80
  let hex := hex (digest.take 16)
  String.ofList (hex.take 8 ++ '-' :: (hex.drop 8).take 4 ++ '-' :: (hex.drop 12).take 4 ++ '-' ::
      (hex.drop 16).take 4 ++
    '-' :: (hex.drop 20).take 12)

def SYSTEM_INCIDENT_TYPE : IncidentType := .networkInterruption

def SYSTEM_INCIDENT_SEVERITY : IncidentSeverity := .info

def INCIDENT_DETECTOR : String := "system:incident-detector"

structure HeartbeatEpisodeFact where
  interruptionId : String
  examId : String
  attemptId : String
  candidateId : Option String
  occurredAt : Int
  observedLastActivityAt : Option Int
  timeoutSeconds : Option Nat
  deriving DecidableEq, Repr

/-- The digits of `n`, at least `width` of them. -/
def padded (width : Nat) (n : Int) : String :=
  let digits := toString n.natAbs
  String.ofList (List.replicate (width - digits.length) '0') ++ digits

def civilDate (day : Int) : Int × Int × Int :=
  let z := day + 719468
  let era := z / 146097
  let dayOfEra := z % 146097
  let yearOfEra := (dayOfEra - dayOfEra / 1460 + dayOfEra / 36524 - dayOfEra / 146096) / 365
  let dayOfYear := dayOfEra - (365 * yearOfEra + yearOfEra / 4 - yearOfEra / 100)
  let shifted := (5 * dayOfYear + 2) / 153
  let month := if shifted < 10 then shifted + 3 else shifted - 9
  (yearOfEra + era * 400 + (if month ≤ 2 then 1 else 0), month, dayOfYear - (153 * shifted + 2) / 5 + 1)

def toISOString (t : Int) : String :=
  let (year, month, day) := civilDate (t / 86400000)
  let ms := t % 86400000
  let yearText :=
    if 0 ≤ year ∧ year ≤ 9999 then padded 4 year
    else (if year < 0 then "-" else "+") ++ padded 6 year
  s!"{yearText}-{padded 2 month}-{padded 2 day}T{padded 2 (ms / 3600000)}:{padded 2 (ms / 60000 % 60)}:" ++
    s!"{padded 2 (ms / 1000 % 60)}.{padded 3 (ms % 1000)}Z"

example : toISOString 951827696789 = "2000-02-29T12:34:56.789Z" := by decide +kernel

def systemIncidentDescription (fact : HeartbeatEpisodeFact) : String :=
  let lastActivity := (fact.observedLastActivityAt.map toISOString).getD "unknown"
  let timeout := (fact.timeoutSeconds.map fun n => s!"{n}s").getD "the configured window"
  s!"System detected a heartbeat disruption (heartbeat_timeout): no candidate heartbeat for {timeout}, last activity observed at " ++
    s!"{lastActivity}. Interruption episode {fact.interruptionId}."

def deriveSystemIncidentCanonicalPayload (fact : HeartbeatEpisodeFact) : Payload :=
  [("examId", .text fact.examId), ("attemptId", .text fact.attemptId),
    ("candidateId", optionalText fact.candidateId),
    ("type", .text SYSTEM_INCIDENT_TYPE.text), ("severity", .text SYSTEM_INCIDENT_SEVERITY.text),
    ("occurredAt", .instant fact.occurredAt),
    ("description", .text (systemIncidentDescription fact)), ("interruptionId",
      .text fact.interruptionId)]

section
variable [Sha1] (ctx : CommandContext) (eventId : String)

def checkFact (db : Db) (episodeId : String) : Result HeartbeatEpisodeFact := do
  require (ctx.isSystem = true ∧ ctx.actorId = INCIDENT_DETECTOR)
    (.permissionDenied "System incident creation is restricted to system:incident-detector")
  let episode ← orThrow (db.findEpisode ctx.organizationId episodeId)
    (.notFound "Interruption episode not found")
  let detected ← orThrow (db.findDetected ctx.organizationId episodeId)
    (.notFound "Interruption episode detected event not found")
  require detected.heartbeat (.validation "Interruption episode is not a heartbeat-detected episode")
  let attempt ← orThrow (db.findAttempt ctx.organizationId episode.attemptId)
    (.notFound "Attempt not found")
  pure { interruptionId := episodeId, examId := attempt.examId, attemptId := episode.attemptId,
          candidateId := attempt.candidateId
         occurredAt := detected.occurredAt, observedLastActivityAt := detected.observedLastActivityAt
         timeoutSeconds := detected.timeoutSeconds }

def systemIncident (fact : HeartbeatEpisodeFact) (freshId : String) : ExamIncident :=
  { id := uuidText freshId, organizationId := ctx.organizationId, examId := fact.examId,
    attemptId := some fact.attemptId
    candidateId := fact.candidateId, type := SYSTEM_INCIDENT_TYPE
    severity := SYSTEM_INCIDENT_SEVERITY, status := .opened
    occurredAt := some fact.occurredAt, description := systemIncidentDescription fact,
    resolutionSummary := none, resolvedAt := none
    resolvedBy := none, reportedBy := ctx.actorId, version := 1, createdAt := ctx.now
    updatedAt := ctx.now }

def createSystemIncidentFromHeartbeatEpisode (episodeId freshId : String) :
    Action (Option CommandResult) := do
  let snap ← .snapshot
  let fact ← .ofExcept (checkFact ctx snap episodeId)
  let canonicalPayload := deriveSystemIncidentCanonicalPayload fact
  let operationId := systemIncidentOperationId episodeId
  match ← .ofExcept
    (preReadOperationId snap ctx.organizationId operationId
      .createSystemIncidentFromHeartbeatEpisode canonicalPayload) with
  | some replay => pure (some replay)
  | none =>
    let incident := systemIncident ctx fact freshId
    .write (.insertIncident incident)
    appendEvent (newEvent ctx eventId incident.id .incidentCreated
        .createSystemIncidentFromHeartbeatEpisode operationId 0 1
      canonicalPayload)
    insertInterruptionLink
      { organizationId := ctx.organizationId, incidentId := incident.id,
        attemptId := fact.attemptId, interruptionId := uuidText episodeId
        linkedAt := ctx.now, linkedBy := ctx.actorId, operationId := uuidText operationId }
      (.uniqueViolation "exam_incident_interruption_links_incident_interruption_unique")
    audit ctx "incident.created" (createdMetadata incident)
    pure (some { outcome := .applied, incident := incident })

/-! ### Reconciliation -/

/-- The facts of a heartbeat-detected episode, joined from its event, its row and its attempt. -/
def heartbeatDetectedEpisode (db : Db) (organizationId : String) (detected : DetectedEvent) :
    Option HeartbeatEpisodeFact := do
  let episode ← db.episodes.find? fun e => e.organizationId = organizationId ∧
    e.id = detected.interruptionId
  let attempt ← db.findAttempt organizationId episode.attemptId
  pure { interruptionId := detected.interruptionId, examId := attempt.examId,
          attemptId := episode.attemptId
         candidateId := attempt.candidateId, occurredAt := detected.occurredAt
         observedLastActivityAt := detected.observedLastActivityAt
         timeoutSeconds := detected.timeoutSeconds }

def listHeartbeatDetectedEpisodes (db : Db) (organizationId : String) : List HeartbeatEpisodeFact :=
  ((db.detected.filter fun e => e.organizationId = organizationId ∧ e.heartbeat = true).filterMap
    (heartbeatDetectedEpisode db organizationId)).mergeSort fun f f' =>
      f.occurredAt < f'.occurredAt ∨
        (f.occurredAt = f'.occurredAt ∧ f.interruptionId ≤ f'.interruptionId)

def isDelivered (db : Db) (organizationId : String) (fact : HeartbeatEpisodeFact) : Bool :=
  match db.findEventByOperationId organizationId (systemIncidentOperationId fact.interruptionId) with
  | none => false
  | some committed =>
    isMatchingCommittedOperation committed .createSystemIncidentFromHeartbeatEpisode
      (deriveSystemIncidentCanonicalPayload fact)

def reconcileSystemIncidents (db : Db) (organizationId : String) : List HeartbeatEpisodeFact :=
  (listHeartbeatDetectedEpisodes db organizationId).filter fun fact =>
    !isDelivered db organizationId fact

end

/-! ## The transactions -/

inductive IncidentCommand
  | createExamIncident (input : CreateIncidentInput) (freshId : String)
  | startIncidentInvestigation (incidentId : String) (input : StartInvestigationInput)
  | addIncidentNote (incidentId : String) (input : AddNoteInput)
  | changeIncidentSeverity (incidentId : String) (input : ChangeSeverityInput)
  | resolveExamIncident (incidentId : String) (input : ResolveIncidentInput)
  | dismissExamIncident (incidentId : String) (input : DismissIncidentInput)
  | linkIncidentAction (incidentId : String) (input : LinkActionInput)
  | linkIncidentAttempt (incidentId : String) (input : LinkAttemptInput)
  | linkIncidentInterruption (incidentId : String) (input : LinkInterruptionInput)
  deriving DecidableEq, Repr

namespace IncidentCommand

def commandType : IncidentCommand → CommandType
  | createExamIncident _ _ => .createExamIncident
  | startIncidentInvestigation _ _ => .startIncidentInvestigation
  | addIncidentNote _ _ => .addIncidentNote
  | changeIncidentSeverity _ _ => .changeIncidentSeverity
  | resolveExamIncident _ _ => .resolveExamIncident
  | dismissExamIncident _ _ => .dismissExamIncident
  | linkIncidentAction _ _ => .linkIncidentAction
  | linkIncidentAttempt _ _ => .linkIncidentAttempt
  | linkIncidentInterruption _ _ => .linkIncidentInterruption

def operationId : IncidentCommand → String
  | createExamIncident input _ => input.operationId
  | startIncidentInvestigation _ input => input.operationId
  | addIncidentNote _ input => input.operationId
  | changeIncidentSeverity _ input => input.operationId
  | resolveExamIncident _ input => input.operationId
  | dismissExamIncident _ input => input.operationId
  | linkIncidentAction _ input => input.operationId
  | linkIncidentAttempt _ input => input.operationId
  | linkIncidentInterruption _ input => input.operationId

def canonicalPayload : IncidentCommand → Result Payload
  | createExamIncident input _ => createPayload input
  | startIncidentInvestigation incidentId input =>
    pure (versionBumpPayload incidentId input.expectedVersion (investigateFields input))
  | addIncidentNote incidentId input => notePayload incidentId input
  | changeIncidentSeverity incidentId input =>
    pure (versionBumpPayload incidentId input.expectedVersion (severityFields input))
  | resolveExamIncident incidentId input => do
    let resolutionSummary ← normalizeRequiredString input.resolutionSummary "resolutionSummary" 1000
    pure (versionBumpPayload incidentId input.expectedVersion (resolveFields input resolutionSummary))
  | dismissExamIncident incidentId input => do
    let reasonText ← normalizeRequiredString input.reasonText "reasonText" 1000
    pure (versionBumpPayload incidentId input.expectedVersion (dismissFields input reasonText))
  | linkIncidentAction incidentId input =>
    pure (linkActionPayload incidentId input.actionType input.actionId)
  | linkIncidentAttempt incidentId input => pure (linkAttemptPayload incidentId input)
  | linkIncidentInterruption incidentId input => pure (linkInterruptionPayload incidentId input)

def action (ctx : CommandContext) (eventId : String) : IncidentCommand → Action (Option CommandResult)
  | createExamIncident input freshId => Incidents.createExamIncident ctx eventId input freshId
  | startIncidentInvestigation incidentId input =>
    Incidents.startIncidentInvestigation ctx eventId incidentId input
  | addIncidentNote incidentId input => Incidents.addIncidentNote ctx eventId incidentId input
  | changeIncidentSeverity incidentId input =>
    Incidents.changeIncidentSeverity ctx eventId incidentId input
  | resolveExamIncident incidentId input => Incidents.resolveExamIncident ctx eventId incidentId input
  | dismissExamIncident incidentId input => Incidents.dismissExamIncident ctx eventId incidentId input
  | linkIncidentAction incidentId input => Incidents.linkIncidentAction ctx eventId incidentId input
  | linkIncidentAttempt incidentId input => Incidents.linkIncidentAttempt ctx eventId incidentId input
  | linkIncidentInterruption incidentId input =>
    Incidents.linkIncidentInterruption ctx eventId incidentId input

end IncidentCommand

/-- The read-only lookup after a conflict; `none` keeps the error at hand. -/
def resolveCommittedOperation (organizationId operationId : String) (commandType : CommandType)
    (canonicalPayload : Result Payload) :
    Action (Option CommandResult) := do
  let canonicalPayload ← .ofExcept canonicalPayload
  let snap ← .snapshot
  .ofExcept (replayOf snap organizationId operationId commandType canonicalPayload
    (.idempotencyConflict s!"Operation {operationId} committed but its incident is missing"))

/-- The checks that `grantAttemptTime` makes of the incident that it is given. -/
def grantScope (incident : ExamIncident) (attempt : AttemptScopeRow) : Result Unit := do
  require (incident.examId = attempt.examId)
    (.validation "Incident belongs to a different exam than the attempt")
  require (∀ a ∈ incident.attemptId, a = attempt.id)
    (.validation "Incident is anchored to a different attempt")
  require (∀ c ∈ incident.candidateId, attempt.candidateId = some c)
    (.validation "Incident candidate does not match the attempt candidate")

/-- The part of an operator's time grant that concerns an incident: the ledger
row of the grant, found or inserted, is linked in the same transaction. -/
def grantAndLink (ctx : CommandContext) (eventId operationId attemptId incidentId freshId : String) :
    Action (Option CommandResult) := do
  let snap ← .snapshot
  let attempt ← .ofExcept (orThrow (snap.findAttempt ctx.organizationId attemptId)
      (.notFound "Attempt not found"))
  match snap.findAdjustmentByOperationId ctx.organizationId operationId with
  | some existing =>
    -- the stored id is canonical, and the one of the request is compared as it came
    .ofExcept (require (existing.attemptId = attemptId ∧ existing.incidentId = some incidentId)
      (.idempotencyConflict "Operation id reused with a different payload"))
    linkIncidentActionFrom ctx eventId snap (fun _ => some attemptId) incidentId ⟨operationId,
      .timeGrant, existing.id⟩
  | none =>
    let incident ← .ofExcept (orThrow (snap.findById ctx.organizationId incidentId)
        (.notFound "Incident not found"))
    .ofExcept (grantScope incident attempt)
    .write (.insertAdjustment ⟨freshId, ctx.organizationId, uuidText operationId, attemptId,
        some (uuidText incidentId)⟩)
    linkIncidentActionFrom ctx eventId snap (fun _ => some attemptId) incidentId ⟨operationId,
      .timeGrant, freshId⟩

/-- A transaction of an HTTP request: the command, or the lookup of its recovery,
which may run at any time. -/
structure Call where
  requestId : Nat
  ctx : CommandContext
  eventId : String
  command : IncidentCommand
  lookup : Bool
  deriving DecidableEq, Repr

/-- A delivery of the incident of an episode, or the lookup of its recovery. The
facts come from the ledger, where the id of the episode is canonical. -/
structure Delivery where
  requestId : Nat
  ctx : CommandContext
  eventId : String
  fact : HeartbeatEpisodeFact
  freshId : String
  lookup : Bool
  deriving DecidableEq, Repr

/-- The other transactions that write what the commands read. Their adjustments
name no incident. -/
inductive Outside
  | insertExam (e : ExamRow)
  | insertAttempt (a : AttemptScopeRow)
  | insertEnrollment (e : EnrollmentRow)
  | insertAdjustment (a : AdjustmentRow)
  | recordForceSubmit (a : ForceSubmitAudit)
  | detectInterruption (e : EpisodeRow) (d : DetectedEvent)
  deriving DecidableEq, Repr

inductive Request
  | call (c : Call)
  | delivery (d : Delivery)
  | grant (requestId : Nat) (ctx : CommandContext)
      (eventId operationId attemptId incidentId freshId : String)
  | outside (o : Outside)
  deriving DecidableEq, Repr

def Call.action (c : Call) : Action (Option CommandResult) :=
  if c.lookup then
    resolveCommittedOperation c.ctx.organizationId c.command.operationId c.command.commandType
      c.command.canonicalPayload
  else c.command.action c.ctx c.eventId

def Delivery.episodeId (d : Delivery) : String := uuidText d.fact.interruptionId

def Delivery.action [Sha1] (d : Delivery) : Action (Option CommandResult) :=
  if d.lookup then
    resolveCommittedOperation d.ctx.organizationId (systemIncidentOperationId d.episodeId)
      .createSystemIncidentFromHeartbeatEpisode
      (pure (deriveSystemIncidentCanonicalPayload { d.fact with interruptionId := d.episodeId }))
  else createSystemIncidentFromHeartbeatEpisode d.ctx d.eventId d.episodeId d.freshId

def Outside.action : Outside → Action (Option CommandResult)
  | insertExam e => do
    .write (.insertExam e)
    pure none
  | insertAttempt a => do
    .write (.insertAttempt a)
    pure none
  | insertEnrollment e => do
    .write (.insertEnrollment e)
    pure none
  | insertAdjustment a => do
    .write (.insertAdjustment { a with incidentId := none })
    pure none
  | recordForceSubmit a => do
    .write (.recordForceSubmit a)
    pure none
  | detectInterruption e d => do
    .write (.insertEpisode e)
    .write (.insertDetected d)
    pure none

def Request.action [Sha1] : Request → Action (Option CommandResult)
  | call c => c.action
  | delivery d => d.action
  | grant _ ctx eventId operationId attemptId incidentId freshId =>
    grantAndLink ctx eventId operationId attemptId incidentId freshId
  | outside o => o.action

abbrev Reply := Except EngineError (Option CommandResult)

def transaction [Sha1] (r : Request) : Prog Db Write LockKey EngineError Reply := r.action.settle

end ExamSystem.Incidents
