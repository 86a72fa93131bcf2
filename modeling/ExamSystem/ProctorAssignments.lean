import ExamSystem.Statements
import ExamSystem.TimeGrants

/-!
# The proctors of an exam

The assignment episodes of a proctor, the receipts of the commands that open
and close them, and the transactions that recover from a lost race.
-/

namespace ExamSystem.Proctors

open Tx Interleaving

/-! ## Rows -/

inductive AssignmentStatus
  | active | revoked
  deriving DecidableEq, Repr

structure ExamProctorAssignment where
  id : String
  organizationId : String
  examId : String
  proctorUserId : String
  status : AssignmentStatus
  assignedBy : String
  assignedAt : Int
  revokedBy : Option String
  revokedAt : Option Int
  createdAt : Int
  deriving DecidableEq, Repr

inductive CommandType
  | assign | revoke
  deriving DecidableEq, Repr

def CommandType.text : CommandType → String
  | .assign => "assign"
  | .revoke => "revoke"

/-- `{ examId, proctorUserId, reasonCode }`. -/
structure CanonicalPayload where
  examId : String
  proctorUserId : String
  reasonCode : Option String
  deriving DecidableEq, Repr

inductive EventOutcome
  | applied | noChange
  deriving DecidableEq, Repr

structure ExamProctorAssignmentEvent where
  organizationId : String
  assignmentId : String
  commandType : CommandType
  operationId : String
  canonicalPayload : CanonicalPayload
  outcome : EventOutcome
  actorId : String
  createdAt : Int
  deriving DecidableEq, Repr

structure AuditRecord where
  action : String
  organizationId : String
  examId : String
  proctorUserId : String
  assignmentId : String
  actorId : String
  operationId : String
  at' : Int
  reasonCode : Option String
  deriving DecidableEq, Repr

structure ExamRef where
  organizationId : String
  id : String
  deriving DecidableEq, Repr

structure ProctorUser where
  id : String
  organizationId : String
  isActive : Bool
  hasActiveProctorRole : Bool
  deriving DecidableEq, Repr

structure Db where
  assignments : List ExamProctorAssignment
  events : List ExamProctorAssignmentEvent
  audits : List AuditRecord
  exams : List ExamRef
  users : List ProctorUser
  deriving DecidableEq, Repr

/-! ## Queries -/

namespace Db

def findById (db : Db) (organizationId assignmentId : String) : Option ExamProctorAssignment :=
  db.assignments.find? fun a => a.organizationId = organizationId ∧ a.id = assignmentId

def ofPair (organizationId examId proctorUserId : String) (a : ExamProctorAssignment) : Bool :=
  a.organizationId = organizationId ∧ a.examId = examId ∧ a.proctorUserId = proctorUserId

def findActiveByExamAndProctor (db : Db) (organizationId examId proctorUserId : String) :
    Option ExamProctorAssignment :=
  db.assignments.find? fun a => ofPair organizationId examId proctorUserId a ∧ a.status = .active

/-- The first row under `ORDER BY … DESC, id DESC`. -/
def latest (instant : ExamProctorAssignment → Option Int) :
    List ExamProctorAssignment → Option ExamProctorAssignment
  | [] => none
  | a :: rows =>
    match latest instant rows with
    | none => some a
    | some b =>
      let before := (instant b).getD 0 < (instant a).getD 0 ∨ (instant b = instant a ∧ b.id < a.id)
      if before then some a else some b

def findMostRecentEpisodeByExamAndProctor (db : Db) (organizationId examId proctorUserId : String) :
    Option ExamProctorAssignment :=
  latest (fun a => some a.createdAt)
    (db.assignments.filter (ofPair organizationId examId proctorUserId))

def findMostRecentRevoked (db : Db) (organizationId examId proctorUserId : String) :
    Option ExamProctorAssignment :=
  latest (·.revokedAt) (db.assignments.filter fun a => ofPair organizationId examId proctorUserId
      a ∧ a.status = .revoked)

def findEventByOperationId (db : Db) (organizationId operationId : String) :
    Option ExamProctorAssignmentEvent :=
  db.events.find? fun e => e.organizationId = organizationId ∧ e.operationId = operationId

end Db

/-! ## Writes -/

def ExamProctorAssignment.revoke (a : ExamProctorAssignment) (revokedBy : String) (revokedAt : Int) :
    ExamProctorAssignment :=
  { a with status := .revoked, revokedBy := some revokedBy, revokedAt := some revokedAt }

inductive Write
  | insertAssignment (a : ExamProctorAssignment)
  | revokeAssignment (organizationId assignmentId revokedBy : String) (revokedAt : Int)
  | appendEvent (e : ExamProctorAssignmentEvent)
  | audit (r : AuditRecord)
  | createExam (e : ExamRef)
  | changeUser (u : ProctorUser)
  deriving DecidableEq, Repr

inductive LockKey
  | assignment (id : String)
  | activeEpisode (organizationId examId proctorUserId : String)
  | operation (organizationId operationId : String)
  deriving DecidableEq, Repr

def Write.apply (db : Db) : Write → Db
  | insertAssignment a => { db with assignments := db.assignments ++ [a] }
  | revokeAssignment organizationId assignmentId revokedBy revokedAt =>
    { db with assignments := db.assignments.map fun a =>
        if a.organizationId = organizationId ∧
        a.id = assignmentId then a.revoke revokedBy revokedAt else a }
  | appendEvent e => { db with events := db.events ++ [e] }
  | audit r => { db with audits := db.audits ++ [r] }
  | createExam e => { db with exams := db.exams ++ [e] }
  | changeUser u => { db with users := db.users.filter (fun v => v.id ≠ u.id) ++ [u] }

def Write.keys : Write → List LockKey
  | insertAssignment a => [.assignment a.id, .activeEpisode a.organizationId a.examId a.proctorUserId]
  | revokeAssignment _ assignmentId _ _ => [.assignment assignmentId]
  | appendEvent e => [.operation e.organizationId e.operationId]
  | _ => []

/-- The primary key, the two unique indexes and the foreign key of the receipts. -/
def Db.intact (db : Db) : Bool :=
  (db.assignments.map (·.id)).Nodup ∧
  ((db.assignments.filter fun a => a.status = .active).map fun a => (a.organizationId, a.examId,
      a.proctorUserId)).Nodup ∧
  (db.events.map fun e => (e.organizationId, e.operationId)).Nodup ∧
  ∀ e ∈ db.events, (db.findById e.organizationId e.assignmentId).isSome

instance : Journal Db Write LockKey where
  apply := Write.apply
  keys := Write.keys
  intact := Db.intact

abbrev Action := Prog Db Write LockKey EngineError

def insertAssignment (a : ExamProctorAssignment) : Action Unit :=
  .insert [.assignment a.id, .activeEpisode a.organizationId a.examId a.proctorUserId]
    (.insertAssignment a) fun db =>
    if db.assignments.any (·.id = a.id) then some (.uniqueViolation "exam_proctor_assignments_pkey")
    else if (db.findActiveByExamAndProctor a.organizationId a.examId a.proctorUserId).isSome then
      some (.uniqueViolation "exam_proctor_assignments_active_unique")
    else none

def appendEvent (e : ExamProctorAssignmentEvent) : Action Unit :=
  .insert [.operation e.organizationId e.operationId] (.appendEvent e) fun db =>
    if (db.findEventByOperationId e.organizationId e.operationId).isSome then
      some (.uniqueViolation "exam_proctor_assignment_events_org_operation_unique")
    else none

/-! ## Commands -/

structure CommandContext where
  organizationId : String
  actorId : String
  now : Int
  deriving DecidableEq, Repr

/-- The operation id is a `uuid` in the table: its text is canonical there. -/
structure ProctorInput where
  operationId : String
  examId : String
  proctorUserId : String
  reasonCode : Option String
  deriving DecidableEq, Repr

inductive CommandOutcome
  | applied | noChange | idempotentReplayed
  deriving DecidableEq, Repr

structure CommandResult where
  outcome : CommandOutcome
  assignment : ExamProctorAssignment
  deriving DecidableEq, Repr

def REASON_CODE_MAX_LENGTH : Nat := 100

def normalizeReasonCode (reasonCode : Option String) : Result (Option String) :=
  match reasonCode with
  | none => pure none
  | some reasonCode =>
    let trimmed := trimText reasonCode
    if (js trimmed).length = 0 then pure none
    else do
      require ((js trimmed).length ≤ REASON_CODE_MAX_LENGTH)
        (.validation s!"reasonCode must be at most {REASON_CODE_MAX_LENGTH} chars")
      pure (some trimmed)

def canonicalAssignmentPayload (input : ProctorInput) : Result CanonicalPayload := do
  let reasonCode ← normalizeReasonCode input.reasonCode
  pure { examId := input.examId, proctorUserId := input.proctorUserId, reasonCode := reasonCode }

section
variable (ctx : CommandContext) (input : ProctorInput)

def replayOf (db : Db) (commandType : CommandType) (canonicalPayload : CanonicalPayload)
    (missing : EngineError) :
    Result (Option CommandResult) :=
  match db.findEventByOperationId ctx.organizationId (uuidText input.operationId) with
  | none => pure none
  | some existing =>
    if existing.commandType = commandType ∧ existing.canonicalPayload = canonicalPayload then do
      let assignment ← orThrow (db.findById ctx.organizationId existing.assignmentId) missing
      pure (some { outcome := .idempotentReplayed, assignment := assignment })
    else .error (.idempotencyConflict
        s!"Operation {input.operationId} already used for {existing.commandType.text}")

def preReadOperationId (db : Db) (commandType : CommandType) (canonicalPayload : CanonicalPayload) :
    Result (Option CommandResult) :=
  replayOf ctx input db commandType canonicalPayload (.notFound "Assignment not found")

def lookupTargets (db : Db) : Result Unit := do
  require (db.exams.any fun e => e.organizationId = ctx.organizationId ∧ e.id = input.examId)
    (.notFound "Exam not found")
  let proctor ← orThrow (db.users.find? fun u => u.organizationId = ctx.organizationId ∧
    u.id = input.proctorUserId)
    (.notFound "Proctor user not found")
  require proctor.isActive (.validation "Target user is inactive")
  require proctor.hasActiveProctorRole (.validation "Target user does not have an active Proctor role")

def receipt (commandType : CommandType) (canonicalPayload : CanonicalPayload)
    (assignmentId : String) (outcome : EventOutcome) :
    ExamProctorAssignmentEvent :=
  { organizationId := ctx.organizationId, assignmentId := assignmentId, commandType := commandType
    operationId := uuidText input.operationId, canonicalPayload := canonicalPayload, outcome := outcome
    actorId := ctx.actorId, createdAt := ctx.now }

def auditRecord (action assignmentId : String) (reasonCode : Option String) : AuditRecord :=
  { action := action, organizationId := ctx.organizationId, examId := input.examId,
    proctorUserId := input.proctorUserId
    assignmentId := assignmentId, actorId := ctx.actorId
    operationId := input.operationId, at' := ctx.now
    reasonCode := reasonCode }

def newEpisode (id : String) : ExamProctorAssignment :=
  { id := id, organizationId := ctx.organizationId, examId := input.examId,
    proctorUserId := input.proctorUserId
    status := .active, assignedBy := ctx.actorId, assignedAt := ctx.now, revokedBy := none
    revokedAt := none
    createdAt := ctx.now }

def assignProctorToExam (freshId : String) : Action (Option CommandResult) := do
  let canonicalPayload ← .ofExcept (canonicalAssignmentPayload input)
  let snap ← .snapshot
  match ← .ofExcept (preReadOperationId ctx input snap .assign canonicalPayload) with
  | some replay => pure (some replay)
  | none =>
    .ofExcept (lookupTargets ctx input snap)
    match snap.findActiveByExamAndProctor ctx.organizationId input.examId input.proctorUserId with
    | some existing =>
      appendEvent (receipt ctx input .assign canonicalPayload existing.id .noChange)
      pure (some { outcome := .noChange, assignment := existing })
    | none =>
      let assignment := newEpisode ctx input freshId
      insertAssignment assignment
      appendEvent (receipt ctx input .assign canonicalPayload assignment.id .applied)
      .write (.audit
          (auditRecord ctx input "exam.proctor_assigned" assignment.id canonicalPayload.reasonCode))
      pure (some { outcome := .applied, assignment := assignment })

/-- The target is locked: the active episode, else the last revoked one. -/
def lockEpisode (snap : Db) (target : ExamProctorAssignment) : Action Unit :=
  .hold [.assignment target.id] (fun db => db.findById ctx.organizationId target.id) snap
    .serializationFailure

def revokeProctorFromExam : Action (Option CommandResult) := do
  let canonicalPayload ← .ofExcept (canonicalAssignmentPayload input)
  let snap ← .snapshot
  match ← .ofExcept (preReadOperationId ctx input snap .revoke canonicalPayload) with
  | some replay => pure (some replay)
  | none =>
    match snap.findActiveByExamAndProctor ctx.organizationId input.examId input.proctorUserId with
    | some target =>
      lockEpisode ctx snap target
      .write (.revokeAssignment ctx.organizationId target.id ctx.actorId ctx.now)
      appendEvent (receipt ctx input .revoke canonicalPayload target.id .applied)
      .write (.audit
          (auditRecord ctx input "exam.proctor_revoked" target.id canonicalPayload.reasonCode))
      pure (some { outcome := .applied, assignment := target.revoke ctx.actorId ctx.now })
    | none =>
      match snap.findMostRecentRevoked ctx.organizationId input.examId input.proctorUserId with
      | none => .fail (.notFound "Proctor assignment not found")
      | some target =>
        lockEpisode ctx snap target
        appendEvent (receipt ctx input .revoke canonicalPayload target.id .noChange)
        pure (some { outcome := .noChange, assignment := target })

/-! ## Recovery -/

def formLoserReceipt (commandType : CommandType) : Action (Option CommandResult) := do
  let canonicalPayload ← .ofExcept (canonicalAssignmentPayload input)
  let snap ← .snapshot
  match ← .ofExcept (preReadOperationId ctx input snap commandType canonicalPayload) with
  | some replay => pure (some replay)
  | none =>
    let active := snap.findActiveByExamAndProctor ctx.organizationId canonicalPayload.examId
      canonicalPayload.proctorUserId
    let recent := snap.findMostRecentEpisodeByExamAndProctor ctx.organizationId
      canonicalPayload.examId canonicalPayload.proctorUserId
    match active.or recent with
    | none => .fail (.notFound "Assignment episode not found")
    | some episode =>
      appendEvent (receipt ctx input commandType canonicalPayload episode.id .noChange)
      pure (some { outcome := .noChange, assignment := episode })

/-- The read-only lookup after a second failure; `none` keeps the error at hand. -/
def resolveCommittedOperation (commandType : CommandType) : Action (Option CommandResult) := do
  let canonicalPayload ← .ofExcept (canonicalAssignmentPayload input)
  let snap ← .snapshot
  .ofExcept (replayOf ctx input snap commandType canonicalPayload
    (.idempotencyConflict s!"Operation {input.operationId} committed but its assignment is missing"))

end

/-! ## The transactions -/

inductive Command
  | assign (freshId : String)
  | revoke
  | loserReceipt (commandType : CommandType)
  | committedOperation (commandType : CommandType)
  deriving DecidableEq, Repr

/-- A transaction of an HTTP request. The recovery of a request runs one of the
last two commands, or the first ones again, at any time. -/
structure Call where
  requestId : Nat
  ctx : CommandContext
  input : ProctorInput
  command : Command
  deriving DecidableEq, Repr

inductive Request
  | call (c : Call)
  | createExam (e : ExamRef)
  | changeUser (u : ProctorUser)
  deriving DecidableEq, Repr

def Call.action (c : Call) : Action (Option CommandResult) :=
  match c.command with
  | .assign freshId => assignProctorToExam c.ctx c.input freshId
  | .revoke => revokeProctorFromExam c.ctx c.input
  | .loserReceipt commandType => formLoserReceipt c.ctx c.input commandType
  | .committedOperation commandType => resolveCommittedOperation c.ctx c.input commandType

def Request.action : Request → Action (Option CommandResult)
  | .call c => c.action
  | .createExam e => do
    .write (.createExam e)
    pure none
  | .changeUser u => do
    .write (.changeUser u)
    pure none

abbrev Reply := Except EngineError (Option CommandResult)

def transaction (r : Request) : Prog Db Write LockKey EngineError Reply := r.action.settle

def empty : Db := { assignments := [], events := [], audits := [], exams := [], users := [] }

end ExamSystem.Proctors
