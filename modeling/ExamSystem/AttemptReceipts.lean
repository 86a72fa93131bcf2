import ExamSystem.Statements
import ExamSystem.PayloadEquality
import ExamSystem.ForceSubmitSound

/-!
# The receipts of the attempt commands

A force submit and a misconduct mark share one table of receipts. An execution
looks the operation up, runs its transaction, and after a violation of the
unique index of the table looks it up once more.
-/

namespace ExamSystem.AttemptCommands

open Tx Interleaving Payloads

/-! ## Payloads -/

inductive AttemptCommandType
  | forceSubmit | misconductMark
  deriving DecidableEq, Repr

def AttemptCommandType.text : AttemptCommandType → String
  | .forceSubmit => "force_submit"
  | .misconductMark => "misconduct_mark"

inductive MisconductSeverity
  | warning | serious
  deriving DecidableEq, Repr

def MisconductSeverity.text : MisconductSeverity → String
  | .warning => "warning"
  | .serious => "serious"

inductive RequestPayload
  | forceSubmit (reason : JsString)
  | misconductMark (severity : MisconductSeverity) (notes : JsString)
  deriving DecidableEq, Repr

structure MisconductFlag where
  flaggedAt : Int
  flaggedBy : String
  notes : JsString
  severity : MisconductSeverity
  deriving DecidableEq, Repr

inductive ResultPayload
  | forceSubmit (beforeStatus afterStatus : AttemptStatus) (submittedAt gradedAt : Option Int)
      (appliedAt : Int)
  | misconductMark (misconduct : Option MisconductFlag) (appliedAt : Int)
  deriving DecidableEq, Repr

def RequestPayload.commandType : RequestPayload → AttemptCommandType
  | .forceSubmit _ => .forceSubmit
  | .misconductMark _ _ => .misconductMark

def ResultPayload.commandType : ResultPayload → AttemptCommandType
  | .forceSubmit _ _ _ _ _ => .forceSubmit
  | .misconductMark _ _ => .misconductMark

def RequestPayload.json : RequestPayload → Tree Double
  | .forceSubmit reason => .obj [(js "reason", .str reason)]
  | .misconductMark severity notes => .obj [(js "severity", .str (js severity.text)),
      (js "notes", .str notes)]

def canonicalizeForceSubmitPayload (reason : JsString) : Result RequestPayload := do
  let trimmedReason := trim reason
  require (trimmedReason.length ≠ 0)
    (.validation "force_submit canonical payload requires a non-empty reason after trim (J5-R0 §8.1)")
  pure (.forceSubmit trimmedReason)

def canonicalizeMisconductPayload (severity : MisconductSeverity) (notes : JsString) :
    Result RequestPayload := do
  let trimmedNotes := trim notes
  require (trimmedNotes.length ≠ 0)
    (.validation "misconduct_mark canonical payload requires non-empty notes after trim")
  pure (.misconductMark severity trimmedNotes)

/-! ## Receipts -/

inductive AttemptCommandOutcome
  | applied | noChange
  deriving DecidableEq, Repr

structure AttemptCommandReceipt where
  id : String
  organizationId : String
  attemptId : String
  operationId : String
  commandType : AttemptCommandType
  requestPayload : RequestPayload
  resultPayload : ResultPayload
  outcome : AttemptCommandOutcome
  actorId : String
  createdAt : Int
  deriving DecidableEq, Repr

inductive ConflictReason
  | commandType | attemptId | payload
  deriving DecidableEq, Repr

inductive AttemptCommandReplayDecision
  | replay
  | conflict (reason : ConflictReason)
  deriving DecidableEq, Repr

def classifyAttemptCommandReplay [Host] (stored : AttemptCommandReceipt)
    (requestedCommandType : AttemptCommandType) (requestedAttemptId : String)
    (requestedCanonicalPayload : RequestPayload) : AttemptCommandReplayDecision :=
  if stored.commandType ≠ requestedCommandType then .conflict .commandType
  else if stored.attemptId ≠ requestedAttemptId then .conflict .attemptId
  else if ¬ attemptCommandPayloadsEqual stored.requestPayload.json
    requestedCanonicalPayload.json then .conflict .payload
  else .replay

def RequestPayload.parse : RequestPayload → Option RequestPayload
  | .forceSubmit reason => if 1 ≤ (trim reason).length ∧
      (trim reason).length ≤ 500 then some (.forceSubmit (trim reason)) else none
  | .misconductMark severity notes =>
    if 1 ≤ (trim notes).length ∧
      (trim notes).length ≤ 1000 then some (.misconductMark severity (trim notes)) else none

def ResultPayload.accepted : ResultPayload → Bool
  | .forceSubmit _ _ _ _ _ => true
  | .misconductMark misconduct _ => misconduct.all fun flag =>
    1 ≤ flag.notes.length && flag.notes.length ≤ 1000

def receiptRowToRecord (row : AttemptCommandReceipt) : Result AttemptCommandReceipt := do
  let malformed :=
    EngineError.error s!"Stored attempt command receipt {row.id} is malformed; refusing to classify"
  let requestPayload ← orThrow row.requestPayload.parse malformed
  require (row.resultPayload.accepted = true ∧ requestPayload.commandType = row.commandType ∧
    row.resultPayload.commandType = row.commandType) malformed
  pure { row with requestPayload := requestPayload }

inductive AttemptCommandDisposition
  | applied | noChange | idempotentReplay
  deriving DecidableEq, Repr

structure AttemptCommandReceiptResponse where
  operationId : String
  commandType : AttemptCommandType
  disposition : AttemptCommandDisposition
  outcome : AttemptCommandOutcome
  resultPayload : ResultPayload
  createdAt : Int
  deriving DecidableEq, Repr

def receiptRowToWireResponse (receipt : AttemptCommandReceipt)
    (disposition : AttemptCommandDisposition) : AttemptCommandReceiptResponse :=
  { operationId := receipt.operationId, commandType := receipt.commandType, disposition := disposition
    outcome :=
      match disposition with
      | .idempotentReplay => receipt.outcome
      | .applied => .applied
      | .noChange => .noChange
    resultPayload := receipt.resultPayload, createdAt := receipt.createdAt }

def AttemptCommandOutcome.disposition : AttemptCommandOutcome → AttemptCommandDisposition
  | .applied => .applied
  | .noChange => .noChange

/-! ## Rows and writes -/

/-- The rows of one enrollment and the `misconduct` column of its attempts. -/
structure EnrollmentRows where
  organizationId : String
  rows : ExamSystem.Db
  misconduct : List (String × MisconductFlag)
  deriving DecidableEq

structure AuditRecord where
  action : String
  organizationId : String
  actorId : String
  targetId : String
  operationId : String
  payload : RequestPayload
  deriving DecidableEq, Repr

structure Db where
  enrollments : List EnrollmentRows
  receipts : List AttemptCommandReceipt
  audits : List AuditRecord
  deriving DecidableEq

def EnrollmentRows.findAttempt (e : EnrollmentRows) (attemptId : String) :
    Option (ExamAttempt × Option MisconductFlag) :=
  (e.rows.findAttempt attemptId).map fun a => (a, e.misconduct.lookup attemptId)

namespace Db

def findEnrollment (db : Db) (organizationId attemptId : String) : Option EnrollmentRows :=
  db.enrollments.find? fun e => e.organizationId = organizationId ∧
    (e.rows.findAttempt attemptId).isSome

def findAttempt (db : Db) (organizationId attemptId : String) :
    Option (ExamAttempt × Option MisconductFlag) :=
  (db.findEnrollment organizationId attemptId).bind (·.findAttempt attemptId)

def findByOperationId (db : Db) (organizationId operationId : String) : Option AttemptCommandReceipt :=
  db.receipts.find? fun r => r.organizationId = organizationId ∧ r.operationId = uuidText operationId

def mapEnrollments (db : Db) (f : EnrollmentRows → EnrollmentRows) : Db :=
  { db with enrollments := db.enrollments.map f }

end Db

/-- `updateRows` is what a command leaves of the rows of its enrollment, under
the locks of the enrollment and of the attempts it names; the exam is not its own. -/
inductive Write
  | insertReceipt (r : AttemptCommandReceipt)
  | updateRows (organizationId : String) (attemptIds : List String) (rows : ExamSystem.Db)
  | updateMisconduct (organizationId attemptId : String) (flag : MisconductFlag)
  | insertAudit (r : AuditRecord)
  | enroll (e : EnrollmentRows)
  | updateAttempt (organizationId : String) (attempt : ExamAttempt)
  | updateExam (organizationId : String) (exam : Exam)

inductive LockKey
  | enrollment (organizationId enrollmentId : String)
  | attempt (organizationId attemptId : String)
  | exam (organizationId examId : String)
  | receipt (id : String)
  | operation (organizationId operationId : String)
  deriving DecidableEq, Repr

def EnrollmentRows.flag (e : EnrollmentRows) (attemptId : String) (flag : MisconductFlag) :
    EnrollmentRows :=
  { e with misconduct := (attemptId, flag) :: e.misconduct.filter fun m => m.1 ≠ attemptId }

def Write.apply (db : Db) : Write → Db
  | insertReceipt r => { db with receipts := db.receipts ++ [r] }
  | updateRows organizationId _ rows =>
    db.mapEnrollments fun e =>
      if e.organizationId = organizationId ∧ e.rows.enrollment.id = rows.enrollment.id then
        { e with rows := { rows with exam := e.rows.exam } }
      else e
  | updateMisconduct organizationId attemptId flag =>
    db.mapEnrollments fun e =>
      if e.organizationId = organizationId ∧
        (e.rows.findAttempt attemptId).isSome then e.flag attemptId flag else e
  | insertAudit r => { db with audits := db.audits ++ [r] }
  | enroll e => { db with enrollments := db.enrollments ++ [e] }
  | updateAttempt organizationId attempt =>
    db.mapEnrollments fun e =>
      if e.organizationId = organizationId then
        { e with rows := e.rows.updateAttempt attempt.id fun _ => attempt } else e
  | updateExam organizationId exam =>
    db.mapEnrollments fun e =>
      if e.organizationId = organizationId ∧
        e.rows.exam.id = exam.id then { e with rows := { e.rows with exam := exam } } else e

def Write.keys : Write → List LockKey
  | insertReceipt r => [.receipt r.id, .operation r.organizationId r.operationId]
  | updateRows organizationId attemptIds rows =>
    .enrollment organizationId rows.enrollment.id :: attemptIds.map (.attempt organizationId ·)
  | updateMisconduct organizationId attemptId _ => [.attempt organizationId attemptId]
  | insertAudit _ => []
  | enroll e => [.enrollment e.organizationId e.rows.enrollment.id]
  | updateAttempt organizationId attempt => [.attempt organizationId attempt.id]
  | updateExam organizationId exam => [.exam organizationId exam.id]

/-- The primary key, the unique index and the foreign key of the receipts. -/
def Db.intact (db : Db) : Bool :=
  (db.receipts.map (·.id)).Nodup ∧ (db.receipts.map fun r => (r.organizationId, r.operationId)).Nodup ∧
    ∀ r ∈ db.receipts, (db.findEnrollment r.organizationId r.attemptId).isSome

instance : Journal Db Write LockKey where
  apply := Write.apply
  keys := Write.keys
  intact := Db.intact

abbrev Action := Prog Db Write LockKey EngineError

def ATTEMPT_COMMAND_RECEIPT_OPERATION_UNIQUE_CONSTRAINT : String :=
  "attempt_command_receipts_org_operation_unique"

def assertPayloadMatchesCommandType (r : AttemptCommandReceipt) : Result Unit := do
  require (r.requestPayload.commandType = r.commandType)
    (.error s!"requestPayload shape belongs to {r.requestPayload.commandType.text}, not {r.commandType.text}")
  require (r.resultPayload.commandType = r.commandType)
    (.error s!"resultPayload.commandType {r.resultPayload.commandType.text} does not match {r.commandType.text}")

def insertReceipt (r : AttemptCommandReceipt) : Action Unit := do
  .ofExcept (assertPayloadMatchesCommandType r)
  .insert [.receipt r.id, .operation r.organizationId r.operationId] (.insertReceipt r) fun db =>
    if db.receipts.any (·.id = r.id) then some (.uniqueViolation "attempt_command_receipts_pkey")
    else if (db.findByOperationId r.organizationId r.operationId).isSome then
      some (.uniqueViolation ATTEMPT_COMMAND_RECEIPT_OPERATION_UNIQUE_CONSTRAINT)
    else none

/-! ## The commands -/

structure RequestContext where
  organizationId : String
  actorId : String
  deriving DecidableEq, Repr

inductive AttemptCommand
  | forceSubmit (reason : JsString)
  | misconductMark (severity : MisconductSeverity) (notes : JsString)
  deriving DecidableEq, Repr

structure OperationInput where
  attemptId : String
  operationId : String
  command : AttemptCommand
  now : Int
  deriving DecidableEq, Repr

def AttemptCommand.commandType : AttemptCommand → AttemptCommandType
  | .forceSubmit _ => .forceSubmit
  | .misconductMark _ _ => .misconductMark

def AttemptCommand.canonicalPayload : AttemptCommand → Result RequestPayload
  | .forceSubmit reason => canonicalizeForceSubmitPayload reason
  | .misconductMark severity notes => canonicalizeMisconductPayload severity notes

def conflictReasonMessage (reason : ConflictReason) (storedAttemptId : String) : String :=
  match reason with
  | .commandType => "reused with a different command type"
  | .attemptId => s!"already used for attempt {storedAttemptId}"
  | .payload => "reused with a different payload"

section
variable [Host] (ctx : RequestContext) (input : OperationInput)

def classifyStoredReceipt (stored : AttemptCommandReceipt) (canonicalPayload : RequestPayload) :
    Result AttemptCommandReceiptResponse := do
  let receipt ← receiptRowToRecord stored
  match classifyAttemptCommandReplay receipt input.command.commandType input.attemptId
    canonicalPayload with
  | .replay => pure (receiptRowToWireResponse receipt .idempotentReplay)
  | .conflict reason =>
    .error (.idempotencyConflict (s!"Operation {input.operationId} is already committed: " ++
      conflictReasonMessage reason stored.attemptId))

def preReadStoredReceipt : Action (Option AttemptCommandReceiptResponse) := do
  let canonicalPayload ← .ofExcept input.command.canonicalPayload
  let snap ← .snapshot
  match snap.findByOperationId ctx.organizationId input.operationId with
  | none => pure none
  | some stored => do
    let response ← .ofExcept (classifyStoredReceipt input stored canonicalPayload)
    pure (some response)

def runReceiptRecovery : Action (Option AttemptCommandReceiptResponse) := do
  let canonicalPayload ← .ofExcept input.command.canonicalPayload
  let snap ← .snapshot
  match snap.findByOperationId ctx.organizationId input.operationId with
  | none =>
    .fail (.error (s!"Invariant failure: operation {input.operationId} hit the receipt " ++
      "unique constraint but no winner receipt is visible in a fresh transaction"))
  | some stored => do
    let response ← .ofExcept (classifyStoredReceipt input stored canonicalPayload)
    pure (some response)

def receiptOf (freshId : String) (requestPayload : RequestPayload) (resultPayload : ResultPayload)
    (outcome : AttemptCommandOutcome) :
    AttemptCommandReceipt :=
  { id := freshId, organizationId := ctx.organizationId, attemptId := input.attemptId,
    operationId := uuidText input.operationId
    commandType := input.command.commandType, requestPayload := requestPayload
    resultPayload := resultPayload
    outcome := outcome, actorId := ctx.actorId, createdAt := input.now }

def auditRecord (action : String) (payload : RequestPayload) : AuditRecord :=
  { action := action, organizationId := ctx.organizationId, actorId := ctx.actorId,
      targetId := input.attemptId
    operationId := input.operationId, payload := payload }

def firstResponse (row : AttemptCommandReceipt) : Result (Option AttemptCommandReceiptResponse) := do
  let receipt ← receiptRowToRecord row
  pure (some (receiptRowToWireResponse receipt row.outcome.disposition))

/-! ### Force submit -/

def planOutcome (plan : ForceSubmitExecutionPlan) : AttemptCommandOutcome :=
  if plan.needsSubmit then .applied else .noChange

def planResultPayload (locked : ExamAttempt) (plan : ForceSubmitExecutionPlan) : ResultPayload :=
  .forceSubmit locked.status plan.afterStatus plan.submittedAt plan.gradedAt input.now

def lockRows (snap : Db) (cap : LockedEnrollmentAttemptIdentity) : Action Unit := do
  .hold [.enrollment ctx.organizationId cap.enrollmentId]
    (fun db => (db.findEnrollment ctx.organizationId cap.attemptId).map (·.rows.enrollment)) snap
      .serializationFailure
  .hold [.attempt ctx.organizationId cap.attemptId] (·.findAttempt ctx.organizationId cap.attemptId)
    snap .serializationFailure

def runForceSubmitTransaction (freshId : String) : Action (Option AttemptCommandReceiptResponse) := do
  let canonicalPayload ← .ofExcept input.command.canonicalPayload
  let snap ← .snapshot
  let enrollment ← .ofExcept (orThrow (snap.findEnrollment ctx.organizationId input.attemptId)
      (.notFound "Attempt not found"))
  let cap ← .ofExcept (lockEnrollmentAndAttempt enrollment.rows input.attemptId)
  lockRows ctx snap cap
  let locked ← .ofExcept (orThrow (enrollment.rows.findAttempt input.attemptId)
      (.notFound "Attempt not found"))
  let plan ← .ofExcept (planForceSubmitExecution locked input.now)
  let row := receiptOf ctx input freshId canonicalPayload (planResultPayload input locked plan)
    (planOutcome plan)
  insertReceipt row
  if plan.needsSubmit then do
    let rows ← .ofExcept (submitThenGrade enrollment.rows cap locked input.now)
    .write (.updateRows ctx.organizationId [input.attemptId] rows)
    let final ← .ofExcept (orThrow (rows.findAttempt input.attemptId)
          (.notFound "Attempt not found after force-submit"))
    .ofExcept (assertCommittedFactMatchesStored final plan)
    .write (.insertAudit (auditRecord ctx input "attempt.forceSubmit" canonicalPayload))
    .ofExcept (firstResponse row)
  else do
    .ofExcept (assertCommittedFactMatchesStored locked plan)
    .ofExcept (firstResponse row)

/-! ### Misconduct -/

def buildAppliedResultPayload (severity : MisconductSeverity) (canonicalNotes : JsString) :
    MisconductFlag :=
  { flaggedAt := input.now, flaggedBy := ctx.actorId, notes := canonicalNotes, severity := severity }

def assertCommittedProjectionMatchesStored (committed : Option MisconductFlag)
    (stored : MisconductFlag) : Result Unit :=
  let flaggedBy := (committed.map (·.flaggedBy)).getD "null"
  let severity := (committed.map (·.severity.text)).getD "null"
  let flaggedAt := instantText (committed.map (·.flaggedAt))
  let notesMatch := decide (committed.map (·.notes) = some stored.notes)
  require (committed = some stored)
    (.error (s!"Invariant failure: misconduct-mark committed projection (flaggedBy={flaggedBy}, severity={severity}, " ++
      s!"flaggedAt={flaggedAt}, notesMatch={notesMatch}) does not match the stored receipt result_payload " ++
      s!"(flaggedBy={stored.flaggedBy}, severity={stored.severity.text}, flaggedAt={stored.flaggedAt}, " ++
      s!"notesMatch={notesMatch}); transaction rolled back"))

def runMisconductMarkTransaction (freshId : String) (severity : MisconductSeverity) (notes : JsString) :
    Action (Option AttemptCommandReceiptResponse) := do
  let canonicalPayload ← .ofExcept (canonicalizeMisconductPayload severity notes)
  let snap ← .snapshot
  .hold [.attempt ctx.organizationId input.attemptId]
    (·.findAttempt ctx.organizationId input.attemptId) snap .serializationFailure
  .ofExcept (require (snap.findAttempt ctx.organizationId input.attemptId).isSome
      (.notFound "Attempt not found"))
  let flag := buildAppliedResultPayload ctx input severity (trim notes)
  let row := receiptOf ctx input freshId canonicalPayload
      (.misconductMark (some flag) input.now) .applied
  insertReceipt row
  .write (.updateMisconduct ctx.organizationId input.attemptId flag)
  let written := (Write.updateMisconduct ctx.organizationId input.attemptId flag).apply snap
  let final ← .ofExcept (orThrow (written.findAttempt ctx.organizationId input.attemptId)
    (.notFound "Attempt not found after misconduct update"))
  .ofExcept (assertCommittedProjectionMatchesStored final.2 flag)
  .write (.insertAudit (auditRecord ctx input "attempt.misconductFlagged" canonicalPayload))
  .ofExcept (firstResponse row)

end

/-! ## The transactions -/

inductive Phase
  | preRead
  | primary (freshId : String)
  | recovery
  deriving DecidableEq, Repr

structure Call where
  requestId : Nat
  ctx : RequestContext
  input : OperationInput
  phase : Phase
  deriving DecidableEq, Repr

inductive Outside
  | enroll (e : EnrollmentRows)
  | updateRows (organizationId : String) (attemptIds : List String) (rows : ExamSystem.Db)
  | updateAttempt (organizationId : String) (attempt : ExamAttempt)
  | updateExam (organizationId : String) (exam : Exam)
  deriving DecidableEq

inductive Request
  | call (c : Call)
  | outside (o : Outside)
  deriving DecidableEq

def Outside.write : Outside → Write
  | enroll e => .enroll e
  | updateRows organizationId attemptIds rows => .updateRows organizationId attemptIds rows
  | updateAttempt organizationId attempt => .updateAttempt organizationId attempt
  | updateExam organizationId exam => .updateExam organizationId exam

section
variable [Host]

def Call.action (c : Call) : Action (Option AttemptCommandReceiptResponse) :=
  match c.phase with
  | .preRead => preReadStoredReceipt c.ctx c.input
  | .recovery => runReceiptRecovery c.ctx c.input
  | .primary freshId =>
    match c.input.command with
    | .forceSubmit _ => runForceSubmitTransaction c.ctx c.input freshId
    | .misconductMark severity notes =>
      runMisconductMarkTransaction c.ctx c.input freshId severity notes

def Request.action : Request → Action (Option AttemptCommandReceiptResponse)
  | .call c => c.action
  | .outside o => do
    .write o.write
    pure none

abbrev Reply := Except EngineError (Option AttemptCommandReceiptResponse)

def transaction (r : Request) : Prog Db Write LockKey EngineError Reply := r.action.settle

end

def runWithRaceRecovery (preRead primary recovery : Reply) : Reply :=
  match preRead with
  | .error e => .error e
  | .ok (some response) => .ok (some response)
  | .ok none =>
    match primary with
    | .ok response => .ok response
    | .error e => if e = .uniqueViolation ATTEMPT_COMMAND_RECEIPT_OPERATION_UNIQUE_CONSTRAINT then
        recovery else .error e

def empty : Db := { enrollments := [], receipts := [], audits := [] }

end ExamSystem.AttemptCommands
