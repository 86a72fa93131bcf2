import ExamSystem.RowLocks
import ExamSystem.Admissions
import ExamSystem.Identity
import ExamSystem.StartSound

/-!
# The locks of the attempt commands

Every transaction on an attempt as it reads and locks, in the order of its
statements. What is written shows in the next view, which may be anything that
keeps the identities of the rows. A check that only throws is left out: a
transaction may be aborted anywhere.
-/

namespace ExamSystem.Locking

open Tx RowLocks
open Admission (Admissions reconcileAdmission)

/-! ## The rows -/

/-- The rows that are written or locked, and the entries of the unique indexes
that a command can meet with another enrollment's. -/
inductive Row
  | enrollment (examId candidateId : String)
  | attempt (attemptId : String)
  | exam (examId : String)
  | admission (examId candidateId : String)
  | interruption (attemptId interruptionId : String)
  | interruptionEvent (attemptId interruptionId : String)
  | gradingEntry (attemptId questionId : String)
  | answerReceipt (attemptId questionId : String) (clientSeq : Int)
  | commandReceipt (operationId : String)
  | timeAdjustment (operationId : String)
  | incidentEvent (operationId : String)
  | incidentAction (actionId : String)
  deriving DecidableEq, Repr

namespace Row

/-- Enrollment, then Attempt, then Exam, then the indexes. -/
def rank : Row → Nat
  | attempt _ => 1
  | exam _ => 2
  | commandReceipt _ => 3
  | timeAdjustment _ => 4
  | incidentEvent _ => 5
  | incidentAction _ => 6
  | _ => 0

/-- The row under which the others are locked. -/
def guard : Row → Option Row
  | admission examId candidateId => some (enrollment examId candidateId)
  | interruption attemptId _ => some (attempt attemptId)
  | interruptionEvent attemptId _ => some (attempt attemptId)
  | gradingEntry attemptId _ => some (attempt attemptId)
  | answerReceipt attemptId _ _ => some (attempt attemptId)
  | _ => none

def Main : Row → Prop
  | enrollment _ _ => True
  | attempt _ => True
  | exam _ => True
  | _ => False

def Before : Row → Row → Prop
  | enrollment _ _, attempt _ => True
  | enrollment _ _, exam _ => True
  | attempt _, exam _ => True
  | _, _ => False

end Row

instance : Ranked Row := ⟨Row.rank, Row.guard⟩

/-! ## What a statement sees -/

/-- The enrollments with their rows, as one statement sees them. An id names one
row, and an enrollment has one active attempt at most. -/
structure View where
  sittings : List Db
  admissions : Admissions
  /-- The operations that an incident event records. -/
  incidentOperations : List String
  attempts : ∀ db ∈ sittings, ∀ db' ∈ sittings, ∀ attemptId a a',
    db.findAttempt attemptId = some a → db'.findAttempt attemptId = some a' → a = a'
  enrollments : ∀ db ∈ sittings, ∀ db' ∈ sittings, db.enrollment.id = db'.enrollment.id → db = db'
  owned : ∀ db ∈ sittings, ∀ a ∈ db.attempts, a.enrollmentId = db.enrollment.id ∧ Belongs db a
  ids : ∀ db ∈ sittings, (db.attempts.map (·.id)).Nodup
  single : ∀ db ∈ sittings, ∀ a ∈ db.attempts, ∀ b ∈ db.attempts, a.Active → b.Active → a.id = b.id

namespace View

def findAttempt (v : View) (attemptId : String) : Option ExamAttempt :=
  v.sittings.findSome? (·.findAttempt attemptId)

def sitting (v : View) (attemptId : String) : Option Db :=
  v.sittings.find? fun db => (db.findAttempt attemptId).isSome

def findExam (v : View) (examId : String) : Option Exam := v.sittings.findSome? (·.findExam examId)

def findEnrollment (v : View) (examId candidateId : String) : Option ExamEnrollment :=
  v.sittings.findSome? (·.findEnrollment examId candidateId)

def findActiveByEnrollment (v : View) (enrollmentId : String) : List ExamAttempt :=
  (v.sittings.flatMap (·.attempts)).filter fun a =>
    a.enrollmentId = enrollmentId ∧ (a.status = .inProgress ∨ a.status = .disrupted)

def findAnswerReceipt (v : View) (attemptId questionId : String) (clientSeq : Int) :
    Option AnswerReceipt :=
  (v.sitting attemptId).bind (·.findAnswerReceipt attemptId questionId clientSeq)

def countPendingManual (v : View) (attemptId : String) : Nat :=
  ((v.sitting attemptId).map (·.countPendingManual attemptId)).getD 0

def findByOperationId (v : View) (operationId : String) : Option AttemptTimeAdjustment :=
  v.sittings.findSome? (·.findByOperationId operationId)

/-- What may happen between two statements of a transaction: the rows keep
their identities. -/
def Evolves (v v' : View) : Prop := ∀ db ∈ v.sittings, ∃ db' ∈ v'.sittings, Remains db db'

end View

abbrev Txn (α : Type) := Prog View Row EngineError α

/-! ## The statements -/

def select {α : Type} (q : View → α) : Txn α := .select q

def selectFor {α : Type} (row : Row) (mode : Mode) (q : View → α) : Txn α := .selectFor row mode q

def touch (row : Row) (mode : Mode) : Txn Unit := .touch row mode

def ofExcept {α : Type} (x : Result α) : Txn α := .ofExcept x

def one {α : Type} (row : Option α) (e : EngineError) : Txn α := ofExcept (orThrow row e)

def findAttempt (attemptId : String) (e : EngineError) : Txn ExamAttempt := do
  let attempt ← select (·.findAttempt attemptId)
  one attempt e

def findAttemptForUpdate (attemptId : String) (e : EngineError) : Txn ExamAttempt := do
  let attempt ← selectFor (.attempt attemptId) .update (·.findAttempt attemptId)
  one attempt e

def updateAttempt (attemptId : String) : Txn ExamAttempt := do
  let attempt ← selectFor (.attempt attemptId) .noKeyUpdate (·.findAttempt attemptId)
  one attempt (.notFound "Attempt not found")

def findExam (examId : String) (e : EngineError) : Txn Exam := do
  let exam ← select (·.findExam examId)
  one exam e

def findExamForShare (examId : String) : Txn Exam := do
  let exam ← selectFor (.exam examId) .share (·.findExam examId)
  one exam (.notFound "Exam not found")

def findExamForUpdate (examId : String) : Txn Exam := do
  let exam ← selectFor (.exam examId) .update (·.findExam examId)
  one exam (.notFound "Exam not found")

def findEnrollmentForUpdate (examId candidateId : String) : Txn ExamEnrollment := do
  let enrollment ← selectFor (.enrollment examId candidateId) .update
    (·.findEnrollment examId candidateId)
  one enrollment (.notFound "Enrollment not found")

def updateEnrollment (examId candidateId : String) : Txn Unit :=
  touch (.enrollment examId candidateId) .noKeyUpdate

/-- A new row or index entry is its writer's alone. -/
def insert (row : Row) : Txn Unit := touch row .update

def insertAll : List Row → Txn Unit
  | [] => pure ()
  | row :: rows => do
    insert row
    insertAll rows

/-! ## The lock seams -/

def lockEnrollmentAndAttempt (attemptId : String) : Txn Unit := do
  let locator ← findAttempt attemptId (.notFound "Attempt not found")
  let _ ← findEnrollmentForUpdate locator.examId locator.candidateId
  let _ ← findAttemptForUpdate attemptId (.notFound "Attempt not found")
  pure ()

def lockAttempts : List ExamAttempt → Txn Unit
  | [] => pure ()
  | a :: rest => do
    touch (.attempt a.id) .update
    lockAttempts rest

/-- The query locks every row it finds; a row that has changed since aborts it. -/
def findActiveByEnrollment (enrollmentId : String) : Txn (Option ExamAttempt) := do
  let rows ← select (·.findActiveByEnrollment enrollmentId)
  lockAttempts rows
  pure rows.head?

def lockEnrollmentAndActiveAttempt (examId candidateId : String) : Txn (Option ExamAttempt) := do
  let enrollment ← findEnrollmentForUpdate examId candidateId
  match ← findActiveByEnrollment enrollment.id with
  | none => pure none
  | some active =>
    let locked ← findAttemptForUpdate active.id (.notFound "Active attempt not found under lock")
    pure (some locked)

/-! ## Submit and grade -/

def resolveActiveInterruptionOnTerminalization (lockedAttempt : ExamAttempt)
    (resolution : SubmitInterruptionResolution) :
    Txn Unit :=
  match resolution with
  | .none => pure ()
  | .activeInterruption _ => do
    let interruptionId ← one lockedAttempt.currentInterruptionId
      (.validation "Disrupted attempt has no active interruption pointer")
    touch (.interruption lockedAttempt.id interruptionId) .update
    insert (.interruptionEvent lockedAttempt.id interruptionId)

def materializeGradingWorkset (attempt : ExamAttempt) : Txn Unit :=
  insertAll (attempt.questionSnapshot.map fun q => .gradingEntry attempt.id q.originalQuestionId)

def submitAttempt (attemptId : String) (resolution : SubmitInterruptionResolution) :
    Txn ExamAttempt := do
  let attempt ← findAttemptForUpdate attemptId (.validation "Attempt not found")
  resolveActiveInterruptionOnTerminalization attempt resolution
  if attempt.status = .submitted ∨ attempt.status = .graded then pure attempt
  else
    let submitted ← updateAttempt attemptId
    materializeGradingWorkset submitted
    pure submitted

/-- The enrollment is not locked again before it is written. -/
def finalizeTerminalGrading (attemptId : String) : Txn Unit := do
  let attempt ← findAttempt attemptId (.validation "Attempt not found")
  if attempt.status = .graded then pure ()
  else
    let _ ← updateAttempt attemptId
    updateEnrollment attempt.examId attempt.candidateId

def finalizeGrading (attemptId : String) : Txn Unit := do
  let attempt ← findAttempt attemptId (.validation "Attempt not found")
  if attempt.status = .graded then pure () else finalizeTerminalGrading attemptId

def gradeAttemptIdempotent (attemptId : String) : Txn Unit := do
  let attempt ← findAttempt attemptId (.validation "Attempt not found")
  if attempt.status = .graded ∨ attempt.gradingStatus = some .pendingManual then pure ()
    else finalizeGrading attemptId

def gradeManualQuestion (attemptId questionId : String) : Txn Unit := do
  touch (.gradingEntry attemptId questionId) .noKeyUpdate
  let remainingPending ← select (·.countPendingManual attemptId)
  if remainingPending = 0 then finalizeTerminalGrading attemptId else pure ()

/-! ## Deadline reconciliation and saves -/

def ensureAttemptDeadlineReconciled (attemptId : String) (now : Int)
    (resolution : SubmitInterruptionResolution) :
    Txn ExamAttempt := do
  let attempt ← findAttempt attemptId (.notFound "Attempt not found")
  if ¬ (attempt.status = .inProgress ∨ attempt.status = .disrupted) then pure attempt
  else
    let exam ← findExamForShare attempt.examId
    let expired ← ofExcept (isAttemptDeadlineExpired exam.closeAt attempt.deadlineAt now)
    if expired = false then pure attempt
    else
      let submittedAttempt ← submitAttempt attemptId resolution
      if submittedAttempt.gradingStatus = some .pendingManual then pure submittedAttempt
      else
        finalizeGrading attemptId
        findAttempt attemptId (.invalidStateTransition "Attempt disappeared after reconciliation")

def prepareReconciledAttemptMutation (attemptId : String) (now : Int)
    (resolution : SubmitInterruptionResolution) :
    Txn (Option Int) := do
  let attempt ← ensureAttemptDeadlineReconciled attemptId now resolution
  let exam ← findExamForShare attempt.examId
  ofExcept (computeEffectiveDeadline exam.closeAt attempt.deadlineAt)

def saveAnswer (effectiveDeadline : Option Int) (request : SaveAnswerRequest) (now : Int)
    (validateAnswerForQuestion : QuestionSnapshot → CanonicalizeAnswer) [Host] : Txn Unit := do
  let attempt ← findAttempt request.attemptId (.notFound "Attempt not found")
  let snapshotQuestion ← one (findSnapshotQuestion attempt.questionSnapshot request.questionId)
    (.validation "问题不在此尝试中")
  ofExcept (require (FitsInteger request.clientSeq) .integerOutOfRange)
  let knownReceipt ← select (·.findAnswerReceipt request.attemptId request.questionId request.clientSeq)
  match processSaveAnswer
      { attemptStatus := attempt.status, answers := attempt.answers, knownReceipt := knownReceipt
        deadlineAt := effectiveDeadline, now := now }
      request (some (validateAnswerForQuestion snapshotQuestion)) with
  | .accepted _ _ (some (newAnswer, _)) =>
    ofExcept (require (newAnswer.answer.hasNul = false) .untranslatableCharacter)
    let _ ← updateAttempt request.attemptId
    insert (.answerReceipt request.attemptId request.questionId request.clientSeq)
  | _ => pure ()

/-! ## Disruption, restore and grants -/

def markDisrupted (attemptId : String) (scannerTickNow heartbeatTimeoutSeconds : Int)
    (freshId : String) : Txn Unit := do
  match ← selectFor (.attempt attemptId) .update (·.findAttempt attemptId) with
  | none => pure ()
  | some attempt =>
    if attempt.status ≠ .inProgress then pure ()
    else
      match attempt.lastActivityAt with
      | none => pure ()
      | some lastActivityAt =>
        if scannerTickNow - lastActivityAt < heartbeatTimeoutSeconds * 1000 then pure ()
        else
          insert (.interruption attemptId freshId)
          insert (.interruptionEvent attemptId freshId)
          touch (.attempt attemptId) .noKeyUpdate

/-- The policy step of a restore; it writes when it appends an adjustment. -/
def compensateInterruption (attempt : ExamAttempt) (exam : Exam)
    (snapshot : AttemptTimingPolicySnapshot) (interruptionId : String) (detectedAt now : Int)
    (fresh : FreshAdjustment) : Txn RestoreDecision := do
  let sitting ← select (·.sitting attempt.id)
  let db ← one sitting (.notFound "Attempt not found")
  let decision ← ofExcept
    ((ExamSystem.compensateInterruption db attempt exam snapshot interruptionId detectedAt now
          fresh).map (·.1))
  if snapshot.policy = .boundedGrace ∧ db.findBoundedByInterruption interruptionId = none ∧
    0 < decision.addedSeconds then
    insert (.timeAdjustment fresh.operationId)
    let _ ← updateAttempt attempt.id
    pure decision
  else pure decision

def restoreInterruptedAttempt (attemptId : String) (now : Int) (fresh : FreshAdjustment) :
    Txn Unit := do
  let attempt ← findAttemptForUpdate attemptId (.notFound "Attempt not found")
  let exam ← findExamForUpdate attempt.examId
  if attempt.status = .disrupted then
    let interruptionId ← one attempt.currentInterruptionId
      (.validation "Disrupted attempt has no active interruption pointer")
    let interruptedAt ← one attempt.interruptedAt
      (.validation "Disrupted attempt has no interruptedAt timestamp")
    let snapshot ← one attempt.interruptionTimingPolicySnapshot
      (.validation "Disrupted attempt has no interruption timing policy snapshot")
    touch (.interruption attempt.id interruptionId) .update
    let decision ← compensateInterruption attempt exam snapshot interruptionId interruptedAt now fresh
    let reconciled ← ensureAttemptDeadlineReconciled attemptId now <| .activeInterruption
      { policy := snapshot.policy
        eligibleSeconds := some decision.eligibleSeconds
        adjustmentId := decision.adjustmentId
        reasonCode := decision.reasonCode }
    if reconciled.status = .submitted ∨ reconciled.status = .graded then pure ()
    else
      let _ ← updateAttempt attempt.id
      insert (.interruptionEvent attempt.id interruptionId)
  else pure ()

def findInterruptionForUpdate (attemptId : String) (interruptionId : Option String) : Txn Unit :=
  match interruptionId with
  | some interruptionId => touch (.interruption attemptId (uuidText interruptionId)) .update
  | none => pure ()

def grantAttemptTime (attemptId : String) (input : GrantAttemptTimeInput) (freshId : String) :
    Txn (Option String) := do
  let attempt ← findAttemptForUpdate attemptId (.notFound "Attempt not found")
  let _ ← findExamForUpdate attempt.examId
  let existing : Option AttemptTimeAdjustment ← select
    (·.findByOperationId (uuidText input.operationId))
  match existing with
  | some existing => pure (some existing.id)
  | none =>
    let snapshot ← one attempt.interruptionTimingPolicySnapshot
      (.validation "Attempt has no interruption timing policy snapshot")
    let resolution : SubmitInterruptionResolution :=
      if attempt.status = .disrupted then
        .activeInterruption
          { policy := snapshot.policy
            eligibleSeconds := none
            adjustmentId := none
            reasonCode := OPERATOR_GRANT_DEADLINE_RECONCILIATION_REASON }
      else .none
    let reconciled ← ensureAttemptDeadlineReconciled attemptId input.now resolution
    if reconciled.status = .submitted ∨ reconciled.status = .graded ∨
      reconciled.status = .voided then pure none
    else
      findInterruptionForUpdate attempt.id input.interruptionId
      insert (.timeAdjustment (uuidText input.operationId))
      let _ ← updateAttempt attemptId
      pure (some freshId)

/-- The incident itself is not locked. -/
def linkIncidentAction (operationId actionId : String) : Txn Unit := do
  let replay ← select fun (v : View) => decide (operationId ∈ v.incidentOperations)
  if replay then pure ()
  else
    insert (.incidentEvent operationId)
    insert (.incidentAction actionId)

/-! ## Starting -/

def ensureStartAdmission (organizationId : String) (exam : Exam) (candidateId : String)
    (now : Int) : Txn Unit := do
  let admits ← select fun (v : View) =>
    decide ((reconcileAdmission organizationId exam v.admissions candidateId now).2 ≠ v.admissions)
  if exam.controlFlags.requireQueue ∧
    admits then touch (.admission exam.id candidateId) .noKeyUpdate else pure ()

def consumeActive (exam : Exam) (candidateId : String) : Txn Unit :=
  if exam.controlFlags.requireQueue then touch (.admission exam.id candidateId) .noKeyUpdate
    else pure ()

def createNewAttempt (organizationId : String) (exam : Exam) (input : StartAttemptInput) :
    Txn Unit := do
  ensureStartAdmission organizationId exam input.candidateId input.now
  insert (.attempt input.freshAttemptId)
  touch (.exam input.examId) .keyShare
  touch (.enrollment input.examId input.candidateId) .keyShare
  consumeActive exam input.candidateId
  updateEnrollment input.examId input.candidateId

def startOrRestoreAttempt (organizationId : String) (input : StartAttemptInput) : Txn Unit := do
  let exam ← findExam input.examId (.validation "Exam not found")
  match ← lockEnrollmentAndActiveAttempt input.examId input.candidateId with
  | none => createNewAttempt organizationId exam input
  | some locked =>
    if locked.status = .disrupted then
      restoreInterruptedAttempt locked.id input.now input.freshAdjustment
    else pure ()

/-! ## The transactions -/

def autoSubmitAndGrade (attemptId : String) (now : Int) : Txn Unit := do
  lockEnrollmentAndAttempt attemptId
  let locked ← findAttempt attemptId (.notFound "Attempt not found")
  if ¬ (locked.status = .inProgress ∨ locked.status = .disrupted) then pure ()
  else
    let lockedExam ← findExamForUpdate locked.examId
    let expired ← ofExcept (isAttemptDeadlineExpired lockedExam.closeAt locked.deadlineAt now)
    if expired = false then pure ()
    else
      let _ ← submitAttempt attemptId (buildResolution locked "deadline_terminalization")
      gradeAttemptIdempotent attemptId

def runForceSubmitTransaction (attemptId operationId : String) (now : Int) : Txn Unit := do
  lockEnrollmentAndAttempt attemptId
  let locked ← findAttempt attemptId (.notFound "Attempt not found")
  let plan ← ofExcept (planForceSubmitExecution locked now)
  insert (.commandReceipt (uuidText operationId))
  if plan.needsSubmit then
    let _ ← submitAttempt attemptId (buildResolution locked "admin_force_submit_terminalization")
    gradeAttemptIdempotent attemptId
  else pure ()

def gradeAfterSubmit (attemptId : String) : Txn Unit := do
  let postSubmit ← findAttemptForUpdate attemptId (.notFound "Attempt not found after submit")
  if postSubmit.gradingStatus = some .pendingManual then pure () else finalizeGrading attemptId

def submitAndGradeAttempt (attemptId : String) (now : Int) : Txn Unit := do
  lockEnrollmentAndAttempt attemptId
  let lockedAttempt ← findAttempt attemptId (.notFound "Attempt not found")
  match lockedAttempt.status with
  | .submitted => gradeAfterSubmit attemptId
  | .inProgress | .disrupted =>
    let resolution := buildResolution lockedAttempt "candidate_submit_terminalization"
    let reconciled ← ensureAttemptDeadlineReconciled attemptId now resolution
    if reconciled.status = .graded ∨ reconciled.status = .submitted then pure ()
    else
      let _ ← submitAttempt attemptId resolution
      gradeAfterSubmit attemptId
  | _ => pure ()

def takeAttempt (attemptId : String) (now : Int) : Txn Unit := do
  lockEnrollmentAndAttempt attemptId
  let preRead ← findAttempt attemptId (.notFound "Attempt not found")
  let _ ← ensureAttemptDeadlineReconciled attemptId now
    (buildResolution preRead "deadline_terminalization")
  pure ()

def saveAttemptAnswer (request : SaveAnswerRequest) (now : Int)
    (validateAnswerForQuestion : QuestionSnapshot → CanonicalizeAnswer) [Host] : Txn Unit := do
  lockEnrollmentAndAttempt request.attemptId
  let preAttempt ← findAttempt request.attemptId (.notFound "Attempt not found")
  let effectiveDeadline ← prepareReconciledAttemptMutation request.attemptId now
    (buildResolution preAttempt "deadline_terminalization")
  saveAnswer effectiveDeadline request now validateAnswerForQuestion

def runGrantTransaction (input : GrantAttemptTimeInput) (freshId : String) : Txn Unit := do
  lockEnrollmentAndAttempt input.attemptId
  match input.incidentId, ← grantAttemptTime input.attemptId input freshId with
  | some _, some actionId => linkIncidentAction (uuidText input.operationId) actionId
  | _, _ => pure ()

/-- The transactions on attempts, and the exam commands that lock their exam. -/
inductive AttemptCommand
  | start (organizationId : String) (input : StartAttemptInput)
  | take (attemptId : String) (now : Int)
  | save (request : SaveAnswerRequest) (now : Int) (validateAnswerForQuestion : QuestionSnapshot →
      CanonicalizeAnswer)
  | heartbeat (attemptId : String)
  | submit (attemptId : String) (now : Int)
  | forceSubmit (attemptId operationId : String) (now : Int)
  | deadlineScan (attemptId : String) (now : Int)
  | heartbeatScan (attemptId : String) (now heartbeatTimeoutSeconds : Int) (freshId : String)
  | restore (attemptId : String) (now : Int) (fresh : FreshAdjustment)
  | grant (input : GrantAttemptTimeInput) (freshId : String)
  | grade (attemptId questionId : String)
  | examWrite (examId : String)

def AttemptCommand.txn [Host] : AttemptCommand → Txn Unit
  | start organizationId input => startOrRestoreAttempt organizationId input
  | take attemptId now => takeAttempt attemptId now
  | save request now validateAnswerForQuestion =>
    saveAttemptAnswer request now validateAnswerForQuestion
  | heartbeat attemptId => touch (.attempt attemptId) .noKeyUpdate
  | submit attemptId now => submitAndGradeAttempt attemptId now
  | forceSubmit attemptId operationId now => runForceSubmitTransaction attemptId operationId now
  | deadlineScan attemptId now => autoSubmitAndGrade attemptId now
  | heartbeatScan attemptId now heartbeatTimeoutSeconds freshId =>
    markDisrupted attemptId now heartbeatTimeoutSeconds freshId
  | restore attemptId now fresh => do
    lockEnrollmentAndAttempt attemptId
    restoreInterruptedAttempt attemptId now fresh
  | grant input freshId => runGrantTransaction input freshId
  | grade attemptId questionId => do
    lockEnrollmentAndAttempt attemptId
    gradeManualQuestion attemptId questionId
  | examWrite examId => do
    let _ ← findExamForUpdate examId
    touch (.exam examId) .noKeyUpdate

end ExamSystem.Locking
