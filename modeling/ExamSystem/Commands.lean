import ExamSystem.Start

/-!
# The commands of the system

The transactions that the routes and the background sweeps run, and the one
step function over them. A command that throws leaves the store as it was.
-/

namespace ExamSystem

open Tx

def buildResolution (attempt : ExamAttempt) (reasonCode : String) : SubmitInterruptionResolution :=
  if attempt.status = .disrupted then
    .activeInterruption
      { policy := (attempt.interruptionTimingPolicySnapshot.map (·.policy)).getD .strict
        eligibleSeconds := none
        adjustmentId := none
        reasonCode := reasonCode }
  else .none

section
variable [Host]

/-! ## The deadline scanner -/

/-- The sweep of one candidate; `true` when it submitted the attempt. -/
def autoSubmitAndGrade (db : Db) (attemptId : String) (now : Int) : Result (Bool × Db) := do
  let cap ← lockEnrollmentAndAttempt db attemptId
  match db.findAttempt attemptId with
  | none => pure (false, db)
  | some locked =>
    if ¬ (locked.status = .inProgress ∨ locked.status = .disrupted) then pure (false, db)
    else
      match db.findExam locked.examId with
      | none => pure (false, db)
      | some lockedExam =>
        let expired ← isAttemptDeadlineExpired lockedExam.closeAt locked.deadlineAt now
        if expired = false then pure (false, db)
        else
          let (_, db) ← submitAttempt db attemptId now
            { source := some .deadlineScanner, submissionReason := some .deadline
              minSubmitAfterStartMinutes := none
              resolution := buildResolution locked "deadline_terminalization" }
          let (_, db) ← gradeAttemptIdempotent db cap now
          pure (true, db)

/-! ## Force submit -/

structure ForceSubmitExecutionPlan where
  needsSubmit : Bool
  afterStatus : AttemptStatus
  submittedAt : Option Int
  gradedAt : Option Int
  deriving DecidableEq, Repr

def planForceSubmitExecution (locked : ExamAttempt) (now : Int) : Result ForceSubmitExecutionPlan :=
  match locked.status with
  | .inProgress | .disrupted =>
    let pendingManual := requiresManualGrading locked.questionSnapshot
    pure { needsSubmit := true
           afterStatus := if pendingManual then .submitted else .graded
           submittedAt := some now
           gradedAt := if pendingManual then none else some now }
  | .submitted | .graded =>
    pure { needsSubmit := false
           afterStatus := locked.status
           submittedAt := locked.submittedAt
           gradedAt := locked.gradedAt }
  | status => .error (.invalidStateTransition s!"Cannot force-submit attempt in {status.text} state")

def instantText (instant : Option Int) : String := (instant.map fun t => toString t).getD "null"

def assertCommittedFactMatchesStored (final : ExamAttempt) (plan : ForceSubmitExecutionPlan) :
    Result Unit :=
  require (final.status = plan.afterStatus ∧ final.submittedAt = plan.submittedAt ∧
    final.gradedAt = plan.gradedAt)
    (.error ("Invariant failure: force-submit committed fact " ++
      s!"(status={final.status.text}, submittedAt={instantText final.submittedAt}, " ++
      s!"gradedAt={instantText final.gradedAt}) does not match the stored receipt " ++
      s!"result_payload (status={plan.afterStatus.text}, submittedAt={instantText plan.submittedAt}, " ++
      s!"gradedAt={instantText plan.gradedAt}); transaction rolled back"))

def runForceSubmitTransaction (db : Db) (attemptId : String) (now : Int) :
    Result (ForceSubmitExecutionPlan × Db) := do
  let cap ← lockEnrollmentAndAttempt db attemptId
  let locked ← orThrow (db.findAttempt attemptId) (.notFound "Attempt not found")
  let plan ← planForceSubmitExecution locked now
  if plan.needsSubmit then
    let (_, db) ← submitAttempt db attemptId now
      { source := some .proctor, submissionReason := none, minSubmitAfterStartMinutes := none
        resolution := buildResolution locked "admin_force_submit_terminalization" }
    let (_, db) ← gradeAttemptIdempotent db cap now
    let final ← orThrow (db.findAttempt attemptId) (.notFound "Attempt not found after force-submit")
    assertCommittedFactMatchesStored final plan
    pure (plan, db)
  else
    assertCommittedFactMatchesStored locked plan
    pure (plan, db)

/-! ## The candidate's submit -/

def gradeAfterSubmit (db : Db) (cap : LockedEnrollmentAttemptIdentity) (now : Int) :
    Result (Bool × Db) := do
  let postSubmit ← orThrow (db.findAttempt cap.attemptId) (.notFound "Attempt not found after submit")
  if postSubmit.gradingStatus = some .pendingManual then pure (false, db)
  else
    let snapshot ← readGradingSnapshot db cap.attemptId
    let snapshot ← orThrow snapshot (.notFound "Attempt not found after submit")
    let (_, db) ← finalizeGrading db cap snapshot.exam now
    pure (false, db)

/-- The result says whether there was nothing left to do. -/
def submitAndGradeAttempt (db : Db) (attemptId candidateProfileId : String) (now : Int) :
    Result (Bool × Db) := do
  let cap ← lockEnrollmentAndAttempt db attemptId
  let lockedAttempt ← orThrow (db.findAttempt attemptId) (.notFound "Attempt not found")
  require (lockedAttempt.candidateId = candidateProfileId) (.notFound "Attempt not found")
  match lockedAttempt.status with
  | .graded => pure (true, db)
  | .submitted => gradeAfterSubmit db cap now
  | .inProgress | .disrupted =>
    let resolution := buildResolution lockedAttempt "candidate_submit_terminalization"
    let (reconciled, db) ← ensureAttemptDeadlineReconciled db cap now resolution
    if reconciled.status = .graded ∨ reconciled.status = .submitted then pure (true, db)
    else
      let (_, db) ← submitAttempt db attemptId now
        { source := some .candidate, submissionReason := none
          minSubmitAfterStartMinutes :=
            (db.findExam lockedAttempt.examId).bind (·.minSubmitAfterStartMinutes)
          resolution := resolution }
      gradeAfterSubmit db cap now
  | status => .error (.invalidStateTransition s!"Cannot submit attempt in {status.text} state")

/-! ## The candidate's page: load, save, heartbeat -/

def takeAttempt (db : Db) (attemptId candidateId : String) (now : Int) : Result (ExamAttempt × Db) := do
  let cap ← lockEnrollmentAndAttempt db attemptId
  let preRead ← orThrow (db.findAttempt attemptId) (.notFound "Attempt not found")
  let (reconciled, db) ← ensureAttemptDeadlineReconciled db cap now
    (buildResolution preRead "deadline_terminalization")
  require (reconciled.candidateId = candidateId) (.notFound "Attempt not found")
  pure (reconciled, db)

def saveAttemptAnswer (db : Db) (candidateId : String) (request : SaveAnswerRequest) (now : Int)
    (validateAnswerForQuestion : QuestionSnapshot → CanonicalizeAnswer) :
    Result (ProcessSaveResult × Db) := do
  let cap ← lockEnrollmentAndAttempt db request.attemptId
  let preAttempt ← orThrow (db.findAttempt request.attemptId) (.notFound "Attempt not found")
  let ((currentAttempt, mutationContext), db) ← prepareReconciledAttemptMutation db cap now
    (buildResolution preAttempt "deadline_terminalization")
  require (currentAttempt.candidateId = candidateId) (.notFound "尝试不存在")
  saveAnswer db mutationContext request (some validateAnswerForQuestion)

def heartbeatAttempt (db : Db) (attemptId : String) (now : Int) : Result (Unit × Db) := do
  let (updated, db) ← refreshLastActivityIfInProgress db attemptId now
  require updated.isSome
    (.invalidStateTransition "Cannot heartbeat attempt: status changed or attempt not found")
  pure ((), db)

/-! ## One step of the system -/

/-- The commands on one candidate's enrollment. An administrator's change of
the exam is any exam row with the same id. -/
inductive Command
  | start (input : StartAttemptInput)
  | take (attemptId candidateId : String) (now : Int)
  | save (candidateId : String) (request : SaveAnswerRequest) (now : Int)
      (validateAnswerForQuestion : QuestionSnapshot → CanonicalizeAnswer)
  | heartbeat (attemptId : String) (now : Int)
  | submit (attemptId candidateId : String) (now : Int)
  | forceSubmit (attemptId : String) (now : Int)
  | deadlineScan (attemptId : String) (now : Int)
  | heartbeatScan (attemptId : String) (now heartbeatTimeoutSeconds : Int) (freshId : String)
  | restore (attemptId : String) (now : Int) (fresh : FreshAdjustment)
  | grant (input : GrantAttemptTimeInput) (incidentGrantValidator : Option IncidentGrantValidator)
      (freshId : String)
  | grade (attemptId questionId : String) (score : ℚ) (comment graderId : String) (now : Int)
  | examWrite (exam : Exam) (now : Int)

def Command.step (c : Command) (db : Db) : Result (Unit × Db) :=
  match c with
  | .start input => do
    let (_, db) ← startOrRestoreAttempt db input
    pure ((), db)
  | .take attemptId candidateId now => do
    let (_, db) ← takeAttempt db attemptId candidateId now
    pure ((), db)
  | .save candidateId request now validateAnswerForQuestion => do
    let (_, db) ← saveAttemptAnswer db candidateId request now validateAnswerForQuestion
    pure ((), db)
  | .heartbeat attemptId now => heartbeatAttempt db attemptId now
  | .submit attemptId candidateId now => do
    let (_, db) ← submitAndGradeAttempt db attemptId candidateId now
    pure ((), db)
  | .forceSubmit attemptId now => do
    let (_, db) ← runForceSubmitTransaction db attemptId now
    pure ((), db)
  | .deadlineScan attemptId now => do
    let (_, db) ← autoSubmitAndGrade db attemptId now
    pure ((), db)
  | .heartbeatScan attemptId now heartbeatTimeoutSeconds freshId => do
    let (_, db) ← markDisrupted db attemptId now heartbeatTimeoutSeconds freshId
    pure ((), db)
  | .restore attemptId now fresh => do
    let cap ← lockEnrollmentAndAttempt db attemptId
    let (_, db) ← restoreInterruptedAttempt db cap now fresh
    pure ((), db)
  | .grant input incidentGrantValidator freshId => do
    let cap ← lockEnrollmentAndAttempt db input.attemptId
    let (_, db) ← grantAttemptTime db incidentGrantValidator cap input freshId
    pure ((), db)
  | .grade attemptId questionId score comment graderId now => do
    let attempt ← orThrow (db.findAttempt attemptId) (.notFound "Attempt grading context not found")
    let exam ← orThrow (db.findExam attempt.examId) (.notFound "Attempt grading context not found")
    let cap ← lockEnrollmentAndAttempt db attemptId
    let (_, db) ← gradeManualQuestion db cap questionId score comment graderId now exam
    pure ((), db)
  | .examWrite exam _ => do
    require (exam.id = db.exam.id) (.notFound "Exam not found")
    pure ((), { db with exam := exam })

end

end ExamSystem
