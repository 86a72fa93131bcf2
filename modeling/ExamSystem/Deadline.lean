import ExamSystem.Grading

/-!
# Deadline reconciliation

The inline half of the deadline model: an expired attempt in flight is frozen
at its effective deadline and graded before the command at hand goes on.
-/

namespace ExamSystem

open Tx

section
variable [Host]

def ensureAttemptDeadlineReconciled (db : Db) (capability : LockedEnrollmentAttemptIdentity) (now : Int)
    (resolution : SubmitInterruptionResolution) : Result (ExamAttempt × Db) := do
  let attemptId := capability.attemptId
  let attempt ← orThrow (db.findAttempt attemptId) (.notFound "Attempt not found")
  if ¬ (attempt.status = .inProgress ∨ attempt.status = .disrupted) then pure (attempt, db)
  else
    let exam ← orThrow (db.findExam attempt.examId) (.notFound "Exam not found")
    let expired ← isAttemptDeadlineExpired exam.closeAt attempt.deadlineAt now
    if expired = false then pure (attempt, db)
    else
      match ← computeEffectiveDeadline exam.closeAt attempt.deadlineAt with
      | none => pure (attempt, db)
      | some effectiveDeadline =>
        let (submittedAttempt, db) ← submitAttempt db attemptId effectiveDeadline
          { source := some .deadlineScanner, submissionReason := some .deadline
            minSubmitAfterStartMinutes := none, resolution := resolution }
        if submittedAttempt.gradingStatus = some .pendingManual then pure (submittedAttempt, db)
        else
          let snapshot ← readGradingSnapshot db attemptId
          let snapshot ← orThrow snapshot (.notFound "Attempt not found after reconciliation")
          let (_, db) ← finalizeGrading db capability snapshot.exam now
          let reconciled ← orThrow (db.findAttempt attemptId)
            (.invalidStateTransition "Attempt disappeared after reconciliation")
          pure (reconciled, db)

/-- The seam of a local mutation: the reconciled attempt, and the evidence that
carries the instant and the effective deadline. -/
def prepareReconciledAttemptMutation (db : Db) (capability : LockedEnrollmentAttemptIdentity)
    (now : Int) (resolution : SubmitInterruptionResolution) :
    Result ((ExamAttempt × MutationContext) × Db) := do
  let (attempt, db) ← ensureAttemptDeadlineReconciled db capability now resolution
  let exam ← orThrow (db.findExam attempt.examId) (.notFound "Exam not found")
  let effectiveDeadline ← computeEffectiveDeadline exam.closeAt attempt.deadlineAt
  pure ((attempt,
    { attemptId := capability.attemptId, checkedAt := now,
      effectiveDeadline := effectiveDeadline }), db)

end

end ExamSystem
