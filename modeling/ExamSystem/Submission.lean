import ExamSystem.GradingWorkset
import ExamSystem.Lifecycle

/-!
# Submission and interruption

The submit freeze barrier, the terminalization of an open interruption under
it, and the commands that open an interruption and close it by a restore.
-/

namespace ExamSystem

open Tx

/-! ## Writes to the attempt row -/

namespace ExamAttempt

def freeze (a : ExamAttempt) (now : Int) (submittedAnswers : SubmittedAnswersSnapshot)
    (reason : SubmissionReason) (gradingStatus : GradingStatus) : ExamAttempt :=
  { a with
    status := .submitted
    submittedAt := some now
    submittedAnswers := some submittedAnswers
    submissionReason := some reason
    gradingStatus := some gradingStatus
    currentInterruptionId := none
    interruptedAt := none }

def markDisrupted (a : ExamAttempt) (interruptionId : String) (now : Int) : ExamAttempt :=
  { a with
    status := .disrupted, currentInterruptionId := some interruptionId, interruptedAt := some now }

def restore (a : ExamAttempt) (now : Int) : ExamAttempt :=
  { a with
    status := .inProgress
    lastActivityAt := some now
    currentInterruptionId := none
    interruptedAt := none }

def touch (a : ExamAttempt) (now : Int) : ExamAttempt := { a with lastActivityAt := some now }

end ExamAttempt

/-! ## Terminalizing the open interruption -/

structure TerminalizationHint where
  policy : InterruptionTimePolicy
  eligibleSeconds : Option Int
  adjustmentId : Option String
  reasonCode : String
  deriving DecidableEq, Repr

inductive SubmitInterruptionResolution
  | none
  | activeInterruption (hint : TerminalizationHint)
  deriving DecidableEq, Repr

/-- The checks that tie the attempt's pointer to the one open episode, with the
messages shared by submit and restore. -/
def openInterruption (db : Db) (attempt : ExamAttempt) (interruptionId : String) (interruptedAt : Int) :
    Result AttemptInterruptionEvent := do
  let episode ← orThrow (db.findInterruption attempt.id interruptionId)
    (.validation "Interruption episode not found for the active pointer")
  require (episode.attemptId = attempt.id) (.validation "Interruption episode attemptId mismatch")
  let detected ← orThrow (db.findDetected interruptionId)
    (.validation "No detected event found for the active interruption")
  require (detected.attemptId = attempt.id) (.validation "Detected event attemptId mismatch")
  require (detected.interruptionId = interruptionId)
    (.validation "Detected event interruptionId mismatch")
  require (detected.occurredAt = interruptedAt)
    (.validation "Detected event occurredAt does not match attempt interruptedAt")
  require (db.findOutcome interruptionId = none)
    (.validation "Interruption episode already has an outcome event")
  pure detected

def terminalizedEvent (attemptId interruptionId : String) (now : Int) (hint : TerminalizationHint) :
    AttemptInterruptionEvent :=
  { attemptId := attemptId
    interruptionId := interruptionId
    eventType := .terminalized
    occurredAt := now
    observedLastActivityAt := none
    detectionSource := none
    timeoutSeconds := none
    policy := hint.policy
    eligibleSeconds := hint.eligibleSeconds
    timeAdjustmentId := hint.adjustmentId
    actorId := none
    reasonCode := hint.reasonCode }

def resolveActiveInterruptionOnTerminalization (db : Db) (lockedAttempt : ExamAttempt)
    (resolution : SubmitInterruptionResolution) (now : Int) : Result Db :=
  match resolution with
  | .none => do
    require (lockedAttempt.status ≠ .disrupted)
      (.validation ("Cannot submit a disrupted attempt without interruption resolution " ++
        "(mode=none is invalid for disrupted status)"))
    pure db
  | .activeInterruption hint => do
    require (lockedAttempt.status = .disrupted)
      (.validation ("Cannot resolve active interruption for a non-disrupted attempt " ++
        "(mode=active_interruption is invalid for in_progress status)"))
    let interruptionId ← orThrow lockedAttempt.currentInterruptionId
      (.validation "Disrupted attempt has no active interruption pointer")
    let interruptedAt ← orThrow lockedAttempt.interruptedAt
      (.validation "Disrupted attempt has no interruptedAt timestamp")
    let _ ← openInterruption db lockedAttempt interruptionId interruptedAt
    db.insertInterruptionEvent (terminalizedEvent lockedAttempt.id interruptionId now hint)

/-! ## Submit -/

structure SubmitOptions where
  source : Option SubmitSource
  minSubmitAfterStartMinutes : Option Int
  submissionReason : Option SubmissionReason
  resolution : SubmitInterruptionResolution
  deriving DecidableEq, Repr

def minSubmitGuard (attempt : ExamAttempt) (now : Int) (opts : SubmitOptions) : Result Unit :=
  match opts.source, opts.minSubmitAfterStartMinutes, attempt.startedAt with
  | some .candidate, some minutes, some startedAt =>
    let earliestSubmitAt := startedAt + minutes * 60000
    require (earliestSubmitAt ≤ now)
      (.attemptSubmitTooEarly earliestSubmitAt (-((now - earliestSubmitAt) / 1000)))
  | _, _, _ => pure ()

def freezeStatus (questionSnapshot : List QuestionSnapshot) : GradingStatus :=
  if requiresManualGrading questionSnapshot then .pendingManual else .autoGraded

/-- The attempt row that a submit at `now` writes. -/
def ExamAttempt.submittedRow (a : ExamAttempt) (now : Int) (reason : Option SubmissionReason) :
    ExamAttempt :=
  a.freeze now (buildSubmittedAnswersSnapshot a.answers a.questionSnapshot) (reason.getD .manual)
    (freezeStatus a.questionSnapshot)

def submitAttempt [Host] (db : Db) (attemptId : String) (now : Int) (opts : SubmitOptions) :
    Result (ExamAttempt × Db) := do
  let attempt ← orThrow (db.findAttempt attemptId) (.validation "Attempt not found")
  let db ← resolveActiveInterruptionOnTerminalization db attempt opts.resolution now
  let existingEntries := db.entriesOf attemptId
  if attempt.status = .submitted ∨ attempt.status = .graded then
    validateGradingWorksetConsistency attempt existingEntries
    pure (attempt, db)
  else
    require (transition attempt.status .submit).isSome
      (.invalidStateTransition s!"Cannot submit attempt in {attempt.status.text} state")
    minSubmitGuard attempt now opts
    require (existingEntries = [])
      (.error (s!"Grading workset entries exist before authoritative submission freeze " ++
        s!"for attempt {attemptId}: found {existingEntries.length} entries. " ++
        "The submit freeze barrier must be the sole workset creation authority."))
    let submitted := attempt.submittedRow now opts.submissionReason
    let db := db.updateAttempt attemptId (·.submittedRow now opts.submissionReason)
    let db ← materializeGradingWorkset db submitted
    pure (submitted, db)

/-! ## Disruption -/

inductive ScannerDisruptResult
  | marked (attempt : ExamAttempt)
  | freshUnderLock
  | stateChangedBeforeLock
  | missing
  deriving DecidableEq

def detectedEvent (attempt : ExamAttempt) (interruptionId : String)
    (scannerTickNow heartbeatTimeoutSeconds : Int) (policy : InterruptionTimePolicy) :
    AttemptInterruptionEvent :=
  { attemptId := attempt.id
    interruptionId := interruptionId
    eventType := .detected
    occurredAt := scannerTickNow
    observedLastActivityAt := attempt.lastActivityAt
    detectionSource := some .heartbeatTimeout
    timeoutSeconds := some heartbeatTimeoutSeconds
    policy := policy
    eligibleSeconds := none
    timeAdjustmentId := none
    actorId := none
    reasonCode := "heartbeat_timeout" }

/-- `freshId` is the id the database draws for a new episode. -/
def markDisrupted (db : Db) (attemptId : String) (scannerTickNow heartbeatTimeoutSeconds : Int)
    (freshId : String) :
    Result (ScannerDisruptResult × Db) :=
  match db.findAttempt attemptId with
  | none => pure (.missing, db)
  | some attempt =>
    if attempt.status ≠ .inProgress then pure (.stateChangedBeforeLock, db)
    else
      match attempt.lastActivityAt with
      | none => pure (.freshUnderLock, db)
      | some lastActivityAt =>
        if scannerTickNow - lastActivityAt < heartbeatTimeoutSeconds * 1000 then pure
          (.freshUnderLock, db)
        else do
          let snapshot ← orThrow attempt.interruptionTimingPolicySnapshot
            (.validation "Cannot disrupt attempt: missing interruption timing policy snapshot")
          let db ← db.createInterruption { id := freshId, attemptId := attemptId }
          let db ← db.insertInterruptionEvent
            (detectedEvent attempt freshId scannerTickNow heartbeatTimeoutSeconds snapshot.policy)
          let db := db.updateAttempt attemptId (·.markDisrupted freshId scannerTickNow)
          pure (.marked (attempt.markDisrupted freshId scannerTickNow), db)

/-- The candidate heartbeat: a row that is not in progress stays as it is. -/
def refreshLastActivityIfInProgress (db : Db) (attemptId : String) (now : Int) :
    Result (Option ExamAttempt × Db) :=
  match db.findAttempt attemptId with
  | some attempt =>
    if attempt.status = .inProgress then pure (some (attempt.touch now),
      db.updateAttempt attemptId (·.touch now))
    else pure (none, db)
  | none => pure (none, db)

/-! ## Restoring the lifecycle -/

inductive RestoreLifecycleOutcome
  | restored | alreadyInProgress | terminal
  deriving DecidableEq, Repr

def restoreAttemptState (db : Db) (attempt : ExamAttempt) (now : Int) :
    Result (RestoreLifecycleOutcome × Db) :=
  match attempt.status with
  | .inProgress => pure (.alreadyInProgress, db)
  | .submitted | .graded | .voided => pure (.terminal, db)
  | .disrupted => pure (.restored, db.updateAttempt attempt.id (·.restore now))
  | status => .error (.invalidStateTransition s!"Cannot restore attempt from {status.text} state")

end ExamSystem
