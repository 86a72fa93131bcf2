import ExamSystem.Submission

/-!
# Terminal grading

Both the automatic path and the last manual score close an attempt through one
function, which aggregates the workset and projects the attempt and its
enrollment.
-/

namespace ExamSystem

open Tx

structure LockedEnrollmentAttemptIdentity where
  enrollmentId : String
  attemptId : String
  deriving DecidableEq, Repr

def lockEnrollmentAndAttempt (db : Db) (attemptId : String) :
    Result LockedEnrollmentAttemptIdentity := do
  let locator ← orThrow (db.findAttempt attemptId) (.notFound "Attempt not found")
  let enrollment ← orThrow (db.findEnrollment locator.examId locator.candidateId)
    (.notFound "Enrollment not found")
  require (enrollment.id = locator.enrollmentId)
    (.validation "Enrollment mismatch — attempt identity does not resolve to a consistent enrollment")
  pure { enrollmentId := enrollment.id, attemptId := attemptId }

/-! ## The enrollment projection -/

def shouldSelectAttempt (strategy : ScoreStrategy) (enrollment : ExamEnrollment) (score : ℚ) : Bool :=
  match enrollment.finalAttemptId, enrollment.finalScore with
  | some _, some finalScore =>
    match strategy with
    | .latest => true
    | .highest => finalScore < score
    | .first => false
  | _, _ => true

def shouldEnrollmentComplete (exam : Exam) (enrollment : ExamEnrollment) (gradedPassed : Bool)
    (now : Int) : Bool :=
  (exam.retakePolicy == .maxAttempts && exam.maxAttempts ≤ enrollment.attemptCount) ||
    (exam.retakePolicy == .passThenStop && (gradedPassed || enrollment.finalPassed == some true)) ||
    exam.closeAt.any fun closeAt => closeAt ≤ now

def enrollmentTarget (exam : Exam) (enrollment : ExamEnrollment) (gradedPassed : Bool) (now : Int) :
    EnrollmentStatus :=
  if shouldEnrollmentComplete exam enrollment gradedPassed now then .completed else .started

def ExamEnrollment.project (enrollment : ExamEnrollment) (strategy : ScoreStrategy)
    (target : EnrollmentStatus) (attemptId : String) (score : ℚ) (passed : Bool) : ExamEnrollment :=
  if shouldSelectAttempt strategy enrollment score then
    { enrollment with
      status := target
      finalScore := some score
      finalPassed := some passed
      finalAttemptId := some attemptId }
  else { enrollment with status := target }

/-! ## The terminal closure -/

def terminalGradingStatus (attempt : ExamAttempt) : GradingStatus :=
  match attempt.gradingStatus with
  | some .pendingManual => .fullyGraded
  | some status => status
  | none => freezeStatus attempt.questionSnapshot

def ExamAttempt.gradedRow (a : ExamAttempt) (aggregated : GradingEntryAggregate) (now : Int) :
    ExamAttempt :=
  { a with
    status := .graded
    gradingResult := some aggregated.questionResults
    score := some aggregated.totalScore
    passed := some aggregated.passed
    gradedAt := some now
    gradingStatus := some (terminalGradingStatus a) }

variable [Host]

def finalizeTerminalGrading (db : Db) (capability : LockedEnrollmentAttemptIdentity) (exam : Exam)
    (now : Int) :
    Result (Bool × Db) := do
  let attempt ← orThrow (db.findAttempt capability.attemptId) (.validation "Attempt not found")
  if attempt.status = .graded then pure (false, db)
  else
    require (transition attempt.status .grade).isSome
      (.invalidStateTransition s!"Cannot grade attempt in {attempt.status.text} state")
    let aggregated ← aggregateGradingEntries attempt (db.entriesOf capability.attemptId)
      exam.passingScore
    let db := db.updateAttempt capability.attemptId (·.gradedRow aggregated now)
    let enrollment ← orThrow (db.findEnrollment attempt.examId attempt.candidateId)
      (.validation "Enrollment not found")
    require (enrollment.id = capability.enrollmentId) (.validation "Enrollment not found")
    let targetStatus := enrollmentTarget exam enrollment aggregated.passed now
    if enrollment.status ≠ targetStatus then assertEnrollmentTransition enrollment.status targetStatus
    pure (true, db.updateEnrollment
      (·.project exam.scoreStrategy targetStatus attempt.id aggregated.totalScore aggregated.passed))

def finalizeGrading (db : Db) (capability : LockedEnrollmentAttemptIdentity) (exam : Exam) (now : Int) :
    Result (Bool × Db) := do
  let attempt ← orThrow (db.findAttempt capability.attemptId) (.validation "Attempt not found")
  if attempt.status = .graded then pure (false, db)
  else
    require (attempt.gradingStatus ≠ some .pendingManual)
      (.invalidStateTransition
          (s!"Cannot auto-finalize attempt {capability.attemptId}: gradingStatus=pending_manual; " ++
        "manual grading completion owns the submitted → graded transition"))
    finalizeTerminalGrading db capability exam now

/-! ## The idempotent automatic path -/

structure GradingSnapshot where
  attempt : ExamAttempt
  exam : Exam
  enrollment : ExamEnrollment

def readGradingSnapshot (db : Db) (attemptId : String) : Result (Option GradingSnapshot) :=
  match db.findAttempt attemptId with
  | none => pure none
  | some attempt => do
    let exam ← orThrow (db.findExam attempt.examId) (.validation "Exam not found")
    let enrollment ← orThrow (db.findEnrollment attempt.examId attempt.candidateId)
      (.validation "Enrollment not found")
    pure (some { attempt := attempt, exam := exam, enrollment := enrollment })

def computeGradingResult (attempt : ExamAttempt) (exam : Exam) (now : Int) : ScoreResult :=
  let sourceAnswers : List AnswerRecord :=
    match attempt.submittedAnswers with
    | some submitted => submitted.answers.map fun a =>
        { questionId := a.questionId, answer := a.value, version := 0, savedAt := now }
    | none => attempt.answers
  gradeAnswers attempt.id attempt.questionSnapshot sourceAnswers exam.passingScore now

def storedResult (attempt : ExamAttempt) (now : Int) : ScoreResult :=
  { attemptId := attempt.id
    totalScore := attempt.score.getD 0
    passed := attempt.passed.getD false
    questionResults := attempt.gradingResult.getD []
    gradedAt := attempt.gradedAt.getD now }

def gradeAttemptIdempotent (db : Db) (capability : LockedEnrollmentAttemptIdentity) (now : Int) :
    Result (ScoreResult × Db) := do
  let snapshot ← readGradingSnapshot db capability.attemptId
  let snapshot ← orThrow snapshot (.validation "Attempt not found")
  if snapshot.attempt.status = .graded then pure (storedResult snapshot.attempt now, db)
  else if snapshot.attempt.gradingStatus = some .pendingManual then
    pure (computeGradingResult snapshot.attempt snapshot.exam now, db)
  else
    let (_, db) ← finalizeGrading db capability snapshot.exam now
    let graded ← orThrow (db.findAttempt capability.attemptId)
      (.validation "Attempt not found after grading")
    pure (storedResult graded now, db)

/-! ## Manual grading -/

structure GradeQuestionResult where
  gradingStatus : GradingStatus
  fullyGraded : Bool
  totalScore : Option ℚ
  passed : Option Bool
  deriving DecidableEq, Repr

def AttemptGradingEntry.complete (e : AttemptGradingEntry) (earnedScore : ℚ) (comment gradedBy : String)
    (gradedAt : Int) : AttemptGradingEntry :=
  { e with
    status := .completedManual
    earnedScore := some earnedScore
    correct := some (decide (e.maxScore ≤ earnedScore))
    comment := comment
    gradedBy := some gradedBy
    gradedAt := some gradedAt }

def gradeManualQuestion (db : Db) (capability : LockedEnrollmentAttemptIdentity)
    (questionId : String) (score : ℚ) (comment graderId : String) (now : Int) (exam : Exam) :
    Result (GradeQuestionResult × Db) := do
  let attemptId := capability.attemptId
  let attempt ← orThrow (db.findAttempt attemptId) (.notFound "Attempt not found")
  require (attempt.status = .submitted)
    (.invalidStateTransition
        (s!"Cannot grade attempt {attemptId}: attempt status is {attempt.status.text}, " ++
      "expected submitted (manual grading is only allowed while the attempt is awaiting manual completion)"))
  let gradingStatus := (attempt.gradingStatus.map (·.text)).getD "undefined"
  require (attempt.gradingStatus = some .pendingManual)
    (.invalidStateTransition
        s!"Cannot grade attempt {attemptId}: gradingStatus is {gradingStatus}, expected pending_manual")
  let entry ← orThrow (db.findEntry attemptId questionId)
    (.notFound s!"Grading entry not found for attempt {attemptId}, question {questionId}")
  require (entry.gradingMode ≠ .auto)
    (.permissionDenied "Question is auto-graded and cannot be manually scored")
  require (entry.status = .pendingManual)
    (.invalidStateTransition
        (s!"Cannot grade question {questionId} for attempt {attemptId}: grading " ++
      s!"entry status is {entry.status.text}, expected pending_manual. Manual " ++
      "grading completion is one-way; score revision is not supported."))
  require (0 ≤ score ∧ score ≤ entry.maxScore)
    (.validation s!"score must be between 0 and {scoreText (some entry.maxScore)}")
  let db := db.updateEntry attemptId questionId (·.complete score comment graderId now)
  if db.countPendingManual attemptId = 0 then
    let (closed, db) ← finalizeTerminalGrading db capability exam now
    require closed
      (.invalidStateTransition (s!"Cannot grade question {questionId} for attempt {attemptId}: " ++
        "the attempt was already graded by the time the terminal closure " ++
        "ran; manual grading completion is one-way."))
    let graded ← orThrow (db.findAttempt attemptId)
      (.notFound "Attempt not found after terminal closure")
    pure ({ gradingStatus := .fullyGraded
            fullyGraded := true
            totalScore := some (graded.score.getD 0)
            passed := some (graded.passed.getD false) }, db)
  else
    pure ({ gradingStatus := .pendingManual, fullyGraded := false, totalScore := none,
            passed := none }, db)

end ExamSystem
