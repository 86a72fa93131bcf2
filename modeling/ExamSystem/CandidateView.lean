import Mathlib.Data.Rat.Floor
import ExamSystem.Start
import ExamSystem.ExamRoutes

/-!
# What a candidate sees

The detail of an exam as its candidate sees it, the response with an attempt,
and the route that starts one.
-/

namespace ExamSystem

open Tx

/-! ## Availability -/

inductive AvailabilityStatus
  | available | inProgress | resumable | submittedPendingGrade | graded | maxAttemptsExhausted
  | notStartedYet | expired
  | unavailable
  deriving DecidableEq, Repr

inductive PrimaryAction
  | start | resume | viewResult | viewHistory | none
  deriving DecidableEq, Repr

structure DeriveCandidateExamSummaryInput where
  exam : Exam
  enrollment : Option ExamEnrollment
  activeAttempt : Option ExamAttempt
  resumableAttempt : Option ExamAttempt
  latestAttempt : Option ExamAttempt
  finalAttempt : Option ExamAttempt
  now : Int

def hasResult (enrollment : Option ExamEnrollment) (finalAttempt : Option ExamAttempt) : Bool :=
  finalAttempt.isSome || enrollment.any fun e => e.finalAttemptId.any (· ≠ "") && e.finalScore.isSome

def deriveCandidateExamState (input : DeriveCandidateExamSummaryInput) :
    AvailabilityStatus × PrimaryAction :=
  let exam := input.exam
  let attemptsUsed := (input.enrollment.map (·.attemptCount)).getD 0
  let maxAttemptsExhausted := exam.retakePolicy = .maxAttempts ∧ exam.maxAttempts ≤ attemptsUsed
  let alreadyPassed := exam.retakePolicy = .passThenStop ∧
    input.enrollment.bind (·.finalPassed) = some true
  let blocked := input.enrollment.map (·.status) = some .blocked
  let examOpen := exam.status = .published ∨ exam.status = .open
  let seeResult := if hasResult input.enrollment input.finalAttempt then PrimaryAction.viewResult
    else .none
  if (¬ examOpen ∧ exam.status ≠ .closed) ∨ blocked then (.unavailable, .none)
  else if input.now < exam.openAt then (.notStartedYet, .none)
  else if input.activeAttempt.map (·.status) = some .inProgress then (.inProgress, .resume)
  else if input.resumableAttempt.map (·.status) = some .disrupted then (.resumable, .resume)
  else if input.latestAttempt.map (·.status) = some .submitted then (.submittedPendingGrade,
    .viewHistory)
  else if maxAttemptsExhausted ∨ alreadyPassed then (.maxAttemptsExhausted, seeResult)
  else if ∃ closeAt ∈ exam.closeAt, closeAt ≤ input.now then (.expired, seeResult)
  else if 0 < attemptsUsed ∧ (input.enrollment.bind (·.finalScore)).isSome then (.graded, .viewResult)
  else (.available, .start)

def projectEnrollmentForLifecycleState (enrollment : Option ExamEnrollment) (resultVisible : Bool) :
    Option ExamEnrollment :=
  if resultVisible then enrollment else enrollment.map fun e => { e with finalPassed := none }

/-! ## The detail of an exam -/

inductive BlockingReason
  | maxAttemptsReached | alreadyPassed
  deriving DecidableEq, Repr

structure CandidateExamDetail where
  id : String
  durationMinutes : Option Int
  timingMode : TimingMode
  passingScore : ℚ
  totalScore : ℚ
  questionCount : Nat
  controlFlags : ControlFlags
  maxAttempts : Int
  latestStartOffsetMinutes : Option Int
  minSubmitAfterStartMinutes : Option Int
  currentAttempts : Nat
  activeAttemptId : Option String
  canStartNewAttempt : Bool
  blockingReason : Option BlockingReason
  bestScore : Option ℚ
  bestScorePercent : Option Int
  availabilityStatus : AvailabilityStatus
  primaryAction : PrimaryAction
  deriving DecidableEq

/-- `Math.round`, which rounds a half up. -/
def mathRound (x : ℚ) : Int := ⌊x + 1 / 2⌋

def buildCandidateExamDetail (exam : Exam) (enrollment : Option ExamEnrollment)
    (activeAttempt : Option ExamAttempt) (now : Int)
    (resumableAttempt latestAttempt finalAttempt : Option ExamAttempt) : CandidateExamDetail :=
  let currentAttempts := (enrollment.map (·.attemptCount)).getD 0
  let resultVisible := (resolveCandidateEnrollmentResultVisibility exam finalAttempt .own).isNone
  let state := deriveCandidateExamState
    { exam := exam
      enrollment := projectEnrollmentForLifecycleState enrollment resultVisible
      activeAttempt := activeAttempt
      resumableAttempt := resumableAttempt
      latestAttempt := latestAttempt
      finalAttempt := finalAttempt
      now := now }
  let bestScore := if resultVisible then enrollment.bind (·.finalScore) else none
  let bestScorePercent :=
    if 0 < exam.totalScore then bestScore.map fun score => mathRound (score / exam.totalScore * 100)
      else none
  let hasActive := activeAttempt.isSome || resumableAttempt.isSome
  let maxAttemptsExhausted := exam.retakePolicy == .maxAttempts && exam.maxAttempts ≤ currentAttempts
  let alreadyPassed :=
    resultVisible && exam.retakePolicy == .passThenStop && enrollment.bind (·.finalPassed) == some true
  let retakeDeferred := enrollment.any fun e => isCandidateRetakeDeferred exam e finalAttempt
  { id := exam.id
    durationMinutes := exam.durationMinutes
    timingMode := exam.timingMode
    passingScore := exam.passingScore
    totalScore := exam.totalScore
    questionCount := exam.questionSnapshot.length
    controlFlags := exam.controlFlags
    maxAttempts := exam.maxAttempts
    latestStartOffsetMinutes := exam.latestStartOffsetMinutes
    minSubmitAfterStartMinutes := exam.minSubmitAfterStartMinutes
    currentAttempts := currentAttempts
    activeAttemptId := activeAttempt.map (·.id)
    canStartNewAttempt := !hasActive && !maxAttemptsExhausted && !alreadyPassed && !retakeDeferred
    blockingReason :=
      if hasActive then none
      else if maxAttemptsExhausted then some .maxAttemptsReached
      else if alreadyPassed then some .alreadyPassed
      else none
    bestScore := bestScore
    bestScorePercent := bestScorePercent
    availabilityStatus := state.1
    primaryAction := state.2 }

/-- The attempt that comes first in a stable sort, the latest instant first. -/
def latestAttempt (instant : ExamAttempt → Int) (attempts : List ExamAttempt) : Option ExamAttempt :=
  attempts.foldl
    (fun latest a =>
      match latest with
      | none => some a
      | some l => if instant l < instant a then some a else some l) none

def Db.findByExamAndCandidate (db : Db) (examId candidateId : String) : List ExamAttempt :=
  db.attempts.filter fun a => a.examId = examId ∧ a.candidateId = candidateId

/-- The exam after the reconciliation of a read, which commits on its own. -/
def reconcileExamForRead (db : Db) (examId : String) (now : Int) : Result (Exam × Db) := do
  let _ ← orThrow (db.findExam examId) (.notFound "Exam not found")
  checkAndUpdateExamStatus db examId now

/-- The detail route; `createdAt` is when the attempt with an id was inserted. -/
def candidateExamDetail (createdAt : String → Int) (db : Db) (examId candidateId : String) (now : Int) :
    Result (CandidateExamDetail × Db) := do
  let (exam, db) ← reconcileExamForRead db examId now
  let enrollment ← orThrow (db.findEnrollment examId candidateId) (.notFound "Enrollment not found")
  let allAttempts := db.findByExamAndCandidate examId candidateId
  let activeAttempt := allAttempts.find? fun a => a.status = .inProgress
  let resumableAttempt := allAttempts.find? fun a => a.status = .disrupted
  let finalAttempt := allAttempts.find? fun a => some a.id = enrollment.finalAttemptId
  let latest := latestAttempt (fun a => a.submittedAt.getD (createdAt a.id)) allAttempts
  pure (buildCandidateExamDetail exam (some enrollment) activeAttempt now resumableAttempt latest
      finalAttempt, db)

/-! ## The response with an attempt -/

structure CandidateQuestionSnapshot where
  originalQuestionId : String
  type : QuestionType
  content : JsString
  contentDocument : Option Json
  answerMode : Option ContentMode
  attachments : List Attachment
  options : List AnswerOption
  score : ℚ
  order : Int
  deriving DecidableEq

def toCandidateQuestionSnapshot (q : QuestionSnapshot) : CandidateQuestionSnapshot :=
  { originalQuestionId := q.originalQuestionId
    type := q.type
    content := q.content
    contentDocument := q.contentDocument
    answerMode := q.answerMode
    attachments := q.attachments
    options := q.options
    score := q.score
    order := q.order }

structure CandidateAttemptResponse where
  id : String
  examId : String
  enrollmentId : String
  candidateId : String
  attemptNo : Nat
  status : AttemptStatus
  questionSnapshot : List CandidateQuestionSnapshot
  answers : List AnswerRecord
  score : Option ℚ
  passed : Option Bool
  startedAt : Option Int
  submittedAt : Option Int
  deadlineAt : Option Int
  lastActivityAt : Option Int
  serverNow : Int
  deriving DecidableEq

def toCandidateAttemptResponse (attempt : ExamAttempt) (now : Int) (exam : Exam) :
    CandidateAttemptResponse :=
  let visible := (resolveCandidateResultVisibility exam attempt .own).isNone
  { id := attempt.id
    examId := attempt.examId
    enrollmentId := attempt.enrollmentId
    candidateId := attempt.candidateId
    attemptNo := attempt.attemptNo
    status := attempt.status
    questionSnapshot := attempt.questionSnapshot.map toCandidateQuestionSnapshot
    answers := attempt.answers
    score := if visible then attempt.score else none
    passed := if visible then attempt.passed else none
    startedAt := attempt.startedAt
    submittedAt := attempt.submittedAt
    deadlineAt := attempt.deadlineAt
    lastActivityAt := attempt.lastActivityAt
    serverNow := now }

/-! ## The start route -/

structure StartResponse where
  status : Nat
  body : CandidateAttemptResponse
  deriving DecidableEq

variable [Host]

def startAttemptRoute (db : Db) (input : StartAttemptInput) : Result (StartResponse × Db) := do
  let (exam, db) ← reconcileExamForRead db input.examId input.now
  match startOrRestoreAttempt db input with
  | .error .retakeDeferred => .error (.conflict "Cannot start a new attempt for this exam at this time")
  | .error e => .error e
  | .ok (started, db) =>
    pure ({ status := if started.isNew then 201 else 200
            body := toCandidateAttemptResponse started.attempt input.now exam }, db)

end ExamSystem
