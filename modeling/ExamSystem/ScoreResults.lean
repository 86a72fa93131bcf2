import ExamSystem.ContentSchema
import ExamSystem.Start

/-!
# The result of an attempt

The two routes that read a graded attempt back: the candidate's, whose rows have
no reference answer and which follows the publication of the exam, and the one
of the actors who may see every score.
-/

namespace ExamSystem.Results

open Tx

/-! ## The rows -/

/-- A row of the candidate's contract; the prompt is a `δ`. -/
structure CandidateAttemptQuestionResult (δ : Type) where
  questionId : String
  score : ℚ
  maxScore : ℚ
  correct : Bool
  candidateAnswer : Option Json
  manualGraded : Bool
  type : QuestionType
  content : JsString
  contentDocument : Option δ
  answerMode : Option ContentMode
  order : Int
  deriving DecidableEq, Repr

structure AttemptQuestionResult (δ : Type) extends CandidateAttemptQuestionResult δ where
  standardAnswer : Json
  deriving DecidableEq, Repr

def snapshotOf (attempt : ExamAttempt) (questionId : String) : Option QuestionSnapshot :=
  attempt.questionSnapshot.reverse.find? fun question => question.originalQuestionId = questionId

def manualGraded (question : QuestionSnapshot) (result : QuestionScoreResult) : Bool :=
  question.type == .textResponse || (question.type == .fillBlank && result.standardAnswer == .null)

def buildQuestionResult (attempt : ExamAttempt) (result : QuestionScoreResult) :
    Result (AttemptQuestionResult Json) := do
  let question ← orThrow (snapshotOf attempt result.questionId)
    (.notFound "Question snapshot not found")
  pure { questionId := result.questionId
         score := result.score
         maxScore := result.maxScore
         correct := result.correct
         candidateAnswer := result.candidateAnswer
         manualGraded := manualGraded question result
         type := question.type
         content := question.content
         contentDocument := question.contentDocument
         answerMode := question.answerMode
         order := question.order
         standardAnswer := result.standardAnswer }

def buildQuestionResults (attempt : ExamAttempt) (results : List QuestionScoreResult) :
    Result (List (AttemptQuestionResult Json)) :=
  results.mapM (buildQuestionResult attempt)

/-! ## The contracts -/

def ZOD_ERROR : EngineError := .error "ZodError"

section
variable [Host]

/-- Of a row the contract reads the prompt document; the other members have their types. -/
def CandidateAttemptQuestionResultSchema (row : CandidateAttemptQuestionResult Json) :
    Result (CandidateAttemptQuestionResult ContentDocumentV1) := do
  let contentDocument ← match row.contentDocument with
    | none => pure none
    | some value => do
      let document ← orThrow (ContentDocumentV1Schema value) ZOD_ERROR
      pure (some document)
  pure { row with contentDocument := contentDocument }

def AttemptQuestionResultSchema (row : AttemptQuestionResult Json) :
    Result (AttemptQuestionResult ContentDocumentV1) := do
  let safe ← CandidateAttemptQuestionResultSchema row.toCandidateAttemptQuestionResult
  pure { safe with standardAnswer := row.standardAnswer }

end

/-- The response of a result surface with rows `ρ`: a status with the reason why
the result is withheld, or the result. -/
inductive AttemptResultResponse (ρ : Type)
  | hidden (attemptId : String) (status : AttemptStatus) (hiddenReason : CandidateResultHiddenReason)
  | visible (attemptId : String) (passingScore totalScore : ℚ) (passed : Bool) (gradedAt : Int)
      (questionResults : List ρ)
  deriving DecidableEq, Repr

/-! ## The routes -/

def attemptResult {ρ : Type} (view : CandidateResultView)
    (readRow : AttemptQuestionResult Json → Result ρ) (exam : Exam) (attempt : ExamAttempt) :
    Result (AttemptResultResponse ρ) :=
  match resolveCandidateResultVisibility exam attempt view with
  | some hiddenReason => pure (.hidden attempt.id attempt.status hiddenReason)
  | none => do
    -- visibility has checked that the fields are there
    let gradedAt ← orThrow attempt.gradedAt (.error "TypeError")
    let gradingResult ← orThrow attempt.gradingResult (.error "TypeError")
    let questionResults ← buildQuestionResults attempt gradingResult
    let totalScore ← orThrow attempt.score ZOD_ERROR
    let passed ← orThrow attempt.passed ZOD_ERROR
    let rows ← questionResults.mapM readRow
    pure (.visible attempt.id exam.passingScore totalScore passed gradedAt rows)

/-- The view that the capability gate arbitrated; a handler that is reached without one fails closed. -/
def requireScoreView (scoreView : Option CandidateResultView) : Result CandidateResultView :=
  orThrow scoreView (.error "AUTHZ_UNAVAILABLE")

section
variable [Host]

/-- `GET /scores/attempts/:attemptId`, which answers in the own view whoever asks. -/
def candidateAttemptResult (db : Db) (attemptId : String) (scoreView : Option CandidateResultView) :
    Result (AttemptResultResponse (CandidateAttemptQuestionResult ContentDocumentV1)) := do
  let attempt ← orThrow (db.findAttempt attemptId) (.notFound "Attempt not found")
  let exam ← orThrow (db.findExam attempt.examId) (.notFound "Exam not found")
  let _ ← requireScoreView scoreView
  attemptResult .own
    (fun row => CandidateAttemptQuestionResultSchema row.toCandidateAttemptQuestionResult)
    exam attempt

/-- `GET /admin/attempts/:attemptId/result`. -/
def fullAttemptResult (db : Db) (attemptId : String) (scoreView : Option CandidateResultView) :
    Result (AttemptResultResponse (AttemptQuestionResult ContentDocumentV1)) := do
  let view ← requireScoreView scoreView
  require (view = .all) (.permissionDenied "Full attempt result requires the all-view score capability")
  let attempt ← orThrow (db.findAttempt attemptId) (.notFound "Attempt not found")
  let exam ← orThrow (db.findExam attempt.examId) (.notFound "Exam not found")
  attemptResult .all AttemptQuestionResultSchema exam attempt

end

end ExamSystem.Results
