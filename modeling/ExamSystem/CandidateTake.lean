import ExamSystem.AutosaveSound
import ExamSystem.WorksetSound

/-!
# The snapshot that a candidate takes

The one response that the exam page derives its view from: the capabilities at
an instant, and for each question the answer that is stored for it. What it
shows is what the last accepted save stored and what a grader is given, and a
page that is told it may save can save from the counters it is shown.
-/

namespace ExamSystem.Take

open Tx

/-! ## The snapshot -/

inductive InputMode
  | choice | boolean | singleLine | multiLine
  deriving DecidableEq, Repr

inductive AnswerSource
  | draft | submitted | none
  deriving DecidableEq, Repr

inductive LockReason
  | deadline | submitted | voided | disrupted
  deriving DecidableEq, Repr

inductive Visibility
  | visible | hidden
  deriving DecidableEq, Repr

def getInputMode : QuestionType → InputMode
  | .singleChoice | .multipleChoice => .choice
  | .trueFalse => .boolean
  | .fillBlank => .singleLine
  | .textResponse => .multiLine

def computeAnswerVisibility : Visibility := .hidden

structure CandidateTakeQuestion where
  id : String
  type : QuestionType
  prompt : JsString
  promptDocument : Option Json
  answerMode : ContentMode
  options : List AnswerOption
  inputMode : InputMode
  maxScore : ℚ
  answerValue : Json
  answerSource : AnswerSource
  currentClientSeq : Option Int
  currentVersion : Option Nat
  deriving DecidableEq

structure CandidateTakeSnapshot where
  attemptId : String
  examId : String
  attemptStatus : AttemptStatus
  gradingStatus : GradingStatus
  isEditable : Bool
  canStart : Bool
  canResume : Bool
  canSave : Bool
  canSubmit : Bool
  lockReason : Option LockReason
  resultVisibility : Visibility
  answerVisibility : Visibility
  timingMode : TimingMode
  submittedAt : Option Int
  serverNow : Int
  effectiveDeadline : Option Int
  questions : List CandidateTakeQuestion
  deriving DecidableEq

/-- The answer of a question with its source, and the counters of a draft. -/
structure RoutedAnswer where
  value : Json
  source : AnswerSource
  clientSeq : Option Int
  version : Option Nat
  deriving DecidableEq

def unanswered : RoutedAnswer := { value := .null, source := .none, clientSeq := none, version := none }

def routeAnswer (attempt : ExamAttempt) (clientSeqByQuestion : String → Option Int)
    (questionId : String) : RoutedAnswer :=
  match attempt.status with
  | .inProgress | .disrupted =>
    match lastRecord attempt.answers questionId with
    | some r =>
      { value := r.answer, source := .draft, clientSeq := clientSeqByQuestion questionId,
        version := some r.version }
    | none => unanswered
  | .submitted | .graded =>
    match attempt.submittedAnswers.bind fun s => frozenAnswer s questionId with
    | some value => { unanswered with value := value, source := .submitted }
    | none => unanswered
  | _ => unanswered

def buildQuestion (attempt : ExamAttempt) (clientSeqByQuestion : String → Option Int)
    (q : QuestionSnapshot) :
    CandidateTakeQuestion :=
  let answer := routeAnswer attempt clientSeqByQuestion q.originalQuestionId
  { id := q.originalQuestionId
    type := q.type
    prompt := q.content
    promptDocument := q.contentDocument
    answerMode := q.answerMode.getD .plain
    options := q.options
    inputMode := getInputMode q.type
    maxScore := q.score
    answerValue := answer.value
    answerSource := answer.source
    currentClientSeq := answer.clientSeq
    currentVersion := answer.version }

def lockReason (attemptStatus : AttemptStatus) (isDeadlineExpired : Bool) : Option LockReason :=
  if isDeadlineExpired then some .deadline
  else
    match attemptStatus with
    | .submitted | .graded => some .submitted
    | .voided => some .voided
    | .disrupted => some .disrupted
    | _ => none

def buildCandidateTakeSnapshot (attempt : ExamAttempt) (exam : Exam) (now : Int)
    (clientSeqByQuestion : String → Option Int) : Result CandidateTakeSnapshot := do
  let effectiveDeadline ← computeEffectiveDeadline exam.closeAt attempt.deadlineAt
  let isDeadlineExpired := effectiveDeadline.any fun d => d ≤ now
  let isEditable := attempt.status == .inProgress && !isDeadlineExpired
  pure
    { attemptId := attempt.id
      examId := attempt.examId
      attemptStatus := attempt.status
      gradingStatus := attempt.gradingStatus.getD .autoGraded
      isEditable := isEditable
      canStart := false
      canResume := attempt.status == .disrupted
      canSave := isEditable
      canSubmit := (attempt.status == .inProgress || attempt.status == .disrupted) && !isDeadlineExpired
      lockReason := if isEditable then none else lockReason attempt.status isDeadlineExpired
      resultVisibility := if resolveCandidateResultVisibility exam attempt .own = none then .visible
        else .hidden
      answerVisibility := computeAnswerVisibility
      timingMode := exam.timingMode
      submittedAt := attempt.submittedAt
      serverNow := now
      effectiveDeadline := effectiveDeadline
      questions := attempt.questionSnapshot.map (buildQuestion attempt clientSeqByQuestion) }

/-- What the route does after its transaction has reconciled the attempt: it
reads the exam and the receipts as they are by then. -/
def takeView (db : Db) (attempt : ExamAttempt) (now : Int) : Result CandidateTakeSnapshot := do
  let exam ← orThrow (db.findExam attempt.examId) (.notFound "Exam not found")
  buildCandidateTakeSnapshot attempt exam now (findMaxClientSeq db attempt.id)

/-! ## The page's part of it -/

def CandidateTakeSnapshot.forPage (s : CandidateTakeSnapshot) : ExamSystem.CandidateTakeSnapshot :=
  { canSave := s.canSave
    questions := s.questions.map fun q =>
      { id := q.id
        answerValue := q.answerValue
        currentClientSeq := q.currentClientSeq
        currentVersion := q.currentVersion } }

theorem forPage_question (db : Db) (attempt : ExamAttempt) (q : QuestionSnapshot) :
    let shown := buildQuestion attempt (findMaxClientSeq db attempt.id) q
    (⟨shown.id, shown.answerValue, shown.currentClientSeq, shown.currentVersion⟩ : TakeQuestion) =
      takeQuestion db attempt q := by
  simp only [buildQuestion, routeAnswer, takeQuestion]
  cases attempt.status
  case inProgress | disrupted => cases lastRecord attempt.answers q.originalQuestionId <;> rfl
  case submitted | graded =>
    cases attempt.submittedAnswers.bind fun s => frozenAnswer s q.originalQuestionId <;> rfl
  all_goals rfl

theorem forPage_build (db : Db) (attempt : ExamAttempt) (exam : Exam) (now : Int) :
    ExamSystem.buildCandidateTakeSnapshot db attempt exam now =
      (buildCandidateTakeSnapshot attempt exam now (findMaxClientSeq db attempt.id)).map
        (·.forPage) := by
  simp only [ExamSystem.buildCandidateTakeSnapshot, buildCandidateTakeSnapshot,
    isAttemptDeadlineExpired]
  cases computeEffectiveDeadline exam.closeAt attempt.deadlineAt with
  | error e => rfl
  | ok d =>
    simp only [ok_bind, pure, Except.pure, Except.map, CandidateTakeSnapshot.forPage, List.map_map]
    congr 2
    exact List.map_congr_left fun q _ => (forPage_question db attempt q).symm

end ExamSystem.Take
