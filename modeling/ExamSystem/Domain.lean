import ExamSystem.Json

/-!
# The domain vocabulary

Enumerations, records and errors. Instants are milliseconds since the epoch,
scores are exact rationals. A record keeps the fields that some modelled
command reads or writes.
-/

namespace ExamSystem

/-! ## Enumerations -/

inductive QuestionType
  | singleChoice | multipleChoice | fillBlank | trueFalse | textResponse
  deriving DecidableEq, Repr

inductive AttemptStatus
  | notStarted | queued | inProgress | disrupted | submitted | graded | voided
  deriving DecidableEq, Repr

inductive GradingStatus
  | autoGraded | pendingManual | fullyGraded
  deriving DecidableEq, Repr

inductive EnrollmentStatus
  | assigned | started | completed | blocked
  deriving DecidableEq, Repr

inductive ExamStatus
  | draft | published | open | closed | canceled | archived
  deriving DecidableEq, Repr

inductive TimingMode
  | timedSync | timedWindow | deadline | untimed
  deriving DecidableEq, Repr

inductive QuestionSelectionMode
  | manual | random
  deriving DecidableEq, Repr

inductive ScoreStrategy
  | highest | latest | first
  deriving DecidableEq, Repr

inductive RetakePolicy
  | unlimited | maxAttempts | dailyLimit | weeklyLimit | passThenStop
  deriving DecidableEq, Repr

inductive ResultPublicationMode
  | immediate | afterGrading | manual
  deriving DecidableEq, Repr

inductive MultiSelectScoring
  | allCorrectFull | partialHalf
  deriving DecidableEq, Repr

inductive FillBlankMatchMode
  | exact | keyword
  deriving DecidableEq, Repr

inductive ContentMode
  | plain | rich
  deriving DecidableEq, Repr

inductive ConflictReason
  | staleVersion | futureVersion | attemptAlreadySubmitted | attemptClosed | deadlineExceeded
  | conflictingPayload | invalidAnswer
  deriving DecidableEq, Repr

inductive SubmitSource
  | candidate | deadlineScanner | proctor | system
  deriving DecidableEq, Repr

inductive SubmissionReason
  | manual | deadline
  deriving DecidableEq, Repr

inductive InterruptionTimePolicy
  | strict | boundedGrace | operatorIncident
  deriving DecidableEq, Repr

inductive InterruptionEventType
  | detected | restored | terminalized
  deriving DecidableEq, Repr

inductive InterruptionDetectionSource
  | heartbeatTimeout | migrationBackfill
  deriving DecidableEq, Repr

inductive TimeAdjustmentSource
  | boundedGrace | operator | systemIncident | administrativeCorrection
  deriving DecidableEq, Repr

inductive GradingEntryMode
  | auto | manual
  deriving DecidableEq, Repr

inductive GradingEntryStatus
  | completedAuto | pendingManual | completedManual
  deriving DecidableEq, Repr

/-! ## The words of the wire -/

def AttemptStatus.text : AttemptStatus → String
  | .notStarted => "not_started"
  | .queued => "queued"
  | .inProgress => "in_progress"
  | .disrupted => "disrupted"
  | .submitted => "submitted"
  | .graded => "graded"
  | .voided => "voided"

def GradingStatus.text : GradingStatus → String
  | .autoGraded => "auto_graded"
  | .pendingManual => "pending_manual"
  | .fullyGraded => "fully_graded"

def EnrollmentStatus.text : EnrollmentStatus → String
  | .assigned => "assigned"
  | .started => "started"
  | .completed => "completed"
  | .blocked => "blocked"

def ExamStatus.text : ExamStatus → String
  | .draft => "draft"
  | .published => "published"
  | .open => "open"
  | .closed => "closed"
  | .canceled => "canceled"
  | .archived => "archived"

def InterruptionTimePolicy.text : InterruptionTimePolicy → String
  | .strict => "strict"
  | .boundedGrace => "bounded_grace"
  | .operatorIncident => "operator_incident"

def GradingEntryMode.text : GradingEntryMode → String
  | .auto => "auto"
  | .manual => "manual"

def GradingEntryStatus.text : GradingEntryStatus → String
  | .completedAuto => "completed_auto"
  | .pendingManual => "pending_manual"
  | .completedManual => "completed_manual"

/-! ## Questions -/

structure GradingRule where
  multiSelectScoring : MultiSelectScoring
  fillBlankMatchMode : FillBlankMatchMode
  fillBlankCaseSensitive : Option Bool
  deriving DecidableEq, Repr

inductive AttachmentType
  | image | file
  deriving DecidableEq, Repr

structure Attachment where
  url : String
  type : AttachmentType
  name : String
  deriving DecidableEq, Repr

structure AnswerOption where
  id : JsString
  content : JsString
  contentDocument : Option Json
  deriving DecidableEq, Repr

/-- A bank question. Every write boundary takes its score through a positive
number schema. -/
structure Question where
  id : String
  courseId : String
  type : QuestionType
  content : JsString
  contentDocument : Option Json
  answerMode : Option ContentMode
  attachments : List Attachment
  options : List AnswerOption
  standardAnswer : Json
  score : ℚ
  gradingRule : GradingRule
  rubric : Option JsString
  score_pos : 0 < score
  deriving DecidableEq, Repr

structure QuestionSnapshot where
  originalQuestionId : String
  type : QuestionType
  content : JsString
  contentDocument : Option Json
  answerMode : Option ContentMode
  attachments : List Attachment
  options : List AnswerOption
  standardAnswer : Json
  score : ℚ
  gradingRule : GradingRule
  order : Int
  rubric : Option JsString
  deriving DecidableEq, Repr

/-! ## Exams and enrollments -/

structure ControlFlags where
  shuffleQuestions : Bool
  shuffleOptions : Bool
  detectTabSwitch : Bool
  disableCopyPaste : Bool
  requireQueue : Bool
  batchSize : Int
  batchInterval : Int
  restrictIp : Bool
  requireLockdown : Bool
  deriving DecidableEq, Repr

structure Exam where
  id : String
  courseId : String
  status : ExamStatus
  timingMode : TimingMode
  durationMinutes : Option Int
  openAt : Int
  closeAt : Option Int
  passingScore : ℚ
  totalScore : ℚ
  questionSelectionMode : QuestionSelectionMode
  questionIds : List String
  questionSnapshot : List QuestionSnapshot
  controlFlags : ControlFlags
  retakePolicy : RetakePolicy
  scoreStrategy : ScoreStrategy
  maxAttempts : Int
  latestStartOffsetMinutes : Option Int
  minSubmitAfterStartMinutes : Option Int
  resultPublicationMode : ResultPublicationMode
  resultsPublishedAt : Option Int
  syncStartedAt : Option Int
  interruptionTimePolicy : Option InterruptionTimePolicy
  interruptionGracePerIncidentSeconds : Option Int
  interruptionGracePerAttemptSeconds : Option Int
  deriving DecidableEq, Repr

structure ExamEnrollment where
  id : String
  examId : String
  candidateId : String
  status : EnrollmentStatus
  attemptCount : Nat
  finalScore : Option ℚ
  finalPassed : Option Bool
  finalAttemptId : Option String
  deriving DecidableEq, Repr

/-! ## Attempts -/

structure AnswerRecord where
  questionId : String
  answer : Json
  version : Nat
  savedAt : Int
  deriving DecidableEq, Repr

structure SubmittedAnswer where
  questionId : String
  value : Json
  deriving DecidableEq, Repr

structure SubmittedAnswersSnapshot where
  answers : List SubmittedAnswer
  deriving DecidableEq, Repr

structure QuestionScoreResult where
  questionId : String
  score : ℚ
  maxScore : ℚ
  correct : Bool
  candidateAnswer : Option Json
  standardAnswer : Json
  deriving DecidableEq, Repr

structure ScoreResult where
  attemptId : String
  totalScore : ℚ
  passed : Bool
  questionResults : List QuestionScoreResult
  gradedAt : Int
  deriving DecidableEq, Repr

structure AttemptTimingPolicySnapshot where
  policy : InterruptionTimePolicy
  perIncidentCapSeconds : Option Int
  perAttemptAggregateCapSeconds : Option Int
  deriving DecidableEq, Repr

structure ExamAttempt where
  id : String
  examId : String
  enrollmentId : String
  candidateId : String
  attemptNo : Nat
  status : AttemptStatus
  questionSnapshot : List QuestionSnapshot
  answers : List AnswerRecord
  gradingResult : Option (List QuestionScoreResult)
  score : Option ℚ
  passed : Option Bool
  startedAt : Option Int
  submittedAt : Option Int
  gradedAt : Option Int
  deadlineAt : Option Int
  lastActivityAt : Option Int
  interruptionTimingPolicySnapshot : Option AttemptTimingPolicySnapshot
  currentInterruptionId : Option String
  interruptedAt : Option Int
  gradingStatus : Option GradingStatus
  submittedAnswers : Option SubmittedAnswersSnapshot
  submissionReason : Option SubmissionReason
  deriving DecidableEq, Repr

structure AnswerReceipt where
  questionId : String
  clientSeq : Int
  answerIdentity : String
  version : Nat
  savedAt : Int
  deriving DecidableEq, Repr

structure AttemptGradingEntry where
  attemptId : String
  questionId : String
  gradingMode : GradingEntryMode
  status : GradingEntryStatus
  maxScore : ℚ
  earnedScore : Option ℚ
  candidateAnswer : Json
  standardAnswer : Json
  correct : Option Bool
  comment : String
  gradedBy : Option String
  gradedAt : Option Int
  deriving DecidableEq, Repr

/-! ## Interruptions -/

structure AttemptInterruption where
  id : String
  attemptId : String
  deriving DecidableEq, Repr

structure AttemptInterruptionEvent where
  attemptId : String
  interruptionId : String
  eventType : InterruptionEventType
  occurredAt : Int
  observedLastActivityAt : Option Int
  detectionSource : Option InterruptionDetectionSource
  timeoutSeconds : Option Int
  policy : InterruptionTimePolicy
  eligibleSeconds : Option Int
  timeAdjustmentId : Option String
  actorId : Option String
  reasonCode : String
  deriving DecidableEq, Repr

structure AttemptTimeAdjustment where
  id : String
  operationId : String
  attemptId : String
  interruptionId : Option String
  incidentId : Option String
  policy : InterruptionTimePolicy
  source : TimeAdjustmentSource
  beforeDeadline : Int
  afterDeadline : Int
  addedSeconds : Int
  eligibleSeconds : Option Int
  reasonCode : String
  reasonText : Option String
  actorId : Option String
  deriving DecidableEq, Repr

/-! ## Errors -/

/-- What a command throws: the error classes with their messages or details, a
plain `Error`, or a violated index or check of the database. -/
inductive EngineError
  | validation (message : String)
  | examPolicyInvalid (message : String) (fields : List (String × String × String))
  | notFound (message : String)
  | invalidStateTransition (message : String)
  | permissionDenied (message : String)
  | idempotencyConflict (message : String)
  | examNotOpen (message : String)
  | maxAttemptsReached (message : String)
  | examAlreadyPassed (message : String)
  | retakeDeferred
  | attemptLateEntryClosed (latestStartAt now : Int)
  | attemptStartSubmitInfeasible (earliestSubmitAt effectiveDeadline : Int)
  | attemptSubmitTooEarly (earliestSubmitAt remainingSeconds : Int)
  | attemptDeadlineExceedsExamClose (newDeadlineAt examCloseAt : Int)
  | examAlreadyPublished
  | examUpdateNotAllowed
  | examUnpublishNotAllowed
  | examExtendNotAllowed (reason : String)
  | examCloseNotAllowed (activeAttemptCount : Option Nat)
  | examCancelNotAllowed (activeAttemptCount : Option Nat)
  | examArchiveNotAllowed
  | examPublishResultsNotAllowed
  | conflict (message : String)
  | error (message : String)
  | uniqueViolation (index : String)
  | checkViolation (constraint : String)
  | integerOutOfRange
  | untranslatableCharacter
  | queueAdmissionRequired
  | serializationFailure
  | incidentVersionConflict (expectedVersion currentVersion : Nat)
  | incidentActionAlreadyLinked (linkType : String)
  deriving DecidableEq, Repr

abbrev Result := Except EngineError

end ExamSystem
