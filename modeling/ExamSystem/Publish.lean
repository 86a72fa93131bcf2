import ExamSystem.Start

/-!
# Publishing an exam

The cross-field policy validator, the snapshot of the exam's questions, and the
command that freezes a draft.
-/

namespace ExamSystem

open Tx

/-! ## The exam policy -/

inductive ExamPolicyConflictCode
  | examWindowInvalid | examTimingModeInvalid | passingScoreExceedsTotal | retakeMaxAttemptsInvalid
  | interruptionPolicyCapsInvalid | unsupportedExamControl
  deriving DecidableEq, Repr

def ExamPolicyConflictCode.text : ExamPolicyConflictCode → String
  | .examWindowInvalid => "EXAM_WINDOW_INVALID"
  | .examTimingModeInvalid => "EXAM_TIMING_MODE_INVALID"
  | .passingScoreExceedsTotal => "PASSING_SCORE_EXCEEDS_TOTAL"
  | .retakeMaxAttemptsInvalid => "RETAKE_MAX_ATTEMPTS_INVALID"
  | .interruptionPolicyCapsInvalid => "INVALID_INTERRUPTION_POLICY"
  | .unsupportedExamControl => "UNSUPPORTED_EXAM_CONTROL"

structure ExamPolicyConflict where
  code : ExamPolicyConflictCode
  fields : List String
  message : String
  deriving DecidableEq, Repr

structure ResolvedExamPolicy where
  timingMode : TimingMode
  durationMinutes : Option Int
  openAt : Int
  closeAt : Option Int
  retakePolicy : RetakePolicy
  maxAttempts : Int
  passingScore : ℚ
  totalScore : ℚ
  interruptionTimePolicy : InterruptionTimePolicy
  interruptionGracePerIncidentSeconds : Option Int
  interruptionGracePerAttemptSeconds : Option Int
  controlFlags : ControlFlags
  deriving DecidableEq, Repr

def resolveExamPolicy (exam : Exam) : ResolvedExamPolicy :=
  { timingMode := exam.timingMode
    durationMinutes := exam.durationMinutes
    openAt := exam.openAt
    closeAt := exam.closeAt
    retakePolicy := exam.retakePolicy
    maxAttempts := exam.maxAttempts
    passingScore := exam.passingScore
    totalScore := exam.totalScore
    interruptionTimePolicy := exam.interruptionTimePolicy.getD .strict
    interruptionGracePerIncidentSeconds := exam.interruptionGracePerIncidentSeconds
    interruptionGracePerAttemptSeconds := exam.interruptionGracePerAttemptSeconds
    controlFlags := exam.controlFlags }

def timingModeInvalid (fields : List String) (message : String) : List ExamPolicyConflict :=
  [{ code := .examTimingModeInvalid, fields := fields, message := message }]

/-- Which combinations of mode, duration, close and interruption policy are legal. -/
def validateTimingModeMatrix (p : ResolvedExamPolicy) : List ExamPolicyConflict :=
  match p.timingMode with
  | .timedWindow =>
    if p.durationMinutes = none then
      timingModeInvalid ["timingMode",
        "durationMinutes"] "timed_window exams require a positive durationMinutes"
    else if p.closeAt = none then
      timingModeInvalid ["timingMode", "closeAt"] "timed_window exams require closeAt"
    else []
  | .deadline =>
    if p.durationMinutes ≠ none then
      timingModeInvalid ["timingMode", "durationMinutes"] "deadline exams must not set durationMinutes"
    else if p.closeAt = none then
      timingModeInvalid ["timingMode", "closeAt"] "deadline exams require closeAt"
    else if p.interruptionTimePolicy ≠ .strict then
      timingModeInvalid ["timingMode", "interruptionTimePolicy"]
        "deadline exams only support the strict interruption policy"
    else []
  | .untimed =>
    if p.durationMinutes ≠ none then
      timingModeInvalid ["timingMode", "durationMinutes"] "untimed exams must not set durationMinutes"
    else if p.closeAt ≠ none then
      timingModeInvalid ["timingMode", "closeAt"] "untimed exams must not set closeAt"
    else if p.interruptionTimePolicy ≠ .strict then
      timingModeInvalid ["timingMode", "interruptionTimePolicy"]
        "untimed exams only support the strict interruption policy"
    else []
  | .timedSync => timingModeInvalid ["timingMode"] "timed_sync is not supported yet"

/-- A finding of the shared rule for the caps; `true` marks one that names the
per-incident cap. -/
def validateInterruptionPolicyCaps (policy : InterruptionTimePolicy)
    (perIncident perAttempt : Option Int) :
    List (Bool × String) :=
  if policy ≠ .boundedGrace then
    if perIncident ≠ none ∨ perAttempt ≠ none then
      [(false, "strict and operator_incident policies require null caps")]
    else []
  else
    match perIncident, perAttempt with
    | some perIncident, some perAttempt =>
      if perIncident ≤ 0 ∨ perAttempt ≤ 0 then [(false, "bounded_grace caps must be positive")]
      else if perAttempt < perIncident then [(true, "per-incident cap cannot exceed the aggregate cap")]
      else []
    | _, _ => [(false, "bounded_grace requires both caps")]

def capConflict (finding : Bool × String) : ExamPolicyConflict :=
  { code := .interruptionPolicyCapsInvalid
    fields :=
      if finding.1 then ["interruptionGracePerIncidentSeconds"]
      else ["interruptionTimePolicy", "interruptionGracePerIncidentSeconds",
        "interruptionGracePerAttemptSeconds"]
    message := finding.2 }

/-- The flags without runtime enforcement, in the order of their findings. -/
def UNSUPPORTED_CONTROL_FLAGS : List (String × (ControlFlags → Bool)) :=
  [("detectTabSwitch", (·.detectTabSwitch)), ("disableCopyPaste", (·.disableCopyPaste)),
   ("restrictIp", (·.restrictIp)), ("requireLockdown", (·.requireLockdown))]

def unsupportedConflict (flag : String) : ExamPolicyConflict :=
  { code := .unsupportedExamControl
    fields := [flag]
    message := s!"{flag} is not currently supported by runtime enforcement" }

/-- The finding when `c` holds. -/
def conflictIf (c : Prop) [Decidable c] (conflict : ExamPolicyConflict) : List ExamPolicyConflict :=
  if c then [conflict] else []

def validateExamPolicy (p : ResolvedExamPolicy) : List ExamPolicyConflict :=
  conflictIf (∃ closeAt ∈ p.closeAt, closeAt ≤ p.openAt)
    { code := .examWindowInvalid, fields := ["openAt", "closeAt"],
      message := "Exam openAt must be before closeAt" } ++
  validateTimingModeMatrix p ++
  conflictIf (p.totalScore < p.passingScore)
    { code := .passingScoreExceedsTotal
      fields := ["passingScore", "totalScore"]
      message := "Passing score cannot exceed total score" } ++
  conflictIf (p.retakePolicy = .maxAttempts ∧ ¬ 1 ≤ p.maxAttempts)
    { code := .retakeMaxAttemptsInvalid
      fields := ["retakePolicy", "maxAttempts"]
      message := "retakePolicy 'max_attempts' requires maxAttempts >= 1" } ++
  (validateInterruptionPolicyCaps p.interruptionTimePolicy p.interruptionGracePerIncidentSeconds
    p.interruptionGracePerAttemptSeconds).map capConflict ++
  UNSUPPORTED_CONTROL_FLAGS.flatMap fun flag => conflictIf (flag.2 p.controlFlags = true)
    (unsupportedConflict flag.1)

def assertExamPolicyValid (exam : Exam) : Result Unit :=
  match validateExamPolicy (resolveExamPolicy exam) with
  | [] => pure ()
  | first :: rest =>
    .error (.examPolicyInvalid first.message ((first :: rest).map fun c => (c.fields.headD "exam",
          c.code.text, c.message)))

/-! ## Stored content -/

inductive PersistedQuestionContent
  | plain
  | richValid (document : Json)
  | richNoncanonical (document : Json)
  | unsupportedVersion (raw : Json)
  | corrupt (raw : Json)

/-- The reader of stored documents and the projection of a document to text. -/
class RichContent where
  classifyPersistedQuestionContent : Json → PersistedQuestionContent
  plainTextProjection : Json → JsString

section
variable [RichContent]

def assertPublishableRichDocument (subject : String) (contentDocument : Json) : Result Json :=
  match RichContent.classifyPersistedQuestionContent contentDocument with
  | .richValid document => pure document
  | .richNoncanonical _ =>
    .error (.validation
      s!"{subject} contentDocument is not canonical Rich; publish freezes only canonical Rich documents")
  | .unsupportedVersion _ =>
    .error (.validation s!"{subject} contentDocument carries an unsupported docVersion")
  | .corrupt _ =>
    .error (.validation s!"{subject} contentDocument is corrupt or not valid Rich content")
  | .plain => .error (.validation s!"{subject} contentDocument is missing")

def checkProjection (subject : String) (content : JsString) (contentDocument : Option Json) :
    Result Unit :=
  match contentDocument with
  | none => pure ()
  | some stored => do
    let document ← assertPublishableRichDocument subject stored
    require (content = RichContent.plainTextProjection document)
      (.validation s!"{subject} content must equal plainTextProjection(contentDocument) at publish")

end

/-! ## Publish -/

def PLACEHOLDER_VALUES : List JsString := [js "暂无", js "无", js "n/a", js "na", js "null", js "none"]

section
variable [Host]

def isEmptyOrPlaceholder : Json → Bool
  | .null => true
  | .str s =>
    let trimmed := Host.toLowerCase (trim s)
    trimmed.isEmpty || PLACEHOLDER_VALUES.contains trimmed
  | .arr elements => elements.isEmpty
  | .obj entries => entries.isEmpty
  | .bool _ | .num _ => false

def questionToSnapshot (q : Question) (index : Nat) : QuestionSnapshot :=
  { originalQuestionId := q.id
    type := q.type
    content := q.content
    contentDocument := q.contentDocument
    answerMode := q.answerMode
    attachments := q.attachments
    options := q.options
    standardAnswer := q.standardAnswer
    score := q.score
    gradingRule := q.gradingRule
    order := index
    rubric := q.rubric }

/-- The question that `new Map(questions.map((q) => [q.id, q]))` keeps. -/
def bankQuestion (questions : List Question) (qid : String) : Option Question :=
  questions.reverse.find? fun q => q.id = qid

/-- The loop over the exam's question ids, from the position `index`. -/
def snapshotFrom (questions : List Question) : Nat → List String → Result (List QuestionSnapshot)
  | _, [] => pure []
  | index, qid :: qids => do
    let q ← orThrow (bankQuestion questions qid) (.validation s!"Question {qid} not found")
    let rest ← snapshotFrom questions (index + 1) qids
    pure (questionToSnapshot q index :: rest)

def buildQuestionSnapshot (questionIds : List String) (questions : List Question) :
    Result (List QuestionSnapshot) :=
  snapshotFrom questions 0 questionIds

variable [RichContent]

def checkPublishable (q : Question) : Result Unit := do
  require (¬ (q.type = .fillBlank ∧ q.contentDocument.isSome))
    (.validation s!"fill_blank question {q.id} must not carry rich content at publish")
  require (¬ (q.answerMode.isSome ∧ q.type ≠ .textResponse))
    (.validation s!"question {q.id} carries answerMode but is not text_response")
  checkProjection s!"rich question {q.id}" q.content q.contentDocument
  forEach q.options fun option =>
    checkProjection (s!"rich option " ++ optionName option.id ++ s!" of question {q.id}") option.content
      option.contentDocument
  if q.type = .textResponse then
    require (isEmptyOrPlaceholder ((q.rubric.map Json.str).getD .null) = false)
      (.validation s!"text_response question {q.id} requires a non-empty rubric at publish")
  else
    require (isEmptyOrPlaceholder q.standardAnswer = false)
      (.validation s!"auto-graded question {q.id} requires a non-empty standardAnswer at publish")
where
  optionName (id : JsString) : String := String.ofList (id.map fun u => Char.ofNat u.toNat)

def isSupportedRetakePolicy : RetakePolicy → Bool
  | .unlimited | .maxAttempts | .passThenStop => true
  | .dailyLimit | .weeklyLimit => false

def checkExamRow (exam : Exam) : Result Unit := do
  assertExamTransition exam.status .published
  require (exam.questionIds ≠ []) (.validation "Exam must have at least one question")
  require (exam.timingMode ≠ .timedSync) (.validation "timed_sync exams are not supported")
  require (exam.questionSelectionMode = .manual)
    (.validation "Phase 1 only supports manual question selection")
  require (isSupportedRetakePolicy exam.retakePolicy)
    (.validation "Retake policy is not supported in Phase 1")
  require (∀ durationMinutes ∈ exam.durationMinutes, 0 < durationMinutes)
    (.validation "Duration must be positive")
  assertExamPolicyValid exam

def Exam.publish (exam : Exam) (questionSnapshot : List QuestionSnapshot) : Exam :=
  { exam with status := .published, questionSnapshot := questionSnapshot }

def publishExam (db : Db) (examId : String) (questions : List Question) : Result (Exam × Db) := do
  let exam ← orThrow (db.findExam examId) (.validation "Exam not found")
  checkExamRow exam
  require (∀ q ∈ questions, q.courseId = exam.courseId)
    (.validation "Exam questions must belong to its course")
  forEach questions checkPublishable
  let questionSnapshot ← buildQuestionSnapshot exam.questionIds questions
  let totalScore := sumScores (questionSnapshot.map (·.score))
  require (exam.totalScore = totalScore) (.validation "Exam totalScore must match question scores")
  require (exam.passingScore ≤ totalScore) (.validation "Passing score cannot exceed total score")
  pure (exam.publish questionSnapshot, { db with exam := exam.publish questionSnapshot })

end

end ExamSystem
