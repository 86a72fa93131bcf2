import ExamSystem.Publish

/-!
# The life of one exam

The routes that create, edit, publish, unpublish, extend and close an exam, and
the status that follows the clock.
-/

namespace ExamSystem

open Tx

/-! ## Requests -/

/-- The control flags that a request sends; the last one is the legacy flag of
the result mode. -/
structure ControlFlagsPatch where
  shuffleQuestions : Option Bool
  shuffleOptions : Option Bool
  detectTabSwitch : Option Bool
  disableCopyPaste : Option Bool
  requireQueue : Option Bool
  batchSize : Option Int
  batchInterval : Option Int
  restrictIp : Option Bool
  requireLockdown : Option Bool
  showResultImmediately : Option Bool
  deriving DecidableEq, Repr

def ControlFlagsPatch.parse (p : ControlFlagsPatch) : ControlFlags :=
  { shuffleQuestions := p.shuffleQuestions.getD false
    shuffleOptions := p.shuffleOptions.getD false
    detectTabSwitch := p.detectTabSwitch.getD false
    disableCopyPaste := p.disableCopyPaste.getD false
    requireQueue := p.requireQueue.getD false
    batchSize := p.batchSize.getD 10
    batchInterval := p.batchInterval.getD 3
    restrictIp := p.restrictIp.getD false
    requireLockdown := p.requireLockdown.getD false }

def ControlFlagsPatch.overlay (p : ControlFlagsPatch) (flags : ControlFlags) : ControlFlags :=
  { shuffleQuestions := p.shuffleQuestions.getD flags.shuffleQuestions
    shuffleOptions := p.shuffleOptions.getD flags.shuffleOptions
    detectTabSwitch := p.detectTabSwitch.getD flags.detectTabSwitch
    disableCopyPaste := p.disableCopyPaste.getD flags.disableCopyPaste
    requireQueue := p.requireQueue.getD flags.requireQueue
    batchSize := p.batchSize.getD flags.batchSize
    batchInterval := p.batchInterval.getD flags.batchInterval
    restrictIp := p.restrictIp.getD flags.restrictIp
    requireLockdown := p.requireLockdown.getD flags.requireLockdown }

/-- The row keeps the request's flags alone: one that is missing reads as off,
a missing number as nothing (here 0). -/
def ControlFlagsPatch.stored (p : ControlFlagsPatch) : ControlFlags :=
  { shuffleQuestions := p.shuffleQuestions.getD false
    shuffleOptions := p.shuffleOptions.getD false
    detectTabSwitch := p.detectTabSwitch.getD false
    disableCopyPaste := p.disableCopyPaste.getD false
    requireQueue := p.requireQueue.getD false
    batchSize := p.batchSize.getD 0
    batchInterval := p.batchInterval.getD 0
    restrictIp := p.restrictIp.getD false
    requireLockdown := p.requireLockdown.getD false }

structure ExamProfilePolicyDefaults where
  timingMode : TimingMode
  durationMinutes : Option Int
  latestStartOffsetMinutes : Option Int
  minSubmitAfterStartMinutes : Option Int
  retakePolicy : RetakePolicy
  maxAttempts : Int
  scoreStrategy : ScoreStrategy
  resultPublicationMode : ResultPublicationMode
  interruptionTimePolicy : InterruptionTimePolicy
  interruptionGracePerIncidentSeconds : Option Int
  interruptionGracePerAttemptSeconds : Option Int
  deriving DecidableEq, Repr

/-- A create request; where null has a meaning of its own, the inner option is
the value and the outer one its presence. -/
structure CreateExamRequest where
  courseId : String
  timingMode : Option TimingMode
  durationMinutes : Option (Option Int)
  openAt : Int
  closeAt : Option Int
  passingScore : ℚ
  totalScore : ℚ
  questionSelectionMode : Option QuestionSelectionMode
  questionIds : List String
  controlFlags : ControlFlagsPatch
  retakePolicy : Option RetakePolicy
  scoreStrategy : Option ScoreStrategy
  maxAttempts : Option Int
  latestStartOffsetMinutes : Option (Option Int)
  minSubmitAfterStartMinutes : Option (Option Int)
  resultPublicationMode : Option ResultPublicationMode
  interruptionTimePolicy : Option InterruptionTimePolicy
  interruptionGracePerIncidentSeconds : Option (Option Int)
  interruptionGracePerAttemptSeconds : Option (Option Int)
  deriving DecidableEq, Repr

/-- An edit request. The title and the description are not modelled: the request
says whether it has one, and whether some text of it, the written form of an
instant or of the flags included, differs from the stored one. -/
structure UpdateExamRequest where
  hasText : Bool
  textDiffers : Bool
  timingMode : Option TimingMode
  durationMinutes : Option (Option Int)
  openAt : Option Int
  closeAt : Option (Option Int)
  passingScore : Option ℚ
  totalScore : Option ℚ
  questionIds : Option (List String)
  controlFlags : Option ControlFlagsPatch
  retakePolicy : Option RetakePolicy
  scoreStrategy : Option ScoreStrategy
  maxAttempts : Option Int
  latestStartOffsetMinutes : Option (Option Int)
  minSubmitAfterStartMinutes : Option (Option Int)
  resultPublicationMode : Option ResultPublicationMode
  interruptionTimePolicy : Option InterruptionTimePolicy
  interruptionGracePerIncidentSeconds : Option (Option Int)
  interruptionGracePerAttemptSeconds : Option (Option Int)
  deriving DecidableEq, Repr

namespace UpdateExamRequest

/-- Nothing beside `openAt` and `closeAt` is sent. -/
def onlySchedule (data : UpdateExamRequest) : Bool :=
  !data.hasText && data.timingMode.isNone && data.durationMinutes.isNone && data.passingScore.isNone &&
    data.totalScore.isNone && data.questionIds.isNone && data.controlFlags.isNone &&
      data.retakePolicy.isNone &&
    data.scoreStrategy.isNone && data.maxAttempts.isNone && data.latestStartOffsetMinutes.isNone &&
    data.minSubmitAfterStartMinutes.isNone && data.resultPublicationMode.isNone &&
      data.interruptionTimePolicy.isNone &&
    data.interruptionGracePerIncidentSeconds.isNone && data.interruptionGracePerAttemptSeconds.isNone

def isEmpty (data : UpdateExamRequest) : Bool :=
  data.onlySchedule && data.openAt.isNone && data.closeAt.isNone

end UpdateExamRequest

/-! ## Create -/

/-- The legacy flag decides the result mode unless the request has a mode. -/
def resolveResultPublicationMode (bodyMode : Option ResultPublicationMode) (legacy : Option Bool)
    (parsedMode : ResultPublicationMode) : ResultPublicationMode :=
  if bodyMode.isSome then parsedMode
  else
    match legacy with
    | some false => .manual
    | some true => .immediate
    | none => parsedMode

/-- The policy and its caps, checked by the shared rule; a finding is reported
under the name that the request has for it. -/
def normalizeInterruptionPolicyConfiguration (policy : InterruptionTimePolicy)
    (perIncident perAttempt : Option Int) :
    Result Unit :=
  match validateInterruptionPolicyCaps policy perIncident perAttempt with
  | [] => pure ()
  | findings =>
    .error (.examPolicyInvalid "Invalid interruption policy configuration"
      (findings.map fun finding =>
        (if finding.1 then "interruptionGracePerIncidentSeconds" else "interruptionTimePolicy",
          "INVALID_INTERRUPTION_POLICY", finding.2)))

def assertExamPolicyInputValid (policy : ResolvedExamPolicy) : Result Unit :=
  match validateExamPolicy policy with
  | [] => pure ()
  | first :: rest =>
    .error (.examPolicyInvalid first.message ((first :: rest).map fun c => (c.fields.headD "exam",
          c.code.text, c.message)))

def checkQuestions (courseId : String) (found : List (Option Question)) : Result Unit := do
  require (∀ q ∈ found, q.isSome)
    (.examPolicyInvalid "题目不存在" [("questionIds", "RESOURCE_NOT_FOUND", "题目不存在")])
  require (∀ q ∈ found, ∀ question ∈ q, question.courseId = courseId)
    (.examPolicyInvalid "题目不属于所选课程" [("questionIds", "QUESTION_COURSE_MISMATCH", "题目不属于所选课程")])

/-- The draft that a request asks for, under the defaults of the profile and of
the code. -/
def CreateExamRequest.draft (data : CreateExamRequest) (profile : Option ExamProfilePolicyDefaults)
    (id : String) : Exam :=
  { id := id
    courseId := data.courseId
    status := .draft
    timingMode := (data.timingMode <|> profile.map (·.timingMode)).getD .timedWindow
    durationMinutes := (data.durationMinutes <|> profile.map (·.durationMinutes)).join
    openAt := data.openAt
    closeAt := data.closeAt
    passingScore := data.passingScore
    totalScore := data.totalScore
    questionSelectionMode := data.questionSelectionMode.getD .manual
    questionIds := data.questionIds
    questionSnapshot := []
    controlFlags := data.controlFlags.parse
    retakePolicy := (data.retakePolicy <|> profile.map (·.retakePolicy)).getD .unlimited
    scoreStrategy := (data.scoreStrategy <|> profile.map (·.scoreStrategy)).getD .highest
    maxAttempts := (data.maxAttempts <|> profile.map (·.maxAttempts)).getD 1
    latestStartOffsetMinutes :=
      (data.latestStartOffsetMinutes <|> profile.map (·.latestStartOffsetMinutes)).join
    minSubmitAfterStartMinutes :=
      (data.minSubmitAfterStartMinutes <|> profile.map (·.minSubmitAfterStartMinutes)).join
    resultPublicationMode :=
      resolveResultPublicationMode data.resultPublicationMode data.controlFlags.showResultImmediately
        ((data.resultPublicationMode <|> profile.map (·.resultPublicationMode)).getD .immediate)
    resultsPublishedAt := none
    syncStartedAt := none
    interruptionTimePolicy :=
      some ((data.interruptionTimePolicy <|> profile.map (·.interruptionTimePolicy)).getD .strict)
    interruptionGracePerIncidentSeconds :=
      (data.interruptionGracePerIncidentSeconds <|>
          profile.map (·.interruptionGracePerIncidentSeconds)).join
    interruptionGracePerAttemptSeconds :=
      (data.interruptionGracePerAttemptSeconds <|> profile.map
          (·.interruptionGracePerAttemptSeconds)).join }

/-- `courseExists` and `found` are what the lookups of the course and of the
questions return, `profile` that of the profile when the request names one, and
`freshId` is the id the database draws. -/
def createExam (data : CreateExamRequest) (profile : Option (Option ExamProfilePolicyDefaults))
    (courseExists : Bool) (found : List (Option Question)) (freshId : String) : Result Exam := do
  require (¬ (data.timingMode.getD .timedWindow = .timedWindow ∧ profile = none ∧
      data.durationMinutes = none))
    (.examPolicyInvalid "Required" [("durationMinutes", "invalid_type", "Required")])
  require (courseExists = true)
    (.examPolicyInvalid "课程不存在" [("courseId", "RESOURCE_NOT_FOUND", "课程不存在")])
  checkQuestions data.courseId found
  require (profile ≠ some none)
    (.examPolicyInvalid "考试策略模板不存在" [("profileId", "RESOURCE_NOT_FOUND", "考试策略模板不存在")])
  let exam := data.draft profile.join freshId
  normalizeInterruptionPolicyConfiguration (exam.interruptionTimePolicy.getD .strict)
    exam.interruptionGracePerIncidentSeconds exam.interruptionGracePerAttemptSeconds
  assertExamPolicyInputValid (resolveExamPolicy exam)
  pure exam

/-! ## Edits -/

def differs {α : Type} [DecidableEq α] (sent : Option α) (current : α) : Bool :=
  sent.any fun value => value ≠ current

def UpdateExamRequest.changes (data : UpdateExamRequest) (existing : Exam) : Bool :=
  data.textDiffers || differs data.timingMode existing.timingMode ||
    differs data.durationMinutes existing.durationMinutes || differs data.openAt existing.openAt ||
    differs data.closeAt existing.closeAt || differs data.passingScore existing.passingScore ||
    differs data.totalScore existing.totalScore || differs data.questionIds existing.questionIds ||
    differs data.retakePolicy existing.retakePolicy || differs data.scoreStrategy
      existing.scoreStrategy ||
    differs data.maxAttempts existing.maxAttempts ||
    differs data.latestStartOffsetMinutes existing.latestStartOffsetMinutes ||
    differs data.minSubmitAfterStartMinutes existing.minSubmitAfterStartMinutes ||
    differs data.resultPublicationMode existing.resultPublicationMode ||
    differs (data.interruptionTimePolicy.map some) existing.interruptionTimePolicy ||
    differs data.interruptionGracePerIncidentSeconds existing.interruptionGracePerIncidentSeconds ||
    differs data.interruptionGracePerAttemptSeconds existing.interruptionGracePerAttemptSeconds

def Exam.reschedule (exam : Exam) (data : UpdateExamRequest) : Exam :=
  { exam with openAt := data.openAt.getD exam.openAt, closeAt := data.closeAt.getD exam.closeAt }

def UpdateExamRequest.hasInterruptionInput (data : UpdateExamRequest) : Bool :=
  data.interruptionTimePolicy.isSome || data.interruptionGracePerIncidentSeconds.isSome ||
    data.interruptionGracePerAttemptSeconds.isSome

/-- The row after an edit of the draft. The result mode is always written. -/
def Exam.redraft (exam : Exam) (data : UpdateExamRequest) : Exam :=
  { exam with
    timingMode := data.timingMode.getD exam.timingMode
    durationMinutes := data.durationMinutes.getD exam.durationMinutes
    openAt := data.openAt.getD exam.openAt
    closeAt := data.closeAt.getD exam.closeAt
    passingScore := data.passingScore.getD exam.passingScore
    totalScore := data.totalScore.getD exam.totalScore
    questionIds := data.questionIds.getD exam.questionIds
    controlFlags := (data.controlFlags.map (·.stored)).getD exam.controlFlags
    retakePolicy := data.retakePolicy.getD exam.retakePolicy
    scoreStrategy := data.scoreStrategy.getD exam.scoreStrategy
    maxAttempts := data.maxAttempts.getD exam.maxAttempts
    latestStartOffsetMinutes := data.latestStartOffsetMinutes.getD exam.latestStartOffsetMinutes
    minSubmitAfterStartMinutes := data.minSubmitAfterStartMinutes.getD exam.minSubmitAfterStartMinutes
    resultPublicationMode :=
      data.resultPublicationMode.getD
        (resolveResultPublicationMode none (data.controlFlags.bind (·.showResultImmediately))
            .immediate)
    interruptionTimePolicy :=
      if data.hasInterruptionInput then some (data.interruptionTimePolicy.getD
          (exam.interruptionTimePolicy.getD .strict))
      else exam.interruptionTimePolicy
    interruptionGracePerIncidentSeconds :=
      data.interruptionGracePerIncidentSeconds.getD exam.interruptionGracePerIncidentSeconds
    interruptionGracePerAttemptSeconds :=
      data.interruptionGracePerAttemptSeconds.getD exam.interruptionGracePerAttemptSeconds }

/-- The policy that the draft edit validates: the row it writes, but with the
flags of the request over those of the exam. -/
def Exam.redraftPolicy (exam : Exam) (data : UpdateExamRequest) : ResolvedExamPolicy :=
  { resolveExamPolicy (exam.redraft data) with
    controlFlags :=
      (data.controlFlags.map fun flags => flags.overlay exam.controlFlags).getD exam.controlFlags }

def updateSchedule (exam : Exam) (data : UpdateExamRequest) : Result Exam := do
  require (data.onlySchedule = true) .examUpdateNotAllowed
  require (¬ (data.closeAt = some none ∧ exam.timingMode ≠ .untimed))
    (.validation "Only untimed exams may clear closeAt")
  pure (exam.reschedule data)

def updateDraft (exam : Exam) (data : UpdateExamRequest) (found : List (Option Question)) :
    Result Exam := do
  if data.changes exam = false then pure exam
  else
    if data.questionIds.isSome then checkQuestions exam.courseId found
    let redrafted := exam.redraft data
    if data.hasInterruptionInput then
      normalizeInterruptionPolicyConfiguration (redrafted.interruptionTimePolicy.getD .strict)
        redrafted.interruptionGracePerIncidentSeconds redrafted.interruptionGracePerAttemptSeconds
    assertExamPolicyInputValid (exam.redraftPolicy data)
    pure redrafted

/-! ## The status -/

def transitionExam (db : Db) (examId : String) (target : ExamStatus) : Result (Exam × Db) := do
  let exam ← orThrow (db.findExam examId) (.validation "Exam not found")
  assertExamTransition exam.status target
  pure ({ exam with status := target }, { db with exam := { exam with status := target } })

def openExam (db : Db) (examId : String) : Result (Exam × Db) := transitionExam db examId .open

def closeExam (db : Db) (examId : String) : Result (Exam × Db) := do
  let exam ← orThrow (db.findExam examId) (.validation "Exam not found")
  if exam.status = .closed then pure (exam, db) else transitionExam db examId .closed

def unpublishExam (db : Db) (examId : String) : Result (Exam × Db) := transitionExam db examId .draft

def extendExam (db : Db) (examId : String) (extendMinutes : Int) : Result (Exam × Db) := do
  require (0 < extendMinutes) (.validation "extendMinutes must be a positive integer")
  let exam ← orThrow (db.findExam examId) (.validation "Exam not found")
  require (exam.status = .open)
    (.invalidStateTransition s!"Cannot extend exam in {exam.status.text} state")
  let oldCloseAt ← orThrow exam.closeAt (.validation "Cannot extend an untimed exam (no closeAt)")
  let extended := { exam with closeAt := some (oldCloseAt + extendMinutes * 60000) }
  pure (extended, { db with exam := extended })

def checkAndUpdateExamStatus (db : Db) (examId : String) (now : Int) : Result (Exam × Db) := do
  let exam ← orThrow (db.findExam examId) (.notFound "RESOURCE_NOT_FOUND")
  let (exam, db) ←
    if exam.status = .published ∧ exam.openAt ≤ now ∧
      exam.timingMode ≠ .timedSync then openExam db examId
    else pure (exam, db)
  if exam.status = .open ∧ ∃ closeAt ∈ exam.closeAt, closeAt ≤ now then closeExam db examId
  else pure (exam, db)

/-! ## The routes -/

/-- The edit route; an exam that is not found is answered, with nothing written. -/
def updateExam (db : Db) (examId : String) (data : UpdateExamRequest)
    (found : List (Option Question)) (now : Int) :
    Result (Exam × Db) := do
  let existing ← orThrow (db.findExam examId) (.notFound "RESOURCE_NOT_FOUND")
  if data.isEmpty then pure (existing, db)
  else
    let (exam, db) ← checkAndUpdateExamStatus db examId now
    match exam.status with
    | .draft => do
      let updated ← updateDraft exam data found
      pure (updated, { db with exam := updated })
    | .published => do
      let updated ← updateSchedule exam data
      pure (updated, { db with exam := updated })
    | _ => .error .examUpdateNotAllowed

def unpublishRoute (db : Db) (examId : String) (now : Int) : Result (Exam × Db) := do
  let (exam, db) ← checkAndUpdateExamStatus db examId now
  require (exam.status = .published) .examUnpublishNotAllowed
  unpublishExam db examId

def extendRoute (db : Db) (examId : String) (extendMinutes now : Int) : Result (Exam × Db) := do
  let (exam, db) ← checkAndUpdateExamStatus db examId now
  require (exam.status = .open)
    (.examExtendNotAllowed (if exam.status = .closed then "ALREADY_CLOSED" else "NOT_OPEN"))
  extendExam db examId extendMinutes

def Db.countUnresolvedByExam (db : Db) (examId : String) : Nat :=
  db.attempts.countP fun a => a.examId = examId ∧ a.status ∈ [.queued, .inProgress, .disrupted,
    .submitted]

def closeRoute (db : Db) (examId : String) (now : Int) : Result (Exam × Db) := do
  let (_, db) ← checkAndUpdateExamStatus db examId now
  require (db.countUnresolvedByExam examId = 0)
    (.examCloseNotAllowed (some (db.countUnresolvedByExam examId)))
  match closeExam db examId with
  | .error (.invalidStateTransition _) => .error (.examCloseNotAllowed none)
  | result => result

section
variable [Host] [RichContent]

/-- `questions` is what the route has read of the exam's questions before its transaction. -/
def publishRoute (db : Db) (examId : String) (questions : List Question) : Result (Exam × Db) :=
  match publishExam db examId questions with
  | .error (.invalidStateTransition _) => .error .examAlreadyPublished
  | result => result

inductive ExamCommand
  | update (data : UpdateExamRequest) (found : List (Option Question)) (now : Int)
  | publish (questions : List Question)
  | unpublish (now : Int)
  | extend (extendMinutes now : Int)
  | reconcile (now : Int)
  | close (now : Int)

def ExamCommand.step (c : ExamCommand) (db : Db) : Result (Exam × Db) :=
  match c with
  | .update data found now => updateExam db db.exam.id data found now
  | .publish questions => publishRoute db db.exam.id questions
  | .unpublish now => unpublishRoute db db.exam.id now
  | .extend extendMinutes now => extendRoute db db.exam.id extendMinutes now
  | .reconcile now => checkAndUpdateExamStatus db db.exam.id now
  | .close now => closeRoute db db.exam.id now

end

end ExamSystem
