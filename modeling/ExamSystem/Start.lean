import ExamSystem.TimeGrants

/-!
# Starting an attempt

The admission checks of the start command, the presentation drawn for a new
attempt, and the new row with its enrollment update.
-/

namespace ExamSystem

open Tx

/-! ## The presentation of an attempt -/

section
variable {α : Type}

/-- The Fisher–Yates loop from index `i` down; a draw picks an index up to it. -/
def shuffleFrom : Nat → Array α → List Nat → Array α × List Nat
  | 0, items, draws => (items, draws)
  | i + 1, items, draws =>
    shuffleFrom i (items.swapIfInBounds (i + 1) (draws.headD 0 % (i + 2))) draws.tail

def shuffledCopy (items : List α) (draws : List Nat) : List α × List Nat :=
  let (result, draws) := shuffleFrom (items.length - 1) items.toArray draws
  (result.toList, draws)

theorem shuffleFrom_perm : ∀ (i : Nat) (items : Array α) (draws : List Nat),
    (shuffleFrom i items draws).1.Perm items
  | 0, _, _ => .refl _
  | i + 1, items, draws => by
    refine (shuffleFrom_perm i _ _).trans ?_
    unfold Array.swapIfInBounds
    split
    · split
      · exact Array.swap_perm _ _
      · exact .refl _
    · exact .refl _

theorem shuffledCopy_perm (items : List α) (draws : List Nat) :
    (shuffledCopy items draws).1.Perm items :=
  Array.perm_iff_toList_perm.mp (shuffleFrom_perm _ items.toArray draws)

end

def isChoice (question : QuestionSnapshot) : Bool :=
  question.type == .singleChoice || question.type == .multipleChoice

def shuffleOptions : List QuestionSnapshot → List Nat → List QuestionSnapshot
  | [], _ => []
  | q :: qs, draws =>
    if isChoice q then
      let (options, draws) := shuffledCopy q.options draws
      { q with options := options } :: shuffleOptions qs draws
    else q :: shuffleOptions qs draws

def materializeAttemptPresentation (publishedSnapshot : List QuestionSnapshot)
    (controlFlags : ControlFlags) (draws : List Nat) : List QuestionSnapshot :=
  let (questions, draws) :=
    if controlFlags.shuffleQuestions then
      let (shuffled, draws) := shuffledCopy publishedSnapshot draws
      (shuffled.mapIdx fun index q => { q with order := index }, draws)
    else (publishedSnapshot, draws)
  if controlFlags.shuffleOptions then shuffleOptions questions draws else questions

/-! ## Result visibility -/

inductive CandidateResultView
  | own | all
  deriving DecidableEq, Repr

inductive CandidateResultHiddenReason
  | notStarted | notGraded | pendingPublish
  deriving DecidableEq, Repr

def resolveCandidateResultVisibility (exam : Exam) (attempt : ExamAttempt)
    (view : CandidateResultView) :
    Option CandidateResultHiddenReason :=
  let gradingStatus := attempt.gradingStatus.getD .autoGraded
  if attempt.status ≠ .graded then some .notStarted
  else if attempt.score = none ∨ attempt.passed = none ∨ attempt.gradedAt = none ∨
    attempt.gradingResult = none then
    some .notGraded
  else if gradingStatus = .pendingManual then some .notGraded
  else if exam.resultPublicationMode = .afterGrading ∧ gradingStatus ≠ .fullyGraded then some .notGraded
  else
    match view, exam.resultPublicationMode with
    | .all, _ => none
    | .own, .immediate => none
    | .own, .afterGrading => none
    | .own, .manual => if exam.resultsPublishedAt.isSome then none else some .pendingPublish

def resolveCandidateEnrollmentResultVisibility (exam : Exam) (finalAttempt : Option ExamAttempt)
    (view : CandidateResultView) : Option CandidateResultHiddenReason :=
  match finalAttempt with
  | some finalAttempt => resolveCandidateResultVisibility exam finalAttempt view
  | none => some .notGraded

def isCandidateRetakeDeferred (exam : Exam) (enrollment : ExamEnrollment)
    (finalAttempt : Option ExamAttempt) : Bool :=
  exam.retakePolicy == .passThenStop && enrollment.finalAttemptId.isSome &&
    (resolveCandidateEnrollmentResultVisibility exam finalAttempt .own).isSome

/-! ## Start -/

def NOT_ENROLLED_MESSAGE : String :=
  "Candidate is not enrolled in this exam. An Admin must assign the candidate first."

structure StartAttemptInput where
  examId : String
  candidateId : String
  now : Int
  /-- The id of a new attempt, and the ids of an adjustment a restore may append. -/
  freshAttemptId : String
  freshAdjustment : FreshAdjustment
  draws : List Nat
  /-- The admission gate: absent, refused with an error, or admitted with the
  outcome of consuming the membership. -/
  admission : Option (Result Bool)

structure StartAttemptResult where
  attempt : ExamAttempt
  isNew : Bool
  deriving DecidableEq

/-- The window of the exam, and the shared deadline of a synchronized sitting. -/
def checkStartWindow (exam : Exam) (now : Int) : Result (Option Int) := do
  require (exam.status = .published ∨ exam.status = .open) (.examNotOpen "Exam is not open")
  require (exam.openAt ≤ now ∧ ∀ closeAt ∈ exam.closeAt, now < closeAt)
    (.examNotOpen "Current time is outside exam open window")
  if exam.timingMode = .timedSync then
    require exam.syncStartedAt.isSome (.examNotOpen "Synchronized exam has not been started")
    let syncDeadline ← computeSyncDeadline exam
    require (∀ d ∈ syncDeadline, now < d) (.examNotOpen "Synchronized exam deadline has passed")
    pure syncDeadline
  else pure none

def checkRetake (db : Db) (exam : Exam) (enrollment : ExamEnrollment) : Result Unit := do
  require (¬ (exam.retakePolicy = .maxAttempts ∧ exam.maxAttempts ≤ enrollment.attemptCount))
    (.maxAttemptsReached "Maximum attempt count reached")
  if exam.retakePolicy = .passThenStop then
    require (isCandidateRetakeDeferred exam enrollment
        (enrollment.finalAttemptId.bind db.findAttempt) = false)
      .retakeDeferred
    require (enrollment.finalPassed ≠ some true) (.examAlreadyPassed "Already passed this exam")

/-- The admission gate of a queued exam; the result says whether a membership
was consumed. -/
def checkAdmission (exam : Exam) (admission : Option (Result Bool)) : Result Bool :=
  if exam.controlFlags.requireQueue then do
    let gate ← orThrow admission
      (.validation "Admission gate dependency is required when the exam requires queue admission")
    gate
  else pure true

def checkLateEntry (exam : Exam) (now : Int) : Result Unit :=
  let lateEntryAnchor := if exam.timingMode = .timedSync then exam.syncStartedAt else some exam.openAt
  match exam.latestStartOffsetMinutes, lateEntryAnchor with
  | some offset, some anchor =>
    require (now ≤ anchor + offset * 60000) (.attemptLateEntryClosed (anchor + offset * 60000) now)
  | _, _ => pure ()

def startDeadline (exam : Exam) (now : Int) (syncDeadline : Option Int) : Option Int :=
  match exam.timingMode, exam.durationMinutes with
  | .timedWindow, some durationMinutes => some (calculateDeadlineAt now durationMinutes)
  | .timedSync, _ => syncDeadline
  | _, _ => none

def checkSubmitFeasible (exam : Exam) (now : Int) (deadlineAt : Option Int) : Result Unit :=
  match exam.minSubmitAfterStartMinutes with
  | none => pure ()
  | some minutes => do
    match ← computeEffectiveDeadline exam.closeAt deadlineAt with
    | none => pure ()
    | some effectiveDeadline =>
      require (calculateDeadlineAt now minutes < effectiveDeadline)
        (.attemptStartSubmitInfeasible (calculateDeadlineAt now minutes) effectiveDeadline)

def newAttempt (exam : Exam) (enrollment : ExamEnrollment) (input : StartAttemptInput)
    (deadlineAt : Option Int) (snapshot : AttemptTimingPolicySnapshot) : ExamAttempt :=
  { id := input.freshAttemptId
    examId := input.examId
    enrollmentId := enrollment.id
    candidateId := input.candidateId
    attemptNo := enrollment.attemptCount + 1
    status := .inProgress
    questionSnapshot :=
      materializeAttemptPresentation exam.questionSnapshot exam.controlFlags input.draws
    answers := []
    gradingResult := none
    score := none
    passed := none
    startedAt := some input.now
    submittedAt := none
    gradedAt := none
    deadlineAt := deadlineAt
    lastActivityAt := some input.now
    interruptionTimingPolicySnapshot := some snapshot
    currentInterruptionId := none
    interruptedAt := none
    -- the default of the column
    gradingStatus := some .autoGraded
    submittedAnswers := none
    submissionReason := none }

def ExamEnrollment.startAttempt (e : ExamEnrollment) : ExamEnrollment :=
  { e with status := .started, attemptCount := e.attemptCount + 1 }

def createNewAttempt (db : Db) (exam : Exam) (enrollment : ExamEnrollment) (input : StartAttemptInput)
    (syncDeadline : Option Int) : Result (StartAttemptResult × Db) := do
  checkRetake db exam enrollment
  let consumed ← checkAdmission exam input.admission
  checkLateEntry exam input.now
  let deadlineAt := startDeadline exam input.now syncDeadline
  checkSubmitFeasible exam input.now deadlineAt
  let snapshot ← resolveAttemptTimingPolicySnapshot exam
  let attempt := newAttempt exam enrollment input deadlineAt snapshot
  let db ← db.createAttempt attempt
  require (consumed = true) (.validation "Admission membership was not consumable for this start")
  if enrollment.status ≠ .started then assertEnrollmentTransition enrollment.status .started
  pure ({ attempt := attempt, isNew := true }, db.updateEnrollment (·.startAttempt))

variable [Host]

def startOrRestoreAttempt (db : Db) (input : StartAttemptInput) : Result (StartAttemptResult × Db) := do
  let exam ← orThrow (db.findExam input.examId) (.validation "Exam not found")
  let syncDeadline ← checkStartWindow exam input.now
  let enrollment ← orThrow (db.findEnrollment input.examId input.candidateId)
    (.permissionDenied NOT_ENROLLED_MESSAGE)
  match db.findActiveByEnrollment enrollment.id with
  | none => createNewAttempt db exam enrollment input syncDeadline
  | some active =>
    let locked ← orThrow (db.findAttempt active.id) (.permissionDenied NOT_ENROLLED_MESSAGE)
    require (locked.enrollmentId = enrollment.id)
      (.validation "Active attempt enrollment mismatch — data integrity violation")
    match locked.status with
    | .inProgress => pure ({ attempt := locked, isNew := false }, db)
    | .disrupted =>
      let (result, db) ← restoreInterruptedAttempt db
        { enrollmentId := enrollment.id, attemptId := locked.id } input.now input.freshAdjustment
      pure ({ attempt := result.attempt, isNew := false }, db)
    | status => .error (.validation s!"Cannot start: active attempt in unexpected state {status.text}")

end ExamSystem
