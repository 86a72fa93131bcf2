import ExamSystem.PolicySound

/-!
# The edit of a draft as a patch

The whole row of an exam, the body of an edit with what it names, and the edit
of a draft on them, compared with the merge that it stands for. Flags are JSON
objects here: a row can hold some of them only.
-/

namespace ExamSystem

open Tx

/-! ## Flags as JSON objects -/

inductive FlagValue
  | bool (b : Bool)
  | num (n : Int)
  deriving DecidableEq, Repr

def presentMembers (entries : List (String × Option FlagValue)) : List (String × FlagValue) :=
  entries.filterMap fun e => e.2.map (e.1, ·)

theorem mem_presentMembers {entries : List (String × Option FlagValue)} {name : String}
    {value : FlagValue} :
    (name, value) ∈ presentMembers entries ↔ (name, some value) ∈ entries := by
  simp only [presentMembers, List.mem_filterMap, Option.map_eq_some_iff, Prod.mk.injEq]
  constructor
  · rintro ⟨⟨other, v⟩, hmem, _, rfl, rfl, rfl⟩
    exact hmem
  · intro hmem
    exact ⟨_, hmem, value, rfl, rfl, rfl⟩

namespace ControlFlagsPatch

def entries (p : ControlFlagsPatch) : List (String × Option FlagValue) :=
  [("shuffleQuestions", p.shuffleQuestions.map .bool), ("shuffleOptions", p.shuffleOptions.map .bool),
    ("detectTabSwitch", p.detectTabSwitch.map .bool), ("disableCopyPaste",
      p.disableCopyPaste.map .bool),
    ("requireQueue", p.requireQueue.map .bool), ("batchSize", p.batchSize.map .num),
    ("batchInterval", p.batchInterval.map .num), ("restrictIp", p.restrictIp.map .bool),
    ("requireLockdown", p.requireLockdown.map .bool), ("showResultImmediately",
      p.showResultImmediately.map .bool)]

/-- The flags in the order of a `jsonb` column: by the length of the name, and
then by the name. -/
def storedEntries (p : ControlFlagsPatch) : List (String × Option FlagValue) :=
  [("batchSize", p.batchSize.map .num), ("restrictIp", p.restrictIp.map .bool),
    ("requireQueue", p.requireQueue.map .bool), ("batchInterval", p.batchInterval.map .num),
    ("shuffleOptions", p.shuffleOptions.map .bool), ("detectTabSwitch", p.detectTabSwitch.map .bool),
    ("requireLockdown", p.requireLockdown.map .bool), ("disableCopyPaste",
      p.disableCopyPaste.map .bool),
    ("shuffleQuestions", p.shuffleQuestions.map .bool), ("showResultImmediately",
      p.showResultImmediately.map .bool)]

/-- `{ ...q, ...p }`. -/
def spreadOver (p q : ControlFlagsPatch) : ControlFlagsPatch :=
  { shuffleQuestions := p.shuffleQuestions <|> q.shuffleQuestions
    shuffleOptions := p.shuffleOptions <|> q.shuffleOptions
    detectTabSwitch := p.detectTabSwitch <|> q.detectTabSwitch
    disableCopyPaste := p.disableCopyPaste <|> q.disableCopyPaste
    requireQueue := p.requireQueue <|> q.requireQueue
    batchSize := p.batchSize <|> q.batchSize
    batchInterval := p.batchInterval <|> q.batchInterval
    restrictIp := p.restrictIp <|> q.restrictIp
    requireLockdown := p.requireLockdown <|> q.requireLockdown
    showResultImmediately := p.showResultImmediately <|> q.showResultImmediately }

/-- Every flag of `q` is in `p`, with a value of its own. -/
def Covers (p q : ControlFlagsPatch) : Prop :=
  (q.shuffleQuestions.isSome → p.shuffleQuestions.isSome) ∧
    (q.shuffleOptions.isSome → p.shuffleOptions.isSome) ∧
    (q.detectTabSwitch.isSome → p.detectTabSwitch.isSome) ∧
    (q.disableCopyPaste.isSome → p.disableCopyPaste.isSome) ∧
    (q.requireQueue.isSome → p.requireQueue.isSome) ∧ (q.batchSize.isSome → p.batchSize.isSome) ∧
    (q.batchInterval.isSome → p.batchInterval.isSome) ∧ (q.restrictIp.isSome → p.restrictIp.isSome) ∧
    (q.requireLockdown.isSome → p.requireLockdown.isSome) ∧
    (q.showResultImmediately.isSome → p.showResultImmediately.isSome)

instance (p q : ControlFlagsPatch) : Decidable (p.Covers q) := by
  unfold Covers
  infer_instance

theorem orElse_eq_left {α : Type} {a b : Option α} : (a <|> b) = a ↔ (b.isSome → a.isSome) := by
  cases a <;> cases b <;> simp

attribute [ext] ControlFlagsPatch

theorem spreadOver_eq_left {p q : ControlFlagsPatch} : p.spreadOver q = p ↔ p.Covers q := by
  rw [ControlFlagsPatch.ext_iff]
  simp only [spreadOver, Covers, orElse_eq_left]

theorem entries_injective {p q : ControlFlagsPatch}
    (h : presentMembers p.entries = presentMembers q.storedEntries) :
    p = q := by
  have hsome : ∀ name value, (name, some value) ∈ p.entries ↔ (name, some value) ∈ q.storedEntries := by
    intro name value
    rw [← mem_presentMembers, h, mem_presentMembers]
  simp only [entries, storedEntries, List.mem_cons, Prod.mk.injEq, List.not_mem_nil, or_false] at hsome
  rw [ControlFlagsPatch.ext_iff]
  refine ⟨?_, ?_, ?_, ?_, ?_, ?_, ?_, ?_, ?_, ?_⟩ <;> refine Option.ext fun value => ?_
  · simpa [eq_comm] using hsome "shuffleQuestions" (.bool value)
  · simpa [eq_comm] using hsome "shuffleOptions" (.bool value)
  · simpa [eq_comm] using hsome "detectTabSwitch" (.bool value)
  · simpa [eq_comm] using hsome "disableCopyPaste" (.bool value)
  · simpa [eq_comm] using hsome "requireQueue" (.bool value)
  · simpa [eq_comm] using hsome "batchSize" (.num value)
  · simpa [eq_comm] using hsome "batchInterval" (.num value)
  · simpa [eq_comm] using hsome "restrictIp" (.bool value)
  · simpa [eq_comm] using hsome "requireLockdown" (.bool value)
  · simpa [eq_comm] using hsome "showResultImmediately" (.bool value)

end ControlFlagsPatch

/-! ## Rows and bodies -/

structure ExamRow where
  id : String
  title : String
  description : String
  courseId : String
  status : ExamStatus
  timingMode : TimingMode
  durationMinutes : Option Int
  openAt : Int
  closeAt : Option Int
  syncStartedAt : Option Int
  passingScore : ℚ
  totalScore : ℚ
  questionSelectionMode : QuestionSelectionMode
  questionIds : List String
  questionSnapshot : List QuestionSnapshot
  controlFlags : ControlFlagsPatch
  retakePolicy : RetakePolicy
  scoreStrategy : ScoreStrategy
  maxAttempts : Int
  latestStartOffsetMinutes : Option Int
  minSubmitAfterStartMinutes : Option Int
  resultPublicationMode : ResultPublicationMode
  resultsPublishedAt : Option Int
  interruptionTimePolicy : InterruptionTimePolicy
  interruptionGracePerIncidentSeconds : Option Int
  interruptionGracePerAttemptSeconds : Option Int
  deriving DecidableEq, Repr

/-- The exam as its readers see it: a flag that the row does not have is off. -/
def ExamRow.exam (row : ExamRow) : Exam :=
  { id := row.id
    courseId := row.courseId
    status := row.status
    timingMode := row.timingMode
    durationMinutes := row.durationMinutes
    openAt := row.openAt
    closeAt := row.closeAt
    passingScore := row.passingScore
    totalScore := row.totalScore
    questionSelectionMode := row.questionSelectionMode
    questionIds := row.questionIds
    questionSnapshot := row.questionSnapshot
    controlFlags := row.controlFlags.stored
    retakePolicy := row.retakePolicy
    scoreStrategy := row.scoreStrategy
    maxAttempts := row.maxAttempts
    latestStartOffsetMinutes := row.latestStartOffsetMinutes
    minSubmitAfterStartMinutes := row.minSubmitAfterStartMinutes
    resultPublicationMode := row.resultPublicationMode
    resultsPublishedAt := row.resultsPublishedAt
    syncStartedAt := row.syncStartedAt
    interruptionTimePolicy := some row.interruptionTimePolicy
    interruptionGracePerIncidentSeconds := row.interruptionGracePerIncidentSeconds
    interruptionGracePerAttemptSeconds := row.interruptionGracePerAttemptSeconds }

/-- A written instant: when it is, and whether its text is the one that
`toISOString` has for it. -/
structure WrittenInstant where
  time : Int
  canonical : Bool
  deriving DecidableEq, Repr

/-- The parsed body of an edit: an outer `none` is a field that is not sent. -/
structure UpdateExamBody where
  title : Option String
  description : Option String
  timingMode : Option TimingMode
  durationMinutes : Option (Option Int)
  openAt : Option WrittenInstant
  closeAt : Option (Option WrittenInstant)
  passingScore : Option ℚ
  totalScore : Option ℚ
  questionIds : Option (List String)
  controlFlags : Option ControlFlagsPatch
  retakePolicy : Option RetakePolicy
  scoreStrategy : Option ScoreStrategy
  maxAttempts : Option Int
  latestStartOffsetMinutes : Option (Option Int)
  minSubmitAfterStartMinutes : Option (Option Int)
  resultPublicationMode : Option ResultPublicationMode
  interruptionTimePolicy : Option InterruptionTimePolicy
  interruptionGracePerIncidentSeconds : Option (Option Int)
  interruptionGracePerAttemptSeconds : Option (Option Int)
  deriving DecidableEq, Repr

def differsWritten (sent : Option WrittenInstant) (current : Int) : Bool :=
  sent.any fun instant => !(instant.canonical && instant.time = current)

def differsNullable (sent : Option (Option WrittenInstant)) (current : Option Int) : Bool :=
  sent.any fun value =>
    match value, current with
    | none, none => false
    | some instant, some current => !(instant.canonical && instant.time = current)
    | _, _ => true

def differsFlags (sent : Option ControlFlagsPatch) (current : ControlFlagsPatch) : Bool :=
  sent.any fun flags => presentMembers flags.entries ≠ presentMembers current.storedEntries

def determineChangedExamFields (data : UpdateExamBody) (existing : ExamRow) : List String :=
  [("title", differs data.title existing.title),
    ("description", differs data.description existing.description),
    ("timingMode", differs data.timingMode existing.timingMode),
    ("durationMinutes", differs data.durationMinutes existing.durationMinutes),
    ("openAt", differsWritten data.openAt existing.openAt),
    ("closeAt", differsNullable data.closeAt existing.closeAt),
    ("passingScore", differs data.passingScore existing.passingScore),
    ("totalScore", differs data.totalScore existing.totalScore),
    ("questionIds", differs data.questionIds existing.questionIds),
    ("controlFlags", differsFlags data.controlFlags existing.controlFlags),
    ("retakePolicy", differs data.retakePolicy existing.retakePolicy),
    ("scoreStrategy", differs data.scoreStrategy existing.scoreStrategy),
    ("maxAttempts", differs data.maxAttempts existing.maxAttempts),
    ("latestStartOffsetMinutes",
      differs data.latestStartOffsetMinutes existing.latestStartOffsetMinutes),
    ("minSubmitAfterStartMinutes",
      differs data.minSubmitAfterStartMinutes existing.minSubmitAfterStartMinutes),
    ("resultPublicationMode", differs data.resultPublicationMode existing.resultPublicationMode),
    ("interruptionTimePolicy", differs data.interruptionTimePolicy existing.interruptionTimePolicy),
    ("interruptionGracePerIncidentSeconds",
      differs data.interruptionGracePerIncidentSeconds existing.interruptionGracePerIncidentSeconds),
    ("interruptionGracePerAttemptSeconds",
      differs data.interruptionGracePerAttemptSeconds
        existing.interruptionGracePerAttemptSeconds)].filterMap
    fun field => if field.2 then some field.1 else none

/-! ## The edit -/

/-- The columns that an update sets; those that are undefined are left out of it. -/
structure ExamChanges where
  title : Option String
  description : Option String
  timingMode : Option TimingMode
  durationMinutes : Option (Option Int)
  openAt : Option Int
  closeAt : Option (Option Int)
  passingScore : Option ℚ
  totalScore : Option ℚ
  questionIds : Option (List String)
  controlFlags : Option ControlFlagsPatch
  retakePolicy : Option RetakePolicy
  scoreStrategy : Option ScoreStrategy
  maxAttempts : Option Int
  latestStartOffsetMinutes : Option (Option Int)
  minSubmitAfterStartMinutes : Option (Option Int)
  resultPublicationMode : Option ResultPublicationMode
  interruptionTimePolicy : Option InterruptionTimePolicy
  interruptionGracePerIncidentSeconds : Option (Option Int)
  interruptionGracePerAttemptSeconds : Option (Option Int)
  deriving DecidableEq, Repr

def ExamRow.update (row : ExamRow) (changes : ExamChanges) : ExamRow :=
  { row with
    title := changes.title.getD row.title
    description := changes.description.getD row.description
    timingMode := changes.timingMode.getD row.timingMode
    durationMinutes := changes.durationMinutes.getD row.durationMinutes
    openAt := changes.openAt.getD row.openAt
    closeAt := changes.closeAt.getD row.closeAt
    passingScore := changes.passingScore.getD row.passingScore
    totalScore := changes.totalScore.getD row.totalScore
    questionIds := changes.questionIds.getD row.questionIds
    controlFlags := changes.controlFlags.getD row.controlFlags
    retakePolicy := changes.retakePolicy.getD row.retakePolicy
    scoreStrategy := changes.scoreStrategy.getD row.scoreStrategy
    maxAttempts := changes.maxAttempts.getD row.maxAttempts
    latestStartOffsetMinutes := changes.latestStartOffsetMinutes.getD row.latestStartOffsetMinutes
    minSubmitAfterStartMinutes := changes.minSubmitAfterStartMinutes.getD row.minSubmitAfterStartMinutes
    resultPublicationMode := changes.resultPublicationMode.getD row.resultPublicationMode
    interruptionTimePolicy := changes.interruptionTimePolicy.getD row.interruptionTimePolicy
    interruptionGracePerIncidentSeconds :=
      changes.interruptionGracePerIncidentSeconds.getD row.interruptionGracePerIncidentSeconds
    interruptionGracePerAttemptSeconds :=
      changes.interruptionGracePerAttemptSeconds.getD row.interruptionGracePerAttemptSeconds }

namespace UpdateExamBody

def hasInterruptionInput (data : UpdateExamBody) : Bool :=
  data.interruptionTimePolicy.isSome || data.interruptionGracePerIncidentSeconds.isSome ||
    data.interruptionGracePerAttemptSeconds.isSome

/-- The result mode that a draft edit writes: the named one, or what the legacy
flag stands for, or immediate. -/
def writtenMode (data : UpdateExamBody) : ResultPublicationMode :=
  data.resultPublicationMode.getD
    (resolveResultPublicationMode none (data.controlFlags.bind (·.showResultImmediately)) .immediate)

/-- What a draft edit sets: the fields of the body, the result mode in any case,
and with any interruption field all three of them. -/
def updateData (data : UpdateExamBody) (exam : ExamRow) : ExamChanges :=
  { title := data.title
    description := data.description
    timingMode := data.timingMode
    durationMinutes := data.durationMinutes
    openAt := data.openAt.map (·.time)
    closeAt := data.closeAt.map (·.map (·.time))
    passingScore := data.passingScore
    totalScore := data.totalScore
    questionIds := data.questionIds
    controlFlags := data.controlFlags
    retakePolicy := data.retakePolicy
    scoreStrategy := data.scoreStrategy
    maxAttempts := data.maxAttempts
    latestStartOffsetMinutes := data.latestStartOffsetMinutes
    minSubmitAfterStartMinutes := data.minSubmitAfterStartMinutes
    resultPublicationMode := some data.writtenMode
    interruptionTimePolicy :=
      if data.hasInterruptionInput then some (data.interruptionTimePolicy.getD
          exam.interruptionTimePolicy)
      else data.interruptionTimePolicy
    interruptionGracePerIncidentSeconds :=
      if data.hasInterruptionInput then
        some (data.interruptionGracePerIncidentSeconds.getD exam.interruptionGracePerIncidentSeconds)
      else data.interruptionGracePerIncidentSeconds
    interruptionGracePerAttemptSeconds :=
      if data.hasInterruptionInput then
        some (data.interruptionGracePerAttemptSeconds.getD exam.interruptionGracePerAttemptSeconds)
      else data.interruptionGracePerAttemptSeconds }

end UpdateExamBody

/-- The policy that an edit validates, with the flags as the object they are. -/
structure ExamPolicyInput where
  timingMode : TimingMode
  durationMinutes : Option Int
  openAt : Int
  closeAt : Option Int
  latestStartOffsetMinutes : Option Int
  minSubmitAfterStartMinutes : Option Int
  questionSelectionMode : QuestionSelectionMode
  questionIds : List String
  retakePolicy : RetakePolicy
  maxAttempts : Int
  scoreStrategy : ScoreStrategy
  passingScore : ℚ
  totalScore : ℚ
  resultPublicationMode : ResultPublicationMode
  interruptionTimePolicy : InterruptionTimePolicy
  interruptionGracePerIncidentSeconds : Option Int
  interruptionGracePerAttemptSeconds : Option Int
  controlFlags : ControlFlagsPatch
  deriving DecidableEq, Repr

def ExamPolicyInput.resolved (p : ExamPolicyInput) : ResolvedExamPolicy :=
  { timingMode := p.timingMode
    durationMinutes := p.durationMinutes
    openAt := p.openAt
    closeAt := p.closeAt
    retakePolicy := p.retakePolicy
    maxAttempts := p.maxAttempts
    passingScore := p.passingScore
    totalScore := p.totalScore
    interruptionTimePolicy := p.interruptionTimePolicy
    interruptionGracePerIncidentSeconds := p.interruptionGracePerIncidentSeconds
    interruptionGracePerAttemptSeconds := p.interruptionGracePerAttemptSeconds
    controlFlags := p.controlFlags.stored }

/-- The changes over the stored exam, field by field, and the flags flag by flag. -/
def ExamChanges.policyInput (updateData : ExamChanges) (exam : ExamRow) : ExamPolicyInput :=
  { timingMode := updateData.timingMode.getD exam.timingMode
    durationMinutes := updateData.durationMinutes.getD exam.durationMinutes
    openAt := updateData.openAt.getD exam.openAt
    closeAt := updateData.closeAt.getD exam.closeAt
    latestStartOffsetMinutes := updateData.latestStartOffsetMinutes.getD exam.latestStartOffsetMinutes
    minSubmitAfterStartMinutes :=
      updateData.minSubmitAfterStartMinutes.getD exam.minSubmitAfterStartMinutes
    questionSelectionMode := exam.questionSelectionMode
    questionIds := updateData.questionIds.getD exam.questionIds
    retakePolicy := updateData.retakePolicy.getD exam.retakePolicy
    maxAttempts := updateData.maxAttempts.getD exam.maxAttempts
    scoreStrategy := updateData.scoreStrategy.getD exam.scoreStrategy
    passingScore := updateData.passingScore.getD exam.passingScore
    totalScore := updateData.totalScore.getD exam.totalScore
    resultPublicationMode := updateData.resultPublicationMode.getD exam.resultPublicationMode
    interruptionTimePolicy := updateData.interruptionTimePolicy.getD exam.interruptionTimePolicy
    interruptionGracePerIncidentSeconds :=
      updateData.interruptionGracePerIncidentSeconds.getD exam.interruptionGracePerIncidentSeconds
    interruptionGracePerAttemptSeconds :=
      updateData.interruptionGracePerAttemptSeconds.getD exam.interruptionGracePerAttemptSeconds
    controlFlags :=
      (updateData.controlFlags.map (·.spreadOver exam.controlFlags)).getD exam.controlFlags }

/-- The draft branch of the edit route, on the row that it has locked; it gives
the policy it validated, and the row it leaves. -/
def patchDraft (data : UpdateExamBody) (found : List (Option Question)) (existing : ExamRow) :
    Result (Option ExamPolicyInput × ExamRow) := do
  let changedFields := determineChangedExamFields data existing
  if changedFields.length = 0 then pure (none, existing)
  else
    if data.questionIds.isSome then checkQuestions existing.courseId found
    let updateData := data.updateData existing
    if data.hasInterruptionInput then
      normalizeInterruptionPolicyConfiguration
        (data.interruptionTimePolicy.getD existing.interruptionTimePolicy)
        (data.interruptionGracePerIncidentSeconds.getD existing.interruptionGracePerIncidentSeconds)
        (data.interruptionGracePerAttemptSeconds.getD existing.interruptionGracePerAttemptSeconds)
    let policy := updateData.policyInput existing
    assertExamPolicyInputValid policy.resolved
    pure (some policy, existing.update updateData)

def UpdateExamBody.onlySchedule (data : UpdateExamBody) : Bool :=
  data.title.isNone && data.description.isNone && data.timingMode.isNone &&
    data.durationMinutes.isNone &&
    data.passingScore.isNone && data.totalScore.isNone && data.questionIds.isNone &&
      data.controlFlags.isNone &&
    data.retakePolicy.isNone && data.scoreStrategy.isNone && data.maxAttempts.isNone &&
    data.latestStartOffsetMinutes.isNone && data.minSubmitAfterStartMinutes.isNone &&
    data.resultPublicationMode.isNone && data.interruptionTimePolicy.isNone &&
    data.interruptionGracePerIncidentSeconds.isNone && data.interruptionGracePerAttemptSeconds.isNone

def UpdateExamBody.isEmpty (data : UpdateExamBody) : Bool :=
  data.onlySchedule && data.openAt.isNone && data.closeAt.isNone

/-- The published branch: the schedule alone may change, and only an untimed exam
loses its close. -/
def patchSchedule (data : UpdateExamBody) (existing : ExamRow) : Result ExamRow := do
  require (data.onlySchedule = true) .examUpdateNotAllowed
  require (¬ (data.closeAt = some none ∧ existing.timingMode ≠ .untimed))
    (.validation "Only untimed exams may clear closeAt")
  if differsWritten data.openAt existing.openAt = false ∧
    differsNullable data.closeAt existing.closeAt = false then
    pure existing
  else
    pure { existing with
      openAt := (data.openAt.map (·.time)).getD existing.openAt
      closeAt := (data.closeAt.map (·.map (·.time))).getD existing.closeAt }

def ExamRow.withStatus (row : ExamRow) (status : ExamStatus) : ExamRow := { row with status := status }

def reconcileExamForMutation (existing : ExamRow) (now : Int) : ExamRow :=
  let exam :=
    if existing.status = .published ∧ existing.openAt ≤ now ∧
      existing.timingMode ≠ .timedSync then existing.withStatus .open
    else existing
  if exam.status = .open ∧ ∃ closeAt ∈ exam.closeAt, closeAt ≤ now then exam.withStatus .closed
    else exam

def patchExam (data : UpdateExamBody) (found : List (Option Question)) (now : Int)
    (existing : ExamRow) :
    Result (Option ExamPolicyInput × ExamRow) :=
  if data.isEmpty then pure (none, existing)
  else
    let exam := reconcileExamForMutation existing now
    match exam.status with
    | .draft => patchDraft data found exam
    | .published => do
      let updated ← patchSchedule data exam
      pure (none, updated)
    | _ => .error .examUpdateNotAllowed

/-! ## The merge -/

/-- What a patch stands for: the fields and the flags that the body names take
its values, and the others stay. -/
def ExamRow.merge (row : ExamRow) (data : UpdateExamBody) : ExamRow :=
  { row with
    title := data.title.getD row.title
    description := data.description.getD row.description
    timingMode := data.timingMode.getD row.timingMode
    durationMinutes := data.durationMinutes.getD row.durationMinutes
    openAt := (data.openAt.map (·.time)).getD row.openAt
    closeAt := (data.closeAt.map (·.map (·.time))).getD row.closeAt
    passingScore := data.passingScore.getD row.passingScore
    totalScore := data.totalScore.getD row.totalScore
    questionIds := data.questionIds.getD row.questionIds
    controlFlags := (data.controlFlags.map (·.spreadOver row.controlFlags)).getD row.controlFlags
    retakePolicy := data.retakePolicy.getD row.retakePolicy
    scoreStrategy := data.scoreStrategy.getD row.scoreStrategy
    maxAttempts := data.maxAttempts.getD row.maxAttempts
    latestStartOffsetMinutes := data.latestStartOffsetMinutes.getD row.latestStartOffsetMinutes
    minSubmitAfterStartMinutes := data.minSubmitAfterStartMinutes.getD row.minSubmitAfterStartMinutes
    resultPublicationMode := data.resultPublicationMode.getD row.resultPublicationMode
    interruptionTimePolicy := data.interruptionTimePolicy.getD row.interruptionTimePolicy
    interruptionGracePerIncidentSeconds :=
      data.interruptionGracePerIncidentSeconds.getD row.interruptionGracePerIncidentSeconds
    interruptionGracePerAttemptSeconds :=
      data.interruptionGracePerAttemptSeconds.getD row.interruptionGracePerAttemptSeconds }

def ExamRow.policyInput (row : ExamRow) : ExamPolicyInput :=
  { timingMode := row.timingMode
    durationMinutes := row.durationMinutes
    openAt := row.openAt
    closeAt := row.closeAt
    latestStartOffsetMinutes := row.latestStartOffsetMinutes
    minSubmitAfterStartMinutes := row.minSubmitAfterStartMinutes
    questionSelectionMode := row.questionSelectionMode
    questionIds := row.questionIds
    retakePolicy := row.retakePolicy
    maxAttempts := row.maxAttempts
    scoreStrategy := row.scoreStrategy
    passingScore := row.passingScore
    totalScore := row.totalScore
    resultPublicationMode := row.resultPublicationMode
    interruptionTimePolicy := row.interruptionTimePolicy
    interruptionGracePerIncidentSeconds := row.interruptionGracePerIncidentSeconds
    interruptionGracePerAttemptSeconds := row.interruptionGracePerAttemptSeconds
    controlFlags := row.controlFlags }

/-- The edit is the merge, and the policy that it validated is the one it leaves. -/
structure Merges (row : ExamRow) (data : UpdateExamBody) (validated : Option ExamPolicyInput)
    (row' : ExamRow) : Prop where
  fields : row' = row.merge data
  policy : ∀ p ∈ validated, p = row'.policyInput

/-- The body changes nothing; or its flags, if it has some, are all those of the
row, and the result mode that it brings about is named or the stored one. -/
def ExamRow.Mergeable (row : ExamRow) (data : UpdateExamBody) : Prop :=
  determineChangedExamFields data row = [] ∨
    (∀ flags ∈ data.controlFlags, flags.Covers row.controlFlags) ∧
      (data.resultPublicationMode.isSome ∨ data.writtenMode = row.resultPublicationMode)

instance (row : ExamRow) (data : UpdateExamBody) : Decidable (row.Mergeable data) :=
  inferInstanceAs (Decidable (_ ∨ _ ∧ _))

/-! ## Bodies that change nothing -/

theorem differs_eq_false {α : Type} [DecidableEq α] {sent : Option α} {current : α}
    (h : differs sent current = false) :
    sent.getD current = current := by
  cases sent with
  | none => rfl
  | some value => simpa [differs] using h

theorem differsWritten_eq_false {sent : Option WrittenInstant} {current : Int}
    (h : differsWritten sent current = false) :
    (sent.map (·.time)).getD current = current := by
  cases sent with
  | none => rfl
  | some instant =>
    simp only [differsWritten, Option.any_some, Bool.not_eq_false', Bool.and_eq_true,
      decide_eq_true_eq] at h
    exact h.2

theorem differsNullable_eq_false {sent : Option (Option WrittenInstant)} {current : Option Int}
    (h : differsNullable sent current = false) :
    (sent.map (·.map (·.time))).getD current = current := by
  cases sent with
  | none => rfl
  | some value =>
    cases value <;> cases current <;> simp [differsNullable] at h ⊢
    exact h.2

theorem ControlFlagsPatch.spreadOver_self (p : ControlFlagsPatch) : p.spreadOver p = p := by
  rw [spreadOver_eq_left]
  exact ⟨id, id, id, id, id, id, id, id, id, id⟩

theorem differsFlags_eq_false {sent : Option ControlFlagsPatch} {current : ControlFlagsPatch}
    (h : differsFlags sent current = false) :
    (sent.map (·.spreadOver current)).getD current = current := by
  cases sent with
  | none => rfl
  | some flags =>
    simp only [differsFlags, Option.any_some, decide_eq_false_iff_not, ne_eq, not_not] at h
    obtain rfl := ControlFlagsPatch.entries_injective h
    exact flags.spreadOver_self

theorem merge_unchanged {row : ExamRow} {data : UpdateExamBody}
    (h : determineChangedExamFields data row = []) :
    row.merge data = row := by
  simp only [determineChangedExamFields, List.filterMap_eq_nil_iff, List.mem_cons,
    List.not_mem_nil, or_false, ite_eq_right_iff, reduceCtorEq, imp_false, Bool.not_eq_true,
    forall_eq_or_imp, forall_eq] at h
  obtain ⟨htitle, hdescription, hmode, hduration, hopen, hclose, hpassing, htotal, hquestions,
    hflags, hretake, hstrategy, hmax, hlatest, hmin, hresult, hpolicy, hincident, hattempt⟩ := h
  unfold ExamRow.merge
  rw [differs_eq_false htitle, differs_eq_false hdescription, differs_eq_false hmode,
    differs_eq_false hduration, differsWritten_eq_false hopen, differsNullable_eq_false hclose,
    differs_eq_false hpassing, differs_eq_false htotal, differs_eq_false hquestions,
    differsFlags_eq_false hflags, differs_eq_false hretake, differs_eq_false hstrategy,
    differs_eq_false hmax, differs_eq_false hlatest, differs_eq_false hmin,
    differs_eq_false hresult, differs_eq_false hpolicy, differs_eq_false hincident,
    differs_eq_false hattempt]

/-! ## Bodies that are written -/

theorem normalized_getD {α : Type} (c : Bool) (sent : Option α) (current : α) :
    (if c then some (sent.getD current) else sent).getD current = sent.getD current := by
  cases c <;> rfl

theorem update_eq (row : ExamRow) (data : UpdateExamBody) : row.update (data.updateData row) =
    { row.merge data with
      controlFlags := data.controlFlags.getD row.controlFlags
      resultPublicationMode := data.writtenMode } := by
  simp only [ExamRow.update, UpdateExamBody.updateData, ExamRow.merge, normalized_getD,
    Option.getD_some]

theorem policyInput_eq (row : ExamRow) (data : UpdateExamBody) : (data.updateData row).policyInput row =
    { (row.update (data.updateData row)).policyInput with
      controlFlags :=
        (data.controlFlags.map (·.spreadOver row.controlFlags)).getD row.controlFlags } := rfl

theorem flags_merged_iff {sent : Option ControlFlagsPatch} {current : ControlFlagsPatch} :
    sent.getD current = (sent.map (·.spreadOver current)).getD current ↔
    ∀ flags ∈ sent, flags.Covers current := by
  cases sent with
  | none => simp
  | some flags => simp [← ControlFlagsPatch.spreadOver_eq_left, eq_comm]

theorem update_merges_iff {row : ExamRow} {data : UpdateExamBody} :
    Merges row data (some ((data.updateData row).policyInput row)) (row.update (data.updateData row)) ↔
      (∀ flags ∈ data.controlFlags, flags.Covers row.controlFlags) ∧
        (data.resultPublicationMode.isSome ∨ data.writtenMode = row.resultPublicationMode) := by
  have hmode : data.writtenMode = data.resultPublicationMode.getD row.resultPublicationMode ↔
      (data.resultPublicationMode.isSome ∨ data.writtenMode = row.resultPublicationMode) := by
    unfold UpdateExamBody.writtenMode
    cases data.resultPublicationMode <;> simp
  rw [← flags_merged_iff, ← hmode]
  constructor
  · intro h
    have hrow := h.fields
    rw [update_eq] at hrow
    exact ⟨congrArg (·.controlFlags) hrow, congrArg (·.resultPublicationMode) hrow⟩
  · rintro ⟨hflags, hresult⟩
    have hrow : row.update (data.updateData row) = row.merge data := by
      rw [update_eq, hflags, hresult]
      rfl
    refine ⟨hrow, fun p hp => ?_⟩
    obtain rfl := Option.some.inj hp
    rw [policyInput_eq, hrow]
    rfl

/-- An accepted edit of a draft: nothing differs and nothing is written, or the
policy was validated and the changes are written. -/
theorem patchDraft_ok {data : UpdateExamBody} {found : List (Option Question)} {row row' : ExamRow}
    {validated : Option ExamPolicyInput} (h : patchDraft data found row = .ok (validated, row')) :
    (determineChangedExamFields data row = [] ∧ validated = none ∧ row' = row) ∨
      (determineChangedExamFields data row ≠ [] ∧
        validated = some ((data.updateData row).policyInput row) ∧
        row' = row.update (data.updateData row)) := by
  simp only [patchDraft, List.length_eq_zero_iff] at h
  split at h
  · rename_i hsame
    simp only [pure_eq_ok, Prod.mk.injEq] at h
    obtain ⟨rfl, rfl⟩ := h
    exact .inl ⟨hsame, rfl, rfl⟩
  · rename_i hchanged
    refine .inr ⟨hchanged, ?_⟩
    split at h
    all_goals split at h
    all_goals simp only [bind_eq_ok, pure_eq_ok, Prod.mk.injEq] at h
    · obtain ⟨-, -, -, -, -, -, rfl, rfl⟩ := h
      exact ⟨rfl, rfl⟩
    · obtain ⟨-, -, -, -, rfl, rfl⟩ := h
      exact ⟨rfl, rfl⟩
    · obtain ⟨-, -, -, -, rfl, rfl⟩ := h
      exact ⟨rfl, rfl⟩
    · obtain ⟨-, -, rfl, rfl⟩ := h
      exact ⟨rfl, rfl⟩

theorem patchDraft_merges_iff {data : UpdateExamBody} {found : List (Option Question)}
    {row row' : ExamRow} {validated : Option ExamPolicyInput}
    (h : patchDraft data found row = .ok (validated, row')) :
    Merges row data validated row' ↔ row.Mergeable data := by
  rcases patchDraft_ok h with ⟨hsame, rfl, rfl⟩ | ⟨hchanged, rfl, rfl⟩
  · exact iff_of_true ⟨(merge_unchanged hsame).symm, fun p hp => by cases hp⟩ (.inl hsame)
  · rw [update_merges_iff]
    exact (or_iff_right hchanged).symm

/-! ## The edit of the exam's readers -/

/-- The body as the edit of `Exam` has it: texts and written forms are reduced to
whether they differ. -/
def UpdateExamBody.request (data : UpdateExamBody) (existing : ExamRow) : UpdateExamRequest :=
  { hasText := data.title.isSome || data.description.isSome
    textDiffers := differs data.title existing.title || differs data.description existing.description ||
      data.openAt.any (fun instant => !instant.canonical) ||
      data.closeAt.any (fun value => value.any fun instant => !instant.canonical) ||
      differsFlags data.controlFlags existing.controlFlags
    timingMode := data.timingMode
    durationMinutes := data.durationMinutes
    openAt := data.openAt.map (·.time)
    closeAt := data.closeAt.map (·.map (·.time))
    passingScore := data.passingScore
    totalScore := data.totalScore
    questionIds := data.questionIds
    controlFlags := data.controlFlags
    retakePolicy := data.retakePolicy
    scoreStrategy := data.scoreStrategy
    maxAttempts := data.maxAttempts
    latestStartOffsetMinutes := data.latestStartOffsetMinutes
    minSubmitAfterStartMinutes := data.minSubmitAfterStartMinutes
    resultPublicationMode := data.resultPublicationMode
    interruptionTimePolicy := data.interruptionTimePolicy
    interruptionGracePerIncidentSeconds := data.interruptionGracePerIncidentSeconds
    interruptionGracePerAttemptSeconds := data.interruptionGracePerAttemptSeconds }

theorem differsWritten_eq (sent : Option WrittenInstant) (current : Int) :
    differsWritten sent current =
      (differs (sent.map (·.time)) current || sent.any fun instant => !instant.canonical) := by
  cases sent with
  | none => rfl
  | some instant => simp [differsWritten, differs, Bool.or_comm]

theorem differsNullable_eq (sent : Option (Option WrittenInstant)) (current : Option Int) :
    differsNullable sent current =
      (differs (sent.map (·.map (·.time))) current || sent.any fun value => value.any fun instant =>
          !instant.canonical) := by
  cases sent with
  | none => rfl
  | some value => cases value <;> cases current <;> simp [differsNullable, differs, Bool.or_comm]

theorem request_changes (data : UpdateExamBody) (row : ExamRow) :
    (data.request row).changes row.exam = false ↔ determineChangedExamFields data row = [] := by
  have hsome : ∀ sent : Option InterruptionTimePolicy,
      differs (sent.map some) (some row.interruptionTimePolicy) = differs sent
        row.interruptionTimePolicy := by
    intro sent
    cases sent <;> simp [differs]
  simp only [UpdateExamRequest.changes, UpdateExamBody.request, ExamRow.exam, hsome,
    determineChangedExamFields, List.filterMap_eq_nil_iff, List.mem_cons, List.not_mem_nil,
    or_false, ite_eq_right_iff, reduceCtorEq, imp_false, Bool.not_eq_true, forall_eq_or_imp,
    forall_eq, Bool.or_eq_false_iff, differsWritten_eq, differsNullable_eq]
  tauto

theorem spreadOver_stored (p q : ControlFlagsPatch) : (p.spreadOver q).stored = p.overlay q.stored := by
  have hread : ∀ {α : Type} (a b : Option α) (d : α), (a <|> b).getD d = a.getD (b.getD d) := by
    intro α a b d
    cases a <;> rfl
  simp only [ControlFlagsPatch.spreadOver, ControlFlagsPatch.stored, ControlFlagsPatch.overlay, hread]

theorem update_exam (row : ExamRow) (data : UpdateExamBody) :
    (row.update (data.updateData row)).exam = row.exam.redraft (data.request row) := by
  have hflags : (data.controlFlags.getD row.controlFlags).stored =
      (data.controlFlags.map (·.stored)).getD row.controlFlags.stored := by
    cases data.controlFlags <;> rfl
  have hsame : (data.request row).hasInterruptionInput = data.hasInterruptionInput := rfl
  unfold Exam.redraft
  rw [hsame]
  simp only [ExamRow.update, ExamRow.exam, UpdateExamBody.updateData, normalized_getD,
    Option.getD_some, hflags]
  cases hinput : data.hasInterruptionInput with
  | true => rfl
  | false =>
    simp only [UpdateExamBody.hasInterruptionInput, Bool.or_eq_false_iff, Option.isSome_eq_false_iff,
      Option.isNone_iff_eq_none] at hinput
    rw [hinput.1.1]
    rfl

theorem policyInput_resolved (row : ExamRow) (data : UpdateExamBody) :
    ((data.updateData row).policyInput row).resolved = row.exam.redraftPolicy (data.request row) := by
  have hflags : ((data.controlFlags.map (·.spreadOver row.controlFlags)).getD row.controlFlags).stored =
      (data.controlFlags.map fun flags => flags.overlay row.controlFlags.stored).getD
        row.controlFlags.stored := by
    cases data.controlFlags with
    | none => rfl
    | some flags => exact spreadOver_stored flags row.controlFlags
  unfold Exam.redraftPolicy
  rw [← update_exam, policyInput_eq]
  simp only [ExamPolicyInput.resolved, hflags]
  rfl

theorem map_bind {α β γ : Type} (x : Result α) (f : α → Result β) (g : β → γ) :
    (x >>= f).map g = x >>= fun a => (f a).map g := by
  cases x <;> rfl

theorem updateDraft_eq (row : ExamRow) (data : UpdateExamBody) (found : List (Option Question)) :
    updateDraft row.exam (data.request row) found = (patchDraft data found row).map fun r =>
      r.2.exam := by
  have hnormalize : normalizeInterruptionPolicyConfiguration
        ((row.update (data.updateData row)).exam.interruptionTimePolicy.getD .strict)
        (row.update (data.updateData row)).exam.interruptionGracePerIncidentSeconds
        (row.update (data.updateData row)).exam.interruptionGracePerAttemptSeconds =
      normalizeInterruptionPolicyConfiguration
        (data.interruptionTimePolicy.getD row.interruptionTimePolicy)
        (data.interruptionGracePerIncidentSeconds.getD row.interruptionGracePerIncidentSeconds)
        (data.interruptionGracePerAttemptSeconds.getD row.interruptionGracePerAttemptSeconds) := by
    simp only [ExamRow.update, ExamRow.exam, UpdateExamBody.updateData, normalized_getD,
      Option.getD_some]
  have hinput : (data.request row).hasInterruptionInput = data.hasInterruptionInput := rfl
  have hquestions : (data.request row).questionIds = data.questionIds := rfl
  unfold updateDraft patchDraft
  simp only [List.length_eq_zero_iff]
  by_cases hsame : determineChangedExamFields data row = []
  · rw [if_pos hsame, if_pos ((request_changes data row).mpr hsame)]
    rfl
  · rw [if_neg hsame, if_neg ((request_changes data row).not.mpr hsame), ← update_exam,
      ← policyInput_resolved, hnormalize, hinput, hquestions]
    cases data.questionIds.isSome <;> cases data.hasInterruptionInput <;>
      simp only [if_true, if_false, Bool.false_eq_true, map_bind] <;> rfl

theorem request_onlySchedule (data : UpdateExamBody) (row : ExamRow) :
    (data.request row).onlySchedule = data.onlySchedule := by
  simp only [UpdateExamRequest.onlySchedule, UpdateExamBody.request, UpdateExamBody.onlySchedule]
  cases data.title <;> cases data.description <;> rfl

theorem updateSchedule_eq (row : ExamRow) (data : UpdateExamBody) :
    updateSchedule row.exam (data.request row) = (patchSchedule data row).map (·.exam) := by
  have hclear : (data.request row).closeAt = some none ↔ data.closeAt = some none := by
    unfold UpdateExamBody.request
    rcases data.closeAt with _ | _ | _ <;> simp
  have hrow : row.exam.reschedule (data.request row) =
      { row.exam with
        openAt := (data.openAt.map (·.time)).getD row.openAt
        closeAt := (data.closeAt.map (·.map (·.time))).getD row.closeAt } := rfl
  have hmode : row.exam.timingMode = row.timingMode := rfl
  unfold updateSchedule patchSchedule
  simp only [map_bind, request_onlySchedule, hclear, hmode, hrow]
  congr 1
  funext _
  congr 1
  funext _
  split
  · rename_i hsame
    rw [differsWritten_eq_false hsame.1, differsNullable_eq_false hsame.2]
    rfl
  · rfl

theorem transitionExam_eq {db : Db} {exam : Exam} {examId : String} {target : ExamStatus}
    (hfound : db.findExam examId = some exam) (htarget : target ∈ examTransitions exam.status) :
    transitionExam db examId target = .ok (exam.withStatus target,
      { db with exam := exam.withStatus target }) := by
  simp only [transitionExam, hfound, orThrow_some, ok_bind, assertExamTransition, require_true htarget]
  rfl

theorem findExam_row {db : Db} {row : ExamRow} (hrow : db.exam = row.exam) :
    db.findExam row.id = some row.exam :=
  Db.findExam_eq_some.mpr ⟨by rw [hrow]; rfl, hrow⟩

theorem Db.with_exam {db : Db} {exam : Exam} (h : db.exam = exam) : { db with exam := exam } = db := by
  rw [← h]

theorem closeDue_eq {db : Db} {row : ExamRow} (hrow : db.exam = row.exam) (now : Int) :
    (if row.exam.status = .open ∧ ∃ closeAt ∈ row.exam.closeAt, closeAt ≤ now then closeExam db row.id
      else pure (row.exam, db)) =
      (let exam := if row.status = .open ∧ ∃ closeAt ∈ row.closeAt,
          closeAt ≤ now then row.withStatus .closed else row
       .ok (exam.exam, { db with exam := exam.exam }) : Result (Exam × Db)) := by
  by_cases hover : row.status = .open ∧ ∃ closeAt ∈ row.closeAt, closeAt ≤ now
  · have htarget : ExamStatus.closed ∈ examTransitions row.exam.status := by
      rw [show row.exam.status = .open from hover.1]
      decide
    have hnot : row.exam.status ≠ .closed := by
      rw [show row.exam.status = .open from hover.1]
      decide
    simp only [if_pos hover]
    rw [if_pos (show row.exam.status = .open ∧ ∃ closeAt ∈ row.exam.closeAt, closeAt ≤ now
          from hover), closeExam,
      findExam_row hrow, orThrow_some, ok_bind, if_neg hnot,
      transitionExam_eq (findExam_row hrow) htarget]
    rfl
  · simp only [if_neg hover]
    rw [if_neg (show ¬ (row.exam.status = .open ∧ ∃ closeAt ∈ row.exam.closeAt, closeAt ≤ now)
          from hover),
      Db.with_exam hrow]
    rfl

theorem checkAndUpdateExamStatus_eq {db : Db} {row : ExamRow} (hrow : db.exam = row.exam) (now : Int) :
    checkAndUpdateExamStatus db row.id now =
      .ok ((reconcileExamForMutation row now).exam,
        { db with exam := (reconcileExamForMutation row now).exam }) := by
  simp only [checkAndUpdateExamStatus, findExam_row hrow, orThrow_some, ok_bind,
    reconcileExamForMutation]
  by_cases hdue : row.status = .published ∧ row.openAt ≤ now ∧ row.timingMode ≠ .timedSync
  · have htarget : ExamStatus.open ∈ examTransitions row.exam.status := by
      rw [show row.exam.status = .published from hdue.1]
      decide
    have hopen : openExam db row.id =
        .ok ((row.withStatus .open).exam, { db with exam := (row.withStatus .open).exam }) :=
      transitionExam_eq (findExam_row hrow) htarget
    rw [if_pos hdue, if_pos (show row.exam.status = .published ∧ row.exam.openAt ≤ now ∧
        row.exam.timingMode ≠ .timedSync
      from hdue), hopen]
    have hopened : ({ db with exam := (row.withStatus .open).exam } : Db).exam =
      (row.withStatus .open).exam := rfl
    exact closeDue_eq hopened now
  · rw [if_neg hdue, if_neg (show ¬ (row.exam.status = .published ∧ row.exam.openAt ≤ now ∧
      row.exam.timingMode ≠ .timedSync) from hdue)]
    exact closeDue_eq hrow now

theorem request_reconciled (data : UpdateExamBody) (row : ExamRow) (now : Int) :
    data.request (reconcileExamForMutation row now) = data.request row := by
  simp only [reconcileExamForMutation]
  split <;> split <;> rfl

theorem patchExam_refines (db : Db) (row : ExamRow) (hrow : db.exam = row.exam) (data : UpdateExamBody)
    (found : List (Option Question)) (now : Int) :
    updateExam db row.id (data.request row) found now =
      (patchExam data found now row).map fun r => (r.2.exam, { db with exam := r.2.exam }) := by
  have hempty : (data.request row).isEmpty = data.isEmpty := by
    unfold UpdateExamRequest.isEmpty UpdateExamBody.isEmpty
    rw [request_onlySchedule]
    simp [UpdateExamBody.request]
  have hmap : ∀ {α : Type} (x : Result α) (f : α → Exam), (x.map f >>= fun updated =>
      pure (updated, { db with exam := updated }) : Result (Exam × Db)) =
        x.map fun a => (f a, { db with exam := f a }) := by
    intro α x f
    cases x <;> rfl
  have hdraft := updateDraft_eq (reconcileExamForMutation row now) data found
  have hschedule := updateSchedule_eq (reconcileExamForMutation row now) data
  rw [request_reconciled] at hdraft hschedule
  simp only [updateExam, findExam_row hrow, orThrow_some, ok_bind, hempty, patchExam,
    checkAndUpdateExamStatus_eq hrow]
  split
  · exact congrArg (fun db' => Except.ok (row.exam, db')) (Db.with_exam hrow).symm
  · rw [hdraft, hschedule]
    have hstatus : (reconcileExamForMutation row now).exam.status =
      (reconcileExamForMutation row now).status := rfl
    rw [hstatus]
    cases (reconcileExamForMutation row now).status with
    | draft => exact hmap _ _
    | published =>
      refine (hmap _ _).trans ?_
      cases patchSchedule data (reconcileExamForMutation row now) <;> rfl
    | _ => rfl

theorem reconcile_draft {row : ExamRow} (hdraft : row.status = .draft) (now : Int) :
    reconcileExamForMutation row now = row := by
  simp [reconcileExamForMutation, hdraft]

theorem isEmpty_unchanged {row : ExamRow} {data : UpdateExamBody} (h : data.isEmpty = true) :
    determineChangedExamFields data row = [] := by
  simp only [UpdateExamBody.isEmpty, UpdateExamBody.onlySchedule, Bool.and_eq_true,
    Option.isNone_iff_eq_none] at h
  simp [determineChangedExamFields, differs, differsWritten, differsNullable, differsFlags, h]

/-- The edit of a draft: a rejected one leaves the row, and an accepted one is
the merge, with the policy that it validated, exactly when the body is mergeable. -/
theorem draft_patch_merges_iff (row : ExamRow) (hdraft : row.status = .draft) (data : UpdateExamBody)
    (found : List (Option Question)) (now : Int) :
    (∀ e, patchExam data found now row = .error e → commit (patchExam data found now row) row = row) ∧
      ∀ validated row', patchExam data found now row = .ok (validated, row') →
        (Merges row data validated row' ↔ row.Mergeable data) := by
  refine ⟨fun e he => by rw [he]; rfl, fun validated row' h => ?_⟩
  unfold patchExam at h
  split at h
  · rename_i hempty
    simp only [pure_eq_ok, Prod.mk.injEq] at h
    obtain ⟨rfl, rfl⟩ := h
    have hsame : determineChangedExamFields data row = [] := isEmpty_unchanged hempty
    exact iff_of_true ⟨(merge_unchanged hsame).symm, fun p hp => by cases hp⟩ (.inl hsame)
  · simp only [reconcile_draft hdraft, hdraft] at h
    exact patchDraft_merges_iff h

/-! ## Flags and a result mode that are lost -/

def sampleRow (flags : ControlFlagsPatch) (mode : ResultPublicationMode) : ExamRow :=
  { id := "exam", title := "Final", description := "", courseId := "course", status := .draft,
    timingMode := .timedWindow
    durationMinutes := some 60, openAt := 1000, closeAt := some 600000, syncStartedAt := none
    passingScore := 3
    totalScore := 5, questionSelectionMode := .manual, questionIds := ["q1", "q2"]
    questionSnapshot := []
    controlFlags := flags, retakePolicy := .unlimited, scoreStrategy := .highest, maxAttempts := 1
    latestStartOffsetMinutes := none, minSubmitAfterStartMinutes := none, resultPublicationMode := mode
    resultsPublishedAt := none, interruptionTimePolicy := .strict
    interruptionGracePerIncidentSeconds := none
    interruptionGracePerAttemptSeconds := none }

def sampleBody (title : Option String) (flags : Option ControlFlagsPatch) : UpdateExamBody :=
  { title := title, description := none, timingMode := none, durationMinutes := none,
    openAt := none, closeAt := none
    passingScore := none, totalScore := none, questionIds := none, controlFlags := flags
    retakePolicy := none
    scoreStrategy := none, maxAttempts := none, latestStartOffsetMinutes := none
    minSubmitAfterStartMinutes := none
    resultPublicationMode := none, interruptionTimePolicy := none
    interruptionGracePerIncidentSeconds := none
    interruptionGracePerAttemptSeconds := none }

def sampleStoredFlags : ControlFlagsPatch :=
  { shuffleQuestions := some true, shuffleOptions := some false, detectTabSwitch := some false
    disableCopyPaste := some false, requireQueue := some false, batchSize := some 10
    batchInterval := some 3
    restrictIp := some false, requireLockdown := some false, showResultImmediately := some true }

/-- A body with one flag: the others of the row are gone, though the policy that
was validated has them, and the result mode is reset. -/
theorem draft_patch_merges_counterexample :
    let row := sampleRow sampleStoredFlags .manual
    let data := sampleBody none (some { sampleFlagsPatch with shuffleOptions := some true })
    ∃ policy row', patchExam data [] 0 row = .ok (some policy, row') ∧
      row'.controlFlags.shuffleQuestions = none ∧ policy.controlFlags.shuffleQuestions = some true ∧
      row'.resultPublicationMode = .immediate ∧ ¬ Merges row data (some policy) row' := by
  refine ⟨_, _, rfl, rfl, rfl, rfl, fun h => ?_⟩
  exact absurd (congrArg (·.controlFlags.shuffleQuestions) h.fields) (by decide)

/-- A body with a title, on a row whose result mode is immediate. -/
theorem draft_patch_merges_sample :
    let row := sampleRow sampleStoredFlags .immediate
    let data := sampleBody (some "Midterm") none
    ∃ policy, patchExam data [] 0 row = .ok (some policy, { row with title := "Midterm" }) ∧
      Merges row data (some policy) { row with title := "Midterm" } :=
  ⟨_, rfl, ((draft_patch_merges_iff (sampleRow sampleStoredFlags .immediate) rfl
          (sampleBody (some "Midterm") none) [] 0).2
    _ _ rfl).mpr (by decide)⟩

end ExamSystem
