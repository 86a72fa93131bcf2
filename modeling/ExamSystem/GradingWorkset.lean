import ExamSystem.AnswerProtocol

/-!
# The grading workset

One entry for each frozen question, materialized at submit. Consistency of a
stored workset is checked against the frozen attempt, and the terminal score
is aggregated from the entries alone.
-/

namespace ExamSystem

open Tx

/-! ## Payload comparison -/

mutual

/-- The text of `JSON.stringify(sortKeys(value))`. Assigning the key `__proto__`
creates no property, and `-0` prints as `0`. -/
def stringifySorted [Host] : Json → JsString
  | .null => js "null"
  | .bool value => if value then js "true" else js "false"
  | .str value => stringifyString value
  | .num .negZero => js "0"
  | .num (.value q) => Host.numberToString q
  | .arr elements => js "[" ++ joinWith (js ",") (stringifySortedElements elements) ++ js "]"
  | .obj entries =>
    js "\x7b" ++ joinWith (js ",") ((sortEntries (stringifySortedEntries entries)).map fun e =>
      stringifyString e.1 ++ js ":" ++ e.2) ++ js "\x7d"

def stringifySortedElements [Host] : List Json → List JsString
  | [] => []
  | element :: elements => stringifySorted element :: stringifySortedElements elements

def stringifySortedEntries [Host] : List (JsString × Json) → List (JsString × JsString)
  | [] => []
  | (key, v) :: entries =>
    if key = js "__proto__" then stringifySortedEntries entries
    else (key, stringifySorted v) :: stringifySortedEntries entries

end

def payloadsEqual [Host] (a b : Json) : Bool := stringifySorted a == stringifySorted b

/-! ## Expected entries -/

structure ExpectedGradingEntry where
  questionId : String
  gradingMode : GradingEntryMode
  status : GradingEntryStatus
  maxScore : ℚ
  earnedScore : Option ℚ
  candidateAnswer : Json
  standardAnswer : Json
  correct : Option Bool
  deriving DecidableEq, Repr

/-- The last value of a question, as `new Map(submitted.answers)` keeps it. -/
def frozenAnswer (submitted : SubmittedAnswersSnapshot) (questionId : String) : Option Json :=
  (submitted.answers.reverse.find? fun a => a.questionId = questionId).map (·.value)

def expectedEntry [Host] (submitted : SubmittedAnswersSnapshot) (question : QuestionSnapshot) :
    ExpectedGradingEntry :=
  let candidateAnswer := orNull (frozenAnswer submitted question.originalQuestionId)
  if isManualGradedQuestion question then
    { questionId := question.originalQuestionId
      gradingMode := .manual
      status := .pendingManual
      maxScore := question.score
      earnedScore := none
      candidateAnswer := candidateAnswer
      standardAnswer := question.standardAnswer
      correct := none }
  else
    let result := gradeQuestion question (some candidateAnswer)
    { questionId := question.originalQuestionId
      gradingMode := .auto
      status := .completedAuto
      maxScore := question.score
      earnedScore := some result.score
      candidateAnswer := candidateAnswer
      standardAnswer := question.standardAnswer
      correct := some result.correct }

def computeExpectedGradingEntries [Host] (attempt : ExamAttempt) :
    Result (List ExpectedGradingEntry) := do
  let submitted ← orThrow attempt.submittedAnswers
    (.error (s!"Cannot compute grading workset for attempt {attempt.id}: submittedAnswers is null. " ++
      "The submit freeze barrier must run before workset computation."))
  pure (attempt.questionSnapshot.map (expectedEntry submitted))

def ExpectedGradingEntry.toRow (attemptId : String) (e : ExpectedGradingEntry) : AttemptGradingEntry :=
  { attemptId := attemptId
    questionId := e.questionId
    gradingMode := e.gradingMode
    status := e.status
    maxScore := e.maxScore
    earnedScore := e.earnedScore
    candidateAnswer := e.candidateAnswer
    standardAnswer := e.standardAnswer
    correct := e.correct
    comment := ""
    gradedBy := none
    gradedAt := none }

def materializeGradingWorkset [Host] (db : Db) (attempt : ExamAttempt) : Result Db := do
  let expected ← computeExpectedGradingEntries attempt
  db.bulkCreateEntries (expected.map (·.toRow attempt.id))

/-! ## Consistency of a stored workset -/

/-- The entry of a question, as a map from question ids keeps the last one. -/
def lastEntry (entries : List AttemptGradingEntry) (questionId : String) : Option AttemptGradingEntry :=
  entries.reverse.find? fun e => e.questionId = questionId

def worksetError (attemptId questionId detail : String) : EngineError :=
  .error s!"Grading workset inconsistency for attempt {attemptId}, question {questionId}: {detail}"

def scoreText (score : Option ℚ) : String := (score.map fun q => toString q).getD "null"

def correctText (correct : Option Bool) : String := (correct.map fun b => toString b).getD "null"

def validateManualEntry (attemptId : String) (entry : AttemptGradingEntry) : Result Unit := do
  let fail := worksetError attemptId entry.questionId
  require (entry.status = .pendingManual ∨ entry.status = .completedManual)
    (fail (s!"manual entry status {entry.status.text} is not valid " ++
          "(expected pending_manual or completed_manual)."))
  require (entry.status = .pendingManual → entry.earnedScore = none)
    (fail "pending_manual entry must have null earnedScore.")
  require (entry.status = .pendingManual → entry.correct = none)
    (fail "pending_manual entry must have null correct.")
  require (entry.status = .completedManual → entry.earnedScore.isSome)
    (fail "completed_manual entry must have non-null earnedScore.")
  require (entry.status = .completedManual → ∀ s ∈ entry.earnedScore, 0 ≤ s ∧ s ≤ entry.maxScore)
    (fail (s!"completed_manual earnedScore {scoreText entry.earnedScore} out of range " ++
      s!"[0, {scoreText (some entry.maxScore)}]."))
  require (entry.status = .completedManual → ∀ s ∈ entry.earnedScore,
    entry.correct = some (decide (entry.maxScore ≤ s)))
    (fail (s!"correct {correctText entry.correct} does not match the write-contract " ++
      "derivation (earnedScore >= maxScore)."))

def validateAutoEntry (attemptId : String) (exp : ExpectedGradingEntry)
    (entry : AttemptGradingEntry) : Result Unit := do
  let fail := worksetError attemptId exp.questionId
  require (entry.status = .completedAuto)
    (fail s!"auto entry status {entry.status.text} != expected completed_auto.")
  require (entry.earnedScore = exp.earnedScore)
    (fail (s!"earnedScore {scoreText entry.earnedScore} != expected {scoreText exp.earnedScore} " ++
      "(objective score must match canonical frozen truth)."))
  require (entry.correct = exp.correct)
    (fail (s!"correct {correctText entry.correct} != expected {correctText exp.correct} " ++
      "(objective correctness must match canonical frozen truth)."))

def validateExpectedEntry [Host] (attemptId : String) (existing : List AttemptGradingEntry)
    (exp : ExpectedGradingEntry) : Result Unit := do
  let fail := worksetError attemptId exp.questionId
  let entry ← orThrow (lastEntry existing exp.questionId)
    (.error (s!"Grading workset inconsistency for attempt {attemptId}: " ++
          s!"missing entry for question {exp.questionId}."))
  require (entry.gradingMode = exp.gradingMode)
    (fail s!"gradingMode {entry.gradingMode.text} != expected {exp.gradingMode.text}.")
  require (entry.maxScore = exp.maxScore)
    (fail s!"maxScore {scoreText (some entry.maxScore)} != expected {scoreText (some exp.maxScore)}.")
  require (payloadsEqual entry.candidateAnswer exp.candidateAnswer)
    (fail "candidateAnswer does not match frozen submitted truth.")
  require (payloadsEqual entry.standardAnswer exp.standardAnswer)
    (fail "standardAnswer does not match frozen questionSnapshot truth.")
  if exp.gradingMode = .auto then validateAutoEntry attemptId exp entry
    else validateManualEntry attemptId entry

def validateGradingWorksetConsistency [Host] (attempt : ExamAttempt)
    (existing : List AttemptGradingEntry) :
    Result Unit := do
  let expected ← computeExpectedGradingEntries attempt
  require (existing.length = expected.length)
    (.error (s!"Grading workset inconsistency for attempt {attempt.id}: " ++
      s!"expected {expected.length} entries, found {existing.length}. " ++
      "Partial or extra workset entries are not repairable."))
  forEach expected (validateExpectedEntry attempt.id existing)
  forEach existing fun entry =>
    require (∃ exp ∈ expected, exp.questionId = entry.questionId)
      (.error (s!"Grading workset inconsistency for attempt {attempt.id}: " ++
        s!"extra entry for question {entry.questionId} not in frozen QuestionSnapshot."))

/-! ## Terminal aggregation -/

structure GradingEntryAggregate where
  questionResults : List QuestionScoreResult
  totalScore : ℚ
  maxScore : ℚ
  passed : Bool
  deriving DecidableEq, Repr

def expectedTerminalStatus (mode : GradingEntryMode) : GradingEntryStatus :=
  match mode with
  | .auto => .completedAuto
  | .manual => .completedManual

def questionMode (question : QuestionSnapshot) : GradingEntryMode :=
  if isManualGradedQuestion question then .manual else .auto

def aggregationError (attemptId questionId detail : String) : EngineError :=
  .error s!"Grading aggregation inconsistency for attempt {attemptId}, question {questionId}: {detail}"

def validateTerminalEntry (attemptId : String) (entries : List AttemptGradingEntry)
    (question : QuestionSnapshot) :
    Result Unit := do
  let qid := question.originalQuestionId
  let fail := aggregationError attemptId qid
  let entry ← orThrow (lastEntry entries qid)
    (.error (s!"Grading aggregation inconsistency for attempt {attemptId}: missing grading entry for question {qid}. " ++
      "Missing entries cannot be reconstructed during aggregation."))
  require (entry.gradingMode = questionMode question)
    (fail (s!"gradingMode {entry.gradingMode.text} != expected " ++
      s!"{(questionMode question).text} (canonical QuestionType semantics)."))
  require (entry.maxScore = question.score)
    (fail s!"entry maxScore {scoreText (some entry.maxScore)} != frozen {scoreText (some question.score)}.")
  require (entry.status = expectedTerminalStatus entry.gradingMode)
    (fail (s!"status {entry.status.text} is not terminal " ++
      s!"(expected {(expectedTerminalStatus entry.gradingMode).text}). Aggregation requires every entry to be terminal."))
  let earned ← orThrow entry.earnedScore (fail "terminal entry has null earnedScore.")
  require (0 ≤ earned ∧ earned ≤ entry.maxScore)
    (fail (s!"earnedScore {scoreText (some earned)} out of range " ++
          s!"[0, {scoreText (some entry.maxScore)}]."))

def aggregateResult (question : QuestionSnapshot) (entry : AttemptGradingEntry) : QuestionScoreResult :=
  let earned := entry.earnedScore.getD 0
  { questionId := question.originalQuestionId
    score := earned
    maxScore := entry.maxScore
    correct := entry.correct.getD (decide (entry.maxScore ≤ earned))
    candidateAnswer := some entry.candidateAnswer
    standardAnswer := question.standardAnswer }

def checkDuplicates (attemptId : String) : List String → List AttemptGradingEntry → Result Unit
  | _, [] => pure ()
  | seen, entry :: entries => do
    require (entry.questionId ∉ seen)
      (.error (s!"Grading aggregation inconsistency for attempt {attemptId}: " ++
        s!"duplicate grading entry for question {entry.questionId}. Exactly one entry per frozen question is required."))
    checkDuplicates attemptId (entry.questionId :: seen) entries

def aggregateGradingEntries [Host] (attempt : ExamAttempt) (entries : List AttemptGradingEntry)
    (passingScore : ℚ) :
    Result GradingEntryAggregate := do
  let questions := attempt.questionSnapshot
  require (entries.length = questions.length)
    (.error (s!"Grading aggregation inconsistency for attempt {attempt.id}: " ++
      s!"expected {questions.length} entries (one per frozen question), found {entries.length}. " ++
      "Aggregation requires an exactly complete terminal workset — no fill-gaps, no ignore-extras."))
  checkDuplicates attempt.id [] entries
  forEach questions (validateTerminalEntry attempt.id entries)
  let questionResults := questions.filterMap fun question =>
    (lastEntry entries question.originalQuestionId).map (aggregateResult question)
  let totalScore := sumScores (questionResults.map (·.score))
  pure { questionResults := questionResults
         totalScore := totalScore
         maxScore := sumScores (questionResults.map (·.maxScore))
         passed := decide (passingScore ≤ totalScore) }

end ExamSystem
