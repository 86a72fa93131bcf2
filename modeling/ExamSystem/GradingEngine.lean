import Mathlib.Algebra.Order.Field.Rat
import Mathlib.Tactic.Linarith
import ExamSystem.Domain

/-!
# The grading engine

One question against one answer, by question type. A candidate answer that is
missing altogether is `none`, an answered `null` is `some .null`.
-/

namespace ExamSystem

variable [Host]

def makeResult (question : QuestionSnapshot) (candidateAnswer : Option Json) (score : ℚ) :
    QuestionScoreResult :=
  { questionId := question.originalQuestionId
    score := score
    maxScore := question.score
    correct := score == question.score
    candidateAnswer := candidateAnswer
    standardAnswer := question.standardAnswer }

def gradePrecise (question : QuestionSnapshot) (candidateAnswer : Option Json) : QuestionScoreResult :=
  let score :=
    match candidateAnswer with
    | none => 0
    | some answer =>
      if !answer.isNull && strictEq answer question.standardAnswer then question.score else 0
  makeResult question candidateAnswer score

def toStringArray : Option Json → List JsString
  | some (.arr elements) => elements.filterMap fun item => match item with | .str s => some s | _ => none
  | _ => []

/-- `[...new Set(values)].sort()`. -/
def uniqueSorted (values : List JsString) : List JsString := values.dedup.insertionSort (· ≤ ·)

def gradeMultipleChoice (question : QuestionSnapshot) (candidateAnswer : Option Json) :
    QuestionScoreResult :=
  let candidate := uniqueSorted (toStringArray candidateAnswer)
  let standard := uniqueSorted (toStringArray (some question.standardAnswer))
  let hasWrongSelection := candidate.any fun answer => !standard.contains answer
  let isComplete := 0 < standard.length && candidate.length == standard.length &&
    (candidate.zip standard).all fun p => p.1 == p.2
  let isPartial := 0 < candidate.length && candidate.length < standard.length && !hasWrongSelection
  let score :=
    if isComplete then question.score
    else if isPartial && question.gradingRule.multiSelectScoring == .partialHalf then question.score / 2
    else 0
  makeResult question candidateAnswer score

def normalizeBlank (value : JsString) (caseSensitive : Bool) : JsString :=
  if caseSensitive then trim value else Host.toLocaleLowerCase (trim value)

def matchesBlank (candidate : Option Json) (standard : Json) (question : QuestionSnapshot) : Bool :=
  match candidate, standard with
  | some (.str candidate), .str standard =>
    let caseSensitive := question.gradingRule.fillBlankCaseSensitive.getD false
    let normalizedCandidate := normalizeBlank candidate caseSensitive
    (standard.splitOn 0x7C).any fun accepted =>
      let normalizedAccepted := normalizeBlank accepted caseSensitive
      if normalizedAccepted.length == 0 then false
      else if question.gradingRule.fillBlankMatchMode == .keyword then includes normalizedCandidate
        normalizedAccepted
      else normalizedCandidate == normalizedAccepted
  | _, _ => false

def gradeFillBlank (question : QuestionSnapshot) (candidateAnswer : Option Json) :
    QuestionScoreResult :=
  let correct :=
    match question.standardAnswer, candidateAnswer with
    | .obj entries, some (.obj candidate) =>
      0 < entries.length && entries.all fun e => matchesBlank (candidate.lookup e.1) e.2 question
    | standard, candidate => matchesBlank candidate standard question
  makeResult question candidateAnswer (if correct then question.score else 0)

def gradeQuestion (question : QuestionSnapshot) (candidateAnswer : Option Json) : QuestionScoreResult :=
  match question.type with
  | .singleChoice | .trueFalse => gradePrecise question candidateAnswer
  | .multipleChoice => gradeMultipleChoice question candidateAnswer
  | .fillBlank => gradeFillBlank question candidateAnswer
  | .textResponse => makeResult question candidateAnswer 0

def requiresManualGrading (questions : List QuestionSnapshot) : Bool :=
  questions.any fun q => q.type == .textResponse

def isManualGradedQuestion (question : QuestionSnapshot) : Bool := question.type == .textResponse

/-- The last record of a question, as `new Map(records)` keeps it. -/
def lastAnswer (answers : List AnswerRecord) (questionId : String) : Option Json :=
  (answers.reverse.find? fun a => a.questionId = questionId).map (·.answer)

/-- `scores.reduce((sum, score) => sum + score, 0)`. -/
def sumScores (scores : List ℚ) : ℚ := scores.foldl Host.add 0

/-- The host adds as the rationals do, without rounding. -/
def ExactSums : Prop := ∀ x y : ℚ, Host.add x y = x + y

theorem sumScores_exact (h : ExactSums) (scores : List ℚ) : sumScores scores = scores.sum := by
  have hadd : (Host.add : ℚ → ℚ → ℚ) = (· + ·) := funext₂ h
  rw [sumScores, hadd, List.sum_eq_foldl]

def gradeAnswers (attemptId : String) (questions : List QuestionSnapshot) (answers : List AnswerRecord)
    (passingScore : ℚ) (gradedAt : Int) : ScoreResult :=
  let questionResults := questions.map fun question =>
    gradeQuestion question (lastAnswer answers question.originalQuestionId)
  let totalScore := sumScores (questionResults.map (·.score))
  { attemptId := attemptId
    totalScore := totalScore
    passed := passingScore ≤ totalScore
    questionResults := questionResults
    gradedAt := gradedAt }

/-! ## Every score is between zero and the maximum -/

section
variable (question : QuestionSnapshot) (candidateAnswer : Option Json)

@[simp] theorem gradeQuestion_questionId :
    (gradeQuestion question candidateAnswer).questionId = question.originalQuestionId := by
  unfold gradeQuestion
  cases question.type <;> rfl

@[simp] theorem gradeQuestion_maxScore :
    (gradeQuestion question candidateAnswer).maxScore = question.score := by
  unfold gradeQuestion
  cases question.type <;> rfl

theorem gradeQuestion_answers :
    (gradeQuestion question candidateAnswer).candidateAnswer = candidateAnswer ∧
    (gradeQuestion question candidateAnswer).standardAnswer = question.standardAnswer := by
  unfold gradeQuestion
  cases question.type <;> exact ⟨rfl, rfl⟩

theorem gradeQuestion_score_cases :
    (gradeQuestion question candidateAnswer).score = 0 ∨
      (gradeQuestion question candidateAnswer).score = question.score / 2 ∨
      (gradeQuestion question candidateAnswer).score = question.score := by
  unfold gradeQuestion
  cases question.type with
  | singleChoice | trueFalse =>
    cases candidateAnswer with
    | none => exact .inl rfl
    | some answer =>
      simp only [gradePrecise, makeResult]
      split
      · exact .inr (.inr rfl)
      · exact .inl rfl
  | multipleChoice =>
    simp only [gradeMultipleChoice, makeResult]
    split
    · exact .inr (.inr rfl)
    · split
      · exact .inr (.inl rfl)
      · exact .inl rfl
  | fillBlank =>
    simp only [gradeFillBlank, makeResult]
    split
    all_goals
      split
      · exact .inr (.inr rfl)
      · exact .inl rfl
  | textResponse => exact .inl rfl

theorem gradeQuestion_score_bounds (h : 0 ≤ question.score) :
    0 ≤ (gradeQuestion question candidateAnswer).score ∧
      (gradeQuestion question candidateAnswer).score ≤ question.score := by
  rcases gradeQuestion_score_cases question candidateAnswer with hs | hs | hs <;> rw [hs] <;>
    constructor <;> linarith

end

end ExamSystem
