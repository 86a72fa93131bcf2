import ExamSystem.GradingEngine
import ExamSystem.StoreLemmas

/-!
# The save-answer protocol

The identity of a canonical answer, the pure save decision, and the composite
action that loads the attempt, decides, and writes the record and its receipt.
-/

namespace ExamSystem

open Tx

variable [Host]

/-! ## Answer identity -/

def sortEntries (entries : List (JsString × JsString)) : List (JsString × JsString) :=
  entries.insertionSort fun a b => a.1 ≤ b.1

mutual

def serializeAnswerIdentityValue : Json → JsString
  | .null => js "null"
  | .bool value => if value then js "true" else js "false"
  | .str value => stringifyString value
  | .num .negZero => js "-0"
  | .num (.value q) => Host.numberToString q
  | .arr elements => js "[" ++ joinWith (js ",") (serializeElements elements) ++ js "]"
  | .obj entries =>
    js "\x7b" ++ joinWith (js ",") ((sortEntries (serializeEntries entries)).map fun e =>
      stringifyString e.1 ++ js ":" ++ e.2) ++ js "\x7d"

def serializeElements : List Json → List JsString
  | [] => []
  | element :: elements => serializeAnswerIdentityValue element :: serializeElements elements

def serializeEntries : List (JsString × Json) → List (JsString × JsString)
  | [] => []
  | (key, v) :: entries => (key, serializeAnswerIdentityValue v) :: serializeEntries entries

end

def canonicalAnswerIdentity (value : Json) : String := Host.sha256 (serializeAnswerIdentityValue value)

/-! ## The save decision -/

structure SaveAnswerRequest where
  attemptId : String
  questionId : String
  answer : Json
  clientSeq : Int
  baseVersion : Int
  deriving DecidableEq, Repr

structure AnswerState where
  attemptStatus : AttemptStatus
  answers : List AnswerRecord
  knownReceipt : Option AnswerReceipt
  deadlineAt : Option Int
  now : Int

/-- Validation and canonicalization of an answer; the error is its reason. -/
abbrev CanonicalizeAnswer := Json → Except String Json

inductive ProcessSaveResult
  | accepted (serverVersion : Nat) (savedAt : Int) (written : Option (AnswerRecord × AnswerReceipt))
  | rejected (serverVersion : Nat) (savedAt : Int) (reason : ConflictReason)
      (latestAnswer : Option Json)
  deriving DecidableEq

def findRecord (answers : List AnswerRecord) (questionId : String) : Option AnswerRecord :=
  Rows.row AnswerRecord.questionId answers questionId

/-- `existingAnswer?.version ?? 0`. -/
def versionOf (answers : List AnswerRecord) (questionId : String) : Nat :=
  ((findRecord answers questionId).map (·.version)).getD 0

def applyCanonicalize (canonicalize : Option CanonicalizeAnswer) (answer : Json) : Except String Json :=
  match canonicalize with
  | some canonicalize => canonicalize answer
  | none => .ok answer

def processSaveAnswer (state : AnswerState) (request : SaveAnswerRequest)
    (canonicalize : Option CanonicalizeAnswer) : ProcessSaveResult :=
  if state.attemptStatus = .voided then .rejected 0 state.now .attemptClosed none
  else if state.attemptStatus = .submitted ∨ state.attemptStatus = .graded then
    .rejected 0 state.now .attemptAlreadySubmitted none
  else if ∃ d ∈ state.deadlineAt, d ≤ state.now then .rejected 0 state.now .deadlineExceeded none
  else
    match applyCanonicalize canonicalize request.answer with
    | .error _ => .rejected (versionOf state.answers request.questionId) state.now .invalidAnswer none
    | .ok answer =>
      let answerIdentity := canonicalAnswerIdentity answer
      match state.knownReceipt with
      | some receipt =>
        if receipt.answerIdentity = answerIdentity then .accepted receipt.version receipt.savedAt none
        else .rejected receipt.version state.now .conflictingPayload none
      | none =>
        let existingAnswer := findRecord state.answers request.questionId
        let currentVersion := versionOf state.answers request.questionId
        if request.baseVersion < currentVersion then
          .rejected currentVersion state.now .staleVersion (existingAnswer.map (·.answer))
        else if currentVersion < request.baseVersion then
          .rejected currentVersion state.now .futureVersion (existingAnswer.map (·.answer))
        else
          .accepted (currentVersion + 1) state.now <| some
            ({ questionId := request.questionId
               answer := answer
               version := currentVersion + 1
               savedAt := state.now },
             { questionId := request.questionId
               clientSeq := request.clientSeq
               answerIdentity := answerIdentity
               version := currentVersion + 1
               savedAt := state.now })

/-! ## The save action -/

/-- Evidence of the preparation seam: the attempt it was minted for, the
instant, and the canonical effective deadline. -/
structure MutationContext where
  attemptId : String
  checkedAt : Int
  effectiveDeadline : Option Int
  deriving DecidableEq, Repr

def applyAcceptedResult (storedAnswers : List AnswerRecord) (newAnswer : AnswerRecord)
    (request : SaveAnswerRequest) : List AnswerRecord :=
  (storedAnswers.filter fun a => a.questionId ≠ request.questionId) ++
    [{ questionId := request.questionId
       answer := newAnswer.answer
       version := newAnswer.version
       savedAt := newAnswer.savedAt }]

def findSnapshotQuestion (snapshot : List QuestionSnapshot) (questionId : String) :
    Option QuestionSnapshot :=
  snapshot.find? fun q => q.originalQuestionId = questionId

def ExamAttempt.recordSave (a : ExamAttempt) (newAnswers : List AnswerRecord) (checkedAt : Int) :
    ExamAttempt :=
  { a with answers := newAnswers, lastActivityAt := some checkedAt }

def saveAnswer (db : Db) (mutationContext : MutationContext) (request : SaveAnswerRequest)
    (canonicalizeAnswer : Option (QuestionSnapshot → CanonicalizeAnswer)) :
    Result (ProcessSaveResult × Db) := do
  require (request.attemptId = mutationContext.attemptId)
    (.validation "Save answer request attemptId does not match the mutation context's bound attempt identity")
  let attempt ← orThrow (db.findAttempt mutationContext.attemptId) (.notFound "Attempt not found")
  let snapshotQuestion ← orThrow (findSnapshotQuestion attempt.questionSnapshot request.questionId)
    (.validation "问题不在此尝试中")
  let knownReceipt ← db.findAnswerReceiptByKey mutationContext.attemptId request.questionId
    request.clientSeq
  let saveResult := processSaveAnswer
    { attemptStatus := attempt.status
      answers := attempt.answers
      knownReceipt := knownReceipt
      deadlineAt := mutationContext.effectiveDeadline
      now := mutationContext.checkedAt }
    request (canonicalizeAnswer.map fun canonicalize => canonicalize snapshotQuestion)
  match saveResult with
  | .accepted _ _ (some (newAnswer, newReceipt)) =>
    let newAnswers := applyAcceptedResult attempt.answers newAnswer request
    require (newAnswer.answer.hasNul = false) .untranslatableCharacter
    let db := db.updateAttempt mutationContext.attemptId
      (·.recordSave newAnswers mutationContext.checkedAt)
    let db ← db.appendAnswerReceipt mutationContext.attemptId newReceipt
    pure (saveResult, db)
  | _ => pure (saveResult, db)

/-! ## The frozen snapshot -/

def buildSubmittedAnswersSnapshot (draftAnswers : List AnswerRecord)
    (questionSnapshot : List QuestionSnapshot) :
    SubmittedAnswersSnapshot :=
  let ordered := questionSnapshot.insertionSort fun a b => a.order ≤ b.order
  { answers := ordered.map fun q =>
      { questionId := q.originalQuestionId
        value := orNull (lastAnswer draftAnswers q.originalQuestionId) } }

/-! ## What one save does -/

section
variable {state : AnswerState} {request : SaveAnswerRequest} {canonicalize : Option CanonicalizeAnswer}

structure AnswerState.Mutable (state : AnswerState) : Prop where
  not_voided : state.attemptStatus ≠ .voided
  not_submitted : state.attemptStatus ≠ .submitted
  not_graded : state.attemptStatus ≠ .graded
  not_expired : ¬ ∃ d ∈ state.deadlineAt, d ≤ state.now

/-- A write happens only on a fresh key, in a mutable state, with a valid
answer and the current version as base. -/
structure Acceptance (state : AnswerState) (request : SaveAnswerRequest)
    (canonicalize : Option CanonicalizeAnswer)
    (record : AnswerRecord) (receipt : AnswerReceipt) : Prop where
  isMutable : state.Mutable
  fresh : state.knownReceipt = none
  base : request.baseVersion = versionOf state.answers request.questionId
  canonical : applyCanonicalize canonicalize request.answer = .ok record.answer
  record_question : record.questionId = request.questionId
  record_version : record.version = versionOf state.answers request.questionId + 1
  record_savedAt : record.savedAt = state.now
  receipt_eq : receipt =
    { questionId := request.questionId
      clientSeq := request.clientSeq
      answerIdentity := canonicalAnswerIdentity record.answer
      version := record.version
      savedAt := record.savedAt }

theorem processSaveAnswer_written {v : Nat} {t : Int} {record : AnswerRecord} {receipt : AnswerReceipt}
    (h : processSaveAnswer state request canonicalize = .accepted v t (some (record, receipt))) :
    Acceptance state request canonicalize record receipt ∧ v = record.version ∧ t = record.savedAt := by
  unfold processSaveAnswer at h
  split at h
  · cases h
  split at h
  · cases h
  split at h
  · cases h
  rename_i hv hs hd
  split at h
  · cases h
  rename_i answer hc
  dsimp only at h
  split at h
  · split at h <;> cases h
  rename_i hk
  split at h
  · cases h
  split at h
  · cases h
  rename_i hlo hhi
  cases h
  refine ⟨⟨⟨hv, fun e => hs (.inl e), fun e => hs (.inr e), hd⟩, hk, by omega, hc, rfl, rfl, rfl,
      rfl⟩, rfl, rfl⟩

theorem processSaveAnswer_replayed {v : Nat} {t : Int}
    (h : processSaveAnswer state request canonicalize = .accepted v t none) :
    ∃ receipt answer, state.knownReceipt = some receipt ∧ receipt.version = v ∧ receipt.savedAt = t ∧
      applyCanonicalize canonicalize request.answer = .ok answer ∧
      receipt.answerIdentity = canonicalAnswerIdentity answer := by
  unfold processSaveAnswer at h
  split at h
  · cases h
  split at h
  · cases h
  split at h
  · cases h
  split at h
  · cases h
  rename_i answer hc
  dsimp only at h
  split at h
  · rename_i receipt hk
    split at h
    · rename_i hid
      cases h
      exact ⟨receipt, answer, hk, rfl, rfl, hc, hid⟩
    · cases h
  · split at h
    · cases h
    · split at h <;> cases h

theorem processSaveAnswer_known (hm : state.Mutable) {receipt : AnswerReceipt} {answer : Json}
    (hk : state.knownReceipt = some receipt)
    (hc : applyCanonicalize canonicalize request.answer = .ok answer) :
    processSaveAnswer state request canonicalize =
      if receipt.answerIdentity = canonicalAnswerIdentity answer then .accepted receipt.version
        receipt.savedAt none
      else .rejected receipt.version state.now .conflictingPayload none := by
  unfold processSaveAnswer
  rw [if_neg hm.not_voided, if_neg (not_or.mpr ⟨hm.not_submitted, hm.not_graded⟩),
    if_neg hm.not_expired, hc]
  simp only [hk]

end

end ExamSystem
