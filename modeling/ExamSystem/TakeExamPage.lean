import ExamSystem.Commands
import ExamSystem.SubmitFlush

/-!
# The exam page and its server

The state that the exam page keeps for each question, the requests and replies
in flight, and the server's store. An event is an action of the candidate, a
timer, the arrival of a message, or a failure that the page sees.
-/

namespace ExamSystem

open Tx

/-! ## The take snapshot -/

structure TakeQuestion where
  id : String
  answerValue : Json
  currentClientSeq : Option Int
  currentVersion : Option Nat
  deriving DecidableEq, Repr

structure CandidateTakeSnapshot where
  canSave : Bool
  questions : List TakeQuestion
  deriving DecidableEq, Repr

/-- The last record of a question, as the maps of the snapshot builder keep it. -/
def lastRecord (answers : List AnswerRecord) (questionId : String) : Option AnswerRecord :=
  answers.reverse.find? fun r => r.questionId = questionId

def findMaxClientSeq (db : Db) (attemptId questionId : String) : Option Int :=
  ((db.receiptsOf attemptId questionId).map (·.clientSeq)).max?

def takeQuestion (db : Db) (attempt : ExamAttempt) (q : QuestionSnapshot) : TakeQuestion :=
  let unanswered :=
    { id := q.originalQuestionId, answerValue := .null, currentClientSeq := none,
      currentVersion := none }
  match attempt.status with
  | .inProgress | .disrupted =>
    match lastRecord attempt.answers q.originalQuestionId with
    | some r =>
      { id := q.originalQuestionId
        answerValue := r.answer
        currentClientSeq := findMaxClientSeq db attempt.id q.originalQuestionId
        currentVersion := some r.version }
    | none => unanswered
  | .submitted | .graded =>
    { unanswered with
      answerValue :=
        orNull (attempt.submittedAnswers.bind fun s => frozenAnswer s q.originalQuestionId) }
  | _ => unanswered

def buildCandidateTakeSnapshot (db : Db) (attempt : ExamAttempt) (exam : Exam) (now : Int) :
    Result CandidateTakeSnapshot := do
  let isDeadlineExpired ← isAttemptDeadlineExpired exam.closeAt attempt.deadlineAt now
  pure { canSave := attempt.status == .inProgress && !isDeadlineExpired
         questions := attempt.questionSnapshot.map (takeQuestion db attempt) }

/-! ## The responses of the save route -/

inductive SaveAnswerResponse
  | accepted (serverVersion : Nat) (savedAt : Int)
  | rejected (reason : ConflictReason) (serverVersion : Nat) (savedAt : Int)
      (serverAnswer : Option Json)
  deriving DecidableEq, Repr

/-- The details of a rejection carry the server's answer for a stale version only. -/
def ProcessSaveResult.toResponse : ProcessSaveResult → SaveAnswerResponse
  | .accepted serverVersion savedAt _ => .accepted serverVersion savedAt
  | .rejected serverVersion savedAt reason latestAnswer =>
    .rejected reason serverVersion savedAt (if reason = .staleVersion then latestAnswer else none)

def SaveAnswerResponse.adopted : SaveAnswerResponse → Option Json
  | .rejected .staleVersion _ _ serverAnswer => serverAnswer
  | _ => none

/-! ## The page -/

/-- What the page keeps of one question: the answer it shows, the version and
sequence counters, and the save queue. -/
structure QuestionPage where
  answer : Option Json
  version : Nat
  clientSeq : Int
  queue : SaveQueue Json
  deriving DecidableEq, Repr

structure SaveDraft where
  generation : Nat
  answer : Json
  clientSeq : Int
  baseVersion : Nat
  deriving DecidableEq, Repr

namespace QuestionPage

def empty : QuestionPage := { answer := none, version := 0, clientSeq := 0, queue := .empty }

def load (q : TakeQuestion) : QuestionPage :=
  if q.answerValue.isNull then empty
  else
    { answer := some q.answerValue
      version := q.currentVersion.getD 0
      clientSeq := q.currentClientSeq.getD 0
      queue := .empty }

/-- `saveAnswer` of the page: show the answer and schedule its save. -/
def saveAnswer (p : QuestionPage) (answer : Json) : QuestionPage :=
  { p with answer := some answer, queue := p.queue.scheduleSave answer }

/-- Execute the chain from its head. A page that may not save lets every save
fail without a request. -/
def execute (canSave : Bool) (p : QuestionPage) :
    List (QueuedSave Json) → QuestionPage × Option SaveDraft
  | [] => ({ p with queue := { p.queue with inflight := [] } }, none)
  | e :: rest =>
    let started := p.queue.setStatus e.generation .inflight
    if canSave then
      ({ p with clientSeq := p.clientSeq + 1, queue := { started with inflight := e :: rest } },
       some { generation := e.generation, answer := e.save, clientSeq := p.clientSeq + 1,
               baseVersion := p.version })
    else execute canSave { p with queue := started.setStatus e.generation .failed } rest

/-- What a response does to the page, and whether the save succeeded. A stale
version with the server's answer is reconciled by adopting that answer. -/
def receive (p : QuestionPage) : SaveAnswerResponse → QuestionPage × Bool
  | .accepted serverVersion _ => ({ p with version := serverVersion }, true)
  | .rejected .staleVersion serverVersion _ (some serverAnswer) =>
    ({ p with version := serverVersion, answer := some serverAnswer }, true)
  | .rejected _ _ _ _ => (p, false)

end QuestionPage

structure FlushResult where
  pendingCount : Nat
  failedQuestionIds : List String
  deriving DecidableEq, Repr

/-! ## The page with its server -/

structure SentSave where
  generation : Nat
  request : SaveAnswerRequest
  deriving DecidableEq, Repr

structure SaveReply where
  generation : Nat
  questionId : String
  response : SaveAnswerResponse
  deriving DecidableEq, Repr

/-- One visit of the candidate to the page of an attempt. `entered` is what the
candidate entered last for a question; nothing reads it. -/
structure Visit where
  attemptId : String
  candidateId : String
  canSave : Bool
  questions : String → QuestionPage
  /-- The questions with a status, in the order in which they got it. -/
  touched : List String
  entered : String → Option Json
  db : Db
  requests : List SentSave
  replies : List SaveReply

namespace Visit

def setQuestion (v : Visit) (questionId : String) (p : QuestionPage) : Visit :=
  { v with questions := Function.update v.questions questionId p }

def proceed (v : Visit) (questionId : String) (p : QuestionPage) : Visit :=
  let (p, sent) := p.execute v.canSave p.queue.inflight
  { v.setQuestion questionId p with
    requests := v.requests ++ sent.toList.map fun d =>
      { generation := d.generation
        request :=
          { attemptId := v.attemptId
            questionId := questionId
            answer := d.answer
            clientSeq := d.clientSeq
            baseVersion := d.baseVersion } } }

def schedule (v : Visit) (questionId : String) (answer : Json) : Visit :=
  { v.setQuestion questionId ((v.questions questionId).saveAnswer answer) with
    touched := if questionId ∈ v.touched then v.touched else v.touched ++ [questionId] }

/-- What `flush` returns: it fires the pending timers early, waits, and counts
the statuses. -/
def flushResult (v : Visit) : FlushResult :=
  { pendingCount := (v.touched.filter fun q =>
      (v.questions q).queue.status = .inflight ∨ (v.questions q).queue.status = .pending).length
    failedQuestionIds := v.touched.filter fun q => (v.questions q).queue.status = .failed }

def load (db : Db) (attempt : ExamAttempt) (snapshot : CandidateTakeSnapshot) : Visit :=
  { attemptId := attempt.id
    candidateId := attempt.candidateId
    canSave := snapshot.canSave
    questions := fun questionId =>
      ((snapshot.questions.find? fun q => q.id = questionId).map QuestionPage.load).getD .empty
    touched := []
    entered := fun _ => none
    db := db
    requests := []
    replies := [] }

end Visit

inductive Event
  | edit (questionId : String) (answer : Json)
  | timer (questionId : String)
  | retry (questionId : String)
  | serve (index : Nat) (now : Int)
  | deliver (index : Nat)
  | fail (questionId : String)
  deriving DecidableEq, Repr

section
variable [Host] (validateAnswerForQuestion : QuestionSnapshot → CanonicalizeAnswer)

/-- One event; the error says that it cannot happen now. A request and its reply
may arrive at any later time or never. -/
def Event.step (e : Event) (v : Visit) : Except Unit (Unit × Visit) :=
  match e with
  | .edit questionId answer =>
    .ok ((), { v.schedule questionId answer with
               entered := Function.update v.entered questionId (some answer) })
  | .timer questionId => do
    let p := v.questions questionId
    let queue ← orThrow p.queue.fire ()
    -- a save that finds others in flight waits for them
    if p.queue.inflight.isEmpty then pure ((), v.proceed questionId { p with queue := queue })
    else pure ((), v.setQuestion questionId { p with queue := queue })
  | .retry questionId => do
    let p := v.questions questionId
    require (v.canSave = true ∧ p.queue.status = .failed) ()
    let answer ← orThrow p.answer ()
    pure ((), v.schedule questionId answer)
  | .serve index now => do
    let sent ← orThrow v.requests[index]? ()
    let v := { v with requests := v.requests.eraseIdx index }
    match saveAttemptAnswer v.db v.candidateId sent.request now validateAnswerForQuestion with
    | .ok (result, db) =>
      pure ((), { v with
        db := db
        replies := v.replies ++ [{ generation := sent.generation
                                   questionId := sent.request.questionId
                                   response := result.toResponse }] })
    | .error _ => pure ((), v)
  | .deliver index => do
    let reply ← orThrow v.replies[index]? ()
    let p := v.questions reply.questionId
    require (p.queue.inflight.head?.map (·.generation) = some reply.generation) ()
    let (p, ok) := p.receive reply.response
    pure ((), { v with replies := v.replies.eraseIdx index }.proceed reply.questionId
      { p with queue := p.queue.settle ok })
  | .fail questionId => do
    let p := v.questions questionId
    require (p.queue.inflight ≠ []) ()
    pure ((), v.proceed questionId { p with queue := p.queue.settle false })

end

end ExamSystem
