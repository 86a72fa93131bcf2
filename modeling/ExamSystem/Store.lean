import Mathlib.Algebra.Ring.Int.Defs
import ExamSystem.Rows
import ExamSystem.Transactions
import ExamSystem.Domain

/-!
# The store of one enrollment

The rows that the commands on one candidate's enrollment in one exam read and
write, and the repository operations with the indexes and checks the database
enforces. A violated index or check throws, and the transaction rolls back.
-/

namespace ExamSystem

open Tx

/-- What an `integer` column or parameter holds. -/
def FitsInteger (n : Int) : Prop := -2147483648 ≤ n ∧ n ≤ 2147483647

instance (n : Int) : Decidable (FitsInteger n) := inferInstanceAs (Decidable (_ ∧ _))

structure AnswerReceiptRow where
  attemptId : String
  receipt : AnswerReceipt
  deriving DecidableEq, Repr

structure Db where
  exam : Exam
  enrollment : ExamEnrollment
  attempts : List ExamAttempt
  answerReceipts : List AnswerReceiptRow
  gradingEntries : List AttemptGradingEntry
  interruptions : List AttemptInterruption
  interruptionEvents : List AttemptInterruptionEvent
  timeAdjustments : List AttemptTimeAdjustment
  deriving DecidableEq, Repr

namespace Db

/-! ## Exam and enrollment -/

def findExam (db : Db) (examId : String) : Option Exam :=
  if db.exam.id = examId then some db.exam else none

def findEnrollment (db : Db) (examId candidateId : String) : Option ExamEnrollment :=
  if db.enrollment.examId = examId ∧ db.enrollment.candidateId = candidateId then some db.enrollment
    else none

def updateEnrollment (db : Db) (f : ExamEnrollment → ExamEnrollment) : Db :=
  { db with enrollment := f db.enrollment }

/-! ## Attempts -/

def findAttempt (db : Db) (attemptId : String) : Option ExamAttempt :=
  Rows.row (·.id) db.attempts attemptId

def findActiveByEnrollment (db : Db) (enrollmentId : String) : Option ExamAttempt :=
  db.attempts.find? fun a => a.enrollmentId = enrollmentId ∧
    (a.status = .inProgress ∨ a.status = .disrupted)

def updateAttempt (db : Db) (attemptId : String) (f : ExamAttempt → ExamAttempt) : Db :=
  { db with attempts := Rows.modify (·.id) db.attempts attemptId f }

def createAttempt (db : Db) (attempt : ExamAttempt) : Result Db := do
  require (db.findAttempt attempt.id = none) (.uniqueViolation "exam_attempts_pkey")
  require (∀ a ∈ db.attempts, ¬ (a.enrollmentId = attempt.enrollmentId ∧
      a.attemptNo = attempt.attemptNo))
    (.uniqueViolation "exam_attempts_org_enrollment_attempt_unique")
  pure { db with attempts := db.attempts ++ [attempt] }

/-! ## Replay receipts -/

def receiptKey (r : AnswerReceiptRow) : String × String × Int :=
  (r.attemptId, r.receipt.questionId, r.receipt.clientSeq)

def findAnswerReceipt (db : Db) (attemptId questionId : String) (clientSeq : Int) :
    Option AnswerReceipt :=
  (Rows.row receiptKey db.answerReceipts (attemptId, questionId, clientSeq)).map (·.receipt)

/-- The lookup of the repository, whose key has an `integer` parameter. -/
def findAnswerReceiptByKey (db : Db) (attemptId questionId : String) (clientSeq : Int) :
    Result (Option AnswerReceipt) := do
  require (FitsInteger clientSeq) .integerOutOfRange
  pure (db.findAnswerReceipt attemptId questionId clientSeq)

def appendAnswerReceipt (db : Db) (attemptId : String) (receipt : AnswerReceipt) : Result Db := do
  require (FitsInteger receipt.clientSeq) .integerOutOfRange
  require (0 ≤ receipt.clientSeq) (.checkViolation "exam_answer_save_receipts_client_seq_check")
  require (db.findAnswerReceipt attemptId receipt.questionId receipt.clientSeq = none)
    (.uniqueViolation "exam_answer_save_receipts_pk")
  pure { db with answerReceipts := db.answerReceipts ++
    [{ attemptId := attemptId, receipt := receipt }] }

def receiptsOf (db : Db) (attemptId questionId : String) : List AnswerReceipt :=
  (db.answerReceipts.filter fun r => r.attemptId = attemptId ∧
    r.receipt.questionId = questionId).map (·.receipt)

/-! ## Grading entries -/

def entryKey (e : AttemptGradingEntry) : String × String := (e.attemptId, e.questionId)

def entriesOf (db : Db) (attemptId : String) : List AttemptGradingEntry :=
  db.gradingEntries.filter fun e => e.attemptId = attemptId

def findEntry (db : Db) (attemptId questionId : String) : Option AttemptGradingEntry :=
  Rows.row entryKey db.gradingEntries (attemptId, questionId)

def entryChecks (e : AttemptGradingEntry) : Result Unit := do
  require (0 ≤ e.maxScore) (.checkViolation "attempt_grading_entries_max_score_check")
  require (∀ s ∈ e.earnedScore, 0 ≤ s) (.checkViolation "attempt_grading_entries_earned_score_check")
  require (∀ s ∈ e.earnedScore, s ≤ e.maxScore)
    (.checkViolation "attempt_grading_entries_earned_score_limit_check")

def insertEntry (db : Db) (e : AttemptGradingEntry) : Result Db := do
  entryChecks e
  require (db.findEntry e.attemptId e.questionId = none)
    (.uniqueViolation "attempt_grading_entries_attempt_question_unique")
  pure { db with gradingEntries := db.gradingEntries ++ [e] }

def bulkCreateEntries : Db → List AttemptGradingEntry → Result Db
  | db, [] => pure db
  | db, e :: es => do bulkCreateEntries (← db.insertEntry e) es

def updateEntry (db : Db) (attemptId questionId : String)
    (f : AttemptGradingEntry → AttemptGradingEntry) : Db :=
  { db with gradingEntries := Rows.modify entryKey db.gradingEntries (attemptId, questionId) f }

def countPendingManual (db : Db) (attemptId : String) : Nat :=
  ((db.entriesOf attemptId).filter fun e => e.gradingMode == .manual && e.status ==
      .pendingManual).length

/-! ## Interruption episodes, events and time adjustments -/

def findInterruption (db : Db) (attemptId interruptionId : String) : Option AttemptInterruption :=
  db.interruptions.find? fun i => i.id = interruptionId ∧ i.attemptId = attemptId

def findLatestInterruption (db : Db) (attemptId : String) : Option AttemptInterruption :=
  (db.interruptions.filter fun i => i.attemptId = attemptId).getLast?

def createInterruption (db : Db) (interruption : AttemptInterruption) : Result Db := do
  require (∀ i ∈ db.interruptions, i.id ≠ interruption.id)
    (.uniqueViolation "attempt_interruptions_pkey")
  pure { db with interruptions := db.interruptions ++ [interruption] }

def isOutcome (e : AttemptInterruptionEvent) : Bool :=
  e.eventType == .restored || e.eventType == .terminalized

def findDetected (db : Db) (interruptionId : String) : Option AttemptInterruptionEvent :=
  db.interruptionEvents.find? fun e => e.interruptionId = interruptionId ∧ e.eventType = .detected

def findOutcome (db : Db) (interruptionId : String) : Option AttemptInterruptionEvent :=
  db.interruptionEvents.find? fun e => e.interruptionId = interruptionId ∧ isOutcome e

/-- The outcome event that occurred last; of several, the one written last. -/
def findLatestOutcome (db : Db) (attemptId : String) : Option AttemptInterruptionEvent :=
  (db.interruptionEvents.filter fun e => e.attemptId = attemptId ∧ isOutcome e).foldl
    (fun latest e =>
      match latest with
      | none => some e
      | some l => if l.occurredAt ≤ e.occurredAt then some e else some l) none

def insertInterruptionEvent (db : Db) (event : AttemptInterruptionEvent) : Result Db := do
  require (event.eventType = .detected → db.findDetected event.interruptionId = none)
    (.uniqueViolation "attempt_interruption_events_detected_unique")
  require (isOutcome event → db.findOutcome event.interruptionId = none)
    (.uniqueViolation "attempt_interruption_events_outcome_unique")
  require (∃ i ∈ db.interruptions, i.id = event.interruptionId ∧ i.attemptId = event.attemptId)
    (.checkViolation "attempt_interruption_events_org_interruption_fk")
  require (∀ s ∈ event.eligibleSeconds, 0 ≤ s)
    (.checkViolation "attempt_interruption_events_eligible_seconds_check")
  pure { db with interruptionEvents := db.interruptionEvents ++ [event] }

def findAdjustment (db : Db) (adjustmentId : String) : Option AttemptTimeAdjustment :=
  Rows.row (·.id) db.timeAdjustments adjustmentId

def findByOperationId (db : Db) (operationId : String) : Option AttemptTimeAdjustment :=
  db.timeAdjustments.find? fun a => a.operationId = operationId

def findBoundedByInterruption (db : Db) (interruptionId : String) : Option AttemptTimeAdjustment :=
  db.timeAdjustments.find? fun a => a.source = .boundedGrace ∧ a.interruptionId = some interruptionId

def adjustmentsOf (db : Db) (attemptId : String) : List AttemptTimeAdjustment :=
  db.timeAdjustments.filter fun a => a.attemptId = attemptId

def sumBoundedGraceSeconds (db : Db) (attemptId : String) : Int :=
  (((db.adjustmentsOf attemptId).filter fun a => a.source = .boundedGrace).map (·.addedSeconds)).sum

def insertAdjustment (db : Db) (adjustment : AttemptTimeAdjustment) : Result Db := do
  require (db.findAdjustment adjustment.id = none) (.uniqueViolation "attempt_time_adjustments_pkey")
  require (db.findByOperationId adjustment.operationId = none)
    (.uniqueViolation "attempt_time_adjustments_org_operation_unique")
  require (adjustment.source = .boundedGrace → ∀ i ∈ adjustment.interruptionId,
    db.findBoundedByInterruption i = none)
    (.uniqueViolation "attempt_time_adjustments_bounded_interruption_unique")
  require (0 < adjustment.addedSeconds) (.checkViolation "attempt_time_adjustments_added_seconds_check")
  require (adjustment.beforeDeadline < adjustment.afterDeadline)
    (.checkViolation "attempt_time_adjustments_deadline_order_check")
  require (adjustment.afterDeadline = adjustment.beforeDeadline + adjustment.addedSeconds * 1000)
    (.checkViolation "attempt_time_adjustments_deadline_delta_check")
  pure { db with timeAdjustments := db.timeAdjustments ++ [adjustment] }

end Db

end ExamSystem
