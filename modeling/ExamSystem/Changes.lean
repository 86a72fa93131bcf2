import ExamSystem.Commands
import ExamSystem.SaveSound

/-!
# What a transaction may change

The abstract model of the store: the kinds of change that commands are made of,
each with the facts that hold in the state it is made in. Every invariant of
the system is proved once for each kind.
-/

namespace ExamSystem

open Tx

/-! ## The writes -/

def ExamAttempt.workset [Host] (a : ExamAttempt) : List AttemptGradingEntry :=
  a.questionSnapshot.map fun q =>
    (expectedEntry (buildSubmittedAnswersSnapshot a.answers a.questionSnapshot) q).toRow a.id

namespace Db

def detect (db : Db) (a : ExamAttempt) (freshId : String) (now heartbeatTimeoutSeconds : Int)
    (policy : InterruptionTimePolicy) : Db :=
  { db.updateAttempt a.id (·.markDisrupted freshId now) with
    interruptions := db.interruptions ++ [{ id := freshId, attemptId := a.id }]
    interruptionEvents :=
      db.interruptionEvents ++ [detectedEvent a freshId now heartbeatTimeoutSeconds policy] }

def restore (db : Db) (a : ExamAttempt) (now : Int) (event : AttemptInterruptionEvent) : Db :=
  { db.updateAttempt a.id (·.restore now) with interruptionEvents := db.interruptionEvents ++ [event] }

def adjust (db : Db) (a : ExamAttempt) (row : AttemptTimeAdjustment) : Db :=
  { db.updateAttempt a.id (·.extend row.afterDeadline) with
    timeAdjustments := db.timeAdjustments ++ [row] }

def freeze [Host] (db : Db) (a : ExamAttempt) (submittedAt : Int) (reason : Option SubmissionReason)
    (events : List AttemptInterruptionEvent) : Db :=
  { db.updateAttempt a.id (·.submittedRow submittedAt reason) with
    gradingEntries := db.gradingEntries ++ a.workset
    interruptionEvents := db.interruptionEvents ++ events }

def close (db : Db) (a : ExamAttempt) (aggregated : GradingEntryAggregate) (now : Int) : Db :=
  { db.updateAttempt a.id (·.gradedRow aggregated now) with
    enrollment := db.enrollment.project db.exam.scoreStrategy
      (enrollmentTarget db.exam db.enrollment aggregated.passed now) a.id aggregated.totalScore
        aggregated.passed }

def create (db : Db) (a : ExamAttempt) : Db :=
  { db with attempts := db.attempts ++ [a], enrollment := db.enrollment.startAttempt }

end Db

/-! ## The facts behind them -/

/-- The attempt's pointer names an episode of its own that was detected at
`interruptedAt` and has no outcome. -/
structure OpenInterruption (db : Db) (a : ExamAttempt) (interruptionId : String)
    (interruptedAt : Int) : Prop where
  pointer : a.currentInterruptionId = some interruptionId
  interrupted : a.interruptedAt = some interruptedAt
  episode : ∃ i ∈ db.interruptions, i.id = interruptionId ∧ i.attemptId = a.id
  detected : ∃ e, db.findDetected interruptionId = some e ∧ e.attemptId = a.id ∧
    e.occurredAt = interruptedAt
  undecided : db.findOutcome interruptionId = none

structure OutcomeOf (event : AttemptInterruptionEvent) (a : ExamAttempt)
    (interruptionId : String) : Prop where
  attempt : event.attemptId = a.id
  interruption : event.interruptionId = interruptionId
  outcome : Db.isOutcome event = true

/-- The events a freeze adds: none for an attempt in progress, the outcome of
the open episode for a disrupted one. -/
inductive FreezeEvents (db : Db) (a : ExamAttempt) : List AttemptInterruptionEvent → Prop
  | inProgress (h : a.status = .inProgress) : FreezeEvents db a []
  | disrupted {interruptionId : String} {interruptedAt : Int} {event : AttemptInterruptionEvent}
      (h : a.status = .disrupted) (hopen : OpenInterruption db a interruptionId interruptedAt)
      (hout : OutcomeOf event a interruptionId) : FreezeEvents db a [event]

/-- What an automatic bounded-grace row respects when it is appended at `now`. -/
structure BoundedGrace (db : Db) (a : ExamAttempt) (row : AttemptTimeAdjustment)
    (now : Int) : Prop where
  disrupted : a.status = .disrupted
  first : ∀ i ∈ row.interruptionId, db.findBoundedByInterruption i = none
  capped : ∃ interruptionId interruptedAt snapshot perIncident perAttempt,
    row.interruptionId = some interruptionId ∧ OpenInterruption db a interruptionId interruptedAt ∧
    a.interruptionTimingPolicySnapshot = some snapshot ∧ snapshot.policy = .boundedGrace ∧
    snapshot.perIncidentCapSeconds = some perIncident ∧
    snapshot.perAttemptAggregateCapSeconds = some perAttempt ∧
    row.addedSeconds ≤ perIncident ∧ row.addedSeconds * 1000 ≤ now - interruptedAt ∧
    db.sumBoundedGraceSeconds a.id + row.addedSeconds ≤ perAttempt

/-- What every appended adjustment respects: it extends the deadline the
attempt has, by a positive whole number of seconds, up to the exam's close. -/
structure Adjusts (db : Db) (a : ExamAttempt) (row : AttemptTimeAdjustment) (now : Int) : Prop where
  found : db.findAttempt a.id = some a
  active : a.status = .inProgress ∨ a.status = .disrupted
  attempt : row.attemptId = a.id
  before : a.deadlineAt = some row.beforeDeadline
  positive : 0 < row.addedSeconds
  after : row.afterDeadline = row.beforeDeadline + row.addedSeconds * 1000
  close : ∃ closeAt, db.exam.closeAt = some closeAt ∧ row.afterDeadline ≤ closeAt
  grace : row.source = .boundedGrace → BoundedGrace db a row now
  source : row.source = .boundedGrace ∨ row.source = .operator

/-- What a freeze respects: no entry existed, and every new row passes its
checks under a key of its own. -/
structure Freezes [Host] (db : Db) (a : ExamAttempt) (events : List AttemptInterruptionEvent) :
    Prop where
  found : db.findAttempt a.id = some a
  events : FreezeEvents db a events
  unmaterialized : db.entriesOf a.id = []
  checks : ∀ e ∈ a.workset, Db.entryChecks e = .ok ()
  distinct : (a.questionSnapshot.map (·.originalQuestionId)).Nodup

structure Scores (db : Db) (a : ExamAttempt) (entry : AttemptGradingEntry) (score : ℚ) : Prop where
  found : db.findAttempt a.id = some a
  submitted : a.status = .submitted
  held : a.gradingStatus = some .pendingManual
  stored : db.findEntry a.id entry.questionId = some entry
  manual : entry.gradingMode = .manual
  pending : entry.status = .pendingManual
  bounds : 0 ≤ score ∧ score ≤ entry.maxScore

/-- The status that grading asks for is the enrollment's own or one it may go to. -/
def EnrollmentAllows (enrollment : ExamEnrollment) (target : EnrollmentStatus) : Prop :=
  enrollment.status = target ∨ target ∈ enrollmentTransitions enrollment.status

instance (enrollment : ExamEnrollment) (target : EnrollmentStatus) :
    Decidable (EnrollmentAllows enrollment target) :=
  inferInstanceAs (Decidable (_ ∨ _))

def Belongs (db : Db) (a : ExamAttempt) : Prop :=
  db.enrollment.examId = a.examId ∧ db.enrollment.candidateId = a.candidateId

structure Closes [Host] (db : Db) (a : ExamAttempt) (aggregated : GradingEntryAggregate)
    (now : Int) : Prop where
  found : db.findAttempt a.id = some a
  submitted : a.status = .submitted
  belongs : Belongs db a
  aggregate : aggregateGradingEntries a (db.entriesOf a.id) db.exam.passingScore = .ok aggregated
  allowed : EnrollmentAllows db.enrollment
    (enrollmentTarget db.exam db.enrollment aggregated.passed now)

structure Creates (db : Db) (a : ExamAttempt) (input : StartAttemptInput) : Prop where
  fresh : db.findAttempt a.id = none
  numbered : ∀ b ∈ db.attempts, ¬ (b.enrollmentId = a.enrollmentId ∧ b.attemptNo = a.attemptNo)
  row : ∃ deadlineAt snapshot, a = newAttempt db.exam db.enrollment input deadlineAt snapshot
  exam : db.exam.id = a.examId
  belongs : Belongs db a
  idle : db.findActiveByEnrollment db.enrollment.id = none
  allowed : EnrollmentAllows db.enrollment .started

/-! ## The changes -/

/-- A change at the instant `now` that leaves deadlines, the ledger and the exam alone. -/
inductive Quiet [Host] (now : Int) : Db → Db → Prop
  | save {db : Db} {c : SaveCommand} {a : ExamAttempt} {question : QuestionSnapshot}
      {record : AnswerRecord}
      {receipt : AnswerReceipt} (h : Written c db a question record receipt) : Quiet now db
        (c.write db a record receipt)
  | touch {db : Db} {a : ExamAttempt} (ha : db.findAttempt a.id = some a)
      (hs : a.status = .inProgress) : Quiet now db (db.updateAttempt a.id (·.touch now))
  | detect {db : Db} {a : ExamAttempt} {freshId : String} {heartbeatTimeoutSeconds : Int}
      {policy : InterruptionTimePolicy} (ha : db.findAttempt a.id = some a)
        (hs : a.status = .inProgress)
      (hfresh : ∀ i ∈ db.interruptions, i.id ≠ freshId) (hevent : db.findDetected freshId = none) :
      Quiet now db (db.detect a freshId now heartbeatTimeoutSeconds policy)
  | restore {db : Db} {a : ExamAttempt} {interruptionId : String} {interruptedAt : Int}
      {event : AttemptInterruptionEvent} (ha : db.findAttempt a.id = some a)
        (hs : a.status = .disrupted)
      (hopen : OpenInterruption db a interruptionId interruptedAt)
        (hout : OutcomeOf event a interruptionId) :
      Quiet now db (db.restore a now event)
  | freeze {db : Db} {a : ExamAttempt} {submittedAt : Int} {reason : Option SubmissionReason}
      {events : List AttemptInterruptionEvent} (h : Freezes db a events) :
      Quiet now db (db.freeze a submittedAt reason events)
  | score {db : Db} {a : ExamAttempt} {entry : AttemptGradingEntry} {score : ℚ}
      {comment graderId : String}
      (h : Scores db a entry score) :
      Quiet now db (db.updateEntry a.id entry.questionId (·.complete score comment graderId now))
  | close {db : Db} {a : ExamAttempt} {aggregated : GradingEntryAggregate}
      (h : Closes db a aggregated now) : Quiet now db (db.close a aggregated now)
  | create {db : Db} {a : ExamAttempt} {input : StartAttemptInput} (h : Creates db a input) :
      Quiet now db (db.create a)

/-- A change made by a transaction at the instant `now`. -/
inductive Change [Host] (now : Int) : Db → Db → Prop
  | quiet {db db' : Db} (h : Quiet now db db') : Change now db db'
  | adjust {db : Db} {a : ExamAttempt} {row : AttemptTimeAdjustment} (h : Adjusts db a row now) :
      Change now db (db.adjust a row)
  | examWrite {db : Db} {exam : Exam} (h : exam.id = db.exam.id) : Change now db
      { db with exam := exam }

abbrev Quiets [Host] (now : Int) : Db → Db → Prop := Relation.ReflTransGen (Quiet now)

/-! ## What commands leave on record -/

/-- The ledger row `adjustmentId` is the bounded-grace row of the episode. -/
structure GraceRow (db : Db) (attemptId interruptionId adjustmentId : String)
    (row : AttemptTimeAdjustment) : Prop where
  stored : row ∈ db.timeAdjustments
  key : row.id = adjustmentId
  attempt : row.attemptId = attemptId
  interruption : row.interruptionId = some interruptionId
  source : row.source = .boundedGrace
  policy : row.policy = .boundedGrace

/-- An event of the instant `now` or before, whose adjustment is in the ledger. -/
structure Recorded (db : Db) (now : Int) (event : AttemptInterruptionEvent) : Prop where
  past : event.occurredAt ≤ now
  adjustment : ∀ adjustmentId ∈ event.timeAdjustmentId,
    ∃ row, GraceRow db event.attemptId event.interruptionId adjustmentId row

/-- A quiet change as commands make it: its events are on record, and a new
attempt was allowed by the retake policy. -/
structure Logged [Host] (now : Int) (db db' : Db) : Prop where
  quiet : Quiet now db db'
  events : ∀ e ∈ db'.interruptionEvents, e ∈ db.interruptionEvents ∨ Recorded db now e
  retake : db'.attempts.length = db.attempts.length ∨ checkRetake db db.exam db.enrollment = .ok ()

structure Appends (db : Db) (a : ExamAttempt) (row : AttemptTimeAdjustment) (now : Int) : Prop where
  adjusts : Adjusts db a row now
  freshId : db.findAdjustment row.id = none
  freshOperation : db.findByOperationId row.operationId = none

abbrev Logs [Host] (now : Int) : Db → Db → Prop := Relation.ReflTransGen (Logged now)

/-- What one command commits: it extends a deadline or not, and then makes
logged changes. -/
def Commits [Host] (now : Int) (db db' : Db) : Prop :=
  ∃ db₁, (db₁ = db ∨ ∃ a row, Appends db a row now ∧ db₁ = db.adjust a row) ∧ Logs now db₁ db'

/-- What one transaction on an attempt does: it extends a deadline or not, and
then makes quiet changes. -/
def Transacts [Host] (now : Int) (db db' : Db) : Prop :=
  ∃ db₁, (db₁ = db ∨ ∃ a row, Adjusts db a row now ∧ db₁ = db.adjust a row) ∧ Quiets now db₁ db'

abbrev SomeChange [Host] (db db' : Db) : Prop := ∃ now, Change now db db'

theorem length_updateAttempt (db : Db) (attemptId : String) (f : ExamAttempt → ExamAttempt) :
    (db.updateAttempt attemptId f).attempts.length = db.attempts.length := by
  simp [Db.updateAttempt, Rows.modify]

section
variable [Host] {now : Int} {db db' db'' : Db}

theorem Quiet.exam (h : Quiet now db db') : db'.exam = db.exam := by
  cases h <;> rfl

theorem Quiets.exam (h : Quiets now db db') : db'.exam = db.exam := by
  induction h with
  | refl => rfl
  | tail _ hq ih => rw [hq.exam, ih]

theorem Logs.quiets (h : Logs now db db') : Quiets now db db' := h.lift id fun _ _ hl => hl.quiet

theorem Logs.commits (h : Logs now db db') : Commits now db db' := ⟨db, .inl rfl, h⟩

theorem Commits.trans (h : Commits now db db') (h' : Logs now db' db'') : Commits now db db'' := by
  obtain ⟨db₁, hd, hl⟩ := h
  exact ⟨db₁, hd, hl.trans h'⟩

theorem Commits.adjust {a : ExamAttempt} {row : AttemptTimeAdjustment} (h : Appends db a row now) :
    Commits now db (db.adjust a row) :=
  ⟨_, .inr ⟨a, row, h, rfl⟩, .refl⟩

theorem Commits.transacts (h : Commits now db db') : Transacts now db db' := by
  obtain ⟨db₁, hd, hl⟩ := h
  refine ⟨db₁, hd.imp id ?_, hl.quiets⟩
  rintro ⟨a, row, hadj, rfl⟩
  exact ⟨a, row, hadj.adjusts, rfl⟩

theorem Quiet.logged (h : Quiet now db db') (hevents : db'.interruptionEvents = db.interruptionEvents)
    (hattempts : db'.attempts.length = db.attempts.length) : Logged now db db' :=
  ⟨h, fun _ he => .inl (hevents ▸ he), .inl hattempts⟩

theorem Quiets.changes (h : Quiets now db db') : Relation.ReflTransGen SomeChange db db' :=
  h.lift id fun _ _ hc => ⟨now, .quiet hc⟩

theorem Transacts.changes (h : Transacts now db db') : Relation.ReflTransGen SomeChange db db' := by
  obtain ⟨db₁, rfl | ⟨a, row, hadj, rfl⟩, hq⟩ := h
  · exact hq.changes
  · exact .head ⟨now, .adjust hadj⟩ hq.changes

end

end ExamSystem
