import ExamSystem.Start
import ExamSystem.Table

/-!
# The waiting room of an exam

The memberships of the candidates who wait for their start, the batches in
which they are released, and the gate of the start command.
-/

namespace ExamSystem.Admission

open Tx

/-! ## Memberships -/

structure ExamAdmissionRecord where
  id : String
  organizationId : String
  examId : String
  candidateId : String
  joinedAt : Int
  admittedAt : Option Int
  consumedAt : Option Int
  consumedAttemptId : Option String
  deriving DecidableEq, Repr

abbrev Admissions := Table ExamAdmissionRecord.id

def ofExam (organizationId examId : String) (r : ExamAdmissionRecord) : Bool :=
  r.organizationId = organizationId ∧ r.examId = examId

/-- The active membership of a candidate: the rows of the partial unique index. -/
def activeOf (organizationId examId candidateId : String) (r : ExamAdmissionRecord) : Bool :=
  ofExam organizationId examId r ∧ r.candidateId = candidateId ∧ r.consumedAt = none

def findActive (t : Admissions) (organizationId examId candidateId : String) :
    Option ExamAdmissionRecord :=
  t.rows.find? (activeOf organizationId examId candidateId)

def newMembership (organizationId examId candidateId : String) (joinedAt : Int) (id : String) :
    ExamAdmissionRecord :=
  { id := id, organizationId := organizationId, examId := examId, candidateId := candidateId,
      joinedAt := joinedAt
    admittedAt := none, consumedAt := none, consumedAttemptId := none }

/-- The insert yields to an active membership; a taken id is tried again with the
next of the drawn ids. -/
def joinActive (t : Admissions) (organizationId examId candidateId : String) (joinedAt : Int) :
    List String → Result (ExamAdmissionRecord × Admissions)
  | [] => .error (.error "exam_admissions: joinActive did not converge")
  | id :: ids =>
    match findActive t organizationId examId candidateId with
    | some existing => pure (existing, t)
    | none =>
      if (t.get id).isSome then joinActive t organizationId examId candidateId joinedAt ids
      else
        let row := newMembership organizationId examId candidateId joinedAt id
        pure (row, t.put row)

def earliest : List Int → Option Int
  | [] => none
  | t :: ts =>
    match earliest ts with
    | none => some t
    | some u => some (if u < t then u else t)

def earliestJoinedAt (t : Admissions) (organizationId examId : String) : Option Int :=
  earliest ((t.rows.filter (ofExam organizationId examId)).map (·.joinedAt))

def isAhead (joinedAt : Int) (id : String) (r : ExamAdmissionRecord) : Bool :=
  r.joinedAt < joinedAt ∨ (r.joinedAt = joinedAt ∧ r.id < id)

def countAllAhead (t : Admissions) (organizationId examId : String) (joinedAt : Int) (id : String) :
    Nat :=
  t.rows.countP fun r => ofExam organizationId examId r && isAhead joinedAt id r

def ExamAdmissionRecord.withAdmittedAt (r : ExamAdmissionRecord) (admittedAt : Int) :
    ExamAdmissionRecord :=
  { r with admittedAt := some admittedAt }

def admitOnce (t : Admissions) (id : String) (admittedAt : Int) :
    Option ExamAdmissionRecord × Admissions :=
  let hit (r : ExamAdmissionRecord) : Bool := r.id = id ∧ r.admittedAt = none
  ((t.rows.find? hit).map (·.withAdmittedAt admittedAt),
    t.update hit (·.withAdmittedAt admittedAt) fun _ => rfl)

def ExamAdmissionRecord.consume (r : ExamAdmissionRecord) (consumedAt : Int) (attemptId : String) :
    ExamAdmissionRecord :=
  { r with consumedAt := some consumedAt, consumedAttemptId := some attemptId }

theorem consume_id (consumedAt : Int) (attemptId : String) (r : ExamAdmissionRecord) :
    (r.consume consumedAt attemptId).id = r.id := rfl

def consumeActive (t : Admissions) (organizationId examId candidateId : String) (consumedAt : Int)
    (attemptId : String) :
    Result (Option ExamAdmissionRecord × Admissions) := do
  let hit := activeOf organizationId examId candidateId
  require (∀ r ∈ t.rows, hit r = true → r.admittedAt.isSome)
    (.checkViolation "exam_admissions_admitted_before_consumed_check")
  pure ((t.rows.find? hit).map (·.consume consumedAt attemptId),
    t.update hit (·.consume consumedAt attemptId) (consume_id consumedAt attemptId))

/-! ## The release schedule -/

structure BatchRelease where
  releasedBatches : Int
  releasedCount : Int
  deriving DecidableEq, Repr

def elapsedSeconds (anchor now : Int) : Int :=
  let seconds := (now - anchor) / 1000
  if seconds < 0 then 0 else seconds

def computeBatchRelease (anchor : Option Int) (now batchSize batchIntervalSeconds : Int) :
    BatchRelease :=
  match anchor with
  | none => { releasedBatches := 0, releasedCount := 0 }
  | some anchor =>
    let releasedBatches := elapsedSeconds anchor now / batchIntervalSeconds + 1
    { releasedBatches := releasedBatches, releasedCount := releasedBatches * batchSize }

def computeBatchNumber (ordinal batchSize : Int) : Int := -(-ordinal / batchSize)

section
variable (organizationId : String) (exam : Exam)

def scheduleOrdinal (t : Admissions) (record : ExamAdmissionRecord) : Int :=
  countAllAhead t organizationId exam.id record.joinedAt record.id + 1

def joinAdmissionQueue (t : Admissions) (candidateId : String) (now : Int) (ids : List String) :
    Result (ExamAdmissionRecord × Admissions) :=
  joinActive t organizationId exam.id candidateId now ids

def released (t : Admissions) (now : Int) : BatchRelease :=
  computeBatchRelease (earliestJoinedAt t organizationId exam.id) now exam.controlFlags.batchSize
    exam.controlFlags.batchInterval

def reconcileAdmission (t : Admissions) (candidateId : String) (now : Int) :
    Option ExamAdmissionRecord × Admissions :=
  match findActive t organizationId exam.id candidateId with
  | none => (none, t)
  | some active =>
    if active.admittedAt.isSome then (some active, t)
    else
      let batchNumber :=
        computeBatchNumber (scheduleOrdinal organizationId exam t active) exam.controlFlags.batchSize
      if (released organizationId exam t now).releasedBatches < batchNumber then (some active, t)
      else
        let (admitted, t) := admitOnce t active.id now
        (some (admitted.getD active), t)

def ensureStartAdmission (t : Admissions) (candidateId : String) (now : Int) :
    Result (ExamAdmissionRecord × Admissions) := do
  let (admitted, t) := reconcileAdmission organizationId exam t candidateId now
  let admitted ← orThrow admitted .queueAdmissionRequired
  require admitted.admittedAt.isSome .queueAdmissionRequired
  pure (admitted, t)

end

/-! ## One step -/

inductive AdmissionOp
  | join (candidateId : String) (now : Int) (ids : List String)
  | reconcile (candidateId : String) (now : Int)
  | consume (candidateId : String) (consumedAt : Int) (attemptId : String)
  deriving DecidableEq, Repr

def AdmissionOp.step (organizationId : String) (exam : Exam) (op : AdmissionOp) (t : Admissions) :
    Result (Unit × Admissions) :=
  match op with
  | .join candidateId now ids => do
    let (_, t) ← joinAdmissionQueue organizationId exam t candidateId now ids
    pure ((), t)
  | .reconcile candidateId now =>
    pure ((), (reconcileAdmission organizationId exam t candidateId now).2)
  | .consume candidateId consumedAt attemptId => do
    let (_, t) ← consumeActive t organizationId exam.id candidateId consumedAt attemptId
    pure ((), t)

end ExamSystem.Admission
