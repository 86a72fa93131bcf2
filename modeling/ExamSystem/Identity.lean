import ExamSystem.AttemptRows
import ExamSystem.Progress

/-!
# What every run keeps

The identities of the exam, the enrollment and the attempts, and the ledger as
a prefix. A lock that was taken once can be taken again.
-/

namespace ExamSystem

open Tx

/-- The row `a'` is of the same sitting as `a`. -/
structure SameSitting (a a' : ExamAttempt) : Prop where
  exam : a'.examId = a.examId
  enrollment : a'.enrollmentId = a.enrollmentId
  candidate : a'.candidateId = a.candidateId

theorem SameSitting.refl (a : ExamAttempt) : SameSitting a a := ⟨rfl, rfl, rfl⟩

theorem SameSitting.trans {a b c : ExamAttempt} (h : SameSitting a b) (h' : SameSitting b c) :
    SameSitting a c :=
  ⟨h'.exam.trans h.exam, h'.enrollment.trans h.enrollment, h'.candidate.trans h.candidate⟩

structure Remains (db db' : Db) : Prop where
  exam : db'.exam.id = db.exam.id
  enrollment : db'.enrollment.id = db.enrollment.id
  enrollmentExam : db'.enrollment.examId = db.enrollment.examId
  enrollmentCandidate : db'.enrollment.candidateId = db.enrollment.candidateId
  ledger : db.timeAdjustments <+: db'.timeAdjustments
  attempts : ∀ attemptId a, db.findAttempt attemptId = some a →
    ∃ a', db'.findAttempt attemptId = some a' ∧ SameSitting a a'

theorem Remains.refl (db : Db) : Remains db db :=
  ⟨rfl, rfl, rfl, rfl, List.prefix_refl _, fun _ a ha => ⟨a, ha, .refl a⟩⟩

theorem Remains.trans (db db' db'' : Db) (h : Remains db db') (h' : Remains db' db'') :
    Remains db db'' := by
  refine ⟨h'.exam.trans h.exam, h'.enrollment.trans h.enrollment,
    h'.enrollmentExam.trans h.enrollmentExam,
    h'.enrollmentCandidate.trans h.enrollmentCandidate, h.ledger.trans h'.ledger, ?_⟩
  intro attemptId a ha
  obtain ⟨b, hb, hab⟩ := h.attempts attemptId a ha
  obtain ⟨c, hc, hbc⟩ := h'.attempts attemptId b hb
  exact ⟨c, hc, hab.trans hbc⟩

/-- A projection writes the status and the final result only. -/
theorem project_identity (e : ExamEnrollment) (strategy : ScoreStrategy) (target : EnrollmentStatus)
    (attemptId : String) (score : ℚ) (passed : Bool) :
    (e.project strategy target attemptId score passed).id = e.id ∧
      (e.project strategy target attemptId score passed).examId = e.examId ∧
      (e.project strategy target attemptId score passed).candidateId = e.candidateId ∧
      (e.project strategy target attemptId score passed).attemptCount = e.attemptCount ∧
      (e.project strategy target attemptId score passed).status = target := by
  unfold ExamEnrollment.project
  split <;> exact ⟨rfl, rfl, rfl, rfl, rfl⟩

section
variable [Host] {now : Int} {db db' : Db}

theorem RowStep.sameSitting {a a' : ExamAttempt} (h : RowStep now db db' a a') : SameSitting a a' := by
  cases h <;> exact ⟨rfl, rfl, rfl⟩

theorem Change.remains (h : Change now db db') : Remains db db' := by
  have hrows : ∀ attemptId a, db.findAttempt attemptId = some a →
      ∃ a', db'.findAttempt attemptId = some a' ∧ SameSitting a a' := by
    intro attemptId a ha
    obtain ⟨a', ha', hstep⟩ := h.row ha
    exact ⟨a', ha', hstep.sameSitting⟩
  cases h with
  | adjust _ => exact ⟨rfl, rfl, rfl, rfl, List.prefix_append _ _, hrows⟩
  | examWrite hid => exact ⟨hid, rfl, rfl, rfl, List.prefix_refl _, hrows⟩
  | quiet hq =>
    cases hq with
    | @close a aggregated hc =>
      obtain ⟨hid, hexam, hcandidate, -, -⟩ := project_identity db.enrollment db.exam.scoreStrategy
        (enrollmentTarget db.exam db.enrollment aggregated.passed now) a.id aggregated.totalScore
          aggregated.passed
      exact ⟨rfl, hid, hexam, hcandidate, List.prefix_refl _, hrows⟩
    | _ => exact ⟨rfl, rfl, rfl, rfl, List.prefix_refl _, hrows⟩

theorem run_remains (cs : List Command) (db : Db) : Remains db (run Command.step db cs) :=
  closure_relation (P := fun _ => True) Remains.refl Remains.trans (fun _ _ _ _ => trivial)
    (fun _ _ _ hc => hc.elim fun _ h => h.remains) (run_changes cs db) trivial

end

/-! ## Locks and lookups -/

section
variable {db db' : Db}

theorem Remains.locks (h : Remains db db') {attemptId : String}
    {cap : LockedEnrollmentAttemptIdentity}
    (hlock : lockEnrollmentAndAttempt db attemptId = .ok cap) :
    lockEnrollmentAndAttempt db' attemptId = .ok cap := by
  rw [lock_eq_ok] at hlock ⊢
  obtain ⟨a, rfl, hl, hid⟩ := hlock
  obtain ⟨a', ha', hsame⟩ := h.attempts a.id a hl.found
  have hida := Db.findAttempt_id ha'
  refine ⟨a', hida, ⟨hida ▸ ha', hl.attempt.trans hida.symm, hl.enrollment.trans h.enrollment.symm,
      ?_⟩, ?_⟩
  · exact ⟨h.enrollmentExam.trans (hl.belongs.1.trans hsame.exam.symm),
      h.enrollmentCandidate.trans (hl.belongs.2.trans hsame.candidate.symm)⟩
  · exact hsame.enrollment.trans (hid.trans h.enrollment.symm)

theorem Remains.findExam (h : Remains db db') {examId : String} (hexam : (db.findExam examId).isSome) :
    db'.findExam examId = some db'.exam := by
  obtain ⟨exam, hfind⟩ := Option.isSome_iff_exists.mp hexam
  obtain ⟨hid, -⟩ := Db.findExam_eq_some.mp hfind
  exact Db.findExam_eq_some.mpr ⟨h.exam.trans hid, rfl⟩

theorem Remains.findByOperationId (h : Remains db db') {operationId : String}
    {row : AttemptTimeAdjustment} (hrow : db.findByOperationId operationId = some row) :
    db'.findByOperationId operationId = some row :=
  h.ledger.find?_eq_some hrow

theorem Remains.findAdjustment (h : Remains db db') {adjustmentId : String}
    {row : AttemptTimeAdjustment} (hrow : db.findAdjustment adjustmentId = some row) :
    db'.findAdjustment adjustmentId = some row :=
  h.ledger.find?_eq_some hrow

end

end ExamSystem
