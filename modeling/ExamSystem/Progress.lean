import ExamSystem.CommandsSound

/-!
# When commands succeed

The converse of the success lemmas: a submit freezes and a terminal grading
closes whenever the facts behind the write hold.
-/

namespace ExamSystem

open Tx

/-- The Enrollment → Attempt lock on an attempt of the store's enrollment. -/
structure Locks (db : Db) (cap : LockedEnrollmentAttemptIdentity) (a : ExamAttempt) : Prop where
  found : db.findAttempt a.id = some a
  attempt : cap.attemptId = a.id
  enrollment : cap.enrollmentId = db.enrollment.id
  belongs : Belongs db a

theorem lock_eq_ok {db : Db} {attemptId : String} {cap : LockedEnrollmentAttemptIdentity} :
    lockEnrollmentAndAttempt db attemptId = .ok cap ↔
      ∃ a, a.id = attemptId ∧ Locks db cap a ∧ a.enrollmentId = db.enrollment.id := by
  simp only [lockEnrollmentAndAttempt, bind_eq_ok, orThrow_eq_ok, require_eq_ok, exists_const,
    pure_eq_ok]
  constructor
  · rintro ⟨a, ha, e, he, hid, rfl⟩
    obtain ⟨hexam, hcand, rfl⟩ := Db.findEnrollment_eq_some.mp he
    have haid := Db.findAttempt_id ha
    exact ⟨a, haid, ⟨haid ▸ ha, haid.symm, rfl, hexam, hcand⟩, hid.symm⟩
  · rintro ⟨a, rfl, h, hid⟩
    refine ⟨a, h.found, db.enrollment, Db.findEnrollment_eq_some.mpr ⟨h.belongs.1, h.belongs.2,
        rfl⟩, hid.symm, ?_⟩
    cases cap
    simp only [h.enrollment.symm, h.attempt.symm]

theorem lock_attemptId {db : Db} {attemptId : String} {cap : LockedEnrollmentAttemptIdentity}
    (h : lockEnrollmentAndAttempt db attemptId = .ok cap) : cap.attemptId = attemptId := by
  obtain ⟨a, rfl, hlocks, -⟩ := lock_eq_ok.mp h
  exact hlocks.attempt

/-! ## Submission -/

section
variable [Host]

structure CanFreeze (db : Db) (a : ExamAttempt) : Prop where
  unmaterialized : db.entriesOf a.id = []
  checks : ∀ e ∈ a.workset, Db.entryChecks e = .ok ()
  distinct : (a.questionSnapshot.map (·.originalQuestionId)).Nodup

/-- Behind its guards a submit writes the frozen row and the workset. -/
theorem submitAttempt_progress {db db₁ : Db} {a : ExamAttempt} {now : Int} {opts : SubmitOptions}
    (ha : db.findAttempt a.id = some a) (hs : a.status = .inProgress ∨ a.status = .disrupted)
    (hres : resolveActiveInterruptionOnTerminalization db a opts.resolution now = .ok db₁)
    (hguard : minSubmitGuard a now opts = .ok ()) (hf : CanFreeze db₁ a) :
    submitAttempt db a.id now opts =
      .ok (a.submittedRow now opts.submissionReason,
        { db₁.updateAttempt a.id (·.submittedRow now opts.submissionReason) with
          gradingEntries := db₁.gradingEntries ++ a.workset }) := by
  have hactive : (transition a.status .submit).isSome := transition_submit.mpr hs
  have hopen : ¬ (a.status = .submitted ∨ a.status = .graded) := by
    rcases hs with hs | hs <;> simp [hs]
  have hnone : (db₁.updateAttempt a.id (·.submittedRow now opts.submissionReason)).entriesOf a.id =
    [] := hf.unmaterialized
  have hmat : materializeGradingWorkset _ (a.submittedRow now opts.submissionReason) = .ok _ :=
    (materialize_eq_ok hnone).mpr ⟨hf.checks, hf.distinct, rfl⟩
  simp only [submitAttempt, ha, orThrow_some, ok_bind, hres, if_neg hopen, require_true hactive, hguard,
    hf.unmaterialized, require_true, hmat]
  rfl

/-- A submit of an attempt in progress freezes it exactly when the barrier allows. -/
theorem submitAttempt_eq_ok {db db' : Db} {a s : ExamAttempt} {now : Int} {opts : SubmitOptions}
    (ha : db.findAttempt a.id = some a) (hs : a.status = .inProgress) (hres : opts.resolution = .none)
    (hguard : minSubmitGuard a now opts = .ok ()) :
    submitAttempt db a.id now opts = .ok (s, db') ↔
      CanFreeze db a ∧ s = a.submittedRow now opts.submissionReason ∧
      db' = db.freeze a now opts.submissionReason [] := by
  constructor
  · intro h
    obtain ⟨b, hb, hsub⟩ := submitAttempt_ok h
    obtain rfl : a = b := Option.some.inj (ha.symm.trans hb)
    rcases hsub with ⟨hdone, -, -⟩ | ⟨events, hf, -, rfl, rfl⟩
    · rcases hdone with hd | hd <;> rw [hs] at hd <;> cases hd
    · refine ⟨⟨hf.unmaterialized, hf.checks, hf.distinct⟩, rfl, ?_⟩
      cases hf.events with
      | inProgress _ => rfl
      | disrupted hd _ _ => rw [hs] at hd; cases hd
  · rintro ⟨hf, rfl, rfl⟩
    have hresolve : resolveActiveInterruptionOnTerminalization db a opts.resolution now = .ok db := by
      simp [resolveActiveInterruptionOnTerminalization, hres, hs, require, pure, Except.pure]
    rw [submitAttempt_progress ha (.inl hs) hresolve hguard hf]
    simp [Db.freeze, Db.updateAttempt]

end

/-! ## Terminal grading -/

section
variable {db : Db} {cap : LockedEnrollmentAttemptIdentity} {a : ExamAttempt}
    {aggregated : GradingEntryAggregate} {now : Int}

theorem finalizeTerminalGrading_progress [Host] (h : Closes db a aggregated now)
    (hcap : Locks db cap a) :
    finalizeTerminalGrading db cap db.exam now = .ok (true, db.close a aggregated now) := by
  have henrollment : (db.updateAttempt a.id (·.gradedRow aggregated now)).findEnrollment a.examId
      a.candidateId =
      some db.enrollment := Db.findEnrollment_eq_some.mpr ⟨h.belongs.1, h.belongs.2, rfl⟩
  simp only [finalizeTerminalGrading, hcap.attempt, h.found, orThrow_some, ok_bind, h.submitted,
    transition, Option.isSome_some, require_true, h.aggregate, henrollment, hcap.enrollment]
  rcases h.allowed with heq | hmem
  · simp only [heq, ne_eq, not_true, if_false]
    rfl
  · by_cases heq : db.enrollment.status = enrollmentTarget db.exam db.enrollment aggregated.passed now
    · simp only [heq, ne_eq, not_true, if_false]
      rfl
    · simp only [ne_eq, heq, not_false_eq_true, if_true, assertEnrollmentTransition,
        require_true hmem, ok_bind]
      rfl

theorem finalizeGrading_progress [Host] (h : Closes db a aggregated now) (hcap : Locks db cap a)
    (hheld : a.gradingStatus ≠ some .pendingManual) :
    finalizeGrading db cap db.exam now = .ok (true, db.close a aggregated now) := by
  have hopen : ¬ a.status = .graded := by simp [h.submitted]
  simp only [finalizeGrading, hcap.attempt, h.found, orThrow_some, ok_bind, hopen, if_false,
    require_true hheld, finalizeTerminalGrading_progress h hcap]

theorem readGradingSnapshot_progress (hcap : Locks db cap a) (hexam : db.exam.id = a.examId) :
    readGradingSnapshot db a.id = .ok (some
      { attempt := a, exam := db.exam, enrollment := db.enrollment }) := by
  have hfind : db.findExam a.examId = some db.exam := Db.findExam_eq_some.mpr ⟨hexam, rfl⟩
  have henrollment : db.findEnrollment a.examId a.candidateId = some db.enrollment :=
    Db.findEnrollment_eq_some.mpr ⟨hcap.belongs.1, hcap.belongs.2, rfl⟩
  simp only [readGradingSnapshot, hcap.found, hfind, henrollment, orThrow_some, ok_bind]
  rfl

theorem gradeAttemptIdempotent_held [Host] (hcap : Locks db cap a) (hexam : db.exam.id = a.examId)
    (hs : a.status ≠ .graded) (hheld : a.gradingStatus = some .pendingManual) :
    ∃ r, gradeAttemptIdempotent db cap now = .ok (r, db) := by
  simp only [gradeAttemptIdempotent, hcap.attempt, readGradingSnapshot_progress hcap hexam,
    orThrow_some, ok_bind, if_neg hs, hheld, if_true]
  exact ⟨_, rfl⟩

theorem gradeAttemptIdempotent_progress [Host] (h : Closes db a aggregated now) (hcap : Locks db cap a)
    (hexam : db.exam.id = a.examId) (hheld : a.gradingStatus ≠ some .pendingManual) :
    ∃ r, gradeAttemptIdempotent db cap now = .ok (r, db.close a aggregated now) := by
  have hs : a.status ≠ .graded := by simp [h.submitted]
  have hrow : (db.close a aggregated now).findAttempt a.id = _ := findAttempt_close hcap.found
  simp only [gradeAttemptIdempotent, hcap.attempt, readGradingSnapshot_progress hcap hexam,
    orThrow_some, ok_bind, if_neg hs, if_neg hheld, finalizeGrading_progress h hcap hheld, hrow]
  exact ⟨_, rfl⟩

/-- The last manual score closes the attempt when its closure is allowed. -/
theorem gradeManualQuestion_progress [Host] {entry : AttemptGradingEntry} {score : ℚ}
    {comment graderId : String} (h : Scores db a entry score) (hcap : Locks db cap a)
    (hlast : (db.updateEntry a.id entry.questionId
          (·.complete score comment graderId now)).countPendingManual a.id = 0)
    (hc : Closes (db.updateEntry a.id entry.questionId (·.complete score comment graderId now)) a
        aggregated now) :
    ∃ r, gradeManualQuestion db cap entry.questionId score comment graderId now db.exam =
      .ok (r, (db.updateEntry a.id entry.questionId (·.complete score comment graderId now)).close a
          aggregated now) := by
  have hlocks : Locks (db.updateEntry a.id entry.questionId (·.complete score comment graderId now))
      cap a :=
    ⟨h.found, hcap.attempt, hcap.enrollment, hcap.belongs⟩
  have hfin := finalizeTerminalGrading_progress hc hlocks
  have hrow : ((db.updateEntry a.id entry.questionId (·.complete score comment graderId now)).close
      a aggregated now).findAttempt a.id = some _ := findAttempt_close hlocks.found
  have hmode : entry.gradingMode ≠ .auto := by simp [h.manual]
  simp only [gradeManualQuestion, hcap.attempt, h.found, orThrow_some, ok_bind,
    require_true h.submitted, require_true h.held, h.stored, require_true hmode,
    require_true h.pending, require_true h.bounds, hlast, if_true]
  rw [show db.exam = (db.updateEntry a.id entry.questionId
        (·.complete score comment graderId now)).exam from rfl, hfin]
  simp only [ok_bind, require_true, hrow, orThrow_some]
  exact ⟨_, rfl⟩

end

end ExamSystem
