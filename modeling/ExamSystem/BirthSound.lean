import ExamSystem.PublishSound
import ExamSystem.StartSound

/-!
# New attempts have time

Under a valid policy with a positive duration a new attempt ends after its
start, and the candidate can hand it in before that.
-/

namespace ExamSystem

open Tx

/-! ## The timing of a valid policy -/

/-- Under a valid policy a deadline of the attempt comes with a close of the
exam, and is its own duration. -/
theorem validPolicy_startDeadline {exam : Exam}
    (h : validateExamPolicy (resolveExamPolicy exam) = []) {now : Int} {syncDeadline : Option Int} :
    (startDeadline exam now syncDeadline = none) ∨
      ∃ minutes close, exam.durationMinutes = some minutes ∧ exam.closeAt = some close ∧
        startDeadline exam now syncDeadline = some (calculateDeadlineAt now minutes) := by
  have hmatrix := validPolicy_matrix h
  unfold validateTimingModeMatrix resolveExamPolicy at hmatrix
  unfold startDeadline
  cases hmode : exam.timingMode with
  | timedSync => simp [hmode, timingModeInvalid] at hmatrix
  | deadline => exact .inl rfl
  | untimed => exact .inl rfl
  | timedWindow =>
    simp only [hmode] at hmatrix
    cases hduration : exam.durationMinutes with
    | none => exact .inl rfl
    | some minutes =>
      cases hclose : exam.closeAt with
      | none => simp [hduration, hclose, timingModeInvalid] at hmatrix
      | some close => exact .inr ⟨minutes, close, rfl, rfl, rfl⟩

theorem checkStartWindow_ok {exam : Exam} {now : Int} {syncDeadline : Option Int}
    (h : checkStartWindow exam now = .ok syncDeadline) :
    (exam.status = .published ∨ exam.status = .open) ∧ exam.openAt ≤ now ∧ ∀ close ∈ exam.closeAt,
      now < close := by
  simp only [checkStartWindow, bind_eq_ok, require_eq_ok, exists_const] at h
  exact ⟨h.1, h.2.1⟩

/-- The effective deadline of a new attempt is after its start. -/
theorem birth_deadline {exam : Exam} (h : validateExamPolicy (resolveExamPolicy exam) = [])
    (hduration : ∀ minutes ∈ exam.durationMinutes, 0 < minutes) {now : Int} {syncDeadline : Option Int}
    (hwindow : checkStartWindow exam now = .ok syncDeadline) :
    ∃ deadline, computeEffectiveDeadline exam.closeAt (startDeadline exam now syncDeadline) =
      .ok deadline ∧ ∀ d ∈ deadline, now < d := by
  obtain ⟨-, -, hopen⟩ := checkStartWindow_ok hwindow
  rcases validPolicy_startDeadline h with hnone | ⟨minutes, close, hminutes, hclose, hsome⟩
  · rw [hnone]
    cases hclose : exam.closeAt with
    | none => exact ⟨none, rfl, by simp⟩
    | some close => exact ⟨some close, rfl, fun d hd => hopen d (hclose ▸ hd)⟩
  · rw [hsome, hclose]
    have hpos := hduration minutes hminutes
    have hlt := hopen close hclose
    refine ⟨_, rfl, fun d hd => ?_⟩
    obtain rfl := Option.some.inj hd
    unfold calculateDeadlineAt
    split <;> omega

/-! ## The first instant of a submit -/

/-- The first instant, from the start on, at which the minimum time is over. -/
def earliestSubmit (exam : Exam) (now : Int) : Int :=
  match exam.minSubmitAfterStartMinutes with
  | none => now
  | some minutes => max now (calculateDeadlineAt now minutes)

theorem earliestSubmit_before {exam : Exam} {now : Int} {deadlineAt deadline : Option Int}
    (hfeasible : checkSubmitFeasible exam now deadlineAt = .ok ())
    (heffective : computeEffectiveDeadline exam.closeAt deadlineAt = .ok deadline)
    (hnow : ∀ d ∈ deadline, now < d) :
    ∀ d ∈ deadline, earliestSubmit exam now < d := by
  intro d hd
  have hlt := hnow d hd
  obtain rfl : deadline = some d := hd
  unfold checkSubmitFeasible at hfeasible
  unfold earliestSubmit
  cases hmin : exam.minSubmitAfterStartMinutes with
  | none => exact hlt
  | some minutes =>
    simp only [hmin, heffective, ok_bind, require_eq_ok] at hfeasible
    exact max_lt hlt hfeasible

section
variable [Host]

/-- With nothing left to refuse it, a submit writes the frozen row and its workset. -/
theorem submitAttempt_guarded {db : Db} {a : ExamAttempt} {now : Int} {opts : SubmitOptions}
    (ha : db.findAttempt a.id = some a) (hs : a.status = .inProgress) (hres : opts.resolution = .none)
    (hguard : minSubmitGuard a now opts = .ok ()) (hnone : db.entriesOf a.id = []) :
    submitAttempt db a.id now opts =
      (materializeGradingWorkset (db.updateAttempt a.id (·.submittedRow now opts.submissionReason))
        (a.submittedRow now opts.submissionReason) >>= fun db' =>
          pure (a.submittedRow now opts.submissionReason, db')) := by
  have hresolve : resolveActiveInterruptionOnTerminalization db a opts.resolution now = .ok db := by
    rw [hres]
    simp [resolveActiveInterruptionOnTerminalization, require, hs, ok_bind, pure, Except.pure]
  simp only [submitAttempt, ha, orThrow, ok_bind, hresolve]
  rw [if_neg (by rw [hs]; decide), require_true (by rw [hs]; decide), ok_bind, hguard, ok_bind,
    require_true hnone, ok_bind]

/-- A start that reports a new attempt has created it. -/
theorem start_creates {db db' : Db} {input : StartAttemptInput} {r : StartAttemptResult}
    (h : startOrRestoreAttempt db input = .ok (r, db')) (hnew : r.isNew = true) :
    ∃ syncDeadline, checkStartWindow db.exam input.now = .ok syncDeadline ∧ Creates db r.attempt input ∧
      r.attempt.deadlineAt = startDeadline db.exam input.now syncDeadline ∧
      checkSubmitFeasible db.exam input.now r.attempt.deadlineAt = .ok () ∧
      db' = db.create r.attempt := by
  cases hactive : db.findActiveByEnrollment db.enrollment.id with
  | some active => simp [(start_active hactive h).1] at hnew
  | none =>
    simp only [startOrRestoreAttempt, bind_eq_ok, orThrow_eq_ok] at h
    obtain ⟨exam, hexam, syncDeadline, hwindow, enrollment, henr, h⟩ := h
    obtain ⟨hid, rfl⟩ := Db.findExam_eq_some.mp hexam
    obtain ⟨he, hc, rfl⟩ := Db.findEnrollment_eq_some.mp henr
    simp only [hactive] at h
    obtain ⟨hcreates, -, htimed, hfeasible, rfl⟩ := createNewAttempt_ok h hactive hid ⟨he, hc⟩
    exact ⟨syncDeadline, hwindow, hcreates, htimed.deadline, hfeasible, rfl⟩

/-- The submit route passes every guard at `t`: what is left of it is to freeze
the attempt with its workset, and to grade it. -/
def SubmitPasses (db : Db) (a : ExamAttempt) (t : Int) : Prop :=
  submitAndGradeAttempt db a.id a.candidateId t = do
    let db' ← materializeGradingWorkset (db.updateAttempt a.id (·.submittedRow t none))
      (a.submittedRow t none)
    gradeAfterSubmit db' { enrollmentId := db.enrollment.id, attemptId := a.id } t

/-- Before the deadline the reconciliation leaves the attempt alone. -/
theorem reconcile_running {db : Db} {a : ExamAttempt} (cap : LockedEnrollmentAttemptIdentity)
    {now : Int} {deadline : Option Int} (resolution : SubmitInterruptionResolution)
    (ha : db.findAttempt cap.attemptId = some a) (hexam : db.exam.id = a.examId)
    (heffective : computeEffectiveDeadline db.exam.closeAt a.deadlineAt = .ok deadline)
    (hbefore : ∀ d ∈ deadline, now < d) :
    ensureAttemptDeadlineReconciled db cap now resolution = .ok (a, db) := by
  have hfound : db.findExam a.examId = some db.exam := Db.findExam_eq_some.mpr ⟨hexam, rfl⟩
  have hrunning : isAttemptDeadlineExpired db.exam.closeAt a.deadlineAt now = .ok false := by
    rw [isAttemptDeadlineExpired, heffective, ok_bind, pure_eq_ok, Option.any_eq_false]
    intro d hd
    exact decide_eq_false (not_le.mpr (hbefore d hd))
  simp only [ensureAttemptDeadlineReconciled, ha, orThrow, ok_bind, hfound, hrunning]
  split
  · rfl
  · rfl

/-- Before its deadline, and from the earliest submit on, an attempt in progress can be handed in. -/
theorem submit_passes {db : Db} (hreach : Reachable db) {a : ExamAttempt} {t start : Int}
    {deadline : Option Int} (ha : db.findAttempt a.id = some a) (hs : a.status = .inProgress)
    (hexam : db.exam.id = a.examId) (hstart : a.startedAt = some start)
    (heffective : computeEffectiveDeadline db.exam.closeAt a.deadlineAt = .ok deadline)
    (hbefore : ∀ d ∈ deadline, t < d) (hafter : earliestSubmit db.exam start ≤ t) :
    SubmitPasses db a t := by
  have hfound : db.findExam a.examId = some db.exam := Db.findExam_eq_some.mpr ⟨hexam, rfl⟩
  have hresolution : buildResolution a "candidate_submit_terminalization" = .none := by
    simp [buildResolution, hs]
  have hguard : minSubmitGuard a t
      { source := some .candidate, submissionReason := none
        minSubmitAfterStartMinutes := db.exam.minSubmitAfterStartMinutes
        resolution := .none } = .ok () := by
    unfold earliestSubmit at hafter
    cases hmin : db.exam.minSubmitAfterStartMinutes with
    | none => rfl
    | some minutes =>
      simp only [hmin, max_le_iff, calculateDeadlineAt] at hafter
      simp only [minSubmitGuard, hstart, require_eq_ok]
      omega
  have hreconcile := reconcile_running
    { enrollmentId := db.enrollment.id, attemptId := a.id } .none ha hexam heffective
    hbefore
  unfold SubmitPasses
  simp only [submitAndGradeAttempt, (hreach.locks ha).2, ok_bind, ha, orThrow, require_true]
  rw [hs]
  simp only [hresolution, hreconcile, ok_bind, hs, hfound, Option.bind_some]
  rw [if_neg (by decide),
    submitAttempt_guarded ha hs rfl hguard (hreach.unmaterialized ha (.inl hs)), bind_assoc]
  rfl

/-- Under a valid policy whose duration, if it has one, is positive, a new
attempt ends after its start, and at some instant between, no earlier than the
minimum time, the candidate's submit passes every guard. -/
theorem born_alive (db : Db) (hreach : Reachable db)
    (hpolicy : validateExamPolicy (resolveExamPolicy db.exam) = [])
    (hduration : ∀ minutes ∈ db.exam.durationMinutes, 0 < minutes) (input : StartAttemptInput)
    (r : StartAttemptResult) (db' : Db) (h : startOrRestoreAttempt db input = .ok (r, db'))
    (hnew : r.isNew = true) :
    r.attempt.startedAt = some input.now ∧
    ∃ deadline, computeEffectiveDeadline db'.exam.closeAt r.attempt.deadlineAt = .ok deadline ∧
      (∀ d ∈ deadline, input.now < d) ∧
      ∃ t, input.now ≤ t ∧ (∀ d ∈ deadline, t < d) ∧
        (∀ minutes ∈ db'.exam.minSubmitAfterStartMinutes, input.now + minutes * 60000 ≤ t) ∧
        SubmitPasses db' r.attempt t := by
  obtain ⟨syncDeadline, hwindow, hcreates, hdeadline, hfeasible, rfl⟩ := start_creates h hnew
  obtain ⟨deadline, heffective, hnow⟩ := birth_deadline hpolicy hduration hwindow
  rw [← hdeadline] at heffective
  have hbefore := earliestSubmit_before hfeasible heffective hnow
  obtain ⟨deadlineAt, snapshot, hrow⟩ := hcreates.row
  have hstart : r.attempt.startedAt = some input.now := by rw [hrow]; rfl
  have hs : r.attempt.status = .inProgress := by rw [hrow]; rfl
  have hfound : (db.create r.attempt).findAttempt r.attempt.id = some r.attempt :=
    (Db.findAttempt_append hcreates.fresh r.attempt.id).trans (if_pos rfl)
  have hquiet : Quiet input.now db (db.create r.attempt) := .create hcreates
  have hafter : Reachable (db.create r.attempt) := hreach.changes (.single hquiet)
  refine ⟨hstart, deadline, heffective, hnow, earliestSubmit db.exam input.now, ?_, hbefore, ?_, ?_⟩
  · unfold earliestSubmit
    split
    · exact le_refl _
    · exact le_max_left _ _
  · intro minutes hmin
    change db.exam.minSubmitAfterStartMinutes = some minutes at hmin
    simp only [earliestSubmit, hmin, calculateDeadlineAt]
    omega
  · exact submit_passes hafter hfound hs hcreates.exam hstart heffective hbefore (le_refl _)

end

/-! ## Sample starts -/

/-- An assigned candidate and an exam with the given duration and minimum time. -/
def sampleAssigned (durationMinutes minSubmitAfterStartMinutes : Option Int) : Db :=
  { sampleInitial with
    exam :=
      { sampleExam with
        durationMinutes := durationMinutes
        minSubmitAfterStartMinutes := minSubmitAfterStartMinutes } }

theorem sampleAssigned_reachable (durationMinutes minSubmitAfterStartMinutes : Option Int) :
    @Reachable sampleHost (sampleAssigned durationMinutes minSubmitAfterStartMinutes) :=
  @Initial.reachable sampleHost _ ⟨rfl, rfl, rfl, rfl, rfl, rfl, rfl, rfl, ⟨rfl, rfl, rfl⟩⟩

def sampleArrival (now : Int) : StartAttemptInput :=
  { examId := "exam", candidateId := "candidate", now := now, freshAttemptId := "attempt"
    freshAdjustment := { id := "", operationId := "" }, draws := [], admission := none }

/-- The validator accepts a duration of zero, and the attempt is over at its start. -/
theorem born_dead :
    @Reachable sampleHost (sampleAssigned (some 0) none) ∧
    validateExamPolicy (resolveExamPolicy (sampleAssigned (some 0) none).exam) = [] ∧
    ∃ r db', @startOrRestoreAttempt sampleHost (sampleAssigned (some 0) none)
      (sampleArrival 1000) = .ok (r, db') ∧ r.isNew = true ∧ r.attempt.startedAt = some 1000 ∧
      computeEffectiveDeadline db'.exam.closeAt r.attempt.deadlineAt = .ok (some 1000) :=
  ⟨sampleAssigned_reachable _ _, by decide +kernel, _, _, rfl, rfl, rfl, rfl⟩

/-- A start eight minutes before the close, with a minimum of seven. -/
theorem born_alive_sample :
    ∃ r db', @startOrRestoreAttempt sampleHost (sampleAssigned (some 60) (some 7))
      (sampleArrival 120000) = .ok (r, db') ∧
      ∃ t, t < 600000 ∧ @SubmitPasses sampleHost db' r.attempt t := by
  obtain ⟨-, deadline, heffective, -, t, -, hbefore, -, hpasses⟩ :=
    @born_alive sampleHost (sampleAssigned (some 60) (some 7)) (sampleAssigned_reachable _ _)
      (by decide +kernel)
      (by decide) (sampleArrival 120000) _ _ rfl rfl
  obtain rfl := Except.ok.inj heffective
  exact ⟨_, _, rfl, t, hbefore 600000 rfl, hpasses⟩

end ExamSystem
