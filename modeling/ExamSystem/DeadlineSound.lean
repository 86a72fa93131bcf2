import ExamSystem.FreezeSound
import ExamSystem.Progress

/-!
# The two deadline paths

An expired attempt is submitted inline, before the command at hand, or by the
sweep of the scanner, whichever comes first. The two leave the same attempt
exactly when the sweep runs at the effective deadline itself.
-/

namespace ExamSystem

open Tx

theorem freezeStatus_eq_pendingManual {questions : List QuestionSnapshot} :
    freezeStatus questions = .pendingManual ↔ requiresManualGrading questions = true := by
  unfold freezeStatus
  by_cases h : requiresManualGrading questions = true <;> simp [h]

theorem submittedRow_gradingStatus {a : ExamAttempt} {t : Int} {reason : Option SubmissionReason} :
    (a.submittedRow t reason).gradingStatus = some .pendingManual ↔
    requiresManualGrading a.questionSnapshot = true := by
  rw [← freezeStatus_eq_pendingManual]
  exact Option.some_inj

theorem buildResolution_inProgress {a : ExamAttempt} {reasonCode : String}
    (hs : a.status = .inProgress) :
    buildResolution a reasonCode = .none := by
  simp [buildResolution, hs]

def deadlineSubmit : SubmitOptions :=
  { source := some .deadlineScanner, submissionReason := some .deadline,
      minSubmitAfterStartMinutes := none
    resolution := .none }

section
variable [Host]

/-! ## What either path does -/

/-- A submission at `submittedAt` by the deadline, graded at `now` when nothing
waits for a grader. -/
inductive Terminalizes (db : Db) (a : ExamAttempt) (submittedAt now : Int) : Db → Prop
  | held (h : CanFreeze db a) (hm : requiresManualGrading a.questionSnapshot = true) :
      Terminalizes db a submittedAt now (db.freeze a submittedAt (some .deadline) [])
  | closed {aggregated : GradingEntryAggregate} (h : CanFreeze db a)
      (hm : requiresManualGrading a.questionSnapshot = false)
      (hc : Closes (db.freeze a submittedAt (some .deadline) [])
          (a.submittedRow submittedAt (some .deadline))
        aggregated now) :
      Terminalizes db a submittedAt now
        ((db.freeze a submittedAt (some .deadline) []).close
            (a.submittedRow submittedAt (some .deadline)) aggregated now)

theorem Locks.freeze {db : Db} {cap : LockedEnrollmentAttemptIdentity} {a : ExamAttempt}
    (h : Locks db cap a) (t : Int) (reason : Option SubmissionReason)
    (events : List AttemptInterruptionEvent) :
    Locks (db.freeze a t reason events) cap (a.submittedRow t reason) :=
  ⟨findAttempt_freeze h.found, h.attempt, h.enrollment, h.belongs⟩

section
variable {db db' : Db} {cap : LockedEnrollmentAttemptIdentity} {a : ExamAttempt} {d now : Int}
    {reasonCode : String}

theorem submitAttempt_deadline (hcap : Locks db cap a) (hs : a.status = .inProgress) {t : Int}
    {s : ExamAttempt} :
    submitAttempt db a.id t deadlineSubmit = .ok (s, db') ↔
      CanFreeze db a ∧ s = a.submittedRow t (some .deadline) ∧
        db' = db.freeze a t (some .deadline) [] :=
  submitAttempt_eq_ok hcap.found hs rfl rfl

/-- The inline path, past its guards. -/
theorem reconcile_expired (hcap : Locks db cap a) (hs : a.status = .inProgress)
    (h : ExpiredAt db a d now) :
    ensureAttemptDeadlineReconciled db cap now (buildResolution a reasonCode) = (do
      let (submittedAttempt, db) ← submitAttempt db a.id d deadlineSubmit
      if submittedAttempt.gradingStatus = some .pendingManual then pure (submittedAttempt, db)
      else
        let snapshot ← readGradingSnapshot db a.id
        let snapshot ← orThrow snapshot (.notFound "Attempt not found after reconciliation")
        let (_, db) ← finalizeGrading db cap snapshot.exam now
        let reconciled ← orThrow (db.findAttempt a.id)
          (.invalidStateTransition "Attempt disappeared after reconciliation")
        pure (reconciled, db)) := by
  have hactive : ¬ ¬ (a.status = .inProgress ∨ a.status = .disrupted) := not_not.mpr (.inl hs)
  have hexam : db.findExam a.examId = some db.exam := Db.findExam_eq_some.mpr ⟨h.exam, rfl⟩
  simp only [ensureAttemptDeadlineReconciled, hcap.attempt, hcap.found, orThrow_some, ok_bind,
    if_neg hactive, hexam, expired_true h.deadline h.due, Bool.true_eq_false, if_false, h.deadline,
      buildResolution_inProgress hs]
  rfl

/-- The sweep, past its guards. -/
theorem scan_expired (hcap : Locks db cap a) (hlock : lockEnrollmentAndAttempt db a.id = .ok cap)
    (hs : a.status = .inProgress) (h : ExpiredAt db a d now) :
    autoSubmitAndGrade db a.id now = (do
      let (_, db) ← submitAttempt db a.id now deadlineSubmit
      let (_, db) ← gradeAttemptIdempotent db cap now
      pure (true, db)) := by
  have hactive : ¬ ¬ (a.status = .inProgress ∨ a.status = .disrupted) := not_not.mpr (.inl hs)
  have hexam : db.findExam a.examId = some db.exam := Db.findExam_eq_some.mpr ⟨h.exam, rfl⟩
  simp only [autoSubmitAndGrade, hlock, hcap.found, ok_bind, if_neg hactive, hexam,
    expired_true h.deadline h.due, Bool.true_eq_false, if_false, buildResolution_inProgress hs]
  rfl

theorem reconcile_terminalizes (hcap : Locks db cap a) (hs : a.status = .inProgress)
    (h : ExpiredAt db a d now) :
    (∃ r, ensureAttemptDeadlineReconciled db cap now (buildResolution a reasonCode) = .ok (r, db')) ↔
      Terminalizes db a d now db' := by
  rw [reconcile_expired hcap hs h]
  have hfrozen := hcap.freeze d (some .deadline) []
  constructor
  · rintro ⟨r, hr⟩
    simp only [bind_eq_ok] at hr
    obtain ⟨⟨s, db₁⟩, hsub, hr⟩ := hr
    obtain ⟨hf, rfl, rfl⟩ := (submitAttempt_deadline hcap hs).mp hsub
    split at hr
    · rename_i hm
      simp only [pure_eq_ok, Prod.mk.injEq] at hr
      rw [← hr.2]
      exact .held hf (submittedRow_gradingStatus.mp hm)
    · rename_i hm
      have hauto := mt submittedRow_gradingStatus.mpr hm
      simp only [bind_eq_ok, orThrow_eq_ok, pure_eq_ok, Prod.mk.injEq] at hr
      obtain ⟨_, hread, snapshot, rfl, ⟨b, db₂⟩, hfin, _, -, -, rfl⟩ := hr
      rw [(readGradingSnapshot_ok hread).2] at hfin
      obtain ⟨a', ha', hfin⟩ := finalizeGrading_ok hfin
      rw [hfrozen.attempt, hfrozen.found] at ha'
      obtain rfl := Option.some.inj ha'
      rcases hfin with ⟨hg, -⟩ | ⟨-, aggregated, hc, rfl⟩
      · cases hg
      · exact .closed hf (Bool.eq_false_iff.mpr hauto) hc
  · intro ht
    cases ht with
    | held hf hm =>
      rw [(submitAttempt_deadline hcap hs).mpr ⟨hf, rfl, rfl⟩]
      simp only [ok_bind, if_pos (submittedRow_gradingStatus.mpr hm)]
      exact ⟨_, rfl⟩
    | @closed aggregated hf hm hc =>
      have hheld : (a.submittedRow d (some .deadline)).gradingStatus ≠ some .pendingManual := by
        rw [ne_eq, submittedRow_gradingStatus, hm]
        exact Bool.false_ne_true
      rw [(submitAttempt_deadline hcap hs).mpr ⟨hf, rfl, rfl⟩]
      simp only [ok_bind, if_neg hheld]
      have hread := readGradingSnapshot_progress hfrozen h.exam
      change readGradingSnapshot (db.freeze a d (some .deadline) []) a.id = _ at hread
      have hfin := finalizeGrading_progress hc hfrozen hheld
      have hrow : ((db.freeze a d (some .deadline) []).close
          (a.submittedRow d (some .deadline)) aggregated now).findAttempt a.id = some _ :=
        findAttempt_close (a := a.submittedRow d (some .deadline)) hfrozen.found
      simp only [hread, orThrow_some, ok_bind]
      rw [hfin]
      simp only [ok_bind, hrow, orThrow_some]
      exact ⟨_, rfl⟩

theorem scan_terminalizes (hcap : Locks db cap a) (hlock : lockEnrollmentAndAttempt db a.id = .ok cap)
    (hs : a.status = .inProgress) (h : ExpiredAt db a d now) :
    (∃ b, autoSubmitAndGrade db a.id now = .ok (b, db')) ↔ Terminalizes db a now now db' := by
  rw [scan_expired hcap hlock hs h]
  have hfrozen := hcap.freeze now (some .deadline) []
  constructor
  · rintro ⟨b, hb⟩
    simp only [bind_eq_ok, pure_eq_ok, Prod.mk.injEq] at hb
    obtain ⟨⟨s, db₁⟩, hsub, ⟨r, db₂⟩, hgrade, -, rfl⟩ := hb
    obtain ⟨hf, rfl, rfl⟩ := (submitAttempt_deadline hcap hs).mp hsub
    obtain ⟨a', ha', hgrade⟩ := gradeAttemptIdempotent_ok hgrade
    rw [hfrozen.attempt, hfrozen.found] at ha'
    obtain rfl := Option.some.inj ha'
    rcases hgrade with ⟨hg | hm, rfl⟩ | ⟨hm, aggregated, hc, rfl⟩
    · cases hg
    · exact .held hf (submittedRow_gradingStatus.mp hm)
    · exact .closed hf (Bool.eq_false_iff.mpr (mt submittedRow_gradingStatus.mpr hm)) hc
  · intro ht
    cases ht with
    | held hf hm =>
      rw [(submitAttempt_deadline hcap hs).mpr ⟨hf, rfl, rfl⟩]
      obtain ⟨r, hr⟩ : ∃ r, gradeAttemptIdempotent (db.freeze a now (some .deadline) []) cap now =
          .ok (r, _) :=
        gradeAttemptIdempotent_held hfrozen h.exam (by simp [ExamAttempt.submittedRow,
            ExamAttempt.freeze])
          (submittedRow_gradingStatus.mpr hm)
      simp only [ok_bind, hr]
      exact ⟨_, rfl⟩
    | @closed aggregated hf hm hc =>
      have hheld : (a.submittedRow now (some .deadline)).gradingStatus ≠ some .pendingManual := by
        rw [ne_eq, submittedRow_gradingStatus, hm]
        exact Bool.false_ne_true
      obtain ⟨r, hr⟩ := gradeAttemptIdempotent_progress hc hfrozen h.exam hheld
      rw [(submitAttempt_deadline hcap hs).mpr ⟨hf, rfl, rfl⟩]
      simp only [ok_bind, hr]
      exact ⟨_, rfl⟩

end

/-! ## The closure after a deadline freeze -/

/-- The enrollment allows the status that grading the frozen answers asks for. -/
def CanClose (db : Db) (a : ExamAttempt) (now : Int) : Prop :=
  EnrollmentAllows db.enrollment
    (enrollmentTarget db.exam db.enrollment (decide (db.exam.passingScore ≤ earnedTotal a.workset)) now)

theorem workset_terminal {a : ExamAttempt} (hchecks : ∀ e ∈ a.workset, Db.entryChecks e = .ok ())
    (hm : requiresManualGrading a.questionSnapshot = false) : ∀ e ∈ a.workset, Terminal e := by
  intro e he
  have hpos := (Db.entryChecks_eq_ok.mp (hchecks e he)).1
  obtain ⟨q, hq, rfl⟩ := List.mem_map.mp he
  have hshape := expectedEntry_shape (buildSubmittedAnswersSnapshot a.answers a.questionSnapshot) a.id q
  have hscore : 0 ≤ q.score := by
    rw [← show _ = q.score from congrArg (·.2.2) hshape]
    exact hpos
  have hauto : isManualGradedQuestion q = false := by
    simp only [requiresManualGrading, List.any_eq_false] at hm
    simpa [isManualGradedQuestion] using hm q hq
  exact (expectedEntry_fresh _ a.id hscore).1 hauto

theorem closes_freeze_iff {db : Db} {cap : LockedEnrollmentAttemptIdentity} {a : ExamAttempt}
    {t now : Int} (hcap : Locks db cap a) (hf : CanFreeze db a)
    (hm : requiresManualGrading a.questionSnapshot = false) :
    (∃ aggregated, Closes (db.freeze a t (some .deadline) []) (a.submittedRow t (some .deadline))
        aggregated now) ↔
      CanClose db a now := by
  have hentries : (db.freeze a t (some .deadline) []).entriesOf a.id = a.workset := by
    rw [entriesOf_freeze, hf.unmaterialized, if_pos rfl, List.nil_append]
  have hpassed : ∀ aggregated, aggregateGradingEntries (a.submittedRow t (some .deadline))
      ((db.freeze a t (some .deadline) []).entriesOf a.id) db.exam.passingScore = .ok aggregated →
      aggregated.passed = decide (db.exam.passingScore ≤ earnedTotal a.workset) := by
    intro aggregated h
    rw [hentries] at h
    exact (aggregate_totals (workset_shape a) hf.distinct h).2.2
  constructor
  · rintro ⟨aggregated, hc⟩
    have hallowed := hc.allowed
    rw [hpassed aggregated hc.aggregate] at hallowed
    exact hallowed
  · intro hallowed
    obtain ⟨aggregated, hagg⟩ : ∃ aggregated, aggregateGradingEntries
        (a.submittedRow t (some .deadline)) a.workset
          db.exam.passingScore = .ok aggregated :=
      (aggregate_eq_ok (workset_shape a) hf.distinct).mpr (workset_terminal hf.checks hm)
    rw [← hentries] at hagg
    refine ⟨aggregated, findAttempt_freeze hcap.found, rfl, hcap.belongs, hagg, ?_⟩
    rw [hpassed aggregated hagg]
    exact hallowed

theorem terminalizes_iff {db : Db} {cap : LockedEnrollmentAttemptIdentity} {a : ExamAttempt}
    {t now : Int} (hcap : Locks db cap a) :
    (∃ db', Terminalizes db a t now db') ↔
      CanFreeze db a ∧ (requiresManualGrading a.questionSnapshot = true ∨ CanClose db a now) := by
  constructor
  · rintro ⟨db', ht⟩
    cases ht with
    | held hf hm => exact ⟨hf, .inl hm⟩
    | closed hf hm hc => exact ⟨hf, .inr ((closes_freeze_iff hcap hf hm).mp ⟨_, hc⟩)⟩
  · rintro ⟨hf, hclose⟩
    cases hm : requiresManualGrading a.questionSnapshot with
    | true => exact ⟨_, .held hf hm⟩
    | false =>
      have hclose := hclose.resolve_left (by simp [hm])
      obtain ⟨aggregated, hc⟩ := (closes_freeze_iff (t := t) hcap hf hm).mpr hclose
      exact ⟨_, .closed hf hm hc⟩

/-! ## Agreement -/

/-- Both stores hold the attempt submitted at `d`, with the same frozen answers,
reason, entries and result. -/
def SameSubmittedAttempt (attemptId : String) (d : Int) (db₁ db₂ : Db) : Prop :=
  ∃ a₁ a₂, db₁.findAttempt attemptId = some a₁ ∧ db₂.findAttempt attemptId = some a₂ ∧
    a₁.submittedAt = some d ∧ a₂.submittedAt = some d ∧ a₁.status = a₂.status ∧
    a₁.submittedAnswers = a₂.submittedAnswers ∧ a₁.submissionReason = a₂.submissionReason ∧
    a₁.score = a₂.score ∧ a₁.passed = a₂.passed ∧ db₁.entriesOf attemptId = db₂.entriesOf attemptId

/-- Reconciling at `now₁` and sweeping at `now₂` leave the same attempt. -/
def PathsAgree (db : Db) (cap : LockedEnrollmentAttemptIdentity) (a : ExamAttempt) (d now₁ now₂ : Int) :
    Prop :=
  ∃ r db₁ b db₂,
    ensureAttemptDeadlineReconciled db cap now₁ (buildResolution a "deadline_terminalization") =
      .ok (r, db₁) ∧
    autoSubmitAndGrade db a.id now₂ = .ok (b, db₂) ∧ SameSubmittedAttempt a.id d db₁ db₂

theorem Terminalizes.submittedAt {db db' : Db} {a : ExamAttempt} {t now : Int}
    (h : Terminalizes db a t now db') (ha : db.findAttempt a.id = some a) :
    ∃ a', db'.findAttempt a.id = some a' ∧ a'.submittedAt = some t := by
  cases h with
  | held _ _ => exact ⟨_, findAttempt_freeze ha, rfl⟩
  | closed _ _ hc => exact ⟨_, findAttempt_close (findAttempt_freeze ha), rfl⟩

theorem Terminalizes.same {db db₁ db₂ : Db} {a : ExamAttempt} {t now₁ now₂ : Int}
    (h₁ : Terminalizes db a t now₁ db₁) (h₂ : Terminalizes db a t now₂ db₂)
    (ha : db.findAttempt a.id = some a) : SameSubmittedAttempt a.id t db₁ db₂ := by
  cases h₁ with
  | held _ hm₁ =>
    cases h₂ with
    | held _ _ => exact ⟨_, _, findAttempt_freeze ha, findAttempt_freeze ha, rfl, rfl, rfl, rfl,
        rfl, rfl, rfl, rfl⟩
    | closed _ hm₂ _ => rw [hm₁] at hm₂; cases hm₂
  | closed _ hm₁ hc₁ =>
    cases h₂ with
    | held _ hm₂ => rw [hm₁] at hm₂; cases hm₂
    | closed _ _ hc₂ =>
      obtain rfl := Except.ok.inj (hc₁.aggregate.symm.trans hc₂.aggregate)
      exact ⟨_, _, findAttempt_close (findAttempt_freeze ha),
        findAttempt_close (findAttempt_freeze ha), rfl, rfl, rfl,
        rfl, rfl, rfl, rfl, rfl⟩

/-- For an expired attempt in progress, the inline path and the sweep leave the
same attempt exactly when the sweep runs at the effective deadline, the freeze
barrier allows the freeze, and the enrollment allows the closure at both instants. -/
theorem deadline_paths_agree (db : Db) (attemptId : String) (cap : LockedEnrollmentAttemptIdentity)
    (a : ExamAttempt) (d now₁ now₂ : Int) (hlock : lockEnrollmentAndAttempt db attemptId = .ok cap)
    (ha : db.findAttempt attemptId = some a) (hs : a.status = .inProgress)
    (hexam : db.exam.id = a.examId)
    (hd : computeEffectiveDeadline db.exam.closeAt a.deadlineAt = .ok (some d)) (h₁ : d ≤ now₁)
    (h₂ : d ≤ now₂) :
    PathsAgree db cap a d now₁ now₂ ↔
      now₂ = d ∧ CanFreeze db a ∧
        (requiresManualGrading a.questionSnapshot = true ∨ CanClose db a now₁ ∧
          CanClose db a now₂) := by
  obtain rfl := Db.findAttempt_id ha
  obtain ⟨a', hid, hcap, -⟩ := lock_eq_ok.mp hlock
  obtain rfl : a = a' := Option.some.inj (ha.symm.trans (hid ▸ hcap.found))
  have hexpired₁ : ExpiredAt db a d now₁ := ⟨.inl hs, hexam, hd, h₁⟩
  have hexpired₂ : ExpiredAt db a d now₂ := ⟨.inl hs, hexam, hd, h₂⟩
  have hinline (db' : Db) : (∃ r, ensureAttemptDeadlineReconciled db cap now₁
      (buildResolution a "deadline_terminalization") = .ok (r, db')) ↔ Terminalizes db a d now₁ db' :=
    reconcile_terminalizes hcap hs hexpired₁
  have hsweep (db' : Db) : (∃ b, autoSubmitAndGrade db a.id now₂ = .ok (b, db')) ↔
      Terminalizes db a now₂ now₂ db' :=
    scan_terminalizes hcap hlock hs hexpired₂
  constructor
  · rintro ⟨r, db₁, b, db₂, hr, hb, a₁, a₂, -, ha₂, -, hat₂, -⟩
    have ht₁ := (hinline db₁).mp ⟨r, hr⟩
    have ht₂ := (hsweep db₂).mp ⟨b, hb⟩
    obtain ⟨a₃, ha₃, hat₃⟩ := ht₂.submittedAt ha
    obtain rfl : a₂ = a₃ := Option.some.inj (ha₂.symm.trans ha₃)
    obtain ⟨hf, hclose₁⟩ := (terminalizes_iff hcap).mp ⟨db₁, ht₁⟩
    obtain ⟨-, hclose₂⟩ := (terminalizes_iff hcap).mp ⟨db₂, ht₂⟩
    refine ⟨Option.some.inj (hat₃.symm.trans hat₂), hf, ?_⟩
    rcases hclose₁ with hm | hclose₁
    · exact .inl hm
    · exact hclose₂.imp_right fun hclose₂ => ⟨hclose₁, hclose₂⟩
  · rintro ⟨rfl, hf, hclose⟩
    obtain ⟨db₁, ht₁⟩ := (terminalizes_iff (t := now₂) hcap).mpr ⟨hf, hclose.imp_right And.left⟩
    obtain ⟨db₂, ht₂⟩ := (terminalizes_iff (t := now₂) hcap).mpr ⟨hf, hclose.imp_right And.right⟩
    obtain ⟨r, hr⟩ := (hinline db₁).mpr ht₁
    obtain ⟨b, hb⟩ := (hsweep db₂).mpr ht₂
    exact ⟨r, db₁, b, db₂, hr, hb, ht₁.same ht₂ ha⟩

end

/-- Reconciled late, and swept at the deadline itself. -/
theorem deadline_paths_agree_sample :
    @PathsAgree sampleHost sampleDb
      { enrollmentId := "enrollment", attemptId := "attempt" } sampleAttempt 60000 75000
      60000 := by
  let _ : Host := sampleHost
  refine (deadline_paths_agree sampleDb "attempt" _ sampleAttempt 60000 75000 60000 rfl rfl rfl rfl
      rfl (by decide)
    (by decide)).mpr ⟨rfl, ⟨rfl, ?_, by decide⟩, .inl rfl⟩
  decide +kernel

/-- Reconciled at the deadline, and swept a second later. -/
theorem deadline_paths_disagree :
    sampleDb.findAttempt "attempt" = some sampleAttempt ∧ sampleAttempt.status = .inProgress ∧
      computeEffectiveDeadline sampleDb.exam.closeAt sampleAttempt.deadlineAt = .ok (some 60000) ∧
      ¬ @PathsAgree sampleHost sampleDb
        { enrollmentId := "enrollment", attemptId := "attempt" } sampleAttempt 60000
        60000 61000 := by
  let _ : Host := sampleHost
  refine ⟨rfl, rfl, rfl, ?_⟩
  rintro ⟨r, db₁, b, db₂, -, hb, a₁, a₂, -, ha₂, -, hat₂, -⟩
  have hrow : (commit (autoSubmitAndGrade sampleDb "attempt" 61000) sampleDb).findAttempt "attempt" =
      some (sampleAttempt.submittedRow 61000 (some .deadline)) := by decide +kernel
  rw [show autoSubmitAndGrade sampleDb "attempt" 61000 = .ok (b, db₂) from hb, commit_ok] at hrow
  obtain rfl := Option.some.inj (ha₂.symm.trans hrow)
  cases hat₂

end ExamSystem
