import ExamSystem.Changes

/-!
# Commands make only changes

Every function of the engine, and from them every command of the system, is a
sequence of the changes of the abstract model: `step_transacts`.
-/

namespace ExamSystem

open Tx

namespace Db

theorem findExam_eq_some {db : Db} {examId : String} {exam : Exam} :
    db.findExam examId = some exam ↔ db.exam.id = examId ∧ db.exam = exam := by
  unfold findExam
  by_cases h : db.exam.id = examId <;> simp [h]

theorem findEnrollment_eq_some {db : Db} {examId candidateId : String} {e : ExamEnrollment} :
    db.findEnrollment examId candidateId = some e ↔
      db.enrollment.examId = examId ∧ db.enrollment.candidateId = candidateId ∧ db.enrollment = e := by
  unfold findEnrollment
  by_cases h : db.enrollment.examId = examId ∧ db.enrollment.candidateId = candidateId <;> simp [h,
    ← and_assoc]

theorem findInterruption_eq_some {db : Db} {attemptId interruptionId : String} {i : AttemptInterruption}
    (h : db.findInterruption attemptId interruptionId = some i) :
    i ∈ db.interruptions ∧ i.id = interruptionId ∧ i.attemptId = attemptId :=
  ⟨List.mem_of_find?_eq_some h, by simpa using List.find?_some h⟩

theorem findEntry_eq_none {db : Db} {attemptId questionId : String} (h : db.entriesOf attemptId = []) :
    db.findEntry attemptId questionId = none := by
  refine (Rows.row_eq_none _).mpr fun e he hk => ?_
  have : e.attemptId = attemptId := congrArg Prod.fst hk
  exact List.filter_eq_nil_iff.mp h e he (by simpa using this)

end Db

/-! ## Submission -/

section
variable [Host]

@[simp] theorem expectedEntry_questionId (submitted : SubmittedAnswersSnapshot) (q : QuestionSnapshot) :
    (expectedEntry submitted q).questionId = q.originalQuestionId := by
  unfold expectedEntry
  dsimp only
  split <;> rfl

theorem workset_attemptId {a : ExamAttempt} {e : AttemptGradingEntry} (h : e ∈ a.workset) :
    e.attemptId = a.id := by
  obtain ⟨q, -, rfl⟩ := List.mem_map.mp h
  rfl

theorem workset_keys_nodup (a : ExamAttempt) :
    (a.workset.map Db.entryKey).Nodup ↔ (a.questionSnapshot.map (·.originalQuestionId)).Nodup := by
  have hkeys : a.workset.map Db.entryKey = (a.questionSnapshot.map (·.originalQuestionId)).map
      (Prod.mk a.id) := by
    simp [ExamAttempt.workset, ExpectedGradingEntry.toRow, Db.entryKey]
  rw [hkeys]
  exact List.nodup_map_iff (fun _ _ h => (Prod.mk.inj h).2)

theorem materialize_eq_ok {db db' : Db} {a : ExamAttempt} {now : Int} {reason : Option SubmissionReason}
    (h : db.entriesOf a.id = []) :
    materializeGradingWorkset db (a.submittedRow now reason) = .ok db' ↔
      (∀ e ∈ a.workset, Db.entryChecks e = .ok ()) ∧
      (a.questionSnapshot.map (·.originalQuestionId)).Nodup ∧
      db' = { db with gradingEntries := db.gradingEntries ++ a.workset } := by
  have hrows : materializeGradingWorkset db (a.submittedRow now reason) = db.bulkCreateEntries
      a.workset := by
    simp [materializeGradingWorkset, computeExpectedGradingEntries, ExamAttempt.submittedRow,
      ExamAttempt.freeze, ExamAttempt.workset, pure, Except.pure, Function.comp_def]
  rw [hrows, Db.bulkCreateEntries_eq_ok, workset_keys_nodup]
  constructor
  · rintro ⟨hc, hn, -, rfl⟩; exact ⟨hc, hn, rfl⟩
  · rintro ⟨hc, hn, rfl⟩
    exact ⟨hc, hn, fun e he => by rw [workset_attemptId he]; exact Db.findEntry_eq_none h, rfl⟩

end

theorem openInterruption_ok {db : Db} {a : ExamAttempt} {interruptionId : String} {interruptedAt : Int}
    {detected : AttemptInterruptionEvent} (hp : a.currentInterruptionId = some interruptionId)
    (hi : a.interruptedAt = some interruptedAt)
    (h : openInterruption db a interruptionId interruptedAt = .ok detected) :
    OpenInterruption db a interruptionId interruptedAt ∧ detected.occurredAt = interruptedAt := by
  simp only [openInterruption, bind_eq_ok, require_eq_ok, orThrow_eq_ok, pure_eq_ok, exists_const] at h
  obtain ⟨i, hfind, -, d, hd, hda, -, ht, hout, rfl⟩ := h
  obtain ⟨hmem, hid, hat⟩ := Db.findInterruption_eq_some hfind
  exact ⟨⟨hp, hi, ⟨i, hmem, hid, hat⟩, ⟨d, hd, hda, ht⟩, hout⟩, ht⟩

/-- The adjustment a resolution names is the bounded-grace row of the episode. -/
def Grounded (db : Db) (a : ExamAttempt) (resolution : SubmitInterruptionResolution) : Prop :=
  ∀ hint interruptionId, resolution = .activeInterruption hint →
    a.currentInterruptionId = some interruptionId →
    ∀ adjustmentId ∈ hint.adjustmentId, ∃ row, GraceRow db a.id interruptionId adjustmentId row

theorem grounded_none (db : Db) (a : ExamAttempt) : Grounded db a .none := by
  intro hint interruptionId h
  cases h

theorem grounded_unadjusted (db : Db) (a : ExamAttempt) {hint : TerminalizationHint}
    (h : hint.adjustmentId = none) :
    Grounded db a (.activeInterruption hint) := by
  intro hint' interruptionId heq _ adjustmentId hid
  obtain rfl := SubmitInterruptionResolution.activeInterruption.inj heq
  rw [h] at hid
  cases hid

theorem buildResolution_grounded (db : Db) (a locked : ExamAttempt) (reasonCode : String) :
    Grounded db a (buildResolution locked reasonCode) := by
  unfold buildResolution
  split
  · exact grounded_unadjusted db a rfl
  · exact grounded_none db a

/-- The events are the outcome that the resolution writes at `t`. -/
def TerminalizedBy (resolution : SubmitInterruptionResolution) (a : ExamAttempt) (t : Int)
    (events : List AttemptInterruptionEvent) : Prop :=
  ∀ e ∈ events, ∃ hint interruptionId, resolution = .activeInterruption hint ∧
    a.currentInterruptionId = some interruptionId ∧ e = terminalizedEvent a.id interruptionId t hint

theorem TerminalizedBy.recorded {db : Db} {a : ExamAttempt}
    {resolution : SubmitInterruptionResolution} {t now : Int}
    {events : List AttemptInterruptionEvent} (h : TerminalizedBy resolution a t events)
    (hg : Grounded db a resolution) (ht : t ≤ now) : ∀ e ∈ events, Recorded db now e := by
  intro e he
  obtain ⟨hint, i, hres, hp, rfl⟩ := h e he
  exact ⟨ht, hg hint i hres hp⟩

/-- Terminalizing appends the outcome of the open episode of a disrupted
attempt, and nothing for another. -/
theorem resolve_ok {db db' : Db} {a : ExamAttempt} {resolution : SubmitInterruptionResolution}
    {now : Int} (h : resolveActiveInterruptionOnTerminalization db a resolution now = .ok db') :
    (a.status ≠ .disrupted ∧ db' = db) ∨
      ∃ interruptionId interruptedAt event, a.status = .disrupted ∧
        OpenInterruption db a interruptionId interruptedAt ∧
        OutcomeOf event a interruptionId ∧ TerminalizedBy resolution a now [event] ∧
        db' = { db with interruptionEvents := db.interruptionEvents ++ [event] } := by
  cases resolution with
  | none =>
    simp only [resolveActiveInterruptionOnTerminalization, bind_eq_ok, require_eq_ok, pure_eq_ok,
      exists_const] at h
    exact .inl ⟨h.1, h.2.symm⟩
  | activeInterruption hint =>
    simp only [resolveActiveInterruptionOnTerminalization, bind_eq_ok, require_eq_ok, orThrow_eq_ok,
      exists_const] at h
    obtain ⟨hs, i, hp, t, hi, d, hopen, hins⟩ := h
    obtain ⟨-, -, -, -, rfl⟩ := Db.insertInterruptionEvent_eq_ok.mp hins
    have hby : TerminalizedBy (.activeInterruption hint) a now [terminalizedEvent a.id i now hint] := by
      intro e he
      exact ⟨hint, i, rfl, hp, List.mem_singleton.mp he⟩
    exact .inr ⟨i, t, _, hs, (openInterruption_ok hp hi hopen).1, ⟨rfl, rfl, rfl⟩, hby, rfl⟩

section
variable [Host]

/-- A submit returns an attempt that is already submitted as it is, and
freezes one in flight. -/
theorem submitAttempt_ok {db db' : Db} {attemptId : String} {now : Int} {opts : SubmitOptions}
    {s : ExamAttempt} (h : submitAttempt db attemptId now opts = .ok (s, db')) :
    ∃ a, db.findAttempt attemptId = some a ∧
      (((a.status = .submitted ∨ a.status = .graded) ∧ s = a ∧ db' = db) ∨
        ∃ events, Freezes db a events ∧ TerminalizedBy opts.resolution a now events ∧
          s = a.submittedRow now opts.submissionReason ∧
          db' = db.freeze a now opts.submissionReason events) := by
  simp only [submitAttempt, bind_eq_ok, orThrow_eq_ok] at h
  obtain ⟨a, ha, db₁, hres, h⟩ := h
  obtain rfl := Db.findAttempt_id ha
  refine ⟨a, ha, ?_⟩
  split at h
  · rename_i hs
    simp only [bind_eq_ok, pure_eq_ok, Prod.mk.injEq] at h
    obtain ⟨-, -, rfl, rfl⟩ := h
    rcases resolve_ok hres with ⟨-, rfl⟩ | ⟨_, _, _, hd, -⟩
    · exact .inl ⟨hs, rfl, rfl⟩
    · rw [hd] at hs; simp at hs
  · simp only [bind_eq_ok, require_eq_ok, exists_const, pure_eq_ok, Prod.mk.injEq,
      transition_submit] at h
    obtain ⟨hs, -, -, hnone, db₂, hmat, rfl, rfl⟩ := h
    rcases resolve_ok hres with ⟨hd, rfl⟩ | ⟨i, t, event, hd, hopen, hout, hby, rfl⟩
    · have hs : a.status = .inProgress := hs.resolve_right hd
      obtain ⟨hc, hn, rfl⟩ := (materialize_eq_ok (by exact hnone)).mp hmat
      exact .inr ⟨[], ⟨ha, .inProgress hs, hnone, hc, hn⟩, by simp [TerminalizedBy], rfl,
        by simp [Db.freeze, Db.updateAttempt]⟩
    · obtain ⟨hc, hn, rfl⟩ := (materialize_eq_ok (by exact hnone)).mp hmat
      exact .inr ⟨[event], ⟨ha, .disrupted hd hopen hout, hnone, hc, hn⟩, hby, rfl, rfl⟩

theorem freeze_logged {db : Db} {a : ExamAttempt} {submittedAt now : Int}
    {reason : Option SubmissionReason} {events : List AttemptInterruptionEvent}
    (hf : Freezes db a events) (he : ∀ e ∈ events, Recorded db now e) :
    Logged now db (db.freeze a submittedAt reason events) :=
  ⟨.freeze hf, fun e hmem => (List.mem_append.mp hmem).imp id (he e),
    .inl (length_updateAttempt db _ _)⟩

theorem close_logged {db : Db} {a : ExamAttempt} {aggregated : GradingEntryAggregate} {now : Int}
    (h : Closes db a aggregated now) : Logged now db (db.close a aggregated now) :=
  Quiet.logged (.close h) rfl (length_updateAttempt db _ _)

theorem findAttempt_freeze {db : Db} {a : ExamAttempt} {now : Int} {reason : Option SubmissionReason}
    {events : List AttemptInterruptionEvent} (ha : db.findAttempt a.id = some a) :
    (db.freeze a now reason events).findAttempt a.id = some (a.submittedRow now reason) :=
  Db.findAttempt_updateAttempt_self (f := (·.submittedRow _ _)) db a.id (fun _ => rfl) ha

end

/-! ## Grading -/

/-- Terminal grading leaves a graded attempt alone and closes a submitted one. -/
theorem finalizeTerminalGrading_ok [Host] {db db' : Db} {cap : LockedEnrollmentAttemptIdentity}
    {now : Int} {b : Bool} (h : finalizeTerminalGrading db cap db.exam now = .ok (b, db')) :
    ∃ a, db.findAttempt cap.attemptId = some a ∧
      ((a.status = .graded ∧ b = false ∧ db' = db) ∨
        (b = true ∧ ∃ aggregated, Closes db a aggregated now ∧ db' = db.close a aggregated now)) := by
  simp only [finalizeTerminalGrading, bind_eq_ok, orThrow_eq_ok] at h
  obtain ⟨a, ha, h⟩ := h
  have hid : a.id = cap.attemptId := Db.findAttempt_id ha
  refine ⟨a, ha, ?_⟩
  split at h
  · rename_i hs
    rw [pure_eq_ok, Prod.mk.injEq] at h
    exact .inl ⟨hs, h.1.symm, h.2.symm⟩
  · simp only [bind_eq_ok, require_eq_ok, orThrow_eq_ok, exists_const, transition_grade] at h
    obtain ⟨hs, aggregated, hagg, e, he, -, h⟩ := h
    obtain ⟨hexam, hcand, rfl⟩ := Db.findEnrollment_eq_some.mp he
    rw [← hid] at ha hagg h
    refine .inr ?_
    have hallow : EnrollmentAllows db.enrollment
        (enrollmentTarget db.exam db.enrollment aggregated.passed now) ∧
        b = true ∧ db' = db.close a aggregated now := by
      split at h
      · simp only [bind_eq_ok, assertEnrollmentTransition, require_eq_ok, exists_const, pure_eq_ok,
          Prod.mk.injEq] at h
        obtain ⟨ht, rfl, rfl⟩ := h
        exact ⟨.inr ht, rfl, rfl⟩
      · rename_i heq
        simp only [pure_eq_ok, Prod.mk.injEq] at h
        obtain ⟨rfl, rfl⟩ := h
        exact ⟨.inl (not_not.mp heq), rfl, rfl⟩
    exact ⟨hallow.2.1, aggregated, ⟨ha, hs, ⟨hexam, hcand⟩, hagg, hallow.1⟩, hallow.2.2⟩

theorem finalizeGrading_ok [Host] {db db' : Db} {cap : LockedEnrollmentAttemptIdentity} {now : Int}
    {b : Bool} (h : finalizeGrading db cap db.exam now = .ok (b, db')) :
    ∃ a, db.findAttempt cap.attemptId = some a ∧
      ((a.status = .graded ∧ db' = db) ∨
        (a.gradingStatus ≠ some .pendingManual ∧
          ∃ aggregated, Closes db a aggregated now ∧ db' = db.close a aggregated now)) := by
  simp only [finalizeGrading, bind_eq_ok, orThrow_eq_ok] at h
  obtain ⟨a, ha, h⟩ := h
  refine ⟨a, ha, ?_⟩
  split at h
  · rename_i hs
    rw [pure_eq_ok, Prod.mk.injEq] at h
    exact .inl ⟨hs, h.2.symm⟩
  · simp only [bind_eq_ok, require_eq_ok, exists_const] at h
    obtain ⟨hm, h⟩ := h
    obtain ⟨a', ha', hc⟩ := finalizeTerminalGrading_ok h
    obtain rfl : a = a' := Option.some.inj (ha.symm.trans ha')
    rcases hc with ⟨hs, -, rfl⟩ | ⟨-, hc⟩
    · exact .inl ⟨hs, rfl⟩
    · exact .inr ⟨hm, hc⟩

theorem readGradingSnapshot_ok {db : Db} {attemptId : String} {snapshot : GradingSnapshot}
    (h : readGradingSnapshot db attemptId = .ok (some snapshot)) :
    db.findAttempt attemptId = some snapshot.attempt ∧ snapshot.exam = db.exam := by
  unfold readGradingSnapshot at h
  split at h
  · simp [pure_eq_ok] at h
  · rename_i a ha
    simp only [bind_eq_ok, orThrow_eq_ok, pure_eq_ok, Option.some.injEq] at h
    obtain ⟨exam, hexam, e, -, rfl⟩ := h
    exact ⟨ha, (Db.findExam_eq_some.mp hexam).2.symm⟩

theorem gradeAttemptIdempotent_ok [Host] {db db' : Db} {cap : LockedEnrollmentAttemptIdentity}
    {now : Int} {r : ScoreResult} (h : gradeAttemptIdempotent db cap now = .ok (r, db')) :
    ∃ a, db.findAttempt cap.attemptId = some a ∧
      (((a.status = .graded ∨ a.gradingStatus = some .pendingManual) ∧ db' = db) ∨
        (a.gradingStatus ≠ some .pendingManual ∧
          ∃ aggregated, Closes db a aggregated now ∧ db' = db.close a aggregated now)) := by
  simp only [gradeAttemptIdempotent, bind_eq_ok, orThrow_eq_ok] at h
  obtain ⟨_, hread, snapshot, rfl, h⟩ := h
  obtain ⟨ha, hexam⟩ := readGradingSnapshot_ok hread
  refine ⟨snapshot.attempt, ha, ?_⟩
  split at h
  · rename_i hs
    rw [pure_eq_ok, Prod.mk.injEq] at h
    exact .inl ⟨.inl hs, h.2.symm⟩
  split at h
  · rename_i hm
    rw [pure_eq_ok, Prod.mk.injEq] at h
    exact .inl ⟨.inr hm, h.2.symm⟩
  · simp only [bind_eq_ok, orThrow_eq_ok, pure_eq_ok, Prod.mk.injEq, hexam] at h
    obtain ⟨⟨b, db₁⟩, hfin, _, -, -, rfl⟩ := h
    obtain ⟨a, ha', hc⟩ := finalizeGrading_ok hfin
    obtain rfl := Option.some.inj (ha.symm.trans ha')
    rcases hc with ⟨hs, rfl⟩ | hc
    · exact .inl ⟨.inl hs, rfl⟩
    · exact .inr hc

/-- A manual score completes its entry, and closes the attempt when no pending
entry is left. -/
theorem gradeManualQuestion_ok [Host] {db db' : Db} {cap : LockedEnrollmentAttemptIdentity}
    {questionId : String} {score : ℚ} {comment graderId : String} {now : Int}
    {r : GradeQuestionResult}
    (h : gradeManualQuestion db cap questionId score comment graderId now db.exam = .ok (r, db')) :
    ∃ a entry, db.findAttempt cap.attemptId = some a ∧ entry.questionId = questionId ∧
      Scores db a entry score ∧
      (db' = db.updateEntry a.id entry.questionId (·.complete score comment graderId now) ∨
        ∃ aggregated,
          Closes (db.updateEntry a.id entry.questionId (·.complete score comment graderId now)) a
            aggregated now ∧
          db' = (db.updateEntry a.id entry.questionId (·.complete score comment graderId now)).close
            a aggregated now) := by
  simp only [gradeManualQuestion, bind_eq_ok, require_eq_ok, orThrow_eq_ok, exists_const] at h
  obtain ⟨a, ha, hs, hm, entry, hentry, hmode, hpend, hbounds, h⟩ := h
  have hid : a.id = cap.attemptId := Db.findAttempt_id ha
  have hq : entry.questionId = questionId := congrArg Prod.snd (Rows.key_of_row _ hentry)
  subst hq
  rw [← hid] at ha hentry h
  have hmanual : entry.gradingMode = .manual := by
    cases hg : entry.gradingMode
    · exact absurd hg hmode
    · rfl
  refine ⟨a, entry, hid ▸ ha, rfl, ⟨ha, hs, hm, hentry, hmanual, hpend, hbounds⟩, ?_⟩
  split at h
  · simp only [bind_eq_ok, require_eq_ok, orThrow_eq_ok, exists_const, pure_eq_ok, Prod.mk.injEq] at h
    obtain ⟨⟨b, db₁⟩, hfin, hb, _, -, -, rfl⟩ := h
    obtain ⟨a', ha', hc⟩ := finalizeTerminalGrading_ok hfin
    rw [← hid] at ha'
    obtain rfl : a = a' := Option.some.inj (ha.symm.trans ha')
    rcases hc with ⟨hg, -⟩ | ⟨-, hc⟩
    · rw [hs] at hg; cases hg
    · exact .inr hc
  · rw [pure_eq_ok, Prod.mk.injEq] at h
    exact .inl h.2.symm

/-! ## Deadline reconciliation -/

theorem findAttempt_close {db : Db} {a : ExamAttempt} {aggregated : GradingEntryAggregate} {now : Int}
    (ha : db.findAttempt a.id = some a) :
    (db.close a aggregated now).findAttempt a.id = some (a.gradedRow aggregated now) :=
  Db.findAttempt_updateAttempt_self (f := (·.gradedRow _ _)) db a.id (fun _ => rfl) ha

/-- The attempt is in flight and its effective deadline `d` has come. -/
structure ExpiredAt (db : Db) (a : ExamAttempt) (d now : Int) : Prop where
  active : a.status = .inProgress ∨ a.status = .disrupted
  exam : db.exam.id = a.examId
  deadline : computeEffectiveDeadline db.exam.closeAt a.deadlineAt = .ok (some d)
  due : d ≤ now

theorem expired_true {db : Db} {a : ExamAttempt} {d now : Int}
    (hd : computeEffectiveDeadline db.exam.closeAt a.deadlineAt = .ok (some d)) (h : d ≤ now) :
    isAttemptDeadlineExpired db.exam.closeAt a.deadlineAt now = .ok true := by
  simp [isAttemptDeadlineExpired, hd, h, pure, Except.pure]

section
variable [Host]

/-- Reconciliation leaves the attempt as it is, or freezes it at its effective
deadline and, when nothing waits for a grader, closes it. -/
theorem reconcile_ok {db db' : Db} {cap : LockedEnrollmentAttemptIdentity} {now : Int}
    {resolution : SubmitInterruptionResolution} {r : ExamAttempt}
    (h : ensureAttemptDeadlineReconciled db cap now resolution = .ok (r, db')) :
    ∃ a, db.findAttempt cap.attemptId = some a ∧
      ((r = a ∧ db' = db) ∨
        ∃ d events, ExpiredAt db a d now ∧ Freezes db a events ∧ TerminalizedBy resolution a d events ∧
          ((freezeStatus a.questionSnapshot = .pendingManual ∧ r = a.submittedRow d (some .deadline) ∧
              db' = db.freeze a d (some .deadline) events) ∨
            freezeStatus a.questionSnapshot ≠ .pendingManual ∧ ∃ aggregated,
              Closes (db.freeze a d (some .deadline) events) (a.submittedRow d (some .deadline))
                aggregated now ∧
              r = (a.submittedRow d (some .deadline)).gradedRow aggregated now ∧
              db' = (db.freeze a d (some .deadline) events).close
                (a.submittedRow d (some .deadline)) aggregated
                now)) := by
  simp only [ensureAttemptDeadlineReconciled, bind_eq_ok, orThrow_eq_ok] at h
  obtain ⟨a, ha, h⟩ := h
  have hid : a.id = cap.attemptId := Db.findAttempt_id ha
  refine ⟨a, ha, ?_⟩
  split at h
  · simp only [pure_eq_ok, Prod.mk.injEq] at h
    exact .inl ⟨h.1.symm, h.2.symm⟩
  rename_i hactive
  simp only [bind_eq_ok, orThrow_eq_ok] at h
  obtain ⟨exam, hexam, expired, hexp, h⟩ := h
  obtain ⟨hexamId, rfl⟩ := Db.findExam_eq_some.mp hexam
  split at h
  · simp only [pure_eq_ok, Prod.mk.injEq] at h
    exact .inl ⟨h.1.symm, h.2.symm⟩
  rename_i hne
  simp only [bind_eq_ok] at h
  obtain ⟨deadline, hd, h⟩ := h
  cases deadline with
  | none =>
    simp only [pure_eq_ok, Prod.mk.injEq] at h
    exact .inl ⟨h.1.symm, h.2.symm⟩
  | some d =>
    have hdue : d ≤ now := by
      simp only [isAttemptDeadlineExpired, hd, ok_bind, pure_eq_ok] at hexp
      simpa [← hexp] using hne
    simp only [bind_eq_ok] at h
    obtain ⟨⟨s, db₁⟩, hsub, h⟩ := h
    obtain ⟨a', ha', hs⟩ := submitAttempt_ok hsub
    obtain rfl : a = a' := Option.some.inj (ha.symm.trans ha')
    rw [← hid] at ha h
    rcases hs with ⟨hs, -, -⟩ | ⟨events, hf, hby, rfl, rfl⟩
    · exact absurd (not_not.mp hactive) (by rcases hs with hs | hs <;> simp [hs])
    refine .inr ⟨d, events, ⟨not_not.mp hactive, hexamId, hd, hdue⟩, hf, hby, ?_⟩
    split at h
    · rename_i hm
      simp only [pure_eq_ok, Prod.mk.injEq] at h
      exact .inl ⟨Option.some.inj hm, h.1.symm, h.2.symm⟩
    · simp only [bind_eq_ok, orThrow_eq_ok, pure_eq_ok, Prod.mk.injEq] at h
      obtain ⟨_, hread, snapshot, rfl, ⟨b, db₂⟩, hfin, r', hr, rfl, rfl⟩ := h
      rw [(readGradingSnapshot_ok hread).2] at hfin
      obtain ⟨a'', ha'', hc⟩ := finalizeGrading_ok hfin
      rw [← hid, findAttempt_freeze ha] at ha''
      obtain rfl := Option.some.inj ha''
      rcases hc with ⟨hg, -⟩ | ⟨hm, aggregated, hc, rfl⟩
      · cases hg
      · refine .inr ⟨fun hmanual => hm (congrArg some hmanual), aggregated, hc, ?_, rfl⟩
        exact (Option.some.inj ((findAttempt_close (findAttempt_freeze ha)).symm.trans hr)).symm

theorem reconcile_found {db db' : Db} {cap : LockedEnrollmentAttemptIdentity} {now : Int}
    {resolution : SubmitInterruptionResolution} {r : ExamAttempt}
    (h : ensureAttemptDeadlineReconciled db cap now resolution = .ok (r, db')) :
    db'.findAttempt cap.attemptId = some r := by
  obtain ⟨a, ha, ⟨rfl, rfl⟩ | ⟨d, events, -, hf, -, hcase⟩⟩ := reconcile_ok h
  · exact ha
  · have hid : a.id = cap.attemptId := Db.findAttempt_id ha
    rw [← hid] at ha ⊢
    rcases hcase with ⟨-, rfl, rfl⟩ | ⟨-, aggregated, hc, rfl, rfl⟩
    · exact findAttempt_freeze ha
    · exact findAttempt_close (findAttempt_freeze ha)

theorem reconcile_changes {db db' : Db} {cap : LockedEnrollmentAttemptIdentity} {now : Int}
    {resolution : SubmitInterruptionResolution} {r : ExamAttempt}
    (h : ensureAttemptDeadlineReconciled db cap now resolution = .ok (r, db'))
    (hg : ∀ a, db.findAttempt cap.attemptId = some a → Grounded db a resolution) :
    Logs now db db' ∧ db'.findAttempt cap.attemptId = some r ∧
      ((db.findAttempt cap.attemptId = some r ∧ db' = db) ∨ r.status = .submitted ∨
        r.status = .graded) := by
  have hfound := reconcile_found h
  obtain ⟨a, ha, ⟨rfl, rfl⟩ | ⟨d, events, hexp, hf, hby, hr⟩⟩ := reconcile_ok h
  · exact ⟨.refl, ha, .inl ⟨ha, rfl⟩⟩
  · have hlog : Logged now db (db.freeze a d (some .deadline) events) :=
      freeze_logged hf (hby.recorded (hg a ha) hexp.due)
    rcases hr with ⟨-, rfl, rfl⟩ | ⟨-, aggregated, hc, rfl, rfl⟩
    · exact ⟨.single hlog, hfound, .inr (.inl rfl)⟩
    · exact ⟨(Relation.ReflTransGen.single hlog).tail (close_logged hc), hfound, .inr (.inr rfl)⟩

end

/-! ## Restores and grants -/

theorem findAttempt_adjust {db : Db} {a : ExamAttempt} {row : AttemptTimeAdjustment}
    (ha : db.findAttempt a.id = some a) :
    (db.adjust a row).findAttempt a.id = some (a.extend row.afterDeadline) :=
  Db.findAttempt_updateAttempt_self (f := (·.extend _)) db a.id (fun _ => rfl) ha

theorem OpenInterruption.adjust {db : Db} {a : ExamAttempt} {interruptionId : String}
    {interruptedAt : Int} (h : OpenInterruption db a interruptionId interruptedAt)
    (row : AttemptTimeAdjustment) :
    OpenInterruption (db.adjust a row) (a.extend row.afterDeadline) interruptionId interruptedAt :=
  ⟨h.pointer, h.interrupted, h.episode, h.detected, h.undecided⟩

structure Decides (db : Db) (attemptId interruptionId : String) (d : RestoreDecision) : Prop where
  ungranted : d.adjustmentId = none → d.addedSeconds = 0
  granted : ∀ adjustmentId ∈ d.adjustmentId, ∃ row,
    GraceRow db attemptId interruptionId adjustmentId row ∧
    row.addedSeconds = d.addedSeconds ∧ row.eligibleSeconds.getD 0 = d.eligibleSeconds

theorem decides_none {db : Db} {attemptId interruptionId : String} {d : RestoreDecision}
    (h : d.adjustmentId = none) (h0 : d.addedSeconds = 0) :
    Decides db attemptId interruptionId d := by
  refine ⟨fun _ => h0, ?_⟩
  intro adjustmentId hid
  rw [h] at hid
  cases hid

theorem Decides.grounded {db : Db} {a : ExamAttempt} {interruptionId : String} {d : RestoreDecision}
    (h : Decides db a.id interruptionId d) (hp : a.currentInterruptionId = some interruptionId)
    (policy : InterruptionTimePolicy) (eligibleSeconds : Option Int) (reasonCode : String) :
    Grounded db a (.activeInterruption ⟨policy, eligibleSeconds, d.adjustmentId, reasonCode⟩) := by
  intro hint i heq hi adjustmentId hid
  obtain rfl := SubmitInterruptionResolution.activeInterruption.inj heq
  obtain rfl : interruptionId = i := Option.some.inj (hp.symm.trans hi)
  obtain ⟨row, hrow, -⟩ := h.granted adjustmentId hid
  exact ⟨row, hrow⟩

/-- The policy step of a restore appends at most one row, within every cap. -/
theorem compensate_ok {db db' : Db} {a : ExamAttempt} {snapshot : AttemptTimingPolicySnapshot}
    {interruptionId : String} {interruptedAt now : Int} {fresh : FreshAdjustment}
    {d : RestoreDecision} (ha : db.findAttempt a.id = some a) (hs : a.status = .disrupted)
    (hsnap : a.interruptionTimingPolicySnapshot = some snapshot)
    (hopen : OpenInterruption db a interruptionId interruptedAt)
    (h : compensateInterruption db a db.exam snapshot interruptionId interruptedAt now fresh = .ok
        (d, db')) :
    (db' = db ∨ ∃ row, row.source = .boundedGrace ∧ Appends db a row now ∧ db' = db.adjust a row) ∧
      Decides db' a.id interruptionId d := by
  unfold compensateInterruption at h
  dsimp only at h
  split at h
  · rename_i hpol
    split at h
    · rename_i existing hfind
      simp only [bind_eq_ok, require_eq_ok, exists_const, pure_eq_ok, Prod.mk.injEq] at h
      obtain ⟨⟨hatt, hint, hsrc, hpolicy, -⟩, rfl, rfl⟩ := h
      have hrow : GraceRow db a.id interruptionId existing.id existing :=
        ⟨List.mem_of_find?_eq_some hfind, rfl, hatt, hint, hsrc, hpolicy⟩
      refine ⟨.inl rfl, fun hnone => ?_, ?_⟩
      · cases hnone
      · intro adjustmentId hadjustment
        obtain rfl := Option.some.inj hadjustment
        exact ⟨existing, hrow, rfl, rfl⟩
    · rename_i hnone
      simp only [bind_eq_ok] at h
      obtain ⟨decision, hev, h⟩ := h
      split at h
      · rename_i hpos
        simp only [bind_eq_ok, orThrow_eq_ok, pure_eq_ok, Prod.mk.injEq] at h
        obtain ⟨before, hbefore, after, hafter, db₁, hins, rfl, rfl⟩ := h
        obtain ⟨hfid, hfop, -, hadd, -, hdelta, rfl⟩ := Db.insertAdjustment_eq_ok.mp hins
        obtain ⟨perIncident, perAttempt, before', close, hinc, hatt, hb, hclose, helig, -, -, hle,
          hcapInc, hcapAtt, hcapClose⟩ := evaluate_bounded hpol hev
        dsimp only at hb hclose helig hcapAtt hinc hatt
        obtain rfl : before = before' := Option.some.inj (hbefore.symm.trans hb)
        have helapsed : decision.addedSeconds * 1000 ≤ now - interruptedAt := by
          rw [helig] at hle
          unfold wholeSeconds at hle
          omega
        have hdecides : Decides
            (db.adjust a (boundedGraceRow fresh a interruptionId before after decision)) a.id
              interruptionId
              { eligibleSeconds := decision.eligibleSeconds, addedSeconds := decision.addedSeconds
                adjustmentId := some fresh.id, reasonCode := decision.reasonCode } := by
          refine ⟨fun hnone => ?_, ?_⟩
          · cases hnone
          · intro adjustmentId hadjustment
            obtain rfl := Option.some.inj hadjustment
            exact ⟨_, ⟨List.mem_append_right _ (List.mem_singleton.mpr rfl), rfl, rfl, rfl, rfl,
                rfl⟩, rfl, rfl⟩
        refine ⟨.inr ⟨boundedGraceRow fresh a interruptionId before after decision, rfl,
          ⟨⟨ha, .inr hs, rfl, hbefore, hadd, hdelta, ⟨close, hclose, ?_⟩, fun _ => ⟨hs, ?_, ?_⟩,
              .inl rfl⟩, hfid, hfop⟩,
          rfl⟩, hdecides⟩
        · exact hdelta.trans_le (hcapClose hpos)
        · intro i hi
          obtain rfl : interruptionId = i := Option.some.inj hi
          exact hnone
        · refine ⟨interruptionId, interruptedAt, snapshot, perIncident, perAttempt, rfl, hopen,
            hsnap, hpol, hinc, hatt, hcapInc, helapsed, ?_⟩
          have := hcapAtt hpos
          have hmax : db.sumBoundedGraceSeconds a.id ≤ max 0 (db.sumBoundedGraceSeconds a.id) :=
            le_max_right _ _
          exact (Int.add_le_add_right hmax _).trans this
      · rename_i hzero
        rw [pure_eq_ok, Prod.mk.injEq] at h
        obtain ⟨rfl, rfl⟩ := h
        obtain ⟨_, _, _, _, -, -, -, -, -, -, hnonneg, -⟩ := evaluate_bounded hpol hev
        exact ⟨.inl rfl, decides_none rfl (le_antisymm (not_lt.mp hzero) hnonneg)⟩
  · rename_i hpol
    simp only [bind_eq_ok, pure_eq_ok, Prod.mk.injEq] at h
    obtain ⟨decision, hev, rfl, rfl⟩ := h
    exact ⟨.inl rfl, decides_none rfl (evaluate_unbounded hpol hev).2⟩

theorem applyGrant_ok {db db' : Db} {a : ExamAttempt} {policy : InterruptionTimePolicy}
    {input : GrantAttemptTimeInput} {freshId : String} {r : GrantAttemptTimeResult}
    (ha : db.findAttempt a.id = some a) (hid : input.attemptId = a.id)
    (h : applyGrant db a a db.exam policy input freshId = .ok (r, db')) (now : Int) :
    ∃ row, row.source = .operator ∧ Appends db a row now ∧ r.outcome = .granted ∧
    db' = db.adjust a row := by
  simp only [applyGrant, bind_eq_ok, require_eq_ok, orThrow_eq_ok, exists_const, pure_eq_ok,
    Prod.mk.injEq] at h
  obtain ⟨-, -, hs, before, hbefore, -, -, close, hclose, hle, db₁, hins, _, -, rfl, rfl⟩ := h
  obtain ⟨hfid, hfop, -, hadd, -, hdelta, rfl⟩ := Db.insertAdjustment_eq_ok.mp hins
  refine ⟨_, rfl, ⟨⟨ha, hs, hid, hbefore, hadd, rfl, ⟨close, hclose, hle⟩, fun hg => ?_, .inr rfl⟩,
      hfid, hfop⟩, rfl, ?_⟩
  · cases hg
  · rw [hid]; rfl

section
variable [Host]

theorem restore_ok {db db' : Db} {cap : LockedEnrollmentAttemptIdentity} {now : Int}
    {fresh : FreshAdjustment} {r : RestoreInterruptionResult}
    (h : restoreInterruptedAttempt db cap now fresh = .ok (r, db')) :
    Commits now db db' := by
  simp only [restoreInterruptedAttempt, bind_eq_ok, orThrow_eq_ok] at h
  obtain ⟨a, ha, exam, hexam, h⟩ := h
  have hid : a.id = cap.attemptId := Db.findAttempt_id ha
  obtain ⟨-, rfl⟩ := Db.findExam_eq_some.mp hexam
  have hsame : ∀ {x : Result RestoreInterruptionResult},
      (do pure (← x, db) : Result (RestoreInterruptionResult × Db)) = .ok (r, db') →
      Commits now db db' := by
    intro x hx
    simp only [bind_eq_ok, pure_eq_ok, Prod.mk.injEq] at hx
    obtain ⟨_, -, -, rfl⟩ := hx
    exact Logs.commits .refl
  split at h
  · exact hsame h
  · exact hsame h
  · exact hsame h
  · exact hsame h
  · rename_i hs
    simp only [bind_eq_ok, orThrow_eq_ok] at h
    obtain ⟨i, hp, t, hi, snapshot, hsnap, detected, hdet, ⟨d, db₁⟩, hcomp, ⟨r₁, db₂⟩, hrec, h⟩ := h
    obtain ⟨hopen, ht⟩ := openInterruption_ok hp hi hdet
    rw [ht] at hcomp
    rw [← hid] at ha
    obtain ⟨hcommits, hdec⟩ := compensate_ok ha hs hsnap hopen hcomp
    obtain ⟨a₁, hid₁, ha₁, hs₁, hopen₁, hch₁⟩ : ∃ a₁, a₁.id = a.id ∧ db₁.findAttempt a.id = some a₁ ∧
        a₁.status = .disrupted ∧ OpenInterruption db₁ a₁ i t ∧ Commits now db db₁ := by
      rcases hcommits with rfl | ⟨row, -, hadj, rfl⟩
      · exact ⟨a, rfl, ha, hs, hopen, Logs.commits .refl⟩
      · exact ⟨a.extend row.afterDeadline, rfl, findAttempt_adjust ha, hs, hopen.adjust row,
          .adjust hadj⟩
    obtain ⟨hch₂, -, hsettled⟩ := reconcile_changes hrec (by
      intro b hb
      obtain rfl : a₁ = b := Option.some.inj (ha₁.symm.trans (hid ▸ hb))
      exact (hid₁ ▸ hdec).grounded hopen₁.pointer _ _ _)
    split at h
    · simp only [bind_eq_ok, pure_eq_ok, Prod.mk.injEq] at h
      obtain ⟨_, -, -, rfl⟩ := h
      exact hch₁.trans hch₂
    · rename_i hlive
      rcases hsettled with ⟨-, rfl⟩ | hterm
      · simp only [restoreAttemptState, hs, bind_eq_ok, orThrow_eq_ok, pure_eq_ok, Prod.mk.injEq] at h
        obtain ⟨⟨_, db₃⟩, ⟨-, rfl⟩, db₄, hins, _, -, -, rfl⟩ := h
        obtain ⟨-, -, -, -, rfl⟩ := Db.insertInterruptionEvent_eq_ok.mp hins
        have hout : OutcomeOf (restoredEvent a.id i now snapshot.policy d) a₁ i := ⟨hid₁.symm, rfl, rfl⟩
        have hrestore : Quiet now _ _ := .restore (hid₁ ▸ ha₁) hs₁ hopen₁ hout
        rw [Db.restore, hid₁] at hrestore
        have hrecorded : Recorded db₂ now (restoredEvent a.id i now snapshot.policy d) :=
          ⟨Int.le_refl now,
            fun adjustmentId h => (hdec.granted adjustmentId h).imp fun _ hrow => hrow.1⟩
        refine hch₁.trans (.single ⟨hrestore, ?_, .inl (length_updateAttempt db₂ _ _)⟩)
        intro e he
        rcases List.mem_append.mp he with he | he
        · exact .inl he
        · obtain rfl := List.mem_singleton.mp he
          exact .inr hrecorded
      · exact absurd hterm hlive
  · cases h

/-- A grant that is not applied at most reconciles the deadline, and one that is
applied appends a row. -/
theorem grant_cases {db db' : Db} {validator : Option IncidentGrantValidator}
    {cap : LockedEnrollmentAttemptIdentity} {input : GrantAttemptTimeInput} {freshId : String}
    {r : GrantAttemptTimeResult}
    (h : grantAttemptTime db validator cap input freshId = .ok (r, db')) :
    (r.outcome ≠ .granted ∧ (db' = db ∨ ∃ resolution reconciled, (∀ b, Grounded db b resolution) ∧
        ensureAttemptDeadlineReconciled db cap input.now resolution = .ok (reconciled, db'))) ∨
      (r.outcome = .granted ∧ ∃ a row, Appends db a row input.now ∧ db' = db.adjust a row) := by
  simp only [grantAttemptTime, bind_eq_ok, orThrow_eq_ok] at h
  obtain ⟨a, ha, exam, hexam, _, hvalid, h⟩ := h
  obtain ⟨-, rfl⟩ := Db.findExam_eq_some.mp hexam
  split at h
  · simp only [bind_eq_ok, require_eq_ok, orThrow_eq_ok, exists_const, pure_eq_ok, Prod.mk.injEq] at h
    obtain ⟨-, _, -, rfl, rfl⟩ := h
    exact .inl ⟨by simp, .inl rfl⟩
  · simp only [bind_eq_ok, require_eq_ok, orThrow_eq_ok, exists_const] at h
    obtain ⟨snapshot, -, -, _, -, ⟨r₁, db₁⟩, hrec, h⟩ := h
    have hgrounded : ∀ b, Grounded db b (if a.status = .disrupted then .activeInterruption
        ⟨snapshot.policy, none, none, OPERATOR_GRANT_DEADLINE_RECONCILIATION_REASON⟩ else .none) := by
      intro b
      split
      · exact grounded_unadjusted db b rfl
      · exact grounded_none db b
    obtain ⟨-, -, hsettled⟩ := reconcile_changes hrec fun b _ => hgrounded b
    split at h
    · rw [pure_eq_ok, Prod.mk.injEq] at h
      obtain ⟨rfl, rfl⟩ := h
      exact .inl ⟨by simp, .inr ⟨_, _, hgrounded, hrec⟩⟩
    · rename_i hlive
      rcases hsettled with ⟨ha', rfl⟩ | hterm
      · obtain rfl : a = r₁ := Option.some.inj (ha.symm.trans ha')
        have hid : input.attemptId = a.id := by
          simp only [validateGrantInput, bind_eq_ok, require_eq_ok, exists_const] at hvalid
          exact hvalid.1.trans (Db.findAttempt_id ha).symm
        obtain ⟨row, -, hadj, hout, rfl⟩ :=
          applyGrant_ok ((Db.findAttempt_id ha).symm ▸ ha) hid h input.now
        exact .inr ⟨hout, a, row, hadj, rfl⟩
      · exact absurd (hterm.imp id .inl) hlive

/-- A grant that is not applied leaves deadlines and the ledger alone. -/
theorem grant_ok {db db' : Db} {validator : Option IncidentGrantValidator}
    {cap : LockedEnrollmentAttemptIdentity} {input : GrantAttemptTimeInput} {freshId : String}
    {r : GrantAttemptTimeResult}
    (h : grantAttemptTime db validator cap input freshId = .ok (r, db')) :
    (r.outcome ≠ .granted ∧ Logs input.now db db') ∨
      (r.outcome = .granted ∧ ∃ a row, Appends db a row input.now ∧ db' = db.adjust a row) := by
  rcases grant_cases h with ⟨hout, rfl | ⟨resolution, reconciled, hg, hrec⟩⟩ | happ
  · exact .inl ⟨hout, .refl⟩
  · exact .inl ⟨hout, (reconcile_changes hrec fun b _ => hg b).1⟩
  · exact .inr happ

end

/-! ## Disruption and start -/

/-- The scanner leaves the store, or opens an episode on an attempt in progress. -/
theorem markDisrupted_cases {db db' : Db} {attemptId freshId : String}
    {now heartbeatTimeoutSeconds : Int} {r : ScannerDisruptResult}
    (h : markDisrupted db attemptId now heartbeatTimeoutSeconds freshId = .ok (r, db')) :
    db' = db ∨ ∃ a policy, db.findAttempt a.id = some a ∧ a.status = .inProgress ∧
      (∀ i ∈ db.interruptions, i.id ≠ freshId) ∧ db.findDetected freshId = none ∧
      db' = db.detect a freshId now heartbeatTimeoutSeconds policy := by
  have hsame : ∀ {x : ScannerDisruptResult}, (pure (x, db) : Result _) = .ok (r, db') → db' = db := by
    intro x hx
    simp only [pure_eq_ok, Prod.mk.injEq] at hx
    exact hx.2.symm
  unfold markDisrupted at h
  split at h
  · exact .inl (hsame h)
  · rename_i a ha
    obtain rfl := Db.findAttempt_id ha
    split at h
    · exact .inl (hsame h)
    rename_i hs
    split at h
    · exact .inl (hsame h)
    split at h
    · exact .inl (hsame h)
    · simp only [bind_eq_ok, orThrow_eq_ok, pure_eq_ok, Prod.mk.injEq] at h
      obtain ⟨snapshot, -, db₁, hcreate, db₂, hins, -, rfl⟩ := h
      obtain ⟨hfresh, rfl⟩ := Db.createInterruption_eq_ok.mp hcreate
      obtain ⟨hdet, -, -, -, rfl⟩ := Db.insertInterruptionEvent_eq_ok.mp hins
      exact .inr ⟨a, snapshot.policy, ha, not_not.mp hs, hfresh, hdet rfl, rfl⟩

theorem markDisrupted_ok [Host] {db db' : Db} {attemptId freshId : String}
    {now heartbeatTimeoutSeconds : Int} {r : ScannerDisruptResult}
    (h : markDisrupted db attemptId now heartbeatTimeoutSeconds freshId = .ok (r, db')) :
    Logs now db db' := by
  rcases markDisrupted_cases h with rfl | ⟨a, policy, ha, hs, hfresh, hdet, rfl⟩
  · exact .refl
  refine .single ⟨.detect ha hs hfresh hdet, ?_, .inl (length_updateAttempt db _ _)⟩
  intro e he
  rcases List.mem_append.mp he with he | he
  · exact .inl he
  · obtain rfl := List.mem_singleton.mp he
    exact .inr ⟨Int.le_refl now, by simp [detectedEvent]⟩

structure BornTimed (exam : Exam) (now : Int) (syncDeadline : Option Int) (a : ExamAttempt) : Prop where
  deadline : a.deadlineAt = startDeadline exam now syncDeadline
  policy : ∃ snapshot, resolveAttemptTimingPolicySnapshot exam = .ok snapshot ∧
    a.interruptionTimingPolicySnapshot = some snapshot

theorem createNewAttempt_ok {db db' : Db} {input : StartAttemptInput} {syncDeadline : Option Int}
    {r : StartAttemptResult}
    (h : createNewAttempt db db.exam db.enrollment input syncDeadline = .ok (r, db'))
    (hidle : db.findActiveByEnrollment db.enrollment.id = none) (hexam : db.exam.id = input.examId)
    (hbelongs : db.enrollment.examId = input.examId ∧ db.enrollment.candidateId = input.candidateId) :
    Creates db r.attempt input ∧ checkRetake db db.exam db.enrollment = .ok () ∧
      BornTimed db.exam input.now syncDeadline r.attempt ∧
      checkSubmitFeasible db.exam input.now r.attempt.deadlineAt = .ok () ∧
      db' = db.create r.attempt := by
  simp only [createNewAttempt, bind_eq_ok, require_eq_ok, exists_const] at h
  obtain ⟨_, hretake, _, -, _, -, _, hfeasible, snapshot, hsnapshot, db₁, hcreate, -, h⟩ := h
  obtain ⟨hfresh, hno, rfl⟩ := Db.createAttempt_eq_ok.mp hcreate
  have hallow : EnrollmentAllows db.enrollment .started ∧
      r.attempt = newAttempt db.exam db.enrollment input
        (startDeadline db.exam input.now syncDeadline) snapshot ∧
      db' = db.create (newAttempt db.exam db.enrollment input
          (startDeadline db.exam input.now syncDeadline) snapshot) := by
    split at h
    · simp only [bind_eq_ok, assertEnrollmentTransition, require_eq_ok, exists_const, pure_eq_ok,
        Prod.mk.injEq] at h
      obtain ⟨ht, rfl, rfl⟩ := h
      exact ⟨.inr ht, rfl, rfl⟩
    · rename_i heq
      simp only [pure_eq_ok, Prod.mk.injEq] at h
      obtain ⟨rfl, rfl⟩ := h
      exact ⟨.inl (not_not.mp heq), rfl, rfl⟩
  obtain ⟨hstarted, hrow, rfl⟩ := hallow
  rw [hrow]
  exact ⟨⟨hfresh, hno, ⟨_, _, rfl⟩, hexam, hbelongs, hidle, hstarted⟩, hretake,
    ⟨rfl, snapshot, hsnapshot, rfl⟩, hfeasible, rfl⟩

section
variable [Host]

theorem start_ok {db db' : Db} {input : StartAttemptInput} {r : StartAttemptResult}
    (h : startOrRestoreAttempt db input = .ok (r, db')) : Commits input.now db db' := by
  simp only [startOrRestoreAttempt, bind_eq_ok, orThrow_eq_ok] at h
  obtain ⟨exam, hexam, syncDeadline, -, enrollment, henr, h⟩ := h
  obtain ⟨hid, rfl⟩ := Db.findExam_eq_some.mp hexam
  obtain ⟨he, hc, rfl⟩ := Db.findEnrollment_eq_some.mp henr
  split at h
  · rename_i hidle
    obtain ⟨hcreates, hretake, -, -, rfl⟩ := createNewAttempt_ok h hidle hid ⟨he, hc⟩
    exact Logs.commits (.single ⟨.create hcreates, fun _ he => .inl he, .inr hretake⟩)
  · simp only [bind_eq_ok, require_eq_ok, orThrow_eq_ok, exists_const] at h
    obtain ⟨locked, -, -, h⟩ := h
    split at h
    · simp only [pure_eq_ok, Prod.mk.injEq] at h
      obtain ⟨-, rfl⟩ := h
      exact Logs.commits .refl
    · simp only [bind_eq_ok, pure_eq_ok, Prod.mk.injEq] at h
      obtain ⟨⟨r₁, db₁⟩, hrestore, -, rfl⟩ := h
      exact restore_ok hrestore
    · cases h

/-! ## Submit and grade -/

theorem submit_quiets {db db' : Db} {attemptId : String} {now : Int} {opts : SubmitOptions}
    {s : ExamAttempt} (h : submitAttempt db attemptId now opts = .ok (s, db')) (t : Int) :
    Quiets t db db' := by
  obtain ⟨a, -, ⟨-, -, rfl⟩ | ⟨events, hf, -, -, rfl⟩⟩ := submitAttempt_ok h
  · exact .refl
  · exact .single (.freeze hf)

theorem submit_changes {db db' : Db} {attemptId : String} {now : Int} {opts : SubmitOptions}
    {s : ExamAttempt} (h : submitAttempt db attemptId now opts = .ok (s, db'))
    (hg : ∀ a, db.findAttempt attemptId = some a → Grounded db a opts.resolution) :
    Logs now db db' := by
  obtain ⟨a, ha, ⟨-, -, rfl⟩ | ⟨events, hf, hby, -, rfl⟩⟩ := submitAttempt_ok h
  · exact .refl
  · exact .single (freeze_logged hf (hby.recorded (hg a ha) (Int.le_refl now)))

theorem finalizeGrading_changes {db db' : Db} {cap : LockedEnrollmentAttemptIdentity} {now : Int}
    {b : Bool} (h : finalizeGrading db cap db.exam now = .ok (b, db')) : Logs now db db' := by
  obtain ⟨a, -, ⟨-, rfl⟩ | ⟨-, aggregated, hc, rfl⟩⟩ := finalizeGrading_ok h
  · exact .refl
  · exact .single (close_logged hc)

theorem gradeAttemptIdempotent_changes {db db' : Db} {cap : LockedEnrollmentAttemptIdentity} {now : Int}
    {r : ScoreResult} (h : gradeAttemptIdempotent db cap now = .ok (r, db')) : Logs now db db' := by
  obtain ⟨a, -, ⟨-, rfl⟩ | ⟨-, aggregated, hc, rfl⟩⟩ := gradeAttemptIdempotent_ok h
  · exact .refl
  · exact .single (close_logged hc)

theorem gradeManualQuestion_changes {db db' : Db} {cap : LockedEnrollmentAttemptIdentity}
    {questionId : String} {score : ℚ} {comment graderId : String} {now : Int}
    {r : GradeQuestionResult}
    (h : gradeManualQuestion db cap questionId score comment graderId now db.exam = .ok (r, db')) :
    Logs now db db' := by
  obtain ⟨a, entry, -, -, hscore, rfl | ⟨aggregated, hc, rfl⟩⟩ := gradeManualQuestion_ok h
  · exact .single (Quiet.logged (.score hscore) rfl rfl)
  · exact (Relation.ReflTransGen.single (Quiet.logged (.score hscore) rfl rfl)).tail (close_logged hc)

theorem autoSubmitAndGrade_changes {db db' : Db} {attemptId : String} {now : Int} {b : Bool}
    (h : autoSubmitAndGrade db attemptId now = .ok (b, db')) : Logs now db db' := by
  have hsame : (pure (false, db) : Result _) = .ok (b, db') → Logs now db db' := by
    intro hx
    simp only [pure_eq_ok, Prod.mk.injEq] at hx
    rw [hx.2]
  simp only [autoSubmitAndGrade, bind_eq_ok] at h
  obtain ⟨cap, -, h⟩ := h
  split at h
  · exact hsame h
  split at h
  · exact hsame h
  split at h
  · exact hsame h
  simp only [bind_eq_ok] at h
  obtain ⟨expired, -, h⟩ := h
  split at h
  · exact hsame h
  · simp only [bind_eq_ok, pure_eq_ok, Prod.mk.injEq] at h
    obtain ⟨⟨s, db₁⟩, hsub, ⟨r, db₂⟩, hgrade, -, rfl⟩ := h
    exact (submit_changes hsub fun b _ => buildResolution_grounded _ b _ _).trans
      (gradeAttemptIdempotent_changes hgrade)

theorem forceSubmit_changes {db db' : Db} {attemptId : String} {now : Int}
    {plan : ForceSubmitExecutionPlan}
    (h : runForceSubmitTransaction db attemptId now = .ok (plan, db')) : Logs now db db' := by
  simp only [runForceSubmitTransaction, bind_eq_ok, orThrow_eq_ok] at h
  obtain ⟨cap, -, locked, -, plan', -, h⟩ := h
  split at h
  · simp only [bind_eq_ok, orThrow_eq_ok, pure_eq_ok, Prod.mk.injEq] at h
    obtain ⟨⟨s, db₁⟩, hsub, ⟨r, db₂⟩, hgrade, _, -, _, -, -, rfl⟩ := h
    exact (submit_changes hsub fun b _ => buildResolution_grounded _ b _ _).trans
      (gradeAttemptIdempotent_changes hgrade)
  · simp only [bind_eq_ok, pure_eq_ok, Prod.mk.injEq] at h
    obtain ⟨_, -, -, rfl⟩ := h
    exact .refl

theorem gradeAfterSubmit_changes {db db' : Db} {cap : LockedEnrollmentAttemptIdentity} {now : Int}
    {b : Bool} (h : gradeAfterSubmit db cap now = .ok (b, db')) : Logs now db db' := by
  simp only [gradeAfterSubmit, bind_eq_ok, orThrow_eq_ok] at h
  obtain ⟨a, -, h⟩ := h
  split at h
  · simp only [pure_eq_ok, Prod.mk.injEq] at h
    rw [h.2]
  · simp only [bind_eq_ok, orThrow_eq_ok, pure_eq_ok, Prod.mk.injEq] at h
    obtain ⟨_, hread, snapshot, rfl, ⟨b₁, db₁⟩, hfin, -, rfl⟩ := h
    rw [(readGradingSnapshot_ok hread).2] at hfin
    exact finalizeGrading_changes hfin

theorem submitAndGrade_changes {db db' : Db} {attemptId candidateId : String} {now : Int} {b : Bool}
    (h : submitAndGradeAttempt db attemptId candidateId now = .ok (b, db')) : Logs now db db' := by
  simp only [submitAndGradeAttempt, bind_eq_ok, require_eq_ok, orThrow_eq_ok, exists_const] at h
  obtain ⟨cap, -, a, -, -, h⟩ := h
  have hflight : (do
      let x ← ensureAttemptDeadlineReconciled db cap now
        (buildResolution a "candidate_submit_terminalization")
      if x.1.status = .graded ∨ x.1.status = .submitted then pure (true, x.2)
      else
        let y ← submitAttempt x.2 attemptId now
          { source := some .candidate, submissionReason := none
            minSubmitAfterStartMinutes := (x.2.findExam a.examId).bind (·.minSubmitAfterStartMinutes)
            resolution := buildResolution a "candidate_submit_terminalization" }
        gradeAfterSubmit y.2 cap now : Result (Bool × Db)) = .ok (b, db') → Logs now db db' := by
    intro hx
    simp only [bind_eq_ok] at hx
    obtain ⟨⟨r, db₁⟩, hrec, hx⟩ := hx
    have hch := (reconcile_changes hrec fun b _ => buildResolution_grounded db b _ _).1
    split at hx
    · simp only [pure_eq_ok, Prod.mk.injEq] at hx
      exact hx.2 ▸ hch
    · simp only [bind_eq_ok] at hx
      obtain ⟨⟨s, db₂⟩, hsub, hgrade⟩ := hx
      exact (hch.trans (submit_changes hsub fun b _ => buildResolution_grounded _ b _ _)).trans
        (gradeAfterSubmit_changes hgrade)
  split at h
  · simp only [pure_eq_ok, Prod.mk.injEq] at h
    rw [h.2]
  · exact gradeAfterSubmit_changes h
  · exact hflight h
  · exact hflight h
  · cases h

/-! ## One step and a whole run -/

/-- A save reconciles the deadline, and then writes an answer or nothing. -/
theorem save_cases {db db' : Db} {candidateId : String} {request : SaveAnswerRequest} {now : Int}
    {validate : QuestionSnapshot → CanonicalizeAnswer} {r : ProcessSaveResult}
    (h : saveAttemptAnswer db candidateId request now validate = .ok (r, db')) :
    ∃ cap locked reconciled db₁, ensureAttemptDeadlineReconciled db cap now
        (buildResolution locked "deadline_terminalization") = .ok (reconciled, db₁) ∧
      (db' = db₁ ∨ ∃ (c : SaveCommand) (a : ExamAttempt) (question : QuestionSnapshot)
          (record : AnswerRecord)
        (receipt : AnswerReceipt), Written c db₁ a question record receipt ∧
        db' = c.write db₁ a record receipt) := by
  simp only [saveAttemptAnswer, prepareReconciledAttemptMutation, bind_eq_ok, require_eq_ok,
    orThrow_eq_ok, exists_const, pure_eq_ok] at h
  obtain ⟨cap, -, a, -, _, ⟨⟨r₁, db₁⟩, hrec, exam, -, d, -, rfl⟩, -, hsave⟩ := h
  refine ⟨cap, a, r₁, db₁, hrec, ?_⟩
  have hcases := saveStep_cases (c := ⟨_, request, some validate⟩) hsave
  rcases hcases with ⟨rfl, -⟩ | ⟨a, q, record, receipt, hw, -, rfl⟩
  · exact .inl rfl
  · exact .inr ⟨_, a, q, record, receipt, hw, rfl⟩

theorem save_changes {db db' : Db} {candidateId : String} {request : SaveAnswerRequest} {now : Int}
    {validate : QuestionSnapshot → CanonicalizeAnswer} {r : ProcessSaveResult}
    (h : saveAttemptAnswer db candidateId request now validate = .ok (r, db')) : Logs now db db' := by
  obtain ⟨cap, locked, reconciled, db₁, hrec, hcase⟩ := save_cases h
  refine (reconcile_changes hrec fun b _ => buildResolution_grounded db b _ _).1.trans ?_
  rcases hcase with rfl | ⟨c, a, q, record, receipt, hw, rfl⟩
  · exact .refl
  · exact .single (Quiet.logged (.save hw) rfl (length_updateAttempt _ _ _))

omit [Host] in
theorem heartbeat_cases {db db' : Db} {attemptId : String} {now : Int} {u : Unit}
    (h : heartbeatAttempt db attemptId now = .ok (u, db')) :
    ∃ a, db.findAttempt a.id = some a ∧ a.status = .inProgress ∧
    db' = db.updateAttempt a.id (·.touch now) := by
  simp only [heartbeatAttempt, bind_eq_ok, require_eq_ok, exists_const, pure_eq_ok, Prod.mk.injEq] at h
  obtain ⟨⟨updated, db₁⟩, href, hsome, -, rfl⟩ := h
  unfold refreshLastActivityIfInProgress at href
  have hnone : ∀ {x : Result (Option ExamAttempt × Db)}, x = pure (none, db) → x = .ok (updated,
      db₁) → False := by
    rintro x rfl hx
    simp only [pure_eq_ok, Prod.mk.injEq] at hx
    rw [← hx.1] at hsome
    cases hsome
  split at href
  · rename_i a ha
    obtain rfl := Db.findAttempt_id ha
    split at href
    · rename_i hs
      simp only [pure_eq_ok, Prod.mk.injEq] at href
      exact ⟨a, ha, hs, href.2.symm⟩
    · exact (hnone rfl href).elim
  · exact (hnone rfl href).elim

theorem heartbeat_changes {db db' : Db} {attemptId : String} {now : Int} {u : Unit}
    (h : heartbeatAttempt db attemptId now = .ok (u, db')) : Logs now db db' := by
  obtain ⟨a, ha, hs, rfl⟩ := heartbeat_cases h
  exact .single (Quiet.logged (.touch ha hs) rfl (length_updateAttempt db _ _))

def Command.now : Command → Int
  | .start input => input.now
  | .take _ _ now => now
  | .save _ _ now _ => now
  | .heartbeat _ now => now
  | .submit _ _ now => now
  | .forceSubmit _ now => now
  | .deadlineScan _ now => now
  | .heartbeatScan _ now _ _ => now
  | .restore _ now _ => now
  | .grant input _ _ => input.now
  | .grade _ _ _ _ _ now => now
  | .examWrite _ now => now

theorem step_commits (c : Command) (db : Db) (u : Unit) (db' : Db) (h : c.step db = .ok (u, db')) :
    Commits c.now db db' ∨
      ∃ exam now, c = .examWrite exam now ∧ exam.id = db.exam.id ∧ db' = { db with exam := exam } := by
  cases c with
  | start input =>
    simp only [Command.step, bind_eq_ok, pure_eq_ok, Prod.mk.injEq] at h
    obtain ⟨⟨r, db₁⟩, hx, -, rfl⟩ := h
    exact .inl (start_ok hx)
  | take attemptId candidateId now =>
    simp only [Command.step, takeAttempt, bind_eq_ok, require_eq_ok, orThrow_eq_ok, exists_const,
      pure_eq_ok, Prod.mk.injEq] at h
    obtain ⟨_, ⟨cap, -, a, -, ⟨r, db₁⟩, hrec, -, rfl⟩, -, rfl⟩ := h
    exact .inl (Logs.commits (reconcile_changes hrec fun b _ => buildResolution_grounded db b _ _).1)
  | save candidateId request now validate =>
    simp only [Command.step, bind_eq_ok, pure_eq_ok, Prod.mk.injEq] at h
    obtain ⟨⟨r, db₁⟩, hx, -, rfl⟩ := h
    exact .inl (Logs.commits (save_changes hx))
  | heartbeat attemptId now => exact .inl (Logs.commits (heartbeat_changes h))
  | submit attemptId candidateId now =>
    simp only [Command.step, bind_eq_ok, pure_eq_ok, Prod.mk.injEq] at h
    obtain ⟨⟨r, db₁⟩, hx, -, rfl⟩ := h
    exact .inl (Logs.commits (submitAndGrade_changes hx))
  | forceSubmit attemptId now =>
    simp only [Command.step, bind_eq_ok, pure_eq_ok, Prod.mk.injEq] at h
    obtain ⟨⟨r, db₁⟩, hx, -, rfl⟩ := h
    exact .inl (Logs.commits (forceSubmit_changes hx))
  | deadlineScan attemptId now =>
    simp only [Command.step, bind_eq_ok, pure_eq_ok, Prod.mk.injEq] at h
    obtain ⟨⟨r, db₁⟩, hx, -, rfl⟩ := h
    exact .inl (Logs.commits (autoSubmitAndGrade_changes hx))
  | heartbeatScan attemptId now heartbeatTimeoutSeconds freshId =>
    simp only [Command.step, bind_eq_ok, pure_eq_ok, Prod.mk.injEq] at h
    obtain ⟨⟨r, db₁⟩, hx, -, rfl⟩ := h
    exact .inl (Logs.commits (markDisrupted_ok hx))
  | restore attemptId now fresh =>
    simp only [Command.step, bind_eq_ok, pure_eq_ok, Prod.mk.injEq] at h
    obtain ⟨cap, -, ⟨r, db₁⟩, hx, -, rfl⟩ := h
    exact .inl (restore_ok hx)
  | grant input validator freshId =>
    simp only [Command.step, bind_eq_ok, pure_eq_ok, Prod.mk.injEq] at h
    obtain ⟨cap, -, ⟨r, db₁⟩, hx, -, rfl⟩ := h
    rcases grant_ok hx with ⟨-, hq⟩ | ⟨-, a, row, hadj, rfl⟩
    · exact .inl hq.commits
    · exact .inl (.adjust hadj)
  | grade attemptId questionId score comment graderId now =>
    simp only [Command.step, bind_eq_ok, orThrow_eq_ok, pure_eq_ok, Prod.mk.injEq] at h
    obtain ⟨a, -, exam, hexam, cap, -, ⟨r, db₁⟩, hx, -, rfl⟩ := h
    obtain ⟨-, rfl⟩ := Db.findExam_eq_some.mp hexam
    exact .inl (Logs.commits (gradeManualQuestion_changes hx))
  | examWrite exam now =>
    simp only [Command.step, bind_eq_ok, require_eq_ok, exists_const, pure_eq_ok, Prod.mk.injEq] at h
    obtain ⟨hid, -, rfl⟩ := h
    exact .inr ⟨exam, now, rfl, hid, rfl⟩

theorem step_transacts (c : Command) (db : Db) (u : Unit) (db' : Db) (h : c.step db = .ok (u, db')) :
    Transacts c.now db db' ∨
      ∃ exam now, c = .examWrite exam now ∧ exam.id = db.exam.id ∧ db' = { db with exam := exam } :=
  (step_commits c db u db' h).imp Commits.transacts id

theorem step_changes (c : Command) (db : Db) (u : Unit) (db' : Db) (h : c.step db = .ok (u, db')) :
    Relation.ReflTransGen SomeChange db db' := by
  rcases step_transacts c db u db' h with htx | ⟨exam, now, -, hid, rfl⟩
  · exact htx.changes
  · exact .single ⟨now, .examWrite hid⟩

theorem run_changes (cs : List Command) (db : Db) :
    Relation.ReflTransGen SomeChange db (run Command.step db cs) :=
  run_refines Command.step (fun c db u db' h => step_changes c db u db' h) cs db

theorem Commits.keeps {now : Int} {I : Db → Prop}
    (hlogged : ∀ db db', I db → Logged now db db' → I db')
    (hadjust : ∀ db a row, I db → Appends db a row now → I (db.adjust a row)) {db db' : Db}
    (h : Commits now db db') (hi : I db) : I db' := by
  obtain ⟨db₁, hadj, hl⟩ := h
  have h₁ : I db₁ := by
    rcases hadj with rfl | ⟨a, row, hadj, rfl⟩
    · exact hi
    · exact hadjust db a row hi hadj
  exact closure_invariant hlogged hl h₁

theorem run_logged {P : Int → Prop} {Q : Exam → Prop} {I : Db → Prop}
    (hlogged : ∀ now db db', P now → I db → Logged now db db' → I db')
    (hadjust : ∀ now db a row, P now → I db → Appends db a row now → I (db.adjust a row))
    (hwrite : ∀ db exam, I db → exam.id = db.exam.id → Q exam → I { db with exam := exam }) :
    ∀ (cs : List Command) (db : Db), (∀ c ∈ cs, P c.now) →
      (∀ exam now, Command.examWrite exam now ∈ cs → Q exam) → I db → I (run Command.step db cs)
  | [], _, _, _, h => h
  | c :: cs, db, hP, hQ, h => by
    have htail : ∀ db', I db' → I (run Command.step db' cs) := fun db' h' =>
      run_logged hlogged hadjust hwrite cs db' (fun c hc => hP c (List.mem_cons_of_mem _ hc))
        (fun exam now hmem => hQ exam now (List.mem_cons_of_mem _ hmem)) h'
    rw [run_cons]
    rcases hstep : c.step db with e | ⟨u, db'⟩
    · exact htail db h
    · refine htail db' ?_
      have hnow : P c.now := hP c (by simp)
      rcases step_commits c db u db' hstep with hcommits | ⟨exam, now, rfl, hid, hdb⟩
      · exact hcommits.keeps (fun db db' => hlogged _ db db' hnow)
          (fun db a row => hadjust _ db a row hnow) h
      · rw [hdb]
        exact hwrite db exam h hid (hQ exam now (by simp))

theorem run_keeping {P : Exam → Prop} {I : Db → Prop}
    (hchange : ∀ now db db', I db → Change now db db' → db'.exam = db.exam → I db')
    (hwrite : ∀ db exam, I db → P exam → I { db with exam := exam }) (cs : List Command) (db : Db)
    (hP : ∀ exam now, Command.examWrite exam now ∈ cs → P exam) (h : I db) :
    I (run Command.step db cs) :=
  run_logged (P := fun _ => True) (Q := P)
    (fun now db db' _ h hl => hchange now db db' h (.quiet hl.quiet) hl.quiet.exam)
    (fun now db _ _ _ h hadj => hchange now db _ h (.adjust hadj.adjusts) rfl)
    (fun db exam h _ hP => hwrite db exam h hP) cs db (fun _ _ => trivial) hP h

end

end ExamSystem
