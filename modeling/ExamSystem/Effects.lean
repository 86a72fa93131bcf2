import ExamSystem.Progress

/-!
# What one transaction does

A command from the store it runs in: at most one attempt is frozen, at one
instant, and it is closed in the same transaction unless a grader has to score
it. Only a restore makes two moves, the grant of time and what follows it.
-/

namespace ExamSystem

open Tx

def Command.reconciles (c : Command) (db : Db) : Option String :=
  match c with
  | .start _ => (db.findActiveByEnrollment db.enrollment.id).map (·.id)
  | .take attemptId _ _ => some attemptId
  | .save _ request _ _ => some request.attemptId
  | .submit attemptId _ _ => some attemptId
  | .restore attemptId _ _ => some attemptId
  | .grant input _ _ => some input.attemptId
  | _ => none

/-- The deadline of a disrupted attempt once a restore at `now` has granted the
time of its policy. -/
def graceDeadline (db : Db) (a : ExamAttempt) (now : Int) : Option Int :=
  match a.interruptionTimingPolicySnapshot, a.currentInterruptionId, a.interruptedAt with
  | some snapshot, some interruptionId, some interruptedAt =>
    if snapshot.policy = .boundedGrace ∧ db.findBoundedByInterruption interruptionId = none then
      match evaluateInterruptionTimePolicy
        { snapshot := snapshot
          detectedAt := interruptedAt
          decisionNow := now
          beforeDeadline := a.deadlineAt
          examCloseAt := db.exam.closeAt
          priorBoundedGraceAddedSeconds := db.sumBoundedGraceSeconds a.id } with
      | .ok decision => if 0 < decision.addedSeconds then decision.afterDeadline else a.deadlineAt
      | .error _ => a.deadlineAt
    else a.deadlineAt
  | _, _, _ => a.deadlineAt

/-- The deadline that a command finds when it reconciles a disrupted attempt. -/
def Command.due (c : Command) (db : Db) (a : ExamAttempt) : Option Int :=
  match c with
  | .start input => graceDeadline db a input.now
  | .restore _ now _ => graceDeadline db a now
  | _ => a.deadlineAt

section
variable [Host]

/-- A freeze at `t`, with the closure at `now` when nothing waits for a grader. -/
inductive Settles (db : Db) (a : ExamAttempt) (t now : Int) : Db → Prop
  | held {reason : Option SubmissionReason} {events : List AttemptInterruptionEvent}
      (hf : Freezes db a events)
      (hdated : ∀ e ∈ events, e.occurredAt = t)
        (hm : freezeStatus a.questionSnapshot = .pendingManual) :
      Settles db a t now (db.freeze a t reason events)
  | closed {reason : Option SubmissionReason} {events : List AttemptInterruptionEvent}
      {aggregated : GradingEntryAggregate}
      (hf : Freezes db a events) (hdated : ∀ e ∈ events, e.occurredAt = t)
      (hm : freezeStatus a.questionSnapshot ≠ .pendingManual)
      (hc : Closes (db.freeze a t reason events) (a.submittedRow t reason) aggregated now) :
      Settles db a t now ((db.freeze a t reason events).close (a.submittedRow t reason) aggregated now)

/-- One move at `now` of a command that reconciles the attempt `target`. -/
inductive Move (now : Int) (target : Option String) (db : Db) : Db → Prop
  | stay : Move now target db db
  | create {a : ExamAttempt} {input : StartAttemptInput} {syncDeadline : Option Int}
      (h : Creates db a input)
      (hnow : input.now = now) (hwindow : checkStartWindow db.exam now = .ok syncDeadline)
      (htimed : BornTimed db.exam now syncDeadline a) : Move now target db (db.create a)
  | touch {a : ExamAttempt} (ha : db.findAttempt a.id = some a) (hs : a.status = .inProgress) :
      Move now target db (db.updateAttempt a.id (·.touch now))
  | save {c : SaveCommand} {a : ExamAttempt} {question : QuestionSnapshot} {record : AnswerRecord}
      {receipt : AnswerReceipt}
      (h : Written c db a question record receipt) (hnow : c.context.checkedAt = now)
      (hdeadline : computeEffectiveDeadline db.exam.closeAt a.deadlineAt =
          .ok c.context.effectiveDeadline) :
      Move now target db (c.write db a record receipt)
  | detect {a : ExamAttempt} {freshId : String} {heartbeatTimeoutSeconds : Int}
      {policy : InterruptionTimePolicy}
      (ha : db.findAttempt a.id = some a) (hs : a.status = .inProgress)
        (hfresh : ∀ i ∈ db.interruptions, i.id ≠ freshId)
      (hevent : db.findDetected freshId = none) :
      Move now target db (db.detect a freshId now heartbeatTimeoutSeconds policy)
  | settle {a : ExamAttempt} {t : Int} {db' : Db} (h : Settles db a t now db')
      (ht : t = now ∨ (target = some a.id ∧ ExpiredAt db a t now)) : Move now target db db'
  | restore {a : ExamAttempt} {interruptionId : String} {interruptedAt : Int}
      {event : AttemptInterruptionEvent}
      (ha : db.findAttempt a.id = some a) (hs : a.status = .disrupted)
      (hopen : OpenInterruption db a interruptionId interruptedAt)
        (hout : OutcomeOf event a interruptionId)
      (hdated : event.occurredAt = now) : Move now target db (db.restore a now event)
  | extend {a : ExamAttempt} {row : AttemptTimeAdjustment} (h : Appends db a row now) : Move now
      target db (db.adjust a row)
  | score {a : ExamAttempt} {entry : AttemptGradingEntry} {score : ℚ} {comment graderId : String}
      (h : Scores db a entry score) :
      Move now target db (db.updateEntry a.id entry.questionId (·.complete score comment graderId now))
  | scoreLast {a : ExamAttempt} {entry : AttemptGradingEntry} {score : ℚ} {comment graderId : String}
      {aggregated : GradingEntryAggregate} (h : Scores db a entry score)
      (hc : Closes (db.updateEntry a.id entry.questionId (·.complete score comment graderId now)) a
          aggregated now) :
      Move now target db
        ((db.updateEntry a.id entry.questionId (·.complete score comment graderId now)).close a
            aggregated now)
  | close {a : ExamAttempt} {aggregated : GradingEntryAggregate} (hc : Closes db a aggregated now)
      (hm : a.gradingStatus ≠ some .pendingManual) : Move now target db (db.close a aggregated now)

variable {db db' : Db} {cap : LockedEnrollmentAttemptIdentity} {now : Int}

/-! ## Submissions -/

omit [Host] in
theorem TerminalizedBy.dated {resolution : SubmitInterruptionResolution} {a : ExamAttempt} {t : Int}
    {events : List AttemptInterruptionEvent} (h : TerminalizedBy resolution a t events) :
    ∀ e ∈ events, e.occurredAt = t := by
  intro e he
  obtain ⟨hint, interruptionId, -, -, rfl⟩ := h e he
  rfl

def GradedFrom (db : Db) (a : ExamAttempt) (now : Int) (db' : Db) : Prop :=
  (a.gradingStatus = some .pendingManual ∧ db' = db) ∨
    (a.gradingStatus ≠ some .pendingManual ∧ ∃ aggregated, Closes db a aggregated now ∧
      db' = db.close a aggregated now)

/-- A submission of an attempt in flight, graded in the same transaction. -/
theorem submit_settles {db₁ : Db} {a s : ExamAttempt} {t : Int} {opts : SubmitOptions}
    (ha : db.findAttempt a.id = some a) (hs : a.status = .inProgress ∨ a.status = .disrupted)
    (hsub : submitAttempt db a.id t opts = .ok (s, db₁))
    (hgrade : ∀ x, db₁.findAttempt a.id = some x → x.status = .submitted → GradedFrom db₁ x now db') :
    Settles db a t now db' := by
  obtain ⟨x, hx, hcase⟩ := submitAttempt_ok hsub
  obtain rfl : a = x := Option.some.inj (ha.symm.trans hx)
  rcases hcase with ⟨hdone, -⟩ | ⟨events, hf, hby, -, rfl⟩
  · rcases hs with hs | hs <;> simp [hs] at hdone
  rcases hgrade _ (findAttempt_freeze ha) rfl with ⟨hm, rfl⟩ | ⟨hm, aggregated, hc, rfl⟩
  · exact .held hf hby.dated (Option.some.inj hm)
  · exact .closed hf hby.dated (fun h => hm (congrArg some h)) hc

theorem gradeAttemptIdempotent_from {r : ScoreResult}
    (h : gradeAttemptIdempotent db cap now = .ok (r, db')) {x : ExamAttempt}
    (hx : db.findAttempt cap.attemptId = some x) (hs : x.status = .submitted) :
    GradedFrom db x now db' := by
  obtain ⟨a, ha, hcase⟩ := gradeAttemptIdempotent_ok h
  obtain rfl : a = x := Option.some.inj (ha.symm.trans hx)
  rcases hcase with ⟨hg | hm, rfl⟩ | ⟨hm, aggregated, hc, rfl⟩
  · rw [hs] at hg
    cases hg
  · exact .inl ⟨hm, rfl⟩
  · exact .inr ⟨hm, aggregated, hc, rfl⟩

theorem gradeAfterSubmit_from {b : Bool} (h : gradeAfterSubmit db cap now = .ok (b, db'))
    {x : ExamAttempt} (hx : db.findAttempt cap.attemptId = some x) (hs : x.status = .submitted) :
    GradedFrom db x now db' := by
  simp only [gradeAfterSubmit, bind_eq_ok, orThrow_eq_ok] at h
  obtain ⟨a, ha, h⟩ := h
  obtain rfl : a = x := Option.some.inj (ha.symm.trans hx)
  split at h
  · rename_i hm
    simp only [pure_eq_ok, Prod.mk.injEq] at h
    exact .inl ⟨hm, h.2.symm⟩
  · simp only [bind_eq_ok, orThrow_eq_ok, pure_eq_ok, Prod.mk.injEq] at h
    obtain ⟨_, hread, snapshot, rfl, ⟨b₁, db₁⟩, hfin, -, rfl⟩ := h
    rw [(readGradingSnapshot_ok hread).2] at hfin
    obtain ⟨y, hy, hcase⟩ := finalizeGrading_ok hfin
    obtain rfl : a = y := Option.some.inj (ha.symm.trans hy)
    rcases hcase with ⟨hg, -⟩ | ⟨hm, aggregated, hc, rfl⟩
    · rw [hs] at hg
      cases hg
    · exact .inr ⟨hm, aggregated, hc, rfl⟩

/-- Reconciliation leaves the store, or settles the attempt at its effective deadline. -/
theorem reconcile_settles {resolution : SubmitInterruptionResolution} {r : ExamAttempt}
    (h : ensureAttemptDeadlineReconciled db cap now resolution = .ok (r, db')) :
    (db.findAttempt cap.attemptId = some r ∧ db' = db) ∨
      ((r.status = .submitted ∨ r.status = .graded) ∧
        ∃ a d, a.id = cap.attemptId ∧ ExpiredAt db a d now ∧ Settles db a d now db') := by
  obtain ⟨a, ha, ⟨rfl, rfl⟩ | ⟨d, events, hexp, hf, hby, hcase⟩⟩ := reconcile_ok h
  · exact .inl ⟨ha, rfl⟩
  have hid : a.id = cap.attemptId := Db.findAttempt_id ha
  rcases hcase with ⟨hm, rfl, rfl⟩ | ⟨hm, aggregated, hc, rfl, rfl⟩
  · exact .inr ⟨.inl rfl, a, d, hid, hexp, .held hf hby.dated hm⟩
  · exact .inr ⟨.inr rfl, a, d, hid, hexp, .closed hf hby.dated hm hc⟩

/-! ## Commands -/

/-- The moves of one command: a grant of bounded grace or none, and then one
more, on an attempt whose deadline is what `due` says. -/
def Moves (now : Int) (target : Option String) (due : ExamAttempt → Option Int) (db db' : Db) : Prop :=
  (Move now target db db' ∧ ∀ a, target = some a.id → db.findAttempt a.id = some a →
    a.status = .disrupted → a.deadlineAt = due a) ∨
  ∃ a row, row.source = .boundedGrace ∧ Appends db a row now ∧ target = some a.id ∧
    some row.afterDeadline = due a ∧ Move now target (db.adjust a row) db'

theorem Move.moves {target : Option String} (h : Move now target db db') :
    Moves now target (fun a => a.deadlineAt) db db' :=
  .inl ⟨h, fun _ _ _ _ => rfl⟩

theorem reconcile_moves {resolution : SubmitInterruptionResolution} {r : ExamAttempt}
    (h : ensureAttemptDeadlineReconciled db cap now resolution = .ok (r, db')) :
    Move now (some cap.attemptId) db db' := by
  rcases reconcile_settles h with ⟨-, rfl⟩ | ⟨-, a, d, hid, hexp, hs⟩
  · exact .stay
  · exact .settle hs (.inr ⟨congrArg some hid.symm, hexp⟩)

theorem scan_moves {attemptId : String} {b : Bool} {target : Option String}
    (h : autoSubmitAndGrade db attemptId now = .ok (b, db')) : Move now target db db' := by
  have hsame : (pure (false, db) : Result _) = .ok (b, db') → Move now target db db' := by
    intro hx
    simp only [pure_eq_ok, Prod.mk.injEq] at hx
    rw [hx.2]
    exact .stay
  simp only [autoSubmitAndGrade, bind_eq_ok] at h
  obtain ⟨cap, hcap, h⟩ := h
  split at h
  · exact hsame h
  rename_i a ha
  split at h
  · exact hsame h
  rename_i hactive
  split at h
  · exact hsame h
  simp only [bind_eq_ok] at h
  obtain ⟨expired, -, h⟩ := h
  split at h
  · exact hsame h
  · simp only [bind_eq_ok, pure_eq_ok, Prod.mk.injEq] at h
    obtain ⟨⟨s, db₁⟩, hsub, ⟨r, db₂⟩, hgrade, -, rfl⟩ := h
    have hid := Db.findAttempt_id ha
    rw [← hid] at ha hsub
    refine .settle (submit_settles ha (not_not.mp hactive) hsub ?_) (.inl rfl)
    intro x hx
    rw [hid, ← lock_attemptId hcap] at hx
    exact gradeAttemptIdempotent_from hgrade hx

theorem forceSubmit_moves {attemptId : String} {plan : ForceSubmitExecutionPlan}
    {target : Option String} (h : runForceSubmitTransaction db attemptId now = .ok (plan, db')) :
    Move now target db db' := by
  simp only [runForceSubmitTransaction, bind_eq_ok, orThrow_eq_ok] at h
  obtain ⟨cap, hcap, a, ha, plan', hplan, h⟩ := h
  split at h
  · rename_i hneeds
    simp only [bind_eq_ok, orThrow_eq_ok, pure_eq_ok, Prod.mk.injEq] at h
    obtain ⟨⟨s, db₁⟩, hsub, ⟨r, db₂⟩, hgrade, _, -, _, -, -, rfl⟩ := h
    have hactive : a.status = .inProgress ∨ a.status = .disrupted := by
      unfold planForceSubmitExecution at hplan
      split at hplan
      · exact .inl ‹_›
      · exact .inr ‹_›
      all_goals
        cases hplan
        try cases hneeds
    have hid := Db.findAttempt_id ha
    rw [← hid] at ha hsub
    refine .settle (submit_settles ha hactive hsub ?_) (.inl rfl)
    intro x hx
    rw [hid, ← lock_attemptId hcap] at hx
    exact gradeAttemptIdempotent_from hgrade hx
  · simp only [bind_eq_ok, pure_eq_ok, Prod.mk.injEq] at h
    obtain ⟨_, -, -, rfl⟩ := h
    exact .stay

theorem submitAndGrade_moves {attemptId candidateId : String} {b : Bool}
    (h : submitAndGradeAttempt db attemptId candidateId now = .ok (b, db')) :
    Move now (some attemptId) db db' := by
  simp only [submitAndGradeAttempt, bind_eq_ok, require_eq_ok, orThrow_eq_ok, exists_const] at h
  obtain ⟨cap, hcap, a, ha, -, h⟩ := h
  have hattempt := lock_attemptId hcap
  have hid := Db.findAttempt_id ha
  have hflight : (a.status = .inProgress ∨ a.status = .disrupted) → (do
      let x ← ensureAttemptDeadlineReconciled db cap now
        (buildResolution a "candidate_submit_terminalization")
      if x.1.status = .graded ∨ x.1.status = .submitted then pure (true, x.2)
      else
        let y ← submitAttempt x.2 attemptId now
          { source := some .candidate, submissionReason := none
            minSubmitAfterStartMinutes := (x.2.findExam a.examId).bind (·.minSubmitAfterStartMinutes)
            resolution := buildResolution a "candidate_submit_terminalization" }
        gradeAfterSubmit y.2 cap now : Result (Bool × Db)) = .ok (b, db') →
        Move now (some attemptId) db db' := by
    intro hactive hx
    simp only [bind_eq_ok] at hx
    obtain ⟨⟨r, db₁⟩, hrec, hx⟩ := hx
    split at hx
    · simp only [pure_eq_ok, Prod.mk.injEq] at hx
      rw [← hx.2, ← hattempt]
      exact reconcile_moves hrec
    · rename_i hlive
      rcases reconcile_settles hrec with ⟨-, rfl⟩ | ⟨hdone, -⟩
      · simp only [bind_eq_ok] at hx
        obtain ⟨⟨s, db₂⟩, hsub, hgrade⟩ := hx
        rw [← hid] at ha hsub
        refine .settle (submit_settles ha hactive hsub ?_) (.inl rfl)
        intro x hx
        rw [hid, ← hattempt] at hx
        exact gradeAfterSubmit_from hgrade hx
      · exact absurd hdone.symm hlive
  split at h
  · simp only [pure_eq_ok, Prod.mk.injEq] at h
    rw [h.2]
    exact .stay
  · rename_i hs
    rw [← hattempt] at ha
    rcases gradeAfterSubmit_from h ha hs with ⟨-, rfl⟩ | ⟨hm, aggregated, hc, rfl⟩
    · exact .stay
    · exact .close hc hm
  · exact hflight (.inl ‹_›) h
  · exact hflight (.inr ‹_›) h
  · cases h

theorem save_moves {candidateId : String} {request : SaveAnswerRequest}
    {validate : QuestionSnapshot → CanonicalizeAnswer} {r : ProcessSaveResult}
    (h : saveAttemptAnswer db candidateId request now validate = .ok (r, db')) :
    Move now (some request.attemptId) db db' := by
  simp only [saveAttemptAnswer, prepareReconciledAttemptMutation, bind_eq_ok, require_eq_ok,
    orThrow_eq_ok, exists_const, pure_eq_ok] at h
  obtain ⟨cap, hcap, a, -, _, ⟨⟨r₁, db₁⟩, hrec, exam, hexam, d, hd, rfl⟩, -, hsave⟩ := h
  obtain ⟨-, rfl⟩ := Db.findExam_eq_some.mp hexam
  have hmove := reconcile_moves hrec
  rw [lock_attemptId hcap] at hmove
  let c : SaveCommand := ⟨⟨cap.attemptId, now, d⟩, request, some validate⟩
  rcases saveStep_cases (c := c) hsave with ⟨rfl, -⟩ | ⟨x, q, record, receipt, hw, -, rfl⟩
  · exact hmove
  · have hx : db₁.findAttempt cap.attemptId = some x := hw.found
    have hfound := reconcile_found hrec
    obtain rfl : r₁ = x := Option.some.inj (hfound.symm.trans hx)
    rcases reconcile_settles hrec with ⟨-, rfl⟩ | ⟨hdone, -⟩
    · exact .save hw rfl hd
    · rcases hdone with hdone | hdone
      · exact absurd hdone hw.acceptance.isMutable.not_submitted
      · exact absurd hdone hw.acceptance.isMutable.not_graded

omit [Host] in
theorem compensate_due {a : ExamAttempt} {snapshot : AttemptTimingPolicySnapshot}
    {interruptionId : String} {interruptedAt : Int} {fresh : FreshAdjustment} {d : RestoreDecision}
    (ha : db.findAttempt a.id = some a) (hsnap : a.interruptionTimingPolicySnapshot = some snapshot)
    (hp : a.currentInterruptionId = some interruptionId) (hi : a.interruptedAt = some interruptedAt)
    (h : compensateInterruption db a db.exam snapshot interruptionId interruptedAt now fresh = .ok
        (d, db')) :
    ∃ x, db'.findAttempt a.id = some x ∧ x.deadlineAt = graceDeadline db a now := by
  simp only [graceDeadline, hsnap, hp, hi]
  unfold compensateInterruption at h
  dsimp only at h
  split at h
  · rename_i hpol
    split at h
    · rename_i existing hfind
      simp only [bind_eq_ok, pure_eq_ok, Prod.mk.injEq] at h
      obtain ⟨_, -, -, rfl⟩ := h
      exact ⟨a, ha, by rw [if_neg (by simp [hfind])]⟩
    · rename_i hnone
      simp only [bind_eq_ok] at h
      obtain ⟨decision, hev, h⟩ := h
      rw [if_pos ⟨hpol, hnone⟩, hev]
      split at h
      · rename_i hpos
        simp only [bind_eq_ok, orThrow_eq_ok, pure_eq_ok, Prod.mk.injEq] at h
        obtain ⟨before, -, after, hafter, db₁, hins, -, rfl⟩ := h
        obtain ⟨-, -, -, -, -, -, rfl⟩ := Db.insertAdjustment_eq_ok.mp hins
        refine ⟨a.extend after, ?_, ?_⟩
        · exact Db.findAttempt_updateAttempt_self (f := (·.extend after)) _ a.id (fun _ => rfl) ha
        · simp only [if_pos hpos, hafter]
          rfl
      · rename_i hzero
        rw [pure_eq_ok, Prod.mk.injEq] at h
        obtain ⟨-, rfl⟩ := h
        exact ⟨a, ha, by simp only [if_neg hzero]⟩
  · rename_i hpol
    simp only [bind_eq_ok, pure_eq_ok, Prod.mk.injEq] at h
    obtain ⟨_, -, -, rfl⟩ := h
    exact ⟨a, ha, by rw [if_neg fun h => hpol h.1]⟩

/-- What a restore does once the time of its policy is granted. -/
theorem restore_moves {fresh : FreshAdjustment} {r : RestoreInterruptionResult}
    (h : restoreInterruptedAttempt db cap now fresh = .ok (r, db')) :
    Moves now (some cap.attemptId) (graceDeadline db · now) db db' := by
  simp only [restoreInterruptedAttempt, bind_eq_ok, orThrow_eq_ok] at h
  obtain ⟨a, ha, exam, hexam, h⟩ := h
  have hid : a.id = cap.attemptId := Db.findAttempt_id ha
  obtain ⟨-, rfl⟩ := Db.findExam_eq_some.mp hexam
  have hsame : ∀ {x : Result RestoreInterruptionResult}, a.status ≠ .disrupted →
      (do pure (← x, db) : Result (RestoreInterruptionResult × Db)) = .ok (r, db') →
      Moves now (some cap.attemptId) (graceDeadline db · now) db db' := by
    intro x hs hx
    simp only [bind_eq_ok, pure_eq_ok, Prod.mk.injEq] at hx
    obtain ⟨_, -, -, rfl⟩ := hx
    refine .inl ⟨.stay, fun b hb hfound hd => ?_⟩
    obtain rfl : b = a := Option.some.inj (hfound.symm.trans (Option.some.inj hb ▸ ha))
    exact absurd hd hs
  split at h
  · exact hsame (by simp [*]) h
  · exact hsame (by simp [*]) h
  · exact hsame (by simp [*]) h
  · exact hsame (by simp [*]) h
  · rename_i hs
    simp only [bind_eq_ok, orThrow_eq_ok] at h
    obtain ⟨i, hp, t, hi, snapshot, hsnap, detected, hdet, ⟨d, db₁⟩, hcomp, ⟨r₁, db₂⟩, hrec, h⟩ := h
    obtain ⟨hopen, ht⟩ := openInterruption_ok hp hi hdet
    rw [ht] at hcomp
    rw [← hid] at ha
    obtain ⟨x, hx, hdue⟩ := compensate_due ha hsnap hp hi hcomp
    obtain ⟨hcommits, -⟩ := compensate_ok ha hs hsnap hopen hcomp
    obtain ⟨hxid, hxs, hxopen⟩ : x.id = a.id ∧ x.status = .disrupted ∧ OpenInterruption db₁ x i t := by
      rcases hcommits with rfl | ⟨row, -, -, rfl⟩
      · obtain rfl : a = x := Option.some.inj (ha.symm.trans hx)
        exact ⟨rfl, hs, hopen⟩
      · obtain rfl : a.extend row.afterDeadline = x :=
          Option.some.inj ((findAttempt_adjust ha).symm.trans hx)
        exact ⟨rfl, hs, hopen.adjust row⟩
    have hmove : Move now (some cap.attemptId) db₁ db' := by
      split at h
      · simp only [bind_eq_ok, pure_eq_ok, Prod.mk.injEq] at h
        obtain ⟨_, -, -, rfl⟩ := h
        exact reconcile_moves hrec
      · rename_i hlive
        rcases reconcile_settles hrec with ⟨-, rfl⟩ | ⟨hterm, -⟩
        · simp only [restoreAttemptState, hs, bind_eq_ok, orThrow_eq_ok, pure_eq_ok, Prod.mk.injEq] at h
          obtain ⟨⟨_, db₃⟩, ⟨-, rfl⟩, db₄, hins, _, -, -, rfl⟩ := h
          obtain ⟨-, -, -, -, rfl⟩ := Db.insertInterruptionEvent_eq_ok.mp hins
          have hout : OutcomeOf (restoredEvent a.id i now snapshot.policy d) x i :=
            ⟨hxid.symm, rfl, rfl⟩
          have hrestore : Move now (some cap.attemptId) db₂ _ :=
            .restore (hxid ▸ hx) hxs hxopen hout rfl
          rw [Db.restore, hxid] at hrestore
          exact hrestore
        · exact absurd hterm hlive
    rcases hcommits with rfl | ⟨row, hsource, happ, rfl⟩
    · refine .inl ⟨hmove, fun b hb hfound _ => ?_⟩
      obtain rfl : a = b := Option.some.inj (ha.symm.trans (hid ▸ Option.some.inj hb ▸ hfound))
      obtain rfl : a = x := Option.some.inj (ha.symm.trans hx)
      exact hdue
    · obtain rfl : a.extend row.afterDeadline = x :=
        Option.some.inj ((findAttempt_adjust ha).symm.trans hx)
      exact .inr ⟨a, row, hsource, happ, congrArg some hid.symm, hdue, hmove⟩
  · cases h

theorem start_moves {input : StartAttemptInput} {r : StartAttemptResult}
    (h : startOrRestoreAttempt db input = .ok (r, db')) :
    Moves input.now ((db.findActiveByEnrollment db.enrollment.id).map (·.id))
      (graceDeadline db · input.now) db db' := by
  simp only [startOrRestoreAttempt, bind_eq_ok, orThrow_eq_ok] at h
  obtain ⟨exam, hexam, syncDeadline, hwindow, enrollment, henr, h⟩ := h
  obtain ⟨hid, rfl⟩ := Db.findExam_eq_some.mp hexam
  obtain ⟨he, hc, rfl⟩ := Db.findEnrollment_eq_some.mp henr
  split at h
  · rename_i hidle
    obtain ⟨hcreates, -, htimed, -, rfl⟩ := createNewAttempt_ok h hidle hid ⟨he, hc⟩
    refine .inl ⟨.create hcreates rfl hwindow htimed, fun b hb => ?_⟩
    rw [hidle] at hb
    cases hb
  · rename_i active hactive
    simp only [bind_eq_ok, require_eq_ok, orThrow_eq_ok, exists_const] at h
    obtain ⟨locked, hlocked, -, h⟩ := h
    have htarget : (db.findActiveByEnrollment db.enrollment.id).map (·.id) = some locked.id := by
      rw [hactive, Db.findAttempt_id hlocked]
      rfl
    rw [htarget]
    split at h
    · rename_i hs
      simp only [pure_eq_ok, Prod.mk.injEq] at h
      obtain ⟨-, rfl⟩ := h
      refine .inl ⟨.stay, fun b hb hfound hd => ?_⟩
      rw [← Option.some.inj hb, Db.findAttempt_id hlocked, hlocked] at hfound
      obtain rfl := Option.some.inj hfound
      rw [hs] at hd
      cases hd
    · simp only [bind_eq_ok, pure_eq_ok, Prod.mk.injEq] at h
      obtain ⟨⟨r₁, db₁⟩, hrestore, -, rfl⟩ := h
      exact restore_moves hrestore
    · cases h

theorem grant_moves {validator : Option IncidentGrantValidator} {input : GrantAttemptTimeInput}
    {freshId : String} {r : GrantAttemptTimeResult}
    (h : grantAttemptTime db validator cap input freshId = .ok (r, db')) :
    Move input.now (some cap.attemptId) db db' := by
  rcases grant_cases h with ⟨-, rfl | ⟨resolution, reconciled, -, hrec⟩⟩ | ⟨-, a, row, happ, rfl⟩
  · exact .stay
  · exact reconcile_moves hrec
  · exact .extend happ

theorem step_moves {c : Command} {u : Unit} (h : c.step db = .ok (u, db')) :
    Moves c.now (c.reconciles db) (c.due db) db db' ∨
      ∃ exam now, c = .examWrite exam now ∧ exam.id = db.exam.id ∧ db' = { db with exam := exam } := by
  cases c with
  | examWrite exam now =>
    simp only [Command.step, bind_eq_ok, require_eq_ok, exists_const, pure_eq_ok, Prod.mk.injEq] at h
    obtain ⟨hid, -, rfl⟩ := h
    exact .inr ⟨exam, now, rfl, hid, rfl⟩
  | heartbeat attemptId now =>
    obtain ⟨a, ha, hs, rfl⟩ := heartbeat_cases h
    exact .inl (Move.touch ha hs).moves
  | start input =>
    simp only [Command.step, bind_eq_ok, pure_eq_ok, Prod.mk.injEq] at h
    obtain ⟨⟨r, db₁⟩, hx, -, rfl⟩ := h
    exact .inl (start_moves hx)
  | take attemptId candidateId now =>
    simp only [Command.step, takeAttempt, bind_eq_ok, require_eq_ok, orThrow_eq_ok, exists_const,
      pure_eq_ok, Prod.mk.injEq] at h
    obtain ⟨_, ⟨cap, hcap, a, -, ⟨r, db₁⟩, hrec, -, rfl⟩, -, rfl⟩ := h
    refine .inl (Move.moves ?_)
    have hmove := reconcile_moves hrec
    rwa [lock_attemptId hcap] at hmove
  | save candidateId request now validate =>
    simp only [Command.step, bind_eq_ok, pure_eq_ok, Prod.mk.injEq] at h
    obtain ⟨⟨r, db₁⟩, hx, -, rfl⟩ := h
    exact .inl (save_moves hx).moves
  | submit attemptId candidateId now =>
    simp only [Command.step, bind_eq_ok, pure_eq_ok, Prod.mk.injEq] at h
    obtain ⟨⟨r, db₁⟩, hx, -, rfl⟩ := h
    exact .inl (submitAndGrade_moves hx).moves
  | forceSubmit attemptId now =>
    simp only [Command.step, bind_eq_ok, pure_eq_ok, Prod.mk.injEq] at h
    obtain ⟨⟨r, db₁⟩, hx, -, rfl⟩ := h
    exact .inl (forceSubmit_moves hx).moves
  | deadlineScan attemptId now =>
    simp only [Command.step, bind_eq_ok, pure_eq_ok, Prod.mk.injEq] at h
    obtain ⟨⟨r, db₁⟩, hx, -, rfl⟩ := h
    exact .inl (scan_moves hx).moves
  | heartbeatScan attemptId now heartbeatTimeoutSeconds freshId =>
    simp only [Command.step, bind_eq_ok, pure_eq_ok, Prod.mk.injEq] at h
    obtain ⟨⟨r, db₁⟩, hx, -, rfl⟩ := h
    rcases markDisrupted_cases hx with rfl | ⟨a, policy, ha, hs, hfresh, hdet, rfl⟩
    · exact .inl Move.stay.moves
    · exact .inl (Move.detect ha hs hfresh hdet).moves
  | restore attemptId now fresh =>
    simp only [Command.step, bind_eq_ok, pure_eq_ok, Prod.mk.injEq] at h
    obtain ⟨cap, hcap, ⟨r, db₁⟩, hx, -, rfl⟩ := h
    have hmoves := restore_moves hx
    rw [lock_attemptId hcap] at hmoves
    exact .inl hmoves
  | grant input validator freshId =>
    simp only [Command.step, bind_eq_ok, pure_eq_ok, Prod.mk.injEq] at h
    obtain ⟨cap, hcap, ⟨r, db₁⟩, hx, -, rfl⟩ := h
    have hmove := grant_moves hx
    rw [lock_attemptId hcap] at hmove
    exact .inl hmove.moves
  | grade attemptId questionId score comment graderId now =>
    simp only [Command.step, bind_eq_ok, orThrow_eq_ok, pure_eq_ok, Prod.mk.injEq] at h
    obtain ⟨a, -, exam, hexam, cap, -, ⟨r, db₁⟩, hx, -, rfl⟩ := h
    obtain ⟨-, rfl⟩ := Db.findExam_eq_some.mp hexam
    obtain ⟨a, entry, -, -, hscores, rfl | ⟨aggregated, hc, rfl⟩⟩ := gradeManualQuestion_ok hx
    · exact .inl (Move.score hscores).moves
    · exact .inl (Move.scoreLast hscores hc).moves

/-! ## The exam of a transaction -/

theorem Settles.exam {a : ExamAttempt} {t : Int} (h : Settles db a t now db') : db'.exam = db.exam := by
  cases h <;> rfl

theorem Settles.found {a : ExamAttempt} {t : Int} (h : Settles db a t now db') :
    db.findAttempt a.id = some a := by
  cases h with
  | held hf _ _ => exact hf.found
  | closed hf _ _ _ => exact hf.found

theorem Move.exam {target : Option String} (h : Move now target db db') : db'.exam = db.exam := by
  cases h with
  | settle hs _ => exact hs.exam
  | _ => rfl

theorem Moves.exam {target : Option String} {due : ExamAttempt → Option Int}
    (h : Moves now target due db db') :
    db'.exam = db.exam := by
  rcases h with ⟨hm, -⟩ | ⟨a, row, -, -, -, -, hm⟩
  · exact hm.exam
  · exact hm.exam

theorem Move.from_empty {target : Option String} (h : Move now target db db')
    (hnil : db.attempts = []) :
    db' = db ∨ ∃ syncDeadline, checkStartWindow db.exam now = .ok syncDeadline := by
  have hno : ∀ {attemptId : String} {a : ExamAttempt}, db.findAttempt attemptId = some a → False := by
    intro attemptId a ha
    have hmem := Db.findAttempt_mem ha
    rw [hnil] at hmem
    exact absurd hmem List.not_mem_nil
  cases h with
  | stay => exact .inl rfl
  | create _ _ hwindow _ => exact .inr ⟨_, hwindow⟩
  | touch ha _ => exact (hno ha).elim
  | save hw _ _ => exact (hno hw.found).elim
  | detect ha _ _ _ => exact (hno ha).elim
  | settle hs _ => exact (hno hs.found).elim
  | restore ha _ _ _ _ => exact (hno ha).elim
  | extend hadd => exact (hno hadd.adjusts.found).elim
  | score hs => exact (hno hs.found).elim
  | scoreLast hs _ => exact (hno hs.found).elim
  | close hc _ => exact (hno hc.found).elim

theorem Moves.from_empty {target : Option String} {due : ExamAttempt → Option Int}
    (h : Moves now target due db db') (hnil : db.attempts = []) :
    db' = db ∨ ∃ syncDeadline, checkStartWindow db.exam now = .ok syncDeadline := by
  rcases h with ⟨hm, -⟩ | ⟨a, row, -, happ, -, -, -⟩
  · exact hm.from_empty hnil
  · have hmem := Db.findAttempt_mem happ.adjusts.found
    rw [hnil] at hmem
    exact absurd hmem List.not_mem_nil

end

end ExamSystem
