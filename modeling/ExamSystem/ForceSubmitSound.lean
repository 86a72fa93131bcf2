import ExamSystem.Progress
import ExamSystem.AttemptRows

/-!
# The plan of a force submit

`planForceSubmitExecution` predicts what `submitAttempt` and
`gradeAttemptIdempotent` leave, and the transaction compares the two before it
commits. On every reachable store the prediction is what they leave, so the
comparison is never the reason of a rollback.
-/

namespace ExamSystem

open Tx

variable [Host]

/-! ## Grading instants -/

def Db.GradedLast (db : Db) : Prop :=
  ∀ attemptId a, db.findAttempt attemptId = some a → a.status ≠ .graded → a.gradedAt = none

theorem RowStep.gradedAt {now : Int} {db db' : Db} {a a' : ExamAttempt} (h : RowStep now db db' a a')
    (ha : a.status ≠ .graded → a.gradedAt = none) : a'.status ≠ .graded → a'.gradedAt = none := by
  intro hs'
  cases h with
  | same => exact ha hs'
  | save _ _ _ hg => exact ha hg
  | touch hs => exact ha (by rw [hs]; decide)
  | detect _ hs => exact ha (by rw [hs]; decide)
  | restore hs => exact ha (by rw [hs]; decide)
  | extend => exact ha hs'
  | freeze _ _ hf => exact ha (by rcases hf.events.active with hs | hs <;> rw [hs] <;> decide)
  | close => exact absurd rfl hs'

theorem gradedLast_change (now : Int) (db db' : Db) (h : db.GradedLast) (hc : Change now db db') :
    db'.GradedLast := by
  intro attemptId a' ha'
  rcases hc.row_cases ha' with ⟨input, hcr, -⟩ | ⟨a, ha, hstep⟩
  · obtain ⟨deadlineAt, snapshot, rfl⟩ := hcr.row
    exact fun _ => rfl
  · exact hstep.gradedAt (h attemptId a ha)

theorem Reachable.gradedLast {db : Db} (h : Reachable db) : db.GradedLast :=
  h.invariant (fun db hi attemptId a ha => by rw [hi.findAttempt] at ha; cases ha) gradedLast_change

/-! ## The execution -/

def submitThenGrade (db : Db) (cap : LockedEnrollmentAttemptIdentity) (locked : ExamAttempt)
    (now : Int) : Result Db := do
  let (_, db) ← submitAttempt db cap.attemptId now
    { source := some .proctor, submissionReason := none, minSubmitAfterStartMinutes := none
      resolution := buildResolution locked "admin_force_submit_terminalization" }
  let (_, db) ← gradeAttemptIdempotent db cap now
  pure db

def appliedPlan (locked : ExamAttempt) (now : Int) : ForceSubmitExecutionPlan :=
  { needsSubmit := true
    afterStatus := if requiresManualGrading locked.questionSnapshot then .submitted else .graded
    submittedAt := some now
    gradedAt := if requiresManualGrading locked.questionSnapshot then none else some now }

omit [Host] in
theorem appliedPlan_needsSubmit (locked : ExamAttempt) (now : Int) :
    (appliedPlan locked now).needsSubmit = true := rfl

omit [Host] in
theorem plan_of_active {locked : ExamAttempt} {now : Int}
    (hs : locked.status = .inProgress ∨ locked.status = .disrupted) :
    planForceSubmitExecution locked now = .ok (appliedPlan locked now) := by
  rcases hs with hs | hs <;> simp only [planForceSubmitExecution, hs] <;> rfl

structure ForceSubmitExecutionPlan.Foresees (plan : ForceSubmitExecutionPlan)
    (final : ExamAttempt) : Prop where
  status : final.status = plan.afterStatus
  submittedAt : final.submittedAt = plan.submittedAt
  gradedAt : final.gradedAt = plan.gradedAt

omit [Host] in
theorem assert_of_foresees {plan : ForceSubmitExecutionPlan} {final : ExamAttempt}
    (h : plan.Foresees final) :
    assertCommittedFactMatchesStored final plan = .ok () := require_true ⟨h.status, h.submittedAt,
      h.gradedAt⟩ _

section
variable {db db' : Db} {cap : LockedEnrollmentAttemptIdentity} {locked : ExamAttempt} {now : Int}

theorem executed_as_planned (hungraded : locked.gradedAt = none)
    (ha : db.findAttempt cap.attemptId = some locked)
    (hs : locked.status = .inProgress ∨ locked.status = .disrupted)
    (h : submitThenGrade db cap locked now = .ok db') :
    ∃ final, db'.findAttempt cap.attemptId = some final ∧ (appliedPlan locked now).Foresees final := by
  simp only [submitThenGrade, bind_eq_ok, pure_eq_ok] at h
  obtain ⟨⟨s, db₁⟩, hsub, ⟨r, db₂⟩, hgrade, rfl⟩ := h
  have hid : locked.id = cap.attemptId := Db.findAttempt_id ha
  obtain ⟨a, ha', hcases⟩ := submitAttempt_ok hsub
  obtain rfl : locked = a := Option.some.inj (ha.symm.trans ha')
  rcases hcases with ⟨hdone, -, -⟩ | ⟨events, hf, -, -, rfl⟩
  · rcases hs with hs | hs <;> rw [hs] at hdone <;> simp at hdone
  have hfrozen : (db.freeze locked now none events).findAttempt
      cap.attemptId = some (locked.submittedRow now none) :=
    hid ▸ findAttempt_freeze hf.found
  obtain ⟨b, hb, hcases⟩ := gradeAttemptIdempotent_ok hgrade
  obtain rfl : locked.submittedRow now none = b := Option.some.inj (hfrozen.symm.trans hb)
  have hstatus : (locked.submittedRow now none).gradingStatus = some .pendingManual ↔
      requiresManualGrading locked.questionSnapshot = true := by
    simp only [ExamAttempt.submittedRow, ExamAttempt.freeze, freezeStatus]
    cases requiresManualGrading locked.questionSnapshot <;> decide
  rcases hcases with ⟨hheld, rfl⟩ | ⟨hauto, aggregated, hclose, rfl⟩
  · -- manual grading holds the attempt: it stays submitted
    have hmanual :=
      hstatus.mp (hheld.resolve_left (by simp [ExamAttempt.submittedRow, ExamAttempt.freeze]))
    refine ⟨_, hfrozen, ?_, rfl, ?_⟩
    · simp [appliedPlan, hmanual, ExamAttempt.submittedRow, ExamAttempt.freeze]
    · simp [appliedPlan, hmanual, ExamAttempt.submittedRow, ExamAttempt.freeze, hungraded]
  · have hmanual : requiresManualGrading locked.questionSnapshot = false := by
      rw [Bool.eq_false_iff]
      exact fun hm => hauto (hstatus.mpr hm)
    have hrow : (db.freeze locked now none events).findAttempt
        (locked.submittedRow now none).id = some (locked.submittedRow now none) :=
      hid ▸ hfrozen
    refine ⟨(locked.submittedRow now none).gradedRow aggregated now,
      (congrArg _ hid.symm).trans (findAttempt_close hrow), ?_, ?_, ?_⟩
    · simp [appliedPlan, hmanual, ExamAttempt.gradedRow]
    · rfl
    · simp [appliedPlan, hmanual, ExamAttempt.gradedRow]

/-- The transaction is the two engine calls: its comparison rejects nothing. -/
theorem transaction_unchecked {attemptId : String} (hungraded : locked.gradedAt = none)
    (ha : db.findAttempt attemptId = some locked)
    (hs : locked.status = .inProgress ∨ locked.status = .disrupted) :
    runForceSubmitTransaction db attemptId now = (do
      let cap ← lockEnrollmentAndAttempt db attemptId
      let db' ← submitThenGrade db cap locked now
      pure (appliedPlan locked now, db')) := by
  simp only [runForceSubmitTransaction, submitThenGrade]
  cases hcap : lockEnrollmentAndAttempt db attemptId with
  | error e => rfl
  | ok cap =>
    obtain rfl := lock_attemptId hcap
    simp only [ok_bind, ha, orThrow_some, plan_of_active hs, appliedPlan_needsSubmit, if_true]
    cases hsub : submitAttempt db cap.attemptId now
        { source := some .proctor, submissionReason := none, minSubmitAfterStartMinutes := none
          resolution := buildResolution locked "admin_force_submit_terminalization" } with
    | error e => rfl
    | ok r =>
      obtain ⟨s, db₁⟩ := r
      simp only [ok_bind]
      cases hgrade : gradeAttemptIdempotent db₁ cap now with
      | error e => rfl
      | ok r =>
        obtain ⟨g, db₂⟩ := r
        have hexec : submitThenGrade db cap locked now = .ok db₂ := by
          simp only [submitThenGrade, hsub, hgrade, ok_bind]
          rfl
        obtain ⟨final, hfinal, hforesees⟩ := executed_as_planned hungraded ha hs hexec
        simp only [ok_bind, hfinal, orThrow_some, assert_of_foresees hforesees]
        rfl

end

/-- Over every run, for an attempt in flight: the plan is what the submit and the
grading at its instant leave, and the transaction fails only where one of them does. -/
theorem plan_is_executed (db₀ : Db) (h₀ : Initial db₀) (cs : List Command) (attemptId : String)
    (now : Int) (locked : ExamAttempt)
    (ha : (run Command.step db₀ cs).findAttempt attemptId = some locked)
    (hs : locked.status = .inProgress ∨ locked.status = .disrupted) :
    ∃ plan, planForceSubmitExecution locked now = .ok plan ∧
      (∀ cap db', lockEnrollmentAndAttempt (run Command.step db₀ cs) attemptId = .ok cap →
        submitThenGrade (run Command.step db₀ cs) cap locked now = .ok db' →
        ∃ final, db'.findAttempt attemptId = some final ∧ plan.Foresees final) ∧
      runForceSubmitTransaction (run Command.step db₀ cs) attemptId now = (do
        let cap ← lockEnrollmentAndAttempt (run Command.step db₀ cs) attemptId
        let db' ← submitThenGrade (run Command.step db₀ cs) cap locked now
        pure (plan, db')) := by
  have hungraded : locked.gradedAt = none := by
    apply (reachable_run h₀.reachable cs).gradedLast attemptId locked ha
    rcases hs with hs | hs <;> rw [hs] <;> decide
  refine ⟨appliedPlan locked now, plan_of_active hs, ?_, transaction_unchecked hungraded ha hs⟩
  intro cap db' hcap hexec
  obtain rfl := lock_attemptId hcap
  exact executed_as_planned hungraded ha hs hexec

omit [Host] in
theorem plan_is_executed_sample :
    ∃ plan, planForceSubmitExecution sampleAttempt 1000 = .ok plan ∧ plan.submittedAt = some 1000 ∧
      ∃ db', @runForceSubmitTransaction sampleHost sampleDb "attempt" 1000 = .ok (plan, db') := by
  let _ : Host := sampleHost
  have hrun : run Command.step sampleInitial [sampleStart] = sampleDb := by decide +kernel
  obtain ⟨plan, hplan, -, htx⟩ := plan_is_executed sampleInitial sampleInitial_initial
    [sampleStart] "attempt" 1000 sampleAttempt
    (hrun ▸ rfl) (.inl rfl)
  rw [hrun] at htx
  cases hok : runForceSubmitTransaction sampleDb "attempt" 1000 with
  | error e =>
    have hcommits : (runForceSubmitTransaction sampleDb "attempt" 1000).toOption.isSome := by
      decide +kernel
    rw [hok] at hcommits
    cases hcommits
  | ok r =>
    have hstored := htx.symm.trans hok
    simp only [bind_eq_ok, pure_eq_ok] at hstored
    obtain ⟨_, _, db', _, rfl⟩ := hstored
    have happlied : plan = appliedPlan sampleAttempt 1000 :=
      Except.ok.inj (hplan.symm.trans (plan_of_active (.inl rfl)))
    exact ⟨plan, hplan, by rw [happlied]; rfl, db', rfl⟩

end ExamSystem
