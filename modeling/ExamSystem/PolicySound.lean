import ExamSystem.ExamRoutes
import ExamSystem.PublishSound

/-!
# The policy of a live exam

Publish freezes a valid policy, and of the later commands only an edit of the
published schedule can spoil it.
-/

namespace ExamSystem

open Tx

/-! ## Policies and their window -/

def Exam.ValidPolicy (exam : Exam) : Prop := validateExamPolicy (resolveExamPolicy exam) = []

theorem conflictIf_eq_nil {c : Prop} [Decidable c] {conflict : ExamPolicyConflict} :
    conflictIf c conflict = [] ↔ ¬ c := by
  unfold conflictIf
  split <;> simp_all

theorem window_ordered {p : ResolvedExamPolicy} (h : validateExamPolicy p = []) :
    ∀ close ∈ p.closeAt, p.openAt < close := by
  simp only [validateExamPolicy, List.append_eq_nil_iff, conflictIf_eq_nil] at h
  intro close hclose
  by_contra hle
  exact h.1.1.1.1.1 ⟨close, hclose, not_lt.mp hle⟩

theorem matrix_eq_nil {p : ResolvedExamPolicy} : validateTimingModeMatrix p = [] ↔
    match p.timingMode with
    | .timedWindow => p.durationMinutes ≠ none ∧ p.closeAt ≠ none
    | .deadline => p.durationMinutes = none ∧ p.closeAt ≠ none ∧ p.interruptionTimePolicy = .strict
    | .untimed => p.durationMinutes = none ∧ p.closeAt = none ∧ p.interruptionTimePolicy = .strict
    | .timedSync => False := by
  unfold validateTimingModeMatrix timingModeInvalid
  cases p.timingMode with
  | timedSync => simp
  | timedWindow =>
    dsimp only
    split
    · simp [*]
    · split <;> simp [*]
  | deadline =>
    dsimp only
    split
    · simp [*]
    · split
      · simp [*]
      · split <;> simp_all
  | untimed =>
    dsimp only
    split
    · simp [*]
    · split
      · simp [*]
      · split <;> simp_all

theorem window_valid_iff {p : ResolvedExamPolicy} (h : validateExamPolicy p = []) {openAt : Int}
    {closeAt : Option Int} (hclear : closeAt = none → p.timingMode = .untimed) :
    validateExamPolicy { p with openAt := openAt, closeAt := closeAt } = [] ↔
      (∀ close ∈ closeAt, openAt < close) ∧ (p.timingMode = .untimed → closeAt = none) := by
  simp only [validateExamPolicy, List.append_eq_nil_iff, conflictIf_eq_nil] at h ⊢
  obtain ⟨⟨⟨⟨⟨hwindow, hmatrix⟩, hscore⟩, hretake⟩, hcaps⟩, hflags⟩ := h
  rw [matrix_eq_nil] at hmatrix ⊢
  have hmode : (match p.timingMode with
      | .timedWindow => p.durationMinutes ≠ none ∧ closeAt ≠ none
      | .deadline => p.durationMinutes = none ∧ closeAt ≠ none ∧ p.interruptionTimePolicy = .strict
      | .untimed => p.durationMinutes = none ∧ closeAt = none ∧ p.interruptionTimePolicy = .strict
      | .timedSync => False) ↔ (p.timingMode = .untimed → closeAt = none) := by
    cases hm : p.timingMode <;> simp_all
  have hordered : (¬ ∃ close ∈ closeAt, close ≤ openAt) ↔ ∀ close ∈ closeAt, openAt < close := by
    simp only [not_exists, not_and, not_le]
  constructor
  · rintro ⟨⟨⟨⟨⟨hw, hm⟩, -⟩, -⟩, -⟩, -⟩
    exact ⟨hordered.mp hw, hmode.mp hm⟩
  · rintro ⟨hw, hm⟩
    exact ⟨⟨⟨⟨⟨hordered.mpr hw, hmode.mpr hm⟩, hscore⟩, hretake⟩, hcaps⟩, hflags⟩

/-! ## The status of the exam -/

def Exam.withStatus (exam : Exam) (status : ExamStatus) : Exam := { exam with status := status }

theorem Exam.ValidPolicy.withStatus {exam : Exam} (h : exam.ValidPolicy) (status : ExamStatus) :
    (exam.withStatus status).ValidPolicy := h

def Exam.Live (exam : Exam) : Prop := exam.status = .published ∨ exam.status = .open

def Exam.Sound (exam : Exam) : Prop := exam.Live → exam.ValidPolicy

theorem transitionExam_ok {db db' : Db} {examId : String} {target : ExamStatus} {exam : Exam}
    (h : transitionExam db examId target = .ok (exam, db')) :
    target ∈ examTransitions db.exam.status ∧ exam = db.exam.withStatus target ∧
    db' = { db with exam := exam } := by
  simp only [transitionExam, bind_eq_ok, orThrow_eq_ok, assertExamTransition, require_eq_ok,
    exists_const, pure_eq_ok, Prod.mk.injEq] at h
  obtain ⟨e, he, htarget, rfl, rfl⟩ := h
  obtain ⟨-, rfl⟩ := Db.findExam_eq_some.mp he
  exact ⟨htarget, rfl, rfl⟩

theorem closeExam_ok {db db' : Db} {examId : String} {exam : Exam}
    (h : closeExam db examId = .ok (exam, db')) :
    (db.exam.status = .closed ∨ .closed ∈ examTransitions db.exam.status) ∧
      exam = db.exam.withStatus .closed ∧ db' = { db with exam := exam } := by
  simp only [closeExam, bind_eq_ok, orThrow_eq_ok] at h
  obtain ⟨e, he, h⟩ := h
  obtain ⟨-, rfl⟩ := Db.findExam_eq_some.mp he
  split at h
  · rename_i hs
    simp only [pure_eq_ok, Prod.mk.injEq] at h
    obtain ⟨rfl, rfl⟩ := h
    have hrow : db.exam = db.exam.withStatus .closed := by
      rw [← hs]
      rfl
    exact ⟨.inl hs, hrow, rfl⟩
  · obtain ⟨htarget, hrow⟩ := transitionExam_ok h
    exact ⟨.inr htarget, hrow⟩

/-- What the clock has done to the status: nothing, or it opened a published
exam, or it closed the exam. -/
inductive Reconciled (now : Int) (exam : Exam) : Exam → Prop
  | same (h : ¬ (exam.status = .published ∧ exam.openAt ≤ now ∧
        exam.timingMode ≠ .timedSync)) : Reconciled now exam exam
  | opened (h : exam.status = .published) : Reconciled now exam (exam.withStatus .open)
  | closed (h : exam.Live) : Reconciled now exam (exam.withStatus .closed)

theorem checkAndUpdateExamStatus_ok {db db' : Db} {examId : String} {now : Int} {exam : Exam}
    (h : checkAndUpdateExamStatus db examId now = .ok (exam, db')) :
    Reconciled now db.exam exam ∧ db' = { db with exam := exam } := by
  simp only [checkAndUpdateExamStatus, bind_eq_ok, orThrow_eq_ok] at h
  obtain ⟨e, he, h⟩ := h
  obtain ⟨-, rfl⟩ := Db.findExam_eq_some.mp he
  split at h
  · rename_i hdue
    simp only [bind_eq_ok] at h
    obtain ⟨⟨e₁, db₁⟩, hopen, h⟩ := h
    obtain ⟨-, rfl, rfl⟩ := transitionExam_ok hopen
    split at h
    · obtain ⟨-, rfl, rfl⟩ := closeExam_ok h
      exact ⟨.closed (.inl hdue.1), rfl⟩
    · simp only [pure_eq_ok, Prod.mk.injEq] at h
      obtain ⟨rfl, rfl⟩ := h
      exact ⟨.opened hdue.1, rfl⟩
  · rename_i hdue
    simp only [bind_eq_ok, pure_eq_ok] at h
    obtain ⟨_, rfl, h⟩ := h
    split at h
    · rename_i hover
      obtain ⟨-, rfl, rfl⟩ := closeExam_ok h
      exact ⟨.closed (.inr hover.1), rfl⟩
    · simp only [pure_eq_ok, Prod.mk.injEq] at h
      obtain ⟨rfl, rfl⟩ := h
      exact ⟨.same hdue, rfl⟩

theorem Reconciled.sound {now : Int} {exam exam' : Exam} (h : Reconciled now exam exam')
    (hs : exam.Sound) : exam'.Sound := by
  cases h with
  | same _ => exact hs
  | opened hp => exact fun _ => (hs (.inl hp)).withStatus .open
  | closed hl => exact fun _ => (hs hl).withStatus .closed

theorem Reconciled.published {now : Int} {exam exam' : Exam} (h : Reconciled now exam exam')
    (hp : exam'.status = .published) :
    exam' = exam ∧ (exam.timingMode ≠ .timedSync → now < exam.openAt) := by
  cases h with
  | same hdue =>
    refine ⟨rfl, fun hmode => ?_⟩
    by_contra hle
    exact hdue ⟨hp, not_lt.mp hle, hmode⟩
  | opened _ => cases hp
  | closed _ => cases hp

/-! ## The commands -/

/-- The condition on an edit of the published schedule: the window it leaves is
ordered, and an untimed exam gets no close. -/
def KeepsWindow (exam : Exam) (data : UpdateExamRequest) : Prop :=
  (∀ close ∈ data.closeAt.getD exam.closeAt, data.openAt.getD exam.openAt < close) ∧
    (exam.timingMode = .untimed → data.closeAt.getD none = none)

instance (exam : Exam) (data : UpdateExamRequest) : Decidable (KeepsWindow exam data) :=
  inferInstanceAs (Decidable (_ ∧ _))

theorem updateSchedule_valid_iff {exam exam' : Exam} {data : UpdateExamRequest}
    (hvalid : exam.ValidPolicy) (h : updateSchedule exam data = .ok exam') :
    exam'.ValidPolicy ↔ KeepsWindow exam data := by
  simp only [updateSchedule, bind_eq_ok, require_eq_ok, exists_const, pure_eq_ok] at h
  obtain ⟨-, hclear, rfl⟩ := h
  have hmatrix := matrix_eq_nil.mp (validPolicy_matrix hvalid)
  have hnone : data.closeAt.getD exam.closeAt = none → exam.timingMode = .untimed := by
    intro hnone
    by_contra hmode
    cases hsent : data.closeAt with
    | some sent =>
      rw [hsent] at hnone hclear
      exact hclear ⟨congrArg some hnone, hmode⟩
    | none =>
      rw [hsent] at hnone
      change exam.closeAt = none at hnone
      cases hm : exam.timingMode <;> simp [resolveExamPolicy, hm, hnone] at hmatrix hmode
  have huntimed : exam.timingMode = .untimed → exam.closeAt = none := by
    intro hm
    simp only [resolveExamPolicy, hm] at hmatrix
    exact hmatrix.2.1
  unfold Exam.ValidPolicy KeepsWindow
  refine (window_valid_iff hvalid hnone).trans (and_congr_right fun _ => forall_congr' fun hm => ?_)
  cases data.closeAt with
  | none => simp [huntimed hm]
  | some sent => rfl

theorem updateDraft_status {exam exam' : Exam} {data : UpdateExamRequest}
    {found : List (Option Question)} (h : updateDraft exam data found = .ok exam') :
    exam'.status = exam.status := by
  unfold updateDraft at h
  split at h
  · rw [pure_eq_ok] at h
    rw [h]
  · split at h
    all_goals split at h
    all_goals simp only [bind_eq_ok, pure_eq_ok] at h
    · obtain ⟨-, -, -, -, -, -, rfl⟩ := h
      rfl
    · obtain ⟨-, -, -, -, rfl⟩ := h
      rfl
    · obtain ⟨-, -, -, -, rfl⟩ := h
      rfl
    · obtain ⟨-, -, rfl⟩ := h
      rfl

theorem extendExam_ok {db db' : Db} {examId : String} {extendMinutes : Int} {exam : Exam}
    (h : extendExam db examId extendMinutes = .ok (exam, db')) (hs : db.exam.Sound) :
    exam.ValidPolicy ∧ db' = { db with exam := exam } := by
  simp only [extendExam, bind_eq_ok, orThrow_eq_ok, require_eq_ok, exists_const, pure_eq_ok,
    Prod.mk.injEq] at h
  obtain ⟨hpos, e, he, hopen, close, hclose, rfl, rfl⟩ := h
  obtain ⟨-, rfl⟩ := Db.findExam_eq_some.mp he
  have hvalid : db.exam.ValidPolicy := hs (.inr hopen)
  refine ⟨(window_valid_iff hvalid ?_).mpr ⟨?_, ?_⟩, rfl⟩
  · intro hnone
    cases hnone
  · intro later hlater
    obtain rfl := Option.some.inj hlater
    have hlt : db.exam.openAt < close := window_ordered hvalid close hclose
    change db.exam.openAt < close + extendMinutes * 60000
    omega
  · intro hmode
    have hmatrix := matrix_eq_nil.mp (validPolicy_matrix hvalid)
    change db.exam.timingMode = .untimed at hmode
    simp [resolveExamPolicy, hmode, hclose] at hmatrix

theorem closed_sound {exam : Exam} : (exam.withStatus .closed).Sound := by
  intro hlive
  rcases hlive with hs | hs <;> cases hs

theorem draft_sound {exam : Exam} (h : exam.status = .draft) : exam.Sound := by
  intro hlive
  rcases hlive with hs | hs <;> rw [h] at hs <;> cases hs

theorem updateExam_sound {db db' : Db} {examId : String} {data : UpdateExamRequest}
    {found : List (Option Question)} {now : Int} {r : Exam} (hs : db.exam.Sound)
    (hkeep : data.onlySchedule = true → db.exam.status = .published → now < db.exam.openAt →
      KeepsWindow db.exam data) (h : updateExam db examId data found now = .ok (r, db')) :
    db'.exam.Sound := by
  simp only [updateExam, bind_eq_ok, orThrow_eq_ok] at h
  obtain ⟨existing, hfound, h⟩ := h
  split at h
  · simp only [pure_eq_ok, Prod.mk.injEq] at h
    obtain ⟨-, rfl⟩ := h
    exact hs
  · simp only [bind_eq_ok] at h
    obtain ⟨⟨exam, db₁⟩, hrec, h⟩ := h
    obtain ⟨hreconciled, rfl⟩ := checkAndUpdateExamStatus_ok hrec
    split at h
    · rename_i hdraft
      simp only [bind_eq_ok, pure_eq_ok, Prod.mk.injEq] at h
      obtain ⟨updated, hup, -, rfl⟩ := h
      exact draft_sound ((updateDraft_status hup).trans hdraft)
    · rename_i hpub
      simp only [bind_eq_ok, pure_eq_ok, Prod.mk.injEq] at h
      obtain ⟨updated, hup, -, rfl⟩ := h
      obtain ⟨rfl, hbefore⟩ := hreconciled.published hpub
      have hvalid : db.exam.ValidPolicy := hs (.inl hpub)
      have hmode : db.exam.timingMode ≠ .timedSync := by
        intro hmode
        have hmatrix := matrix_eq_nil.mp (validPolicy_matrix hvalid)
        simp [resolveExamPolicy, hmode] at hmatrix
      have honly : data.onlySchedule = true := by
        simp only [updateSchedule, bind_eq_ok, require_eq_ok, exists_const] at hup
        exact hup.1
      exact fun _ => (updateSchedule_valid_iff hvalid hup).mpr (hkeep honly hpub (hbefore hmode))
    · cases h

section
variable [Host] [RichContent]

theorem publishExam_valid {db db' : Db} {examId : String} {questions : List Question} {exam : Exam}
    (h : publishExam db examId questions = .ok (exam, db')) : exam.ValidPolicy := by
  simp only [publishExam, bind_eq_ok, orThrow_eq_ok, require_eq_ok, exists_const, pure_eq_ok,
    Prod.mk.injEq] at h
  obtain ⟨draft, -, _, hrow, -, -, -, questionSnapshot, -, -, -, rfl, -⟩ := h
  have hvalid : assertExamPolicyValid draft = .ok () := checkExamRow_ok hrow
  exact assertExamPolicyValid_eq_ok.mp hvalid

/-- Edits of the published schedule, while the exam waits for its opening, keep
the window sound; the other commands are free. -/
def ExamCommand.KeepsPolicy (c : ExamCommand) (db : Db) : Prop :=
  match c with
  | .update data _ now =>
    data.onlySchedule = true → db.exam.status = .published → now < db.exam.openAt →
      KeepsWindow db.exam data
  | _ => True

instance : ∀ (c : ExamCommand) (db : Db), Decidable (c.KeepsPolicy db)
  | .update data _ now, db =>
    inferInstanceAs (Decidable (data.onlySchedule = true → db.exam.status = .published →
        now < db.exam.openAt →
      KeepsWindow db.exam data))
  | .publish _, _ | .unpublish _, _ | .extend _ _, _ | .reconcile _, _ | .close _, _ =>
    inferInstanceAs (Decidable True)

theorem ExamCommand.step_sound {c : ExamCommand} {db db' : Db} {r : Exam} (hs : db.exam.Sound)
    (hkeep : c.KeepsPolicy db) (h : c.step db = .ok (r, db')) : db'.exam.Sound := by
  cases c with
  | update data found now => exact updateExam_sound hs hkeep h
  | publish questions =>
    unfold ExamCommand.step publishRoute at h
    dsimp only at h
    split at h
    · cases h
    · have hvalid := publishExam_valid h
      obtain ⟨-, -, rfl, -⟩ := publishExam_ok h
      exact fun _ => hvalid
  | unpublish now =>
    simp only [ExamCommand.step, unpublishRoute, bind_eq_ok, require_eq_ok, exists_const] at h
    obtain ⟨⟨exam, db₁⟩, -, -, h⟩ := h
    obtain ⟨-, rfl, rfl⟩ := transitionExam_ok h
    exact draft_sound rfl
  | extend extendMinutes now =>
    simp only [ExamCommand.step, extendRoute, bind_eq_ok, require_eq_ok, exists_const] at h
    obtain ⟨⟨exam, db₁⟩, hrec, -, h⟩ := h
    obtain ⟨hreconciled, rfl⟩ := checkAndUpdateExamStatus_ok hrec
    obtain ⟨hvalid, rfl⟩ := extendExam_ok h (hreconciled.sound hs)
    exact fun _ => hvalid
  | reconcile now =>
    obtain ⟨hrec, rfl⟩ := checkAndUpdateExamStatus_ok h
    exact hrec.sound hs
  | close now =>
    simp only [ExamCommand.step, closeRoute, bind_eq_ok, require_eq_ok, exists_const] at h
    obtain ⟨⟨exam, db₁⟩, -, -, h⟩ := h
    split at h
    · cases h
    · obtain ⟨-, rfl, rfl⟩ := closeExam_ok h
      exact closed_sound

/-- From the created draft on, over every run whose schedule edits keep the
window, a live exam has a valid policy. -/
theorem live_policy_valid (db : Db) (data : CreateExamRequest)
    (profile : Option (Option ExamProfilePolicyDefaults)) (courseExists : Bool)
    (found : List (Option Question)) (freshId : String) (exam : Exam)
    (hcreate : createExam data profile courseExists found freshId = .ok exam)
    (cs : List ExamCommand)
    (hkeep : Along ExamCommand.step ExamCommand.KeepsPolicy { db with exam := exam } cs) :
    (run ExamCommand.step { db with exam := exam } cs).exam.Live →
      validateExamPolicy
        (resolveExamPolicy (run ExamCommand.step { db with exam := exam } cs).exam) = [] := by
  have hdraft : exam.status = .draft := by
    simp only [createExam, bind_eq_ok, pure_eq_ok] at hcreate
    obtain ⟨-, -, -, -, -, -, -, -, -, -, -, -, rfl⟩ := hcreate
    rfl
  exact run_along (P := fun db => db.exam.Sound) ExamCommand.step
    (fun _ _ _ _ hs hk h => ExamCommand.step_sound hs hk h)
    cs _ (draft_sound hdraft) hkeep

end

/-! ## Edits of a published schedule -/

def sampleFlagsPatch : ControlFlagsPatch :=
  { shuffleQuestions := none, shuffleOptions := none, detectTabSwitch := none, disableCopyPaste := none
    requireQueue := none, batchSize := none, batchInterval := none, restrictIp := none
    requireLockdown := none
    showResultImmediately := none }

/-- A request for an exam on the two questions of the sample bank. -/
def sampleCreate (timingMode : TimingMode) (durationMinutes closeAt : Option Int) : CreateExamRequest :=
  { courseId := "course", timingMode := some timingMode, durationMinutes := some durationMinutes,
    openAt := 1000
    closeAt := closeAt, passingScore := 3, totalScore := 5, questionSelectionMode := none
    questionIds := ["q1", "q2"]
    controlFlags := sampleFlagsPatch, retakePolicy := none, scoreStrategy := none, maxAttempts := none
    latestStartOffsetMinutes := none, minSubmitAfterStartMinutes := none, resultPublicationMode := none
    interruptionTimePolicy := none, interruptionGracePerIncidentSeconds := none
    interruptionGracePerAttemptSeconds := none }

def sampleEdit (openAt : Option Int) (closeAt : Option (Option Int)) : UpdateExamRequest :=
  { hasText := false, textDiffers := false, timingMode := none, durationMinutes := none,
    openAt := openAt
    closeAt := closeAt, passingScore := none, totalScore := none, questionIds := none
    controlFlags := none
    retakePolicy := none, scoreStrategy := none, maxAttempts := none, latestStartOffsetMinutes := none
    minSubmitAfterStartMinutes := none, resultPublicationMode := none, interruptionTimePolicy := none
    interruptionGracePerIncidentSeconds := none, interruptionGracePerAttemptSeconds := none }

def sampleStore (data : CreateExamRequest) : Db := { sampleInitial with exam := data.draft none "exam" }

/-- An opening moved past the close, and a close set for an untimed exam: both
edits are accepted, and the published exam has a policy that the validator rejects. -/
theorem live_policy_invalid :
    let data := sampleCreate .timedWindow (some 60) (some 600000)
    let untimed := sampleCreate .untimed none none
    let db := run (@ExamCommand.step sampleHost sampleContent) (sampleStore data)
      [.publish sampleBank, .update (sampleEdit (some 700000) none) [] 0]
    let db' := run (@ExamCommand.step sampleHost sampleContent) (sampleStore untimed)
      [.publish sampleBank, .update (sampleEdit none (some (some 600000))) [] 0]
    createExam data none true (sampleBank.map some) "exam" = .ok (sampleStore data).exam ∧
      db.exam.status = .published ∧ validateExamPolicy (resolveExamPolicy db.exam) ≠ [] ∧
      createExam untimed none true (sampleBank.map some) "exam" = .ok (sampleStore untimed).exam ∧
      db'.exam.status = .published ∧ validateExamPolicy (resolveExamPolicy db'.exam) ≠ [] := by
  decide +kernel

/-- A published exam whose window is moved as a whole, opened by the clock and extended. -/
theorem live_policy_valid_sample :
    validateExamPolicy (resolveExamPolicy
      (run (@ExamCommand.step sampleHost sampleContent)
          (sampleStore (sampleCreate .timedWindow (some 60) (some 600000)))
        [.publish sampleBank, .update (sampleEdit (some 700000) (some (some 800000))) [] 0,
          .reconcile 700000, .extend 5 750000]).exam) = [] :=
  @live_policy_valid sampleHost sampleContent sampleInitial (sampleCreate .timedWindow (some 60)
      (some 600000)) none true
    (sampleBank.map some) "exam" _ (by decide +kernel) _ (by decide +kernel) (.inr (by decide +kernel))

end ExamSystem
