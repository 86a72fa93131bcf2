import ExamSystem.CandidateView
import ExamSystem.GradedAtOnce
import ExamSystem.TwoRuns

/-!
# Hidden results

Two stores that differ in the results of the candidate alone, run side by side.
While the result is hidden, neither the detail of the exam nor a start tells
them apart.
-/

namespace ExamSystem

open Tx TwoRuns

/-! ## Stores that differ in results -/

/-- The same attempt up to the values of its result, which both have or neither. -/
def ExamAttempt.Alike (a b : ExamAttempt) : Prop :=
  ∃ gradingResult score passed gradedAt,
    b = { a with
          gradingResult := gradingResult, score := score, passed := passed, gradedAt := gradedAt } ∧
    gradingResult.isSome = a.gradingResult.isSome ∧ score.isSome = a.score.isSome ∧
    passed.isSome = a.passed.isSome ∧ gradedAt.isSome = a.gradedAt.isSome

def ExamEnrollment.Alike (e e' : ExamEnrollment) : Prop :=
  ∃ finalScore finalPassed, e' = { e with finalScore := finalScore, finalPassed := finalPassed } ∧
    finalScore.isSome = e.finalScore.isSome ∧ finalPassed.isSome = e.finalPassed.isSome

def AttemptGradingEntry.Alike (e e' : AttemptGradingEntry) : Prop :=
  ∃ earnedScore correct comment gradedBy gradedAt,
    e' = { e with
      earnedScore := earnedScore, correct := correct, comment := comment, gradedBy := gradedBy
      gradedAt := gradedAt } ∧
    earnedScore.isSome = e.earnedScore.isSome ∧ correct.isSome = e.correct.isSome ∧
    gradedBy.isSome = e.gradedBy.isSome ∧ gradedAt.isSome = e.gradedAt.isSome

/-- The stores differ at most in the values of scores, pass flags and graded
details of the candidate's attempts and enrollment. -/
def SameButResults (db db' : Db) : Prop :=
  ∃ enrollment attempts gradingEntries,
    db' = { db with enrollment := enrollment, attempts := attempts, gradingEntries := gradingEntries } ∧
    db.enrollment.Alike enrollment ∧ List.Forall₂ ExamAttempt.Alike db.attempts attempts ∧
    List.Forall₂ AttemptGradingEntry.Alike db.gradingEntries gradingEntries

theorem ExamAttempt.Alike.id_eq {a b : ExamAttempt} (h : a.Alike b) : b.id = a.id := by
  obtain ⟨_, _, _, _, rfl, -⟩ := h
  rfl

def SameSeen (a b : ExamAttempt) : Prop := a.Alike b ∧ (a.status = .graded → a = b)

section
variable {db db' : Db} {a b : ExamAttempt}

theorem SameButResults.withExam (h : SameButResults db db') (exam : Exam) :
    SameButResults { db with exam := exam } { db' with exam := exam } := by
  obtain ⟨enrollment, attempts, entries, rfl, he, ha, hg⟩ := h
  exact ⟨enrollment, attempts, entries, rfl, he, ha, hg⟩

theorem SameButResults.findExam (h : SameButResults db db') (examId : String) :
    db.findExam examId = db'.findExam examId := by
  obtain ⟨_, _, _, rfl, -⟩ := h
  rfl

theorem SameButResults.findAttempt (h : SameButResults db db') (k : String) :
    Option.Rel ExamAttempt.Alike (db.findAttempt k) (db'.findAttempt k) := by
  obtain ⟨_, attempts, _, rfl, -, ha, -⟩ := h
  refine find?_rel ha fun a b hab => ?_
  simp only [hab.id_eq]

theorem SameButResults.findEnrollment (h : SameButResults db db') (examId candidateId : String) :
    Option.Rel (fun e e' => ExamEnrollment.Alike e e' ∧ e = db.enrollment)
      (db.findEnrollment examId candidateId)
      (db'.findEnrollment examId candidateId) := by
  obtain ⟨_, _, _, rfl, ⟨s, p, rfl, hs, hp⟩, -, -⟩ := h
  unfold Db.findEnrollment
  dsimp only
  split
  · exact .some ⟨⟨s, p, rfl, hs, hp⟩, rfl⟩
  · exact .none

theorem SameButResults.findActive (h : SameButResults db db') (enrollmentId : String) :
    Option.Rel ExamAttempt.Alike (db.findActiveByEnrollment enrollmentId)
      (db'.findActiveByEnrollment enrollmentId) := by
  obtain ⟨_, attempts, _, rfl, -, ha, -⟩ := h
  refine find?_rel ha fun a b hab => ?_
  obtain ⟨_, _, _, _, rfl, -⟩ := hab
  rfl

theorem SameButResults.update (h : SameButResults db db') (k : String) {f : ExamAttempt → ExamAttempt}
    (hf : ∀ a b : ExamAttempt, a.Alike b → (f a).Alike (f b)) :
    SameButResults (db.updateAttempt k f) (db'.updateAttempt k f) := by
  obtain ⟨enrollment, attempts, entries, rfl, he, ha, hg⟩ := h
  refine ⟨enrollment, Rows.modify (·.id) attempts k f, entries, rfl, he, ?_, hg⟩
  refine List.rel_map (fun a b hab => ?_) ha
  dsimp only
  by_cases hk : a.id = k
  · rw [if_pos hk, if_pos (hab.id_eq.trans hk)]
    exact hf a b hab
  · rw [if_neg hk, if_neg fun hb => hk (hab.id_eq.symm.trans hb)]
    exact hab

/-! ## Visibility -/

theorem isSome_congr {α : Type} {o p : Option α} (h : p.isSome = o.isSome) : p = none ↔ o = none := by
  cases o <;> cases p <;> simp_all

theorem ExamAttempt.Alike.visibility (h : a.Alike b) (exam : Exam) (view : CandidateResultView) :
    resolveCandidateResultVisibility exam a view = resolveCandidateResultVisibility exam b view := by
  obtain ⟨g, s, p, t, rfl, hg, hs, hp, ht⟩ := h
  unfold resolveCandidateResultVisibility
  simp only [isSome_congr hg, isSome_congr hs, isSome_congr hp, isSome_congr ht]

theorem enrollmentVisibility_alike {o p : Option ExamAttempt} (h : Option.Rel ExamAttempt.Alike o p)
    (exam : Exam) (view : CandidateResultView) :
    resolveCandidateEnrollmentResultVisibility exam o view =
      resolveCandidateEnrollmentResultVisibility exam p view := by
  cases h with
  | some h => exact h.visibility exam view
  | none => rfl

def ResultHidden (db : Db) : Prop :=
  (resolveCandidateEnrollmentResultVisibility db.exam
      (db.enrollment.finalAttemptId.bind db.findAttempt) .own).isSome

instance (db : Db) : Decidable (ResultHidden db) := inferInstanceAs (Decidable (_ = true))

/-! ## The reconciliation of a read -/

def SameExam (p q : Exam × Db) : Prop := p.1 = q.1 ∧ SameButResults p.2 q.2

theorem transitionExam_agree (h : SameButResults db db') (examId : String) (target : ExamStatus) :
    Agree SameExam (transitionExam db examId target) (transitionExam db' examId target) := by
  refine Agree.same (congrArg (Tx.orThrow · _) (h.findExam examId)) fun exam _ => ?_
  refine Agree.same rfl fun _ _ => ?_
  exact .pure ⟨rfl, h.withExam _⟩

theorem closeExam_agree (h : SameButResults db db') (examId : String) :
    Agree SameExam (closeExam db examId) (closeExam db' examId) := by
  refine Agree.same (congrArg (Tx.orThrow · _) (h.findExam examId)) fun exam _ => ?_
  split_ifs
  · exact .pure ⟨rfl, h⟩
  · exact transitionExam_agree h examId .closed

theorem reconcileExamForRead_agree (h : SameButResults db db') (examId : String) (now : Int) :
    Agree SameExam (reconcileExamForRead db examId now) (reconcileExamForRead db' examId now) := by
  refine Agree.same (congrArg (Tx.orThrow · _) (h.findExam examId)) fun _ _ => ?_
  refine Agree.same (congrArg (Tx.orThrow · _) (h.findExam examId)) fun exam _ => ?_
  have hclose : ∀ p q, SameExam p q → Agree SameExam
      (if p.1.status = .open ∧ ∃ closeAt ∈ p.1.closeAt, closeAt ≤ now then closeExam p.2 examId
        else pure p)
      (if q.1.status = .open ∧ ∃ closeAt ∈ q.1.closeAt, closeAt ≤ now then closeExam q.2 examId
        else pure q) := by
    rintro ⟨exam, db⟩ ⟨exam', db'⟩ ⟨rfl, halike⟩
    split_ifs
    · exact closeExam_agree halike examId
    · exact .pure ⟨rfl, halike⟩
  split_ifs
  · exact (transitionExam_agree h examId .open).bind hclose
  · exact hclose (exam, db) (exam, db') ⟨rfl, h⟩

/-! ## The detail -/

theorem ExamAttempt.Alike.status_eq (h : a.Alike b) : a.status = b.status := by
  obtain ⟨_, _, _, _, rfl, -⟩ := h
  rfl

theorem deferred_alike {o p : Option ExamAttempt} (h : Option.Rel ExamAttempt.Alike o p)
    (exam : Exam) {e e' : ExamEnrollment} (he : e.Alike e') :
    isCandidateRetakeDeferred exam e o = isCandidateRetakeDeferred exam e' p := by
  obtain ⟨_, _, rfl, -⟩ := he
  unfold isCandidateRetakeDeferred
  rw [enrollmentVisibility_alike h]

theorem buildCandidateExamDetail_alike {exam : Exam} {e e' : ExamEnrollment} (he : e.Alike e')
    (now : Int) {active active' resumable resumable' latest latest' final final' : Option
        ExamAttempt} (hactive : Option.Rel ExamAttempt.Alike active active')
    (hresumable : Option.Rel ExamAttempt.Alike resumable resumable')
    (hlatest : Option.Rel ExamAttempt.Alike latest latest')
    (hfinal : Option.Rel ExamAttempt.Alike final final')
    (hhidden : (resolveCandidateEnrollmentResultVisibility exam final .own).isSome) :
    buildCandidateExamDetail exam (some e) active now resumable latest final =
      buildCandidateExamDetail exam (some e') active' now resumable' latest' final' := by
  have hstatus : ∀ a b : ExamAttempt, a.Alike b → a.status = b.status := fun _ _ h => h.status_eq
  have hvis : (resolveCandidateEnrollmentResultVisibility exam final .own).isNone = false := by
    rw [Option.isNone_eq_false_iff]
    exact hhidden
  have hvis' : (resolveCandidateEnrollmentResultVisibility exam final' .own).isNone = false := by
    rw [← enrollmentVisibility_alike hfinal]
    exact hvis
  have hdeferred := deferred_alike hfinal exam he
  obtain ⟨s, p, rfl, hs, hp⟩ := he
  have hstate : ∀ o : Option ExamAttempt, hasResult (some
      { e with finalScore := s, finalPassed := none }) o =
        hasResult (some { e with finalPassed := none }) o := by
    intro o
    simp [hasResult, hs]
  have hresult : ∀ x : Option ExamEnrollment, hasResult x final = hasResult x final' := by
    intro x
    simp only [hasResult, rel_isSome hfinal]
  unfold buildCandidateExamDetail
  simp only [hvis, hvis', hdeferred, rel_isSome hactive, rel_isSome hresumable,
    rel_map hactive fun _ _ h => h.id_eq.symm,
    deriveCandidateExamState, projectEnrollmentForLifecycleState, rel_map hactive hstatus,
    rel_map hresumable hstatus, rel_map hlatest hstatus, hresult, hstate, hs, Option.map_some,
    Option.bind_some, Option.any_some, Option.getD_some, Bool.false_eq_true, if_false,
    Bool.false_and]

theorem latestAttempt_alike {instant instant' : ExamAttempt → Int}
    (hi : ∀ a b : ExamAttempt, a.Alike b → instant a = instant' b) {l m : List ExamAttempt}
    (h : List.Forall₂ ExamAttempt.Alike l m) :
    Option.Rel ExamAttempt.Alike (latestAttempt instant l) (latestAttempt instant' m) := by
  refine List.rel_foldl (P := Option.Rel ExamAttempt.Alike) (fun o p hop a b hab => ?_) .none h
  cases hop with
  | none => exact .some hab
  | @some c d hcd =>
    dsimp only
    rw [hi a b hab, hi c d hcd]
    split_ifs
    · exact .some hab
    · exact .some hcd

theorem findByExamAndCandidate_alike (h : SameButResults db db') (examId candidateId : String) :
    List.Forall₂ ExamAttempt.Alike (db.findByExamAndCandidate examId candidateId)
      (db'.findByExamAndCandidate examId candidateId) := by
  obtain ⟨_, attempts, _, rfl, -, ha, -⟩ := h
  refine List.rel_filter (fun a b hab => ?_) ha
  obtain ⟨_, _, _, _, rfl, -⟩ := hab
  exact Iff.rfl

theorem reconcileExamForRead_ok {examId : String} {now : Int} {p : Exam × Db}
    (h : reconcileExamForRead db examId now = .ok p) :
    Reconciled now db.exam p.1 ∧ p.2 = { db with exam := p.1 } := by
  simp only [reconcileExamForRead, bind_eq_ok] at h
  obtain ⟨_, -, h⟩ := h
  exact checkAndUpdateExamStatus_ok h

theorem ResultHidden.reconciled {now : Int} {exam : Exam} (h : ResultHidden db)
    (hr : Reconciled now db.exam exam) :
    ResultHidden { db with exam := exam } := by
  cases hr with
  | same _ => exact h
  | opened _ => exact h
  | closed _ => exact h

theorem ResultHidden.shown (h : ResultHidden db) (hids : (db.attempts.map (·.id)).Nodup)
    (examId candidateId : String) :
    (resolveCandidateEnrollmentResultVisibility db.exam
      ((db.findByExamAndCandidate examId candidateId).find? fun a => some a.id =
          db.enrollment.finalAttemptId) .own).isSome := by
  cases hfinal : (db.findByExamAndCandidate examId candidateId).find? fun a =>
    some a.id = db.enrollment.finalAttemptId with
  | none => rfl
  | some a =>
    have hmem : a ∈ db.attempts := (List.mem_filter.mp (List.mem_of_find?_eq_some hfinal)).1
    have hid : some a.id = db.enrollment.finalAttemptId := by simpa using List.find?_some hfinal
    have hfound : db.findAttempt a.id = some a := Rows.row_of_mem _ hids hmem
    unfold ResultHidden at h
    rw [← hid, Option.bind_some, hfound] at h
    exact h

theorem candidateExamDetail_alike (createdAt : String → Int) (h : SameButResults db db')
    (hids : (db.attempts.map (·.id)).Nodup) (hhidden : ResultHidden db)
    (examId candidateId : String) (now : Int) :
    Agree (fun p q => p.1 = q.1) (candidateExamDetail createdAt db examId candidateId now)
      (candidateExamDetail createdAt db' examId candidateId now) := by
  refine (reconcileExamForRead_agree h examId now).bind_ok fun p q hp _ hpq => ?_
  obtain ⟨hr, hdb⟩ := reconcileExamForRead_ok hp
  obtain ⟨exam, db₁⟩ := p
  obtain ⟨exam', db₂⟩ := q
  obtain ⟨rfl, halike⟩ := hpq
  dsimp only at hdb hr halike
  subst hdb
  have hrows := findByExamAndCandidate_alike halike examId candidateId
  refine (Agree.orThrow (halike.findEnrollment examId candidateId) _).bind fun e e' he => ?_
  obtain ⟨he, rfl⟩ := he
  refine .pure (buildCandidateExamDetail_alike he now ?_ ?_ ?_ ?_ ?_)
  · exact find?_rel hrows fun a b hab => by rw [hab.status_eq]
  · exact find?_rel hrows fun a b hab => by rw [hab.status_eq]
  · refine latestAttempt_alike (fun a b hab => ?_) hrows
    obtain ⟨_, _, _, _, rfl, -⟩ := hab
    rfl
  · refine find?_rel hrows fun a b hab => ?_
    obtain ⟨_, _, rfl, -⟩ := he
    rw [hab.id_eq]
  · exact (hhidden.reconciled hr).shown hids examId candidateId

/-! ## Submissions side by side -/

theorem ExamAttempt.Alike.refl (a : ExamAttempt) : a.Alike a := ⟨_, _, _, _, rfl, rfl, rfl, rfl, rfl⟩

theorem AttemptGradingEntry.Alike.refl (e : AttemptGradingEntry) : e.Alike e :=
  ⟨_, _, _, _, _, rfl, rfl, rfl, rfl, rfl⟩

theorem SameButResults.entriesOf (h : SameButResults db db') (k : String) :
    List.Forall₂ AttemptGradingEntry.Alike (db.entriesOf k) (db'.entriesOf k) := by
  obtain ⟨_, _, entries, rfl, -, -, hg⟩ := h
  refine List.rel_filter (fun e e' he => ?_) hg
  obtain ⟨_, _, _, _, _, rfl, -⟩ := he
  exact Iff.rfl

theorem insertEntry_agree (h : SameButResults db db') (e : AttemptGradingEntry) :
    Agree SameButResults (db.insertEntry e) (db'.insertEntry e) := by
  refine Agree.same rfl fun _ _ => ?_
  obtain ⟨enrollment, attempts, entries, rfl, he, ha, hg⟩ := h
  refine Agree.same (require_congr ?_ _) fun _ _ => ?_
  · have hfind : Option.Rel AttemptGradingEntry.Alike (db.findEntry e.attemptId e.questionId)
        (Rows.row Db.entryKey entries (e.attemptId, e.questionId)) := by
      refine find?_rel hg fun x y hxy => ?_
      obtain ⟨_, _, _, _, _, rfl, -⟩ := hxy
      rfl
    exact rel_eq_none hfind
  · exact .pure ⟨enrollment, attempts, entries ++ [e], rfl, he, ha,
      List.rel_append hg (.cons (AttemptGradingEntry.Alike.refl e) .nil)⟩

theorem bulkCreateEntries_agree :
    ∀ (es : List AttemptGradingEntry) {db db' : Db}, SameButResults db db' →
    Agree SameButResults (db.bulkCreateEntries es) (db'.bulkCreateEntries es)
  | [], _, _, h => .pure h
  | e :: es, _, _, h => (insertEntry_agree h e).bind fun _ _ hnext => bulkCreateEntries_agree es hnext

theorem insertInterruptionEvent_agree (h : SameButResults db db') (e : AttemptInterruptionEvent) :
    Agree SameButResults (db.insertInterruptionEvent e) (db'.insertInterruptionEvent e) := by
  obtain ⟨enrollment, attempts, entries, rfl, he, ha, hg⟩ := h
  refine Agree.same rfl fun _ _ => ?_
  refine Agree.same rfl fun _ _ => ?_
  refine Agree.same rfl fun _ _ => ?_
  refine Agree.same rfl fun _ _ => ?_
  exact .pure ⟨enrollment, attempts, entries, rfl, he, ha, hg⟩

theorem openInterruption_alike (h : SameButResults db db') (hab : a.Alike b)
    (interruptionId : String) (interruptedAt : Int) :
    openInterruption db a interruptionId interruptedAt = openInterruption db' b interruptionId
      interruptedAt := by
  obtain ⟨_, _, _, rfl, -⟩ := h
  obtain ⟨_, _, _, _, rfl, -⟩ := hab
  rfl

theorem resolve_agree (h : SameButResults db db') (hab : a.Alike b)
    (resolution : SubmitInterruptionResolution) (t : Int) :
    Agree SameButResults (resolveActiveInterruptionOnTerminalization db a resolution t)
      (resolveActiveInterruptionOnTerminalization db' b resolution t) := by
  have hopen := openInterruption_alike h hab
  obtain ⟨_, _, _, _, rfl, -⟩ := hab
  cases resolution with
  | none => exact Agree.same rfl fun _ _ => .pure h
  | activeInterruption hint =>
    refine Agree.same rfl fun _ _ => ?_
    refine Agree.same rfl fun i _ => ?_
    refine Agree.same rfl fun u _ => ?_
    refine Agree.same (hopen i u) fun _ _ => ?_
    exact insertInterruptionEvent_agree h _

theorem ExamAttempt.Alike.submittedRow (hab : a.Alike b) (t : Int) (reason : Option SubmissionReason) :
    (a.submittedRow t reason).Alike (b.submittedRow t reason) := by
  obtain ⟨g, s, p, u, rfl, hg, hs, hp, hu⟩ := hab
  exact ⟨g, s, p, u, rfl, hg, hs, hp, hu⟩

variable [Host]

theorem materialize_agree (h : SameButResults db db') (hab : a.Alike b) :
    Agree SameButResults (materializeGradingWorkset db a) (materializeGradingWorkset db' b) := by
  obtain ⟨_, _, _, _, rfl, -⟩ := hab
  exact Agree.same rfl fun expected _ => bulkCreateEntries_agree _ h

theorem submitAttempt_agree (h : SameButResults db db') {k : String}
    (ha : db.findAttempt k = some a) (hb : db'.findAttempt k = some b) (hab : a.Alike b)
    (hact : a.Active) (t : Int) (opts : SubmitOptions) :
    Agree (fun p q => p.1.Alike q.1 ∧ SameButResults p.2 q.2) (submitAttempt db k t opts)
      (submitAttempt db' k t opts) := by
  unfold submitAttempt
  rw [ha, hb]
  simp only [orThrow_some, ok_bind]
  refine (resolve_agree h hab opts.resolution t).bind fun d d' hd => ?_
  have hentries := hd.entriesOf k
  have hdone : ¬ (a.status = .submitted ∨ a.status = .graded) := by
    rcases hact with hs | hs <;> rw [hs] <;> decide
  rw [if_neg hdone, if_neg (hab.status_eq ▸ hdone), ← hab.status_eq]
  refine Agree.same rfl fun _ _ => ?_
  have hguard : minSubmitGuard a t opts = minSubmitGuard b t opts := by
    obtain ⟨_, _, _, _, rfl, -⟩ := hab
    rfl
  refine Agree.same hguard fun _ _ => ?_
  rw [hentries.length_eq]
  refine Agree.same (require_congr ?_ _) fun _ _ => ?_
  · rw [← List.length_eq_zero_iff, ← List.length_eq_zero_iff, hentries.length_eq]
  have hrow := hab.submittedRow t opts.submissionReason
  have hupdate := hd.update k (f := (·.submittedRow t opts.submissionReason)) fun _ _ hxy =>
    hxy.submittedRow t _
  refine (materialize_agree hupdate hrow).bind fun _ _ hnext => ?_
  exact .pure ⟨hrow, hnext⟩

/-! ## Grading side by side -/

structure SameHistory (db db' : Db) : Prop where
  interruptions : db'.interruptions = db.interruptions
  events : db'.interruptionEvents = db.interruptionEvents
  adjustments : db'.timeAdjustments = db.timeAdjustments

omit [Host] in
theorem SameButResults.history (h : SameButResults db db') : SameHistory db db' := by
  obtain ⟨_, _, _, rfl, -⟩ := h
  exact ⟨rfl, rfl, rfl⟩

omit [Host] in
theorem started_takes {α : Type} {e : ExamEnrollment} (h : e.status = .started) (exam : Exam)
    (passed : Bool) (now : Int) (r : Result α) :
    (if e.status ≠ enrollmentTarget exam e passed now then do
      assertEnrollmentTransition e.status (enrollmentTarget exam e passed now)
      r
    else r) = r := by
  rw [h]
  rcases enrollmentTarget_cases exam e passed now with ht | ht <;> rw [ht]
  · rfl
  · rfl

/-- Attempts with the same workset close alike under a started enrollment. -/
theorem finalizeGrading_agree (h : SameButResults db db') {cap : LockedEnrollmentAttemptIdentity}
    (ha : db.findAttempt cap.attemptId = some a) (hb : db'.findAttempt cap.attemptId = some b)
    (hab : a.Alike b) (hs : a.status = .submitted)
    (hentries : db.entriesOf cap.attemptId = db'.entriesOf cap.attemptId)
    (hstarted : db.enrollment.status = .started) (exam : Exam) (now : Int) :
    Agree
      (fun p q => SameHistory p.2 q.2 ∧
        ∃ r, p.2.findAttempt cap.attemptId = some r ∧ q.2.findAttempt cap.attemptId = some r ∧
        r.status = .graded)
      (finalizeGrading db cap exam now) (finalizeGrading db' cap exam now) := by
  have hhistory := h.history
  unfold finalizeGrading finalizeTerminalGrading
  rw [ha, hb]
  simp only [orThrow_some, ok_bind]
  have hrow : ∀ aggregated, ∃ r,
      (db.updateAttempt cap.attemptId (·.gradedRow aggregated now)).findAttempt cap.attemptId = some r ∧
      (db'.updateAttempt cap.attemptId (·.gradedRow aggregated now)).findAttempt
        cap.attemptId = some r ∧
      r.status = .graded := by
    intro aggregated
    rw [Db.findAttempt_updateAttempt_self (f := (·.gradedRow aggregated now)) db _ (fun _ => rfl) ha,
      Db.findAttempt_updateAttempt_self (f := (·.gradedRow aggregated now)) db' _ (fun _ => rfl) hb]
    obtain ⟨_, _, _, _, rfl, -⟩ := hab
    exact ⟨a.gradedRow aggregated now, rfl, rfl, rfl⟩
  obtain ⟨_, _, _, _, rfl, -⟩ := hab
  simp only [hs, reduceCtorEq, if_false]
  refine Agree.same rfl fun _ _ => ?_
  refine Agree.same rfl fun _ _ => ?_
  have haggregate : aggregateGradingEntries a (db.entriesOf cap.attemptId) exam.passingScore =
      aggregateGradingEntries a (db'.entriesOf cap.attemptId) exam.passingScore := by
    rw [hentries]
  refine Agree.same haggregate fun aggregated _ => ?_
  refine (Agree.orThrow (h.findEnrollment a.examId a.candidateId) _).bind fun e e' he => ?_
  obtain ⟨⟨s, p, rfl, -⟩, rfl⟩ := he
  refine Agree.same rfl fun _ _ => ?_
  rw [started_takes hstarted,
    started_takes (e := { db.enrollment with finalScore := s, finalPassed := p }) hstarted]
  exact .pure ⟨⟨hhistory.interruptions, hhistory.events, hhistory.adjustments⟩, hrow aggregated⟩

/-- What a reconciliation leaves: rows that the candidate cannot tell apart, and
stores that differ in results alone if the attempt goes on. -/
def SameSight (p q : ExamAttempt × Db) : Prop :=
  SameSeen p.1 q.1 ∧ SameHistory p.2 q.2 ∧ (¬ (p.1.status = .submitted ∨ p.1.status = .graded) →
    SameButResults p.2 q.2)

omit [Host] in
theorem SameButResults.sight (h : SameButResults db db') (hab : a.Alike b) (hs : a.status ≠ .graded) :
    SameSight (a, db) (b, db') :=
  ⟨⟨hab, fun hg => absurd hg hs⟩, h.history, fun _ => h⟩

omit [Host] in
theorem readGradingSnapshot_agree (h : SameButResults db db') (k : String) :
    Agree (Option.Rel fun s s' => s.exam = s'.exam) (readGradingSnapshot db k)
      (readGradingSnapshot db' k) := by
  have hrow := h.findAttempt k
  unfold readGradingSnapshot
  generalize db.findAttempt k = o at hrow ⊢
  generalize db'.findAttempt k = o' at hrow ⊢
  cases hrow with
  | none => exact .pure .none
  | some hab =>
    obtain ⟨_, _, _, _, rfl, -⟩ := hab
    refine Agree.same (congrArg (Tx.orThrow · _) (h.findExam _)) fun exam _ => ?_
    refine (Agree.orThrow (h.findEnrollment _ _) _).bind fun _ _ _ => ?_
    exact .pure (.some rfl)

theorem submitAttempt_frozen {k : String} {t : Int} {opts : SubmitOptions} {p : ExamAttempt × Db}
    (ha : db.findAttempt k = some a) (hact : a.Active) (hp : submitAttempt db k t opts = .ok p) :
    p.1 = a.submittedRow t opts.submissionReason ∧ p.2.findAttempt k = some p.1 ∧
      p.2.entriesOf k = a.workset ∧ p.2.enrollment = db.enrollment := by
  obtain ⟨s, db₁⟩ := p
  obtain ⟨x, hx, ⟨hdone, -⟩ | ⟨events, hf, -, rfl, rfl⟩⟩ := submitAttempt_ok hp
  · obtain rfl := Option.some.inj (ha.symm.trans hx)
    rcases hact with hs | hs <;> simp [hs] at hdone
  · obtain rfl := Option.some.inj (ha.symm.trans hx)
    obtain rfl := Db.findAttempt_id ha
    refine ⟨rfl, findAttempt_freeze ha, ?_, rfl⟩
    rw [entriesOf_freeze, hf.unmaterialized, if_pos rfl, List.nil_append]

theorem reconcile_agree (h : SameButResults db db') {cap : LockedEnrollmentAttemptIdentity}
    (ha : db.findAttempt cap.attemptId = some a) (hb : db'.findAttempt cap.attemptId = some b)
    (hab : a.Alike b) (hact : a.Active)
    (hstarted : freezeStatus a.questionSnapshot ≠ .pendingManual → db.enrollment.status = .started)
    (now : Int) (resolution : SubmitInterruptionResolution) :
    Agree SameSight (ensureAttemptDeadlineReconciled db cap now resolution)
      (ensureAttemptDeadlineReconciled db' cap now resolution) := by
  have hgraded : a.status ≠ .graded := by
    rcases hact with hs | hs <;> rw [hs] <;> decide
  have hrunning : a.status = .inProgress ∨ a.status = .disrupted := hact
  have hrunning' : b.status = .inProgress ∨ b.status = .disrupted := by
    rw [← hab.status_eq]
    exact hrunning
  have hsubmit := submitAttempt_agree h ha hb hab hact
  have hexam : db.findExam a.examId = db'.findExam b.examId := by
    rw [h.findExam]
    obtain ⟨_, _, _, _, rfl, -⟩ := hab
    rfl
  have hdeadline : b.deadlineAt = a.deadlineAt := by
    obtain ⟨_, _, _, _, rfl, -⟩ := hab
    rfl
  have hworkset : a.workset = b.workset := by
    obtain ⟨_, _, _, _, rfl, -⟩ := hab
    rfl
  unfold ensureAttemptDeadlineReconciled
  dsimp only
  rw [ha, hb]
  simp only [orThrow_some, ok_bind]
  rw [if_neg (not_not_intro hrunning), if_neg (not_not_intro hrunning'), hdeadline]
  refine Agree.same (congrArg (Tx.orThrow · _) hexam) fun exam _ => ?_
  refine Agree.same rfl fun expired _ => ?_
  cases expired with
  | false => exact .pure (h.sight hab hgraded)
  | true =>
    refine Agree.same rfl fun effective _ => ?_
    cases effective with
    | none => exact .pure (h.sight hab hgraded)
    | some d =>
      refine (hsubmit d _).bind_ok fun p q hp hq hpq => ?_
      obtain ⟨hprow, hpfound, hpentries, henrollment⟩ := submitAttempt_frozen ha hact hp
      obtain ⟨-, hqfound, hqentries, -⟩ := submitAttempt_frozen hb hrunning' hq
      obtain ⟨s, db₁⟩ := p
      obtain ⟨s', db₁'⟩ := q
      obtain ⟨hss, halike⟩ := hpq
      dsimp only at *
      have hs : s.status = .submitted := by
        rw [hprow]
        rfl
      have hgrading : s.gradingStatus = some (freezeStatus a.questionSnapshot) := by
        rw [hprow]
        rfl
      have hgrading' : s'.gradingStatus = s.gradingStatus := by
        obtain ⟨_, _, _, _, rfl, -⟩ := hss
        rfl
      rw [hgrading']
      by_cases hmanual : s.gradingStatus = some .pendingManual
      · rw [if_pos hmanual, if_pos hmanual]
        exact .pure (halike.sight hss (by rw [hs]; decide))
      rw [if_neg hmanual, if_neg hmanual]
      have hopen : db₁.enrollment.status = .started := by
        rw [henrollment]
        exact hstarted fun hm => hmanual (hgrading.trans (congrArg some hm))
      have hentries : db₁.entriesOf cap.attemptId = db₁'.entriesOf cap.attemptId := by
        rw [hpentries, hqentries, hworkset]
      refine (readGradingSnapshot_agree halike _).bind fun o o' ho => ?_
      refine (Agree.orThrow ho _).bind fun snapshot snapshot' hsnapshot => ?_
      rw [← hsnapshot]
      refine (finalizeGrading_agree halike hpfound hqfound hss hs hentries hopen _ now).bind
        fun u v huv => ?_
      obtain ⟨hhistory, r, hr, hr', hrs⟩ := huv
      rw [hr, hr']
      exact .pure ⟨⟨ExamAttempt.Alike.refl r, fun _ => rfl⟩, hhistory,
        fun hopen => absurd (.inr hrs) hopen⟩

/-! ## Restores side by side -/

omit [Host] in
theorem ExamAttempt.Alike.extend (hab : a.Alike b) (after : Int) :
    (a.extend after).Alike (b.extend after) := by
  obtain ⟨g, s, p, t, rfl, hab⟩ := hab
  exact ⟨g, s, p, t, rfl, hab⟩

omit [Host] in
theorem ExamAttempt.Alike.restore (hab : a.Alike b) (now : Int) :
    (a.restore now).Alike (b.restore now) := by
  obtain ⟨g, s, p, t, rfl, hab⟩ := hab
  exact ⟨g, s, p, t, rfl, hab⟩

omit [Host] in
theorem insertAdjustment_agree (h : SameButResults db db') (row : AttemptTimeAdjustment) :
    Agree (fun p q => SameButResults p q ∧
      p = { db with timeAdjustments := db.timeAdjustments ++ [row] })
      (db.insertAdjustment row) (db'.insertAdjustment row) := by
  obtain ⟨enrollment, attempts, entries, rfl, he, ha, hg⟩ := h
  refine Agree.same rfl fun _ _ => ?_
  refine Agree.same rfl fun _ _ => ?_
  refine Agree.same rfl fun _ _ => ?_
  refine Agree.same rfl fun _ _ => ?_
  refine Agree.same rfl fun _ _ => ?_
  refine Agree.same rfl fun _ _ => ?_
  exact .pure ⟨⟨enrollment, attempts, entries, rfl, he, ha, hg⟩, rfl⟩

structure Compensated (db : Db) (a : ExamAttempt) (p : RestoreDecision × Db) : Prop where
  enrollment : p.2.enrollment = db.enrollment
  found : ∃ c, p.2.findAttempt a.id = some c ∧ c.status = a.status ∧
    c.questionSnapshot = a.questionSnapshot

omit [Host] in
theorem compensate_agree (h : SameButResults db db') (ha : db.findAttempt a.id = some a)
    (hab : a.Alike b) (exam : Exam) (snapshot : AttemptTimingPolicySnapshot)
    (interruptionId : String) (detectedAt now : Int) (fresh : FreshAdjustment) :
    Agree (fun p q => p.1 = q.1 ∧ SameButResults p.2 q.2 ∧ Compensated db a p)
      (compensateInterruption db a exam snapshot interruptionId detectedAt now fresh)
      (compensateInterruption db' b exam snapshot interruptionId detectedAt now fresh) := by
  have hsame : ∀ d : RestoreDecision, Agree (ε := EngineError)
      (fun p q => p.1 = q.1 ∧ SameButResults p.2 q.2 ∧ Compensated db a p) (pure (d, db))
        (pure (d, db')) :=
    fun d => .pure ⟨rfl, h, rfl, a, ha, rfl, rfl⟩
  have hbounded : db'.findBoundedByInterruption interruptionId = db.findBoundedByInterruption
      interruptionId := by
    obtain ⟨_, _, _, rfl, -⟩ := h
    rfl
  have hsum : db'.sumBoundedGraceSeconds a.id = db.sumBoundedGraceSeconds a.id := by
    obtain ⟨_, _, _, rfl, -⟩ := h
    rfl
  obtain ⟨_, _, _, _, rfl, -⟩ := hab
  unfold compensateInterruption
  dsimp only
  rw [hbounded, hsum]
  split_ifs
  · cases db.findBoundedByInterruption interruptionId with
    | some existing => exact Agree.same rfl fun _ _ => hsame _
    | none =>
      refine Agree.same rfl fun decision _ => ?_
      split_ifs
      · refine Agree.same rfl fun before _ => ?_
        refine Agree.same rfl fun after _ => ?_
        refine (insertAdjustment_agree h _).bind fun d d' hd => ?_
        obtain ⟨hd, rfl⟩ := hd
        refine .pure ⟨rfl, hd.update a.id fun _ _ hxy => hxy.extend after, rfl, a.extend after,
          ?_, rfl, rfl⟩
        exact Db.findAttempt_updateAttempt_self (f := (·.extend after)) _ a.id (fun _ => rfl) ha
      · exact hsame _
  · exact Agree.same rfl fun _ _ => hsame _

omit [Host] in
theorem SameHistory.recorded (h : SameHistory db db') (hid : b.id = a.id)
    (outcome : AttemptInterruptionEvent) (failure : String) :
    recordedCompensation db a outcome failure = recordedCompensation db' b outcome failure := by
  simp only [recordedCompensation, Db.findAdjustment, h.adjustments, hid]

omit [Host] in
theorem reconstructTerminal_agree (h : SameHistory db db') (hab : SameSeen a b) :
    Agree (fun p q => SameSeen p.attempt q.attempt) (reconstructTerminalOutcome db a)
      (reconstructTerminalOutcome db' b) := by
  have hid : b.id = a.id := hab.1.id_eq
  have hlatest : db'.findLatestOutcome b.id = db.findLatestOutcome a.id := by
    simp only [Db.findLatestOutcome, h.events, hid]
  unfold reconstructTerminalOutcome
  rw [hlatest]
  cases (db.findLatestOutcome a.id).filter fun e => e.eventType = .terminalized with
  | some outcome => exact Agree.same (h.recorded hid outcome _) fun _ _ => .pure hab
  | none => exact .pure hab

/-- A disrupted attempt comes back, or ends, with the same face. -/
theorem restore_agree (h : SameButResults db db') {cap : LockedEnrollmentAttemptIdentity}
    (ha : db.findAttempt cap.attemptId = some a) (hb : db'.findAttempt cap.attemptId = some b)
    (hab : a.Alike b) (hs : a.status = .disrupted)
    (hstarted : freezeStatus a.questionSnapshot ≠ .pendingManual → db.enrollment.status = .started)
    (now : Int) (fresh : FreshAdjustment) :
    Agree (fun p q => SameSeen p.1.attempt q.1.attempt) (restoreInterruptedAttempt db cap now fresh)
      (restoreInterruptedAttempt db' cap now fresh) := by
  have hid : a.id = cap.attemptId := Db.findAttempt_id ha
  have hid' : b.id = a.id := hab.id_eq
  have hs' : b.status = .disrupted := hab.status_eq.symm.trans hs
  have hexam : db.findExam a.examId = db'.findExam b.examId := by
    rw [h.findExam]
    obtain ⟨_, _, _, _, rfl, -⟩ := hab
    rfl
  obtain ⟨hpointer, hinstant, hsnapshot⟩ : b.currentInterruptionId = a.currentInterruptionId ∧
      b.interruptedAt = a.interruptedAt ∧
      b.interruptionTimingPolicySnapshot = a.interruptionTimingPolicySnapshot := by
    obtain ⟨_, _, _, _, rfl, -⟩ := hab
    exact ⟨rfl, rfl, rfl⟩
  unfold restoreInterruptedAttempt
  rw [ha, hb]
  simp only [orThrow_some, ok_bind, hs, hs', hpointer, hinstant, hsnapshot, hid']
  refine Agree.same (congrArg (Tx.orThrow · _) hexam) fun exam _ => ?_
  refine Agree.same rfl fun i _ => ?_
  refine Agree.same rfl fun t _ => ?_
  refine Agree.same rfl fun snapshot _ => ?_
  refine Agree.same (openInterruption_alike h hab i t) fun detected _ => ?_
  refine (compensate_agree h (hid ▸ ha) hab exam snapshot i detected.occurredAt now fresh).bind
    fun p q hpq => ?_
  obtain ⟨d, db₁⟩ := p
  obtain ⟨d', db₁'⟩ := q
  obtain ⟨hd, h₁, henrollment, c, hc, hcs, hcq⟩ := hpq
  dsimp only at hd h₁ henrollment hc ⊢
  subst hd
  obtain ⟨c', hc', hcc⟩ : ∃ c', db₁'.findAttempt a.id = some c' ∧ c.Alike c' := by
    have hrow := h₁.findAttempt a.id
    rw [hc] at hrow
    generalize db₁'.findAttempt a.id = o at hrow ⊢
    cases hrow with
    | some hcc => exact ⟨_, rfl, hcc⟩
  have hcstarted : freezeStatus c.questionSnapshot ≠ .pendingManual →
      db₁.enrollment.status = .started := by
    rw [hcq, henrollment]
    exact hstarted
  refine (reconcile_agree h₁ (hid ▸ hc) (hid ▸ hc') hcc (.inr (hcs.trans hs)) hcstarted now
      _).bind_ok fun p q hp _ hpq => ?_
  obtain ⟨r, db₂⟩ := p
  obtain ⟨r', db₂'⟩ := q
  obtain ⟨hseen, hhistory, hopen⟩ := hpq
  dsimp only at hseen hhistory hopen ⊢
  rw [← hseen.1.status_eq]
  by_cases hdone : r.status = .submitted ∨ r.status = .graded
  · rw [if_pos hdone, if_pos hdone]
    exact (reconstructTerminal_agree hhistory hseen).bind fun _ _ hout => .pure hout
  · rw [if_neg hdone, if_neg hdone]
    have h₂ := (hopen hdone).update a.id (f := (·.restore now)) fun _ _ hxy => hxy.restore now
    simp only [restoreAttemptState, hs, hs', hid', pure_bind]
    refine (insertInterruptionEvent_agree h₂ _).bind_ok fun d₃ d₃' hins _ h₃ => ?_
    have hrow := h₃.findAttempt a.id
    obtain ⟨-, -, -, -, rfl⟩ := Db.insertInterruptionEvent_eq_ok.mp hins
    have hr : db₂.findAttempt a.id = some r := hid ▸ reconcile_found hp
    have hrestored : (db₂.updateAttempt a.id (·.restore now)).findAttempt a.id = some (r.restore now) :=
      Db.findAttempt_updateAttempt_self (f := (·.restore now)) db₂ a.id (fun _ => rfl) hr
    refine (Agree.orThrow hrow _).bind_ok fun x y hx _ hxy => .pure ⟨hxy, fun hgraded => ?_⟩
    rw [orThrow_eq_ok] at hx
    obtain rfl := Option.some.inj (hrestored.symm.trans hx)
    cases hgraded

/-! ## Starts side by side -/

def SameStart (p q : StartAttemptResult × Db) : Prop := SameSeen p.1.attempt q.1.attempt ∧
    p.1.isNew = q.1.isNew

omit [Host] in
theorem createAttempt_agree (h : SameButResults db db') (a : ExamAttempt) :
    Agree (fun _ _ => True) (db.createAttempt a) (db'.createAttempt a) := by
  refine Agree.same (require_congr (rel_eq_none (h.findAttempt a.id)) _) fun _ _ => ?_
  refine Agree.same (require_congr ?_ _) fun _ _ => .pure trivial
  obtain ⟨_, attempts, _, rfl, -, ha, -⟩ := h
  refine forall_mem_rel ha fun x y hxy => ?_
  obtain ⟨_, _, _, _, rfl, -⟩ := hxy
  exact Iff.rfl

omit [Host] in
theorem checkRetake_alike (h : SameButResults db db') (hhidden : ResultHidden db)
    (hunpassed : db.enrollment.finalAttemptId = none → db.enrollment.finalPassed = none) :
    checkRetake db db.exam db.enrollment = checkRetake db' db'.exam db'.enrollment := by
  have hfinal : Option.Rel ExamAttempt.Alike (db.enrollment.finalAttemptId.bind db.findAttempt)
      (db.enrollment.finalAttemptId.bind db'.findAttempt) := by
    cases db.enrollment.finalAttemptId with
    | none => exact .none
    | some k => exact h.findAttempt k
  obtain ⟨_, _, _, rfl, he, -, -⟩ := h
  have hdeferred := deferred_alike hfinal db.exam he
  obtain ⟨score, passed, rfl, -, hpassed⟩ := he
  unfold checkRetake
  dsimp only at hdeferred ⊢
  rw [← hdeferred]
  refine Agree.eq (Agree.same rfl fun _ _ => ?_)
  split_ifs with hpolicy
  · refine Agree.same rfl fun _ hnot => ?_
    have hnone : db.enrollment.finalAttemptId = none := by
      rw [require_eq_ok, isCandidateRetakeDeferred, hpolicy] at hnot
      rw [← Option.not_isSome_iff_eq_none]
      intro hsome
      simp only [beq_self_eq_true, hsome, Bool.true_and] at hnot
      exact Bool.false_ne_true (hnot.symm.trans hhidden)
    have hun := hunpassed hnone
    rw [(isSome_congr hpassed).mpr hun, hun]
    exact .of_eq rfl
  · exact .of_eq rfl

omit [Host] in
theorem createNewAttempt_agree (h : SameButResults db db') (hhidden : ResultHidden db)
    (hunpassed : db.enrollment.finalAttemptId = none → db.enrollment.finalPassed = none)
    (input : StartAttemptInput) (syncDeadline : Option Int) :
    Agree SameStart (createNewAttempt db db.exam db.enrollment input syncDeadline)
      (createNewAttempt db' db'.exam db'.enrollment input syncDeadline) := by
  refine Agree.same (checkRetake_alike h hhidden hunpassed) fun _ _ => ?_
  have hcreate := createAttempt_agree h
  obtain ⟨_, _, _, rfl, ⟨_, _, rfl, -⟩, -⟩ := h
  refine Agree.same rfl fun consumed _ => ?_
  refine Agree.same rfl fun _ _ => ?_
  refine Agree.same rfl fun _ _ => ?_
  refine Agree.same rfl fun snapshot _ => ?_
  refine (hcreate _).bind fun _ _ _ => ?_
  refine Agree.same rfl fun _ _ => ?_
  have hstart : ∀ a : ExamAttempt, SameSeen a a := fun a => ⟨ExamAttempt.Alike.refl a, fun _ => rfl⟩
  split_ifs
  · exact Agree.same rfl fun _ _ => .pure ⟨hstart _, rfl⟩
  · exact .pure ⟨hstart _, rfl⟩

structure Sat (db : Db) : Prop where
  unpassed : db.enrollment.finalAttemptId = none → db.enrollment.finalPassed = none
  started : ∀ k a, db.findAttempt k = some a → a.Active →
    freezeStatus a.questionSnapshot ≠ .pendingManual →
    db.enrollment.status = .started

theorem startOrRestoreAttempt_agree (h : SameButResults db db') (hhidden : ResultHidden db)
    (hsat : Sat db) (input : StartAttemptInput) :
    Agree SameStart (startOrRestoreAttempt db input) (startOrRestoreAttempt db' input) := by
  have hexam : db'.exam = db.exam := by
    obtain ⟨_, _, _, rfl, -⟩ := h
    rfl
  refine Agree.same (congrArg (Tx.orThrow · _) (h.findExam input.examId)) fun exam hfound => ?_
  rw [orThrow_eq_ok] at hfound
  obtain ⟨-, rfl⟩ := Db.findExam_eq_some.mp hfound
  refine Agree.same rfl fun syncDeadline _ => ?_
  refine (Agree.orThrow (h.findEnrollment _ _) _).bind_ok fun e e' he he' halike => ?_
  rw [orThrow_eq_ok] at he he'
  obtain ⟨-, -, rfl⟩ := Db.findEnrollment_eq_some.mp he
  obtain ⟨-, -, rfl⟩ := Db.findEnrollment_eq_some.mp he'
  have hid : db'.enrollment.id = db.enrollment.id := by
    obtain ⟨⟨_, _, heq, -⟩, -⟩ := halike
    rw [heq]
  have hactive := h.findActive db.enrollment.id
  rw [hid]
  generalize db.findActiveByEnrollment db.enrollment.id = active at hactive ⊢
  generalize db'.findActiveByEnrollment db.enrollment.id = active' at hactive ⊢
  cases hactive with
  | none =>
    dsimp only
    rw [← hexam]
    have hnew := createNewAttempt_agree h hhidden hsat.unpassed input syncDeadline
    rw [← hexam] at hnew
    exact hnew
  | @some a b hab =>
    dsimp only
    rw [hab.id_eq]
    refine (Agree.orThrow (h.findAttempt a.id) _).bind_ok fun c c' hc hc' hcc => ?_
    rw [orThrow_eq_ok] at hc hc'
    have henrollment : c'.enrollmentId = c.enrollmentId := by
      obtain ⟨_, _, _, _, rfl, -⟩ := hcc
      rfl
    refine Agree.same (require_congr (by rw [henrollment]) _) fun _ _ => ?_
    rw [← hcc.status_eq, hcc.id_eq]
    cases hs : c.status with
    | inProgress => exact .pure ⟨⟨hcc, fun hg => absurd (hs.symm.trans hg) (by decide)⟩, rfl⟩
    | disrupted =>
      have hkey : c.id = a.id := Db.findAttempt_id hc
      have hcap : (⟨db.enrollment.id, c.id⟩ : LockedEnrollmentAttemptIdentity).attemptId = a.id := hkey
      refine (restore_agree h (hcap ▸ hc) (hcap ▸ hc') hcc hs
          (hsat.started a.id c hc (.inr hs)) input.now
        input.freshAdjustment).bind fun p q hpq => ?_
      exact .pure ⟨hpq, rfl⟩
    | _ => exact .error _

/-! ## The routes side by side -/

omit [Host] in
theorem toCandidateAttemptResponse_same (hab : SameSeen a b) (now : Int) (exam : Exam) :
    toCandidateAttemptResponse a now exam = toCandidateAttemptResponse b now exam := by
  by_cases hg : a.status = .graded
  · rw [hab.2 hg]
  · have hhidden : (resolveCandidateResultVisibility exam a .own).isNone = false := by
      unfold resolveCandidateResultVisibility
      rw [if_pos hg]
      rfl
    have hhidden' : (resolveCandidateResultVisibility exam b .own).isNone = false := by
      rw [← hab.1.visibility]
      exact hhidden
    unfold toCandidateAttemptResponse
    rw [hhidden, hhidden']
    obtain ⟨⟨_, _, _, _, rfl, -⟩, -⟩ := hab
    rfl

theorem startAttemptRoute_agree (h : SameButResults db db') (hhidden : ResultHidden db) (hsat : Sat db)
    (input : StartAttemptInput) :
    Agree (fun p q => p.1 = q.1) (startAttemptRoute db input) (startAttemptRoute db' input) := by
  refine (reconcileExamForRead_agree h input.examId input.now).bind_ok fun p q hp _ hpq => ?_
  obtain ⟨hr, hdb⟩ := reconcileExamForRead_ok hp
  obtain ⟨exam, db₁⟩ := p
  obtain ⟨exam', db₁'⟩ := q
  obtain ⟨rfl, halike⟩ := hpq
  dsimp only at hdb hr halike ⊢
  subst hdb
  have hstart := startOrRestoreAttempt_agree halike (hhidden.reconciled hr) ⟨hsat.unpassed,
    hsat.started⟩ input
  generalize startOrRestoreAttempt { db with exam := exam } input = x at hstart ⊢
  generalize startOrRestoreAttempt db₁' input = y at hstart ⊢
  cases hstart with
  | error e => cases e <;> exact .error _
  | @ok p q hpq =>
    obtain ⟨hseen, hnew⟩ := hpq
    refine .pure ?_
    dsimp only
    rw [hnew, toCandidateAttemptResponse_same hseen]

theorem Reachable.unpassed (h : Reachable db) (hnone : db.enrollment.finalAttemptId = none) :
    db.enrollment.finalPassed = none := by
  revert hnone
  refine h.invariant (P := fun db => db.enrollment.finalAttemptId = none →
    db.enrollment.finalPassed = none) ?_ ?_
  · exact fun _ hi _ => hi.unresolved.2.2
  · intro now db db' hi hc
    rcases hc with hq | _ | _
    case adjust => exact hi
    case examWrite => exact hi
    cases hq with
    | close _ =>
      simp only [Db.close, ExamEnrollment.project]
      split
      · intro hsome
        cases hsome
      · exact hi
    | _ => exact hi

variable [RichContent]

/-- From the draft on, over every run of requests in the order of the clock:
while the result is hidden, the candidate cannot tell the store from one with
other results, neither by the detail of the exam nor by a start. -/
theorem hidden_result_unseen (db₀ : Db) (h₀ : Initial db₀) (hdraft : db₀.exam.status = .draft)
    (rs : List Request) (clock : Int) (horder : InOrder clock rs) (db' : Db)
    (h : SameButResults (run Request.step db₀ rs) db')
    (hhidden : ResultHidden (run Request.step db₀ rs)) :
    (∀ createdAt examId candidateId now,
      (candidateExamDetail createdAt (run Request.step db₀ rs) examId candidateId now).map (·.1) =
        (candidateExamDetail createdAt db' examId candidateId now).map (·.1)) ∧
    ∀ input, (startAttemptRoute (run Request.step db₀ rs) input).map
      (·.1) = (startAttemptRoute db' input).map (·.1) := by
  obtain ⟨hsession, hgraded⟩ := session_gradedAtOnce h₀ hdraft horder
  have hreach := hsession.reachable
  have hsat : Sat (run Request.step db₀ rs) := by
    refine ⟨hreach.unpassed, fun k a ha hact hauto => ?_⟩
    refine hgraded.started ?_ k a ha hact
    rw [Exam.Automatic, ← hgraded.questions k a ha]
    exact hauto
  refine ⟨fun createdAt examId candidateId now => ?_, fun input => ?_⟩
  · exact (candidateExamDetail_alike createdAt h hreach.attemptsSound.ids hhidden examId candidateId
        now).map_eq
      fun _ _ heq => heq
  · exact (startAttemptRoute_agree h hhidden hsat input).map_eq fun _ _ heq => heq

end

/-! ## A failed sitting with another result -/

/-- One question, a pass ends the sittings, and the results wait to be published. -/
def sampleManual : Db :=
  sampleStore { sampleCreate .timedWindow (some 60) (some 600000) with
    questionIds := ["q1"], totalScore := 2, passingScore := 2
    retakePolicy := some .passThenStop, resultPublicationMode := some .manual }

def sampleFailed : Db :=
  run (@Request.step sampleHost sampleContent) sampleManual
    [.exam (.publish sampleBank), .sitting (.start (sampleArrival 1500)) rfl,
      .sitting (.submit "attempt" "candidate" 2500) rfl]

def Db.asPassed (db : Db) : Db :=
  { db with
    enrollment := { db.enrollment with finalScore := some 2, finalPassed := some true }
    attempts := db.attempts.map fun a => { a with score := some 2, passed := some true } }

theorem sampleFailed_alike : SameButResults sampleFailed sampleFailed.asPassed := by
  have hscores : ∀ a ∈ sampleFailed.attempts, a.score.isSome = true ∧ a.passed.isSome = true := by
    decide +kernel
  refine ⟨_, _, _, rfl, ⟨_, _, rfl, by decide +kernel, by decide +kernel⟩, ?_,
    List.forall₂_same.mpr fun e _ => AttemptGradingEntry.Alike.refl e⟩
  refine List.forall₂_map_right_iff.mpr (List.forall₂_same.mpr fun a ha => ?_)
  obtain ⟨hscore, hpassed⟩ := hscores a ha
  exact ⟨_, _, _, _, rfl, rfl, hscore.symm, hpassed.symm, rfl⟩

/-- The candidate has failed, and is told the same as after a pass. -/
theorem hidden_result_unseen_sample :
    sampleFailed.enrollment.finalPassed = some false ∧
      (candidateExamDetail (fun _ => 0) sampleFailed "exam" "candidate" 3000).map (·.1) =
        (candidateExamDetail (fun _ => 0) sampleFailed.asPassed "exam" "candidate" 3000).map (·.1) ∧
      (@startAttemptRoute sampleHost sampleFailed (sampleArrival 3000)).map (·.1) =
        (@startAttemptRoute sampleHost sampleFailed.asPassed (sampleArrival 3000)).map (·.1) ∧
      (@startAttemptRoute sampleHost sampleFailed.asPassed (sampleArrival 3000)).map (·.1) =
        .error (.conflict "Cannot start a new attempt for this exam at this time") := by
  obtain ⟨hdetail, hstart⟩ := @hidden_result_unseen sampleHost sampleContent sampleManual
    ⟨rfl, rfl, rfl, rfl, rfl, rfl, rfl, rfl, ⟨rfl, rfl, rfl⟩⟩ rfl
    [.exam (.publish sampleBank), .sitting (.start (sampleArrival 1500)) rfl,
      .sitting (.submit "attempt" "candidate" 2500) rfl]
    0 (by simp [InOrder, Request.now, ExamCommand.now, Command.now,
        sampleArrival]) _ sampleFailed_alike (by decide +kernel)
  exact ⟨by decide +kernel, hdetail _ _ _ _, hstart _, by decide +kernel⟩

end ExamSystem
