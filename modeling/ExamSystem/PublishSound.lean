import Mathlib.Algebra.BigOperators.Group.List.Basic
import ExamSystem.Publish
import ExamSystem.WedgeSound

/-!
# Published exams can be graded

What publish guarantees of the frozen questions, and what an attempt of the
published exam keeps of it: a submit needs distinct questions, and the maxima
of a graded attempt sum to the exam's total.
-/

namespace ExamSystem

open Tx

/-! ## The policy gate -/

theorem assertExamPolicyValid_eq_ok {exam : Exam} :
    assertExamPolicyValid exam = .ok () ↔ validateExamPolicy (resolveExamPolicy exam) = [] := by
  unfold assertExamPolicyValid
  cases validateExamPolicy (resolveExamPolicy exam) with
  | nil => simp [pure, Except.pure]
  | cons first rest => simp

theorem validPolicy_matrix {p : ResolvedExamPolicy} (h : validateExamPolicy p = []) :
    validateTimingModeMatrix p = [] := by
  simp only [validateExamPolicy, List.append_eq_nil_iff] at h
  exact h.1.1.1.1.2

theorem validPolicy_snapshot {exam : Exam} (h : assertExamPolicyValid exam = .ok ()) :
    ∃ snapshot, resolveAttemptTimingPolicySnapshot exam = .ok snapshot := by
  rw [assertExamPolicyValid_eq_ok] at h
  have hcaps : validateInterruptionPolicyCaps (exam.interruptionTimePolicy.getD .strict)
      exam.interruptionGracePerIncidentSeconds exam.interruptionGracePerAttemptSeconds = [] := by
    simp only [validateExamPolicy, List.append_eq_nil_iff, List.map_eq_nil_iff] at h
    exact h.1.2
  unfold resolveAttemptTimingPolicySnapshot
  cases hp : exam.interruptionTimePolicy.getD .strict with
  | boundedGrace =>
    simp only [validateInterruptionPolicyCaps, hp, ne_eq, not_true, if_false] at hcaps
    cases hi : exam.interruptionGracePerIncidentSeconds with
    | none => simp [hi] at hcaps
    | some perIncident =>
      cases ha : exam.interruptionGracePerAttemptSeconds with
      | none => simp [hi, ha] at hcaps
      | some perAttempt =>
        simp only [hi, ha] at hcaps
        split at hcaps
        · cases hcaps
        · rename_i hpos
          rw [not_or, not_le, not_le] at hpos
          have hle : perIncident ≤ perAttempt := by simpa using hcaps
          dsimp only
          rw [require_true hpos, ok_bind, require_true hle, ok_bind]
          exact ⟨_, rfl⟩
  | strict | operatorIncident =>
    simp only [validateInterruptionPolicyCaps, hp, ne_eq, reduceCtorEq, not_false_eq_true,
      if_true] at hcaps
    have hnone : exam.interruptionGracePerIncidentSeconds = none ∧
        exam.interruptionGracePerAttemptSeconds = none := by
      by_contra hno
      rw [if_pos (by tauto)] at hcaps
      cases hcaps
    dsimp only
    rw [require_true hnone, ok_bind]
    exact ⟨_, rfl⟩

/-! ## The frozen questions -/

theorem snapshotFrom_ok {questions : List Question} : ∀ {qids : List String} {index : Nat}
    {questionSnapshot : List QuestionSnapshot},
    snapshotFrom questions index qids = .ok questionSnapshot →
    questionSnapshot.map (·.originalQuestionId) = qids ∧ ∀ q ∈ questionSnapshot, 0 < q.score
  | [], index, questionSnapshot, h => by
    rw [snapshotFrom, pure_eq_ok] at h
    subst h
    exact ⟨rfl, by simp⟩
  | qid :: qids, index, questionSnapshot, h => by
    simp only [snapshotFrom, bind_eq_ok, orThrow_eq_ok, pure_eq_ok] at h
    obtain ⟨q, hq, rest, hrest, rfl⟩ := h
    obtain ⟨hids, hpos⟩ := snapshotFrom_ok hrest
    have hid : q.id = qid := by simpa using List.find?_some hq
    refine ⟨?_, ?_⟩
    · rw [List.map_cons, hids]
      exact congrArg (· :: qids) hid
    · intro s hs
      rcases List.mem_cons.mp hs with rfl | hs
      · exact q.score_pos
      · exact hpos s hs

structure Published [Host] (exam : Exam) : Prop where
  ids : exam.questionSnapshot.map (·.originalQuestionId) = exam.questionIds
  positive : ∀ q ∈ exam.questionSnapshot, 0 < q.score
  total : sumScores (exam.questionSnapshot.map (·.score)) = exam.totalScore

theorem checkExamRow_ok {exam : Exam} (h : checkExamRow exam = .ok ()) :
    assertExamPolicyValid exam = .ok () := by
  simp only [checkExamRow, bind_eq_ok] at h
  obtain ⟨-, -, -, -, -, -, -, -, -, -, -, -, hvalid⟩ := h
  exact hvalid

theorem publishExam_ok [Host] [RichContent] {db db' : Db} {examId : String}
    {questions : List Question} {exam : Exam}
    (h : publishExam db examId questions = .ok (exam, db')) :
    Published exam ∧ exam.id = db.exam.id ∧ db' = { db with exam := exam } ∧
      ∃ snapshot, resolveAttemptTimingPolicySnapshot exam = .ok snapshot := by
  simp only [publishExam, bind_eq_ok, orThrow_eq_ok, require_eq_ok, exists_const, pure_eq_ok,
    Prod.mk.injEq, buildQuestionSnapshot] at h
  obtain ⟨draft, hdraft, _, hrow, -, -, -, questionSnapshot, hsnap, htotal, -, rfl, rfl⟩ := h
  obtain ⟨-, rfl⟩ := Db.findExam_eq_some.mp hdraft
  obtain ⟨hids, hpos⟩ := snapshotFrom_ok hsnap
  have hpolicy : assertExamPolicyValid db.exam = .ok () := checkExamRow_ok hrow
  exact ⟨⟨hids, hpos, htotal.symm⟩, rfl, rfl, validPolicy_snapshot hpolicy⟩

/-! ## The questions of an attempt -/

def questionWeight (q : QuestionSnapshot) : String × ℚ := (q.originalQuestionId, q.score)

section
variable {β : Type} {g : QuestionSnapshot → β}

theorem shuffleOptions_map (hg : ∀ q options, g { q with options := options } = g q) :
    ∀ (questions : List QuestionSnapshot) (draws : List Nat),
    (shuffleOptions questions draws).map g = questions.map g
  | [], _ => rfl
  | q :: qs, draws => by
    unfold shuffleOptions
    split
    · rw [List.map_cons, List.map_cons, shuffleOptions_map hg qs, hg]
    · rw [List.map_cons, List.map_cons, shuffleOptions_map hg qs]

theorem renumber_map (hg : ∀ q order, g { q with order := order } = g q)
    (questions : List QuestionSnapshot) :
    (questions.mapIdx fun index q => { q with order := (index : Int) }).map g = questions.map g := by
  rw [List.map_eq_iff]
  intro i
  rw [List.getElem?_mapIdx, List.getElem?_map, Option.map_map]
  exact congrArg (fun f => Option.map f questions[i]?) (funext fun q => (hg q i).symm)

theorem presentation_perm (hoptions : ∀ q options, g { q with options := options } = g q)
    (horder : ∀ q order, g { q with order := order } = g q) (questions : List QuestionSnapshot)
    (flags : ControlFlags) (draws : List Nat) :
    ((materializeAttemptPresentation questions flags draws).map g).Perm (questions.map g) := by
  have hshuffled : ∀ (qs : List QuestionSnapshot) (draws : List Nat),
      (if flags.shuffleOptions then shuffleOptions qs draws else qs).map g = qs.map g := by
    intro qs draws
    split
    · exact shuffleOptions_map hoptions qs draws
    · rfl
  unfold materializeAttemptPresentation
  by_cases hq : flags.shuffleQuestions
  · simp only [hq, if_true, hshuffled, renumber_map horder]
    exact (shuffledCopy_perm questions draws).map g
  · simp only [hq, hshuffled]
    exact .refl _

end

def FromExam (exam : Exam) (a : ExamAttempt) : Prop :=
  ∃ flags draws, a.questionSnapshot = materializeAttemptPresentation exam.questionSnapshot flags draws

section
variable {exam : Exam} {a : ExamAttempt}

theorem FromExam.perm (h : FromExam exam a) :
    (a.questionSnapshot.map questionWeight).Perm (exam.questionSnapshot.map questionWeight) := by
  obtain ⟨flags, draws, hd⟩ := h
  rw [hd]
  exact presentation_perm (fun _ _ => rfl) (fun _ _ => rfl) _ _ _

theorem FromExam.scores (h : FromExam exam a) :
    (a.questionSnapshot.map (·.score)).Perm (exam.questionSnapshot.map (·.score)) := by
  have hscores := h.perm.map Prod.snd
  rw [List.map_map, List.map_map] at hscores
  exact hscores

variable [Host]

theorem FromExam.distinct (h : FromExam exam a) (hp : Published exam) :
    (a.questionSnapshot.map (·.originalQuestionId)).Nodup ↔ exam.questionIds.Nodup := by
  have hids := h.perm.map Prod.fst
  rw [List.map_map, List.map_map] at hids
  rw [← hp.ids]
  exact hids.nodup_iff

theorem FromExam.positive (h : FromExam exam a) (hp : Published exam) :
    ∀ q ∈ a.questionSnapshot, 0 < q.score := by
  intro q hq
  have hmem : questionWeight q ∈ exam.questionSnapshot.map questionWeight :=
    h.perm.subset (List.mem_map_of_mem hq)
  obtain ⟨s, hs, hw⟩ := List.mem_map.mp hmem
  have hscore : s.score = q.score := congrArg Prod.snd hw
  rw [← hscore]
  exact hp.positive s hs

/-! ## The total of the attempt's order -/

/-- The scores give the same total in the order of the attempt and in the order
of the exam. -/
def AddsAlike (exam : Exam) (a : ExamAttempt) : Prop :=
  sumScores (a.questionSnapshot.map (·.score)) = sumScores (exam.questionSnapshot.map (·.score))

/-- The scores are whole in one unit (points, half points, and so on), and are at
most `2 ^ 53` units together. -/
def Exam.InUnits (exam : Exam) : Prop :=
  ∃ k : ℤ, -1074 ≤ k ∧ k ≤ 970 ∧ (∀ q ∈ exam.questionSnapshot, ∃ n : ℕ, q.score = n * 2 ^ k) ∧
    (exam.questionSnapshot.map (·.score)).sum ≤ 2 ^ 53 * 2 ^ k

theorem FromExam.addsAlike (h : FromExam exam a) (hadd : Host.add = Binary64.add)
    (hunits : exam.InUnits) :
    AddsAlike exam a := by
  obtain ⟨k, hlow, hhigh, hscores, hsum⟩ := hunits
  have hwhole : ∀ x ∈ exam.questionSnapshot.map (·.score), ∃ n : ℕ, x = (n : ℚ) * 2 ^ k :=
    List.forall_mem_map.mpr hscores
  unfold AddsAlike sumScores
  rw [hadd, Binary64.foldl_exact hlow hhigh hwhole hsum]
  rw [Binary64.foldl_exact hlow hhigh (fun x hx => hwhole x (h.scores.subset hx))
      (h.scores.sum_eq ▸ hsum)]
  exact h.scores.sum_eq

/-- Otherwise it does: 0.3, 0.2 and 0.1 are less than the same in the opposite order. -/
example :
    [5404319552844595 / 18014398509481984, 3602879701896397 / 18014398509481984,
      3602879701896397 / 36028797018963968].foldl
        Binary64.add 0 <
      [3602879701896397 / 36028797018963968, 3602879701896397 / 18014398509481984,
        5404319552844595 / 18014398509481984].foldl Binary64.add 0 := by
  decide +kernel

end

section
variable [Host]

/-! ## Attempts of the exam over runs -/

theorem RowStep.questionSnapshot {now : Int} {db db' : Db} {a a' : ExamAttempt}
    (h : RowStep now db db' a a') :
    a'.questionSnapshot = a.questionSnapshot := by
  cases h <;> rfl

def KeepsSnapshot (exam : Exam) (cs : List Command) : Prop :=
  ∀ e now, Command.examWrite e now ∈ cs → e.questionSnapshot = exam.questionSnapshot

/-- The store's exam has the questions of `exam`, and every attempt that `old`
did not have presents them. -/
structure Presents (exam : Exam) (old db : Db) : Prop where
  questions : db.exam.questionSnapshot = exam.questionSnapshot
  attempts : ∀ attemptId a, old.findAttempt attemptId = none → db.findAttempt attemptId = some a →
    FromExam exam a

theorem Presents.change {exam : Exam} {old db db' : Db} {now : Int} (h : Presents exam old db)
    (hc : Change now db db') (hexam : db'.exam = db.exam) : Presents exam old db' := by
  refine ⟨hexam ▸ h.questions, fun attemptId a' hold ha' => ?_⟩
  rcases hc.row_cases ha' with ⟨input, hcr, -⟩ | ⟨a, ha, hstep⟩
  · obtain ⟨deadlineAt, snapshot, hrow⟩ := hcr.row
    refine ⟨db.exam.controlFlags, input.draws, ?_⟩
    rw [hrow, ← h.questions]
    rfl
  · obtain ⟨flags, draws, hd⟩ := h.attempts attemptId a hold ha
    exact ⟨flags, draws, hstep.questionSnapshot.trans hd⟩

theorem presents_run {exam : Exam} {db : Db} (hexam : db.exam = exam) {cs : List Command}
    (hkeep : KeepsSnapshot exam cs) : Presents exam db (run Command.step db cs) := by
  refine run_keeping (I := Presents exam db) ?_ ?_ cs db hkeep ?_
  · intro now db db' h hc he
    exact h.change hc he
  · intro db e h hq
    exact ⟨hq, h.attempts⟩
  · refine ⟨congrArg _ hexam, fun attemptId a hnone ha => ?_⟩
    rw [hnone] at ha
    cases ha

/-! ## Unfrozen attempts have no entries -/

def EntriesFrozen (db : Db) : Prop :=
  ∀ e ∈ db.gradingEntries, ∃ a, db.findAttempt e.attemptId = some a ∧ a.Frozen

theorem entriesFrozen_change (now : Int) (db db' : Db) (h : EntriesFrozen db) (hc : Change now db db') :
    EntriesFrozen db' := by
  have hold : ∀ e ∈ db.gradingEntries, ∃ a, db'.findAttempt e.attemptId = some a ∧ a.Frozen := by
    intro e he
    obtain ⟨a, ha, hf⟩ := h e he
    obtain ⟨a', ha', hstep⟩ := hc.row ha
    exact ⟨a', ha', (hstep.frozen hf).frozen⟩
  rcases hc with hq | _ | _
  case adjust => exact hold
  case examWrite => exact hold
  cases hq with
  | @freeze a submittedAt reason events hf =>
    intro e he
    rcases List.mem_append.mp he with he | he
    · exact hold e he
    · rw [workset_attemptId he]
      exact ⟨_, findAttempt_freeze hf.found, .inl rfl⟩
  | score _ =>
    intro e he
    obtain ⟨x, hx, rfl⟩ := List.mem_map.mp he
    split
    · exact hold x hx
    · exact hold x hx
  | _ => exact hold

theorem Reachable.entriesFrozen {db : Db} (h : Reachable db) : EntriesFrozen db :=
  h.invariant (fun db hi e he => by rw [hi.gradingEntries] at he; cases he) entriesFrozen_change

theorem Reachable.unmaterialized {db : Db} (h : Reachable db) {a : ExamAttempt}
    (ha : db.findAttempt a.id = some a) (hs : a.status = .inProgress ∨ a.status = .disrupted) :
    db.entriesOf a.id = [] := by
  refine List.filter_eq_nil_iff.mpr fun e he hat => ?_
  obtain ⟨b, hb, hf⟩ := h.entriesFrozen e he
  rw [of_decide_eq_true hat] at hb
  obtain rfl := Option.some.inj (ha.symm.trans hb)
  rcases hf with hf | hf <;> rcases hs with hs | hs <;> rw [hs] at hf <;> cases hf

/-! ## Submission -/

/-- The guards of a submit pass: the attempt is in flight, the caller's
resolution of its interruption fits, and its minimum time is over. -/
structure SubmitGuards (db : Db) (a : ExamAttempt) (now : Int) (opts : SubmitOptions) : Prop where
  found : db.findAttempt a.id = some a
  active : a.status = .inProgress ∨ a.status = .disrupted
  resolved : ∃ db₁, resolveActiveInterruptionOnTerminalization db a opts.resolution now = .ok db₁
  time : minSubmitGuard a now opts = .ok ()

theorem workset_checks {a : ExamAttempt} (hscore : ∀ q ∈ a.questionSnapshot, 0 ≤ q.score) :
    ∀ e ∈ a.workset, Db.entryChecks e = .ok () := by
  intro e he
  obtain ⟨q, hq, rfl⟩ := List.mem_map.mp he
  exact expectedEntry_checks _ a.id (hscore q hq)

theorem submit_iff_distinct {db : Db} {a : ExamAttempt} {now : Int} {opts : SubmitOptions}
    (hg : SubmitGuards db a now opts) (hnone : db.entriesOf a.id = [])
    (hpos : ∀ q ∈ a.questionSnapshot, 0 < q.score) :
    (∃ r, submitAttempt db a.id now opts = .ok r) ↔
    (a.questionSnapshot.map (·.originalQuestionId)).Nodup := by
  constructor
  · rintro ⟨⟨s, db'⟩, h⟩
    obtain ⟨b, hb, hcase⟩ := submitAttempt_ok h
    obtain rfl : a = b := Option.some.inj (hg.found.symm.trans hb)
    rcases hcase with ⟨hdone, -⟩ | ⟨events, hf, -⟩
    · rcases hdone with hd | hd <;> rcases hg.active with hs | hs <;> rw [hs] at hd <;> cases hd
    · exact hf.distinct
  · intro hn
    obtain ⟨db₁, hres⟩ := hg.resolved
    have hentries : db₁.gradingEntries = db.gradingEntries := by
      rcases resolve_ok hres with ⟨-, rfl⟩ | ⟨_, _, _, -, -, -, -, rfl⟩ <;> rfl
    have hnone₁ : db₁.entriesOf a.id = [] := by
      rw [Db.entriesOf, hentries]
      exact hnone
    have hf : CanFreeze db₁ a := ⟨hnone₁, workset_checks fun q hq => (hpos q hq).le, hn⟩
    exact ⟨_, submitAttempt_progress hg.found hg.active hres hg.time hf⟩

/-! ## Grading in full -/

/-- The attempt is graded, and the maxima of its result sum to the exam's total. -/
def GradedInFull (exam : Exam) (db : Db) (attemptId : String) : Prop :=
  ∃ a results, db.findAttempt attemptId = some a ∧ a.status = .graded ∧ a.gradingResult = some results ∧
    sumScores (results.map (·.maxScore)) = exam.totalScore

def FinalizesInFull (exam : Exam) (db : Db) (a : ExamAttempt) (now : Int) : Prop :=
  ∃ cap db', lockEnrollmentAndAttempt db a.id = .ok cap ∧
    finalizeTerminalGrading db cap db.exam now = .ok (true, db') ∧ GradedInFull exam db' a.id

def LastScoreGradesInFull (exam : Exam) (db : Db) (a : ExamAttempt) (questionId : String) (score : ℚ)
    (comment graderId : String) (now : Int) : Prop :=
  ∃ u db', (Command.grade a.id questionId score comment graderId now).step db = .ok (u, db') ∧
    GradedInFull exam db' a.id

section
variable {exam : Exam} {db : Db} {a : ExamAttempt} {now : Int}

theorem Closes.inFull_iff {aggregated : GradingEntryAggregate} (h : Closes db a aggregated now)
    (hreach : Reachable db) (hp : Published exam) :
    GradedInFull exam (db.close a aggregated now) a.id ↔ AddsAlike exam a := by
  obtain ⟨hshape, hn⟩ := hreach.worksetsSound a.id a h.found (.inl h.submitted)
  obtain ⟨-, hmax, -⟩ := aggregate_totals hshape hn h.aggregate
  rw [aggregate_maxScore h.aggregate] at hmax
  unfold AddsAlike
  rw [hp.total, ← hmax]
  constructor
  · rintro ⟨x, results, hx, -, hresults, hsum⟩
    obtain rfl := Option.some.inj ((findAttempt_close h.found).symm.trans hx)
    obtain rfl := Option.some.inj hresults
    exact hsum
  · exact fun hsum => ⟨_, _, findAttempt_close h.found, rfl, rfl, hsum⟩

theorem finalizesInFull_iff (hreach : Reachable db) (hp : Published exam)
    (ha : db.findAttempt a.id = some a) (hs : a.status = .submitted) (hscored : AllScored db a) :
    FinalizesInFull exam db a now ↔ ¬ Wedged db a now ∧ AddsAlike exam a := by
  rw [← finalizes_iff hreach ha hs hscored]
  constructor
  · rintro ⟨cap, db', hlock, hfin, hfull⟩
    obtain ⟨aggregated, hc, rfl⟩ := finalize_closes hreach ha hs hlock hfin
    obtain ⟨x, -, hx, hg, -⟩ := id hfull
    exact ⟨⟨cap, _, hlock, hfin, x, hx, hg⟩, (hc.inFull_iff hreach hp).mp hfull⟩
  · rintro ⟨⟨cap, db', hlock, hfin, -⟩, hadds⟩
    obtain ⟨aggregated, hc, rfl⟩ := finalize_closes hreach ha hs hlock hfin
    exact ⟨cap, _, hlock, hfin, (hc.inFull_iff hreach hp).mpr hadds⟩

theorem lastScoreGradesInFull_iff {entry : AttemptGradingEntry} {score : ℚ}
    {comment graderId : String} (hreach : Reachable db) (hp : Published exam)
    (ha : db.findAttempt a.id = some a) (hs : a.status = .submitted)
    (hlast : LastPending db a entry) (hb : 0 ≤ score ∧ score ≤ entry.maxScore) :
    LastScoreGradesInFull exam db a entry.questionId score comment graderId now ↔
      ¬ Wedged (db.scored a entry score comment graderId now) a now ∧ AddsAlike exam a := by
  rw [← lastScoreGrades_iff hreach ha hs hlast hb]
  have hscored : Reachable (db.scored a entry score comment graderId now) :=
    hreach.changes (.single (.score (hlast.scores hreach ha hs hb) : Quiet now _ _))
  -- the step that grades the attempt has closed it
  have hcloses : ∀ {u : Unit} {db' : Db} {x : ExamAttempt},
      (Command.grade a.id entry.questionId score comment graderId now).step db = .ok (u, db') →
      db'.findAttempt a.id = some x → x.status = .graded →
      (GradedInFull exam db' a.id ↔ AddsAlike exam a) := by
    intro u db' x hstep hx hg
    rcases gradeLast_ok hreach ha hlast hstep with rfl | ⟨aggregated, hc, rfl⟩
    · have ha' : (db.scored a entry score comment graderId now).findAttempt a.id = some a := ha
      obtain rfl := Option.some.inj (ha'.symm.trans hx)
      rw [hs] at hg
      cases hg
    · exact hc.inFull_iff hscored hp
  constructor
  · rintro ⟨u, db', hstep, hfull⟩
    obtain ⟨x, -, hx, hg, -⟩ := id hfull
    exact ⟨⟨u, db', hstep, x, hx, hg⟩, (hcloses hstep hx hg).mp hfull⟩
  · rintro ⟨⟨u, db', hstep, x, hx, hg⟩, hadds⟩
    exact ⟨u, db', hstep, (hcloses hstep hx hg).mpr hadds⟩

end

/-- Publish an exam in any reachable store and run any commands that keep its
frozen questions. For every attempt created meanwhile, a submit behind its
guards succeeds exactly when the question ids are distinct, and grading of the
scored attempt succeeds, with the exam's total, exactly when the enrollment
does not refuse it and the scores give the total in the attempt's order too.
They do in the order of the exam, and in any order when their sums are exact. -/
theorem published_gradable_iff [RichContent] (db₀ : Db) (hreach : Reachable db₀) (examId : String)
    (questions : List Question) (exam : Exam) (db₁ : Db)
    (hpublish : publishExam db₀ examId questions = .ok (exam, db₁)) (cs : List Command)
    (hkeep : KeepsSnapshot exam cs) (a : ExamAttempt) (hcreated : db₁.findAttempt a.id = none)
    (ha : (run Command.step db₁ cs).findAttempt a.id = some a) (now : Int) :
    (∀ opts, SubmitGuards (run Command.step db₁ cs) a now opts →
      ((∃ r, submitAttempt (run Command.step db₁ cs) a.id now opts = .ok r) ↔ exam.questionIds.Nodup)) ∧
    (a.status = .submitted → AllScored (run Command.step db₁ cs) a →
      (FinalizesInFull exam (run Command.step db₁ cs) a now ↔
        ¬ Wedged (run Command.step db₁ cs) a now ∧ AddsAlike exam a)) ∧
    (∀ entry score comment graderId, a.status = .submitted →
      LastPending (run Command.step db₁ cs) a entry →
      0 ≤ score ∧ score ≤ entry.maxScore →
      (LastScoreGradesInFull exam (run Command.step db₁ cs) a entry.questionId score comment
          graderId now ↔
        ¬ Wedged ((run Command.step db₁ cs).scored a entry score comment graderId now) a now ∧
        AddsAlike exam a)) ∧
    (a.questionSnapshot.map (·.score) = exam.questionSnapshot.map (·.score) ∨
      Host.add = Binary64.add ∧ exam.InUnits → AddsAlike exam a) := by
  obtain ⟨hp, hid, hdb, -⟩ := publishExam_ok hpublish
  have hreach₁ : Reachable db₁ := by
    obtain ⟨db, hi, hruns⟩ := hreach
    exact ⟨db, hi, hruns.tail ⟨0, hdb ▸ .examWrite hid⟩⟩
  have hrun := reachable_run hreach₁ cs
  have hexam : db₁.exam = exam := by rw [hdb]
  have hfrom : FromExam exam a := (presents_run hexam hkeep).attempts a.id a hcreated ha
  refine ⟨?_, ?_, ?_, ?_⟩
  · intro opts hg
    rw [submit_iff_distinct hg (hrun.unmaterialized ha hg.active) (hfrom.positive hp)]
    exact hfrom.distinct hp
  · intro hs hscored
    exact finalizesInFull_iff hrun hp ha hs hscored
  · intro entry score comment graderId hs hlast hb
    exact lastScoreGradesInFull_iff hrun hp ha hs hlast hb
  · rintro (horder | ⟨hadd, hunits⟩)
    · exact congrArg sumScores horder
    · exact hfrom.addsAlike hadd hunits

end

/-! ## A question listed twice -/

@[reducible] def sampleContent : RichContent where
  classifyPersistedQuestionContent
    | .null => .plain
    | raw => .corrupt raw
  plainTextProjection _ := []

def sampleBank : List Question :=
  [{ id := "q1", courseId := "course", type := .singleChoice, content := js "Pick one",
      contentDocument := none
     answerMode := none, attachments := [], options := [], standardAnswer := .str (js "a"), score := 2
     gradingRule := sampleRule, rubric := none, score_pos := by decide +kernel },
   { id := "q2", courseId := "course", type := .textResponse, content := js "Why?",
     contentDocument := none
     answerMode := none, attachments := [], options := [], standardAnswer := .null, score := 3
     gradingRule := sampleRule, rubric := some (js "Any reason"), score_pos := by decide +kernel }]

/-- The sample store with a draft of the given questions and total. -/
def sampleDraft (questionIds : List String) (totalScore : ℚ) : Db :=
  { sampleInitial with
    exam := { sampleExam with
      status := .draft, questionIds := questionIds, questionSnapshot := [], totalScore := totalScore } }

def samplePublished (questionIds : List String) (totalScore : ℚ) : Db :=
  commit (@publishExam sampleHost sampleContent (sampleDraft questionIds totalScore) "exam" sampleBank)
    (sampleDraft questionIds totalScore)

def sampleCreated (db : Db) : ExamAttempt :=
  newAttempt db.exam db.enrollment
    { examId := "exam", candidateId := "candidate", now := 0, freshAttemptId := "attempt"
      freshAdjustment := { id := "", operationId := "" }, draws := [], admission := none } (some 60000)
    { policy := .strict, perIncidentCapSeconds := none, perAttemptAggregateCapSeconds := none }

/-- A draft that lists a question twice is published, with the question counted
twice; an attempt of it passes the guards of a submit, and the submit fails. -/
theorem published_not_gradable :
    let db₁ := samplePublished ["q1", "q1"] 4
    let db := run (@Command.step sampleHost) db₁ [sampleStart]
    @publishExam sampleHost sampleContent (sampleDraft ["q1", "q1"] 4) "exam" sampleBank = .ok
      (db₁.exam, db₁) ∧ SubmitGuards db (sampleCreated db₁) 1000 sampleSubmit ∧
      @submitAttempt sampleHost db "attempt" 1000 sampleSubmit =
        .error (.uniqueViolation "attempt_grading_entries_attempt_question_unique") := by
  refine ⟨by decide +kernel, ⟨by decide +kernel, .inl rfl, ⟨_, rfl⟩, rfl⟩, by decide +kernel⟩

/-- Two distinct questions: the attempt can be submitted. -/
theorem published_gradable_iff_sample :
    let db := run (@Command.step sampleHost) (samplePublished ["q1", "q2"] 5) [sampleStart]
    ∃ r, @submitAttempt sampleHost db "attempt" 1000 sampleSubmit = .ok r := by
  let _ : Host := sampleHost
  let _ : RichContent := sampleContent
  let db₁ := samplePublished ["q1", "q2"] 5
  have hreach : Reachable (sampleDraft ["q1", "q2"] 5) :=
    Initial.reachable ⟨rfl, rfl, rfl, rfl, rfl, rfl, rfl, rfl, ⟨rfl, rfl, rfl⟩⟩
  have hpublish : publishExam (sampleDraft ["q1", "q2"] 5) "exam" sampleBank = .ok (db₁.exam,
    db₁) := by decide +kernel
  have hkeep : KeepsSnapshot db₁.exam [sampleStart] := by
    intro e now hmem
    simp [sampleStart] at hmem
  have ha : (run Command.step db₁ [sampleStart]).findAttempt
    "attempt" = some (sampleCreated db₁) := by decide +kernel
  have h := published_gradable_iff _ hreach "exam" sampleBank _ _ hpublish [sampleStart] hkeep
    (sampleCreated db₁)
    (by decide +kernel) ha 1000
  exact (h.1 sampleSubmit ⟨ha, .inl rfl, ⟨_, rfl⟩, rfl⟩).mpr (by decide +kernel)

end ExamSystem
