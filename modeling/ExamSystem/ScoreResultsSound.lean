import ExamSystem.ScoreResults
import ExamSystem.CandidateTakeSound
import ExamSystem.HiddenResults
import ExamSystem.Chronology
import ExamSystem.RestoreSound

/-!
# What a result says

A graded row keeps what terminal grading aggregated from its entries. The two
surfaces report it question by question, the candidate's without the reference
answers and only once it is published, and what is shown once is shown for ever.
-/

namespace ExamSystem.Results

open Tx TwoRuns

section
variable [Host]

/-! ## Graded rows -/

structure GradedRow (db : Db) (a : ExamAttempt) : Prop where
  aggregate : ∃ aggregated, aggregateGradingEntries a (db.entriesOf a.id) db.exam.passingScore =
    .ok aggregated ∧
    a.gradingResult = some aggregated.questionResults ∧ a.score = some aggregated.totalScore ∧
    a.passed = some aggregated.passed
  gradedAt : a.gradedAt.isSome
  label : a.gradingStatus = some (if requiresManualGrading a.questionSnapshot then .fullyGraded
    else .autoGraded)

def GradedRows (db : Db) : Prop := ∀ attemptId a, db.findAttempt attemptId = some a →
    a.status = .graded → GradedRow db a

section
variable {now : Int} {db db' : Db} {attemptId : String} {a : ExamAttempt}

theorem graded_stays (hc : Change now db db') (ha : db.findAttempt attemptId = some a)
    (hg : a.status = .graded) :
    db'.findAttempt attemptId = some a := by
  obtain ⟨a', ha', hstep⟩ := hc.row ha
  cases hstep with
  | same => exact ha'
  | save _ _ _ hne _ => exact absurd hg hne
  | touch hs | restore hs | detect _ hs =>
    rw [hg] at hs
    cases hs
  | extend h _ => rcases h.active with hs | hs <;> rw [hg] at hs <;> cases hs
  | freeze _ _ h _ => rcases h.events.active with hs | hs <;> rw [hg] at hs <;> cases hs
  | close h _ =>
    have hs := h.submitted
    rw [hg] at hs
    cases hs

theorem graded_entries (hc : Change now db db') (ha : db.findAttempt a.id = some a)
    (hg : a.status = .graded) :
    db'.entriesOf a.id = db.entriesOf a.id := by
  rcases hc.entriesOf a.id with he | ⟨b, _, _, _, hid, hfr, -⟩ | ⟨b, entry, score, comment,
    graderId, hsc, rfl⟩
  · exact he
  · obtain rfl : a = b := Option.some.inj (ha.symm.trans (hid ▸ hfr.found))
    rcases hfr.events.active with hs | hs <;> rw [hg] at hs <;> cases hs
  · refine entriesOf_updateEntry_other (f := (·.complete score comment graderId now)) db
      (fun _ => rfl) fun hid => ?_
    obtain rfl : a = b := Option.some.inj (ha.symm.trans (hid ▸ hsc.found))
    have hs := hsc.submitted
    rw [hg] at hs
    cases hs

theorem gradedRows_change (hlabel : RowsLabeled db) (h : GradedRows db) (hc : Change now db db')
    (hpassing : db'.exam.passingScore = db.exam.passingScore) : GradedRows db' := by
  intro attemptId a' ha' hg'
  rcases hc.row_cases ha' with ⟨input, hcr, -⟩ | ⟨a, ha, hstep⟩
  · rw [hcr.status] at hg'
    cases hg'
  obtain rfl : a.id = attemptId := Db.findAttempt_id ha
  by_cases hg : a.status = .graded
  · obtain rfl : a = a' := Option.some.inj ((graded_stays hc ha hg).symm.trans ha')
    have hrow := h a.id a ha hg
    refine ⟨?_, hrow.gradedAt, hrow.label⟩
    rw [graded_entries hc ha hg, hpassing]
    exact hrow.aggregate
  · cases hstep with
    | close hcl hdb =>
      subst hdb
      refine ⟨⟨_, hcl.aggregate, rfl, rfl, rfl⟩, rfl, ?_⟩
      have hstatus := (hlabel a.id a ha).2 hcl.submitted
      show some (terminalGradingStatus a) = _
      unfold terminalGradingStatus
      rw [hstatus]
      unfold freezeStatus
      by_cases hm : requiresManualGrading a.questionSnapshot = true
      · simp [ExamAttempt.gradedRow, hm]
      · simp [ExamAttempt.gradedRow, hm]
    | same => exact absurd hg' hg
    | save _ _ _ _ _ => exact absurd hg' hg
    | extend _ _ => exact absurd hg' hg
    | touch _ => exact absurd hg' hg
    | detect _ _ | restore _ | freeze _ _ _ _ => cases hg'

theorem gradedRows_quiets (hq : Quiets now db db') (h : RowsLabeled db ∧ GradedRows db) :
    RowsLabeled db' ∧ GradedRows db' := by
  induction hq with
  | refl => exact h
  | tail _ hq ih =>
    exact ⟨rowsLabeled_change now _ _ ih.1 (.quiet hq),
      gradedRows_change ih.1 ih.2 (.quiet hq) (by rw [hq.exam])⟩

end

variable [RichContent]

theorem gradedRows_step {clock : Int} {db db' : Db} {r : Request} {u : Unit} (hs : Session clock db)
    (h : GradedRows db) (hclock : ∀ t ∈ r.now, clock ≤ t) (hx : r.step db = .ok (u, db')) :
    GradedRows db' := by
  have hlabel := hs.reachable.rowsLabeled
  rcases Request.step_cases hx with ⟨c, hc, rfl, hstep⟩ | ⟨exam, hr, rfl⟩
  · rcases step_transacts c db u db' hstep with ⟨db₁, hadj, hq⟩ | ⟨exam, now, rfl, -, -⟩
    · refine (gradedRows_quiets hq ?_).2
      rcases hadj with rfl | ⟨a, row, hadj, rfl⟩
      · exact ⟨hlabel, h⟩
      · exact ⟨rowsLabeled_change c.now _ _ hlabel (.adjust hadj),
          gradedRows_change hlabel h (.adjust hadj) rfl⟩
    · cases hc
  · intro attemptId a ha hg
    have hne : db.attempts ≠ [] := List.ne_nil_of_mem (Db.findAttempt_mem ha)
    have hpassing : exam.passingScore = db.exam.passingScore := by rw [(hs.kept hclock hr hne).row]
    have hc : Change clock db { db with exam := exam } := .examWrite hr.id
    exact gradedRows_change hlabel h hc hpassing attemptId a ha hg

theorem session_gradedRows {db₀ : Db} (h₀ : Initial db₀) (hdraft : db₀.exam.status = .draft)
    {clock : Int} {rs : List Request} (horder : InOrder clock rs) :
    Session (clockAfter clock rs) (run Request.step db₀ rs) ∧ GradedRows (run Request.step db₀ rs) := by
  refine session_run (G := fun _ _ => True) (P := fun _ db => GradedRows db)
    (fun _ _ _ _ h => h) ?_ rs clock db₀
    (h₀.session hdraft clock) (fun attemptId a ha => ?_) horder
      (along_of_forall _ _ _ fun _ _ _ => trivial)
  · exact fun clock db r u db' hs h hclock _ hx => gradedRows_step hs h hclock hx
  · rw [h₀.findAttempt] at ha
    cases ha

end

/-! ## Rows -/

section
variable [Host]

def Readable (q : QuestionSnapshot) : Prop :=
  ∀ v ∈ q.contentDocument, (ContentDocumentV1Schema v).isSome

instance (q : QuestionSnapshot) : Decidable (Readable q) :=
  inferInstanceAs (Decidable (∀ v ∈ q.contentDocument, (ContentDocumentV1Schema v).isSome))

def rowOf (q : QuestionSnapshot) (e : AttemptGradingEntry) : AttemptQuestionResult ContentDocumentV1 :=
  let result := aggregateResult q e
  { questionId := q.originalQuestionId
    score := result.score
    maxScore := result.maxScore
    correct := result.correct
    candidateAnswer := result.candidateAnswer
    manualGraded := manualGraded q result
    type := q.type
    content := q.content
    contentDocument := q.contentDocument.bind ContentDocumentV1Schema
    answerMode := q.answerMode
    order := q.order
    standardAnswer := q.standardAnswer }

def rawRow (q : QuestionSnapshot) (e : AttemptGradingEntry) : AttemptQuestionResult Json :=
  { rowOf q e with contentDocument := q.contentDocument }

theorem candidateSchema_eq (row : CandidateAttemptQuestionResult Json) :
    CandidateAttemptQuestionResultSchema row =
    if ∀ v ∈ row.contentDocument, (ContentDocumentV1Schema v).isSome then
      .ok { row with contentDocument := row.contentDocument.bind ContentDocumentV1Schema }
    else .error ZOD_ERROR := by
  obtain ⟨_, _, _, _, _, _, _, _, contentDocument, _, _⟩ := row
  unfold CandidateAttemptQuestionResultSchema
  cases contentDocument with
  | none => simp [pure, Except.pure, bind, Except.bind]
  | some v => cases hread : ContentDocumentV1Schema v <;> simp [hread, orThrow, pure, Except.pure,
      bind, Except.bind]

theorem candidateSchema_raw (q : QuestionSnapshot) (e : AttemptGradingEntry) :
    CandidateAttemptQuestionResultSchema (rawRow q e).toCandidateAttemptQuestionResult =
      if Readable q then .ok (rowOf q e).toCandidateAttemptQuestionResult else .error ZOD_ERROR :=
  candidateSchema_eq _

theorem schema_raw (q : QuestionSnapshot) (e : AttemptGradingEntry) :
    AttemptQuestionResultSchema (rawRow q e) = if Readable q then .ok (rowOf q e)
    else .error ZOD_ERROR := by
  unfold AttemptQuestionResultSchema
  rw [candidateSchema_raw]
  by_cases hq : Readable q
  · simp only [hq, if_true]
    rfl
  · simp only [hq, if_false]
    rfl

section
variable {db : Db} {a : ExamAttempt} {submitted : SubmittedAnswersSnapshot}
    {f : AttemptGradingEntry → AttemptGradingEntry}

theorem lastEntry_progress (hp : InProgress db a submitted f) {q : QuestionSnapshot}
    (hq : q ∈ a.questionSnapshot) :
    lastEntry (db.entriesOf a.id) q.originalQuestionId = some (f
        ((expectedEntry submitted q).toRow a.id)) := by
  have hids : ((db.entriesOf a.id).map (·.questionId)).Nodup :=
    questionIds_of_shape hp.shape ▸ hp.distinct
  have hrow : (expectedEntry submitted q).toRow a.id ∈ a.frozenRows submitted := List.mem_map_of_mem hq
  have hmem : f ((expectedEntry submitted q).toRow a.id) ∈ db.entriesOf a.id :=
    hp.entries ▸ List.mem_map_of_mem hrow
  have hid : (f ((expectedEntry submitted q).toRow a.id)).questionId = q.originalQuestionId :=
    (congrArg Prod.snd (hp.rows _ hrow).key).trans (expectedEntry_questionId submitted q)
  exact hid ▸ lastEntry_of_mem hids hmem

theorem results_eq (hp : InProgress db a submitted f) (h : GradedRow db a) :
    a.gradingResult = some (a.questionSnapshot.map fun q => aggregateResult q
        (f ((expectedEntry submitted q).toRow a.id))) := by
  obtain ⟨aggregated, hagg, hresults, -, -⟩ := h.aggregate
  rw [hresults, (aggregate_results hagg).1, ← List.filterMap_eq_map]
  refine congrArg some (List.filterMap_congr fun q hq => ?_)
  rw [lastEntry_progress hp hq]
  rfl

theorem buildQuestionResult_eq (hn : (a.questionSnapshot.map (·.originalQuestionId)).Nodup)
    {q : QuestionSnapshot} (hq : q ∈ a.questionSnapshot) (e : AttemptGradingEntry) :
    buildQuestionResult a (aggregateResult q e) = .ok (rawRow q e) := by
  have hfound : snapshotOf a q.originalQuestionId = some q := by
    have hreverse : snapshotOf a q.originalQuestionId = Rows.row
        (·.originalQuestionId) a.questionSnapshot q.originalQuestionId :=
      Rows.row_reverse _ hn _
    rw [hreverse]
    exact Rows.row_of_mem _ hn hq
  unfold buildQuestionResult
  rw [show (aggregateResult q e).questionId = q.originalQuestionId from rfl, hfound]
  rfl

theorem buildQuestionResults_eq (hp : InProgress db a submitted f) :
    buildQuestionResults a (a.questionSnapshot.map fun q => aggregateResult q
        (f ((expectedEntry submitted q).toRow a.id))) =
      .ok (a.questionSnapshot.map fun q => rawRow q (f ((expectedEntry submitted q).toRow a.id))) := by
  unfold buildQuestionResults
  rw [List.mapM_map]
  refine (mapM_decided (e := ZOD_ERROR) (p := fun _ => True) fun q hq => ?_).trans
    (if_pos fun _ _ => trivial)
  exact buildQuestionResult_eq hp.distinct hq _

end

/-! ## What a surface answers -/

/-- Why a graded result is withheld. An exam that publishes after grading waits
for a grader, even where no question has to be graded by hand. -/
def withheld (exam : Exam) (a : ExamAttempt) (view : CandidateResultView) :
    Option CandidateResultHiddenReason :=
  if exam.resultPublicationMode = .afterGrading ∧
    requiresManualGrading a.questionSnapshot = false then some .notGraded
  else if view = .own ∧ exam.resultPublicationMode = .manual ∧
    exam.resultsPublishedAt = none then some .pendingPublish
  else none

omit [Host] in
theorem visibility_ungraded {a : ExamAttempt} (hg : a.status ≠ .graded) (exam : Exam)
    (view : CandidateResultView) :
    resolveCandidateResultVisibility exam a view = some .notStarted := by
  unfold resolveCandidateResultVisibility
  simp only [if_pos hg]

theorem visibility_graded {db : Db} {a : ExamAttempt} (hg : a.status = .graded) (h : GradedRow db a)
    (exam : Exam) (view : CandidateResultView) :
    resolveCandidateResultVisibility exam a view = withheld exam a view := by
  obtain ⟨aggregated, -, hresults, hscore, hpassed⟩ := h.aggregate
  obtain ⟨gradedAt, hat⟩ := Option.isSome_iff_exists.mp h.gradedAt
  unfold resolveCandidateResultVisibility withheld
  rw [h.label, hresults, hscore, hpassed, hat]
  cases hm : requiresManualGrading a.questionSnapshot <;> cases exam.resultPublicationMode
    <;> cases view <;>
    cases exam.resultsPublishedAt <;> simp [hg]

/-- The answer about a graded attempt, with the result when it is not withheld. -/
def answerOf {ρ : Type} (exam : Exam) (a : ExamAttempt) (view : CandidateResultView)
    (totalScore : ℚ) (passed : Bool) (gradedAt : Int) (rows : List ρ) :
    Result (AttemptResultResponse ρ) :=
  match withheld exam a view with
  | some hiddenReason => .ok (.hidden a.id .graded hiddenReason)
  | none =>
    if ∀ q ∈ a.questionSnapshot, Readable q then .ok
      (.visible a.id exam.passingScore totalScore passed gradedAt rows)
    else .error ZOD_ERROR

section
variable {db : Db} {a : ExamAttempt} {submitted : SubmittedAnswersSnapshot}
    {f : AttemptGradingEntry → AttemptGradingEntry}

omit [Host] in
theorem attemptResult_ungraded {ρ : Type} {readRow : AttemptQuestionResult Json → Result ρ}
    (hg : a.status ≠ .graded) (exam : Exam) (view : CandidateResultView) :
    attemptResult view readRow exam a = .ok (.hidden a.id a.status .notStarted) := by
  unfold attemptResult
  rw [visibility_ungraded hg]
  rfl

theorem attemptResult_graded {ρ : Type} {totalScore : ℚ} {passed : Bool} {gradedAt : Int}
    (readRow : AttemptQuestionResult Json → Result ρ)
    (row : QuestionSnapshot → AttemptGradingEntry → ρ)
    (hread : ∀ q e, readRow (rawRow q e) = if Readable q then .ok (row q e) else .error ZOD_ERROR)
    (hg : a.status = .graded) (hp : InProgress db a submitted f) (h : GradedRow db a)
    (hscore : a.score = some totalScore) (hpassed : a.passed = some passed)
    (hat : a.gradedAt = some gradedAt) (exam : Exam) (view : CandidateResultView) :
    attemptResult view readRow exam a = answerOf exam a view totalScore passed gradedAt
      (a.questionSnapshot.map fun q => row q (f ((expectedEntry submitted q).toRow a.id))) := by
  unfold attemptResult answerOf
  rw [visibility_graded hg h]
  cases withheld exam a view with
  | some reason =>
    simp only [hg]
    rfl
  | none =>
    have hrows : a.questionSnapshot.mapM
        (readRow ∘ fun q => rawRow q (f ((expectedEntry submitted q).toRow a.id))) = _ :=
      mapM_decided fun q _ => hread q (f ((expectedEntry submitted q).toRow a.id))
    simp only [hat, results_eq hp h, hscore, hpassed, orThrow_some, ok_bind,
      buildQuestionResults_eq hp, List.mapM_map]
    rw [hrows]
    by_cases hall : ∀ q ∈ a.questionSnapshot, Readable q
    · rw [if_pos hall, if_pos hall]
      rfl
    · rw [if_neg hall, if_neg hall]
      rfl

end

/-! ## The report -/

/-- What a row says: the question as it was frozen, the points of its entry, and
the answer that is stored, which an automatic question grades to these points. -/
structure Reports (db : Db) (a : ExamAttempt) (q : QuestionSnapshot)
    (r : AttemptQuestionResult ContentDocumentV1) : Prop where
  question : r.questionId = q.originalQuestionId ∧ r.type = q.type ∧ r.content = q.content ∧
    r.contentDocument = q.contentDocument.bind ContentDocumentV1Schema ∧
    r.answerMode = q.answerMode ∧ r.order = q.order
  answers : r.candidateAnswer = some (Take.storedValue a q.originalQuestionId) ∧
    r.standardAnswer = q.standardAnswer
  entry : ∃ e ∈ db.entriesOf a.id, e.questionId = q.originalQuestionId ∧ e.earnedScore = some r.score
  bounds : 0 ≤ r.score ∧ r.score ≤ q.score ∧ r.maxScore = q.score
  manual : isManualGradedQuestion q = true → r.manualGraded = true ∧
    (r.correct = true ↔ r.score = q.score)
  auto : isManualGradedQuestion q = false →
    r.score = (gradeQuestion q (some (Take.storedValue a q.originalQuestionId))).score ∧
      r.correct = (gradeQuestion q (some (Take.storedValue a q.originalQuestionId))).correct ∧
      (r.manualGraded = true ↔ q.type = .fillBlank ∧ q.standardAnswer = .null)

/-- The rows of an attempt, their sum, and the decision by the passing score. -/
structure Report (db : Db) (a : ExamAttempt) (totalScore : ℚ) (passed : Bool)
    (rows : List (AttemptQuestionResult ContentDocumentV1)) : Prop where
  each : List.Forall₂ (Reports db a) a.questionSnapshot rows
  total : totalScore = sumScores (rows.map (·.score))
  decision : passed = true ↔ db.exam.passingScore ≤ totalScore

section
variable {db : Db} {a : ExamAttempt} {submitted : SubmittedAnswersSnapshot}
    {f : AttemptGradingEntry → AttemptGradingEntry}

theorem rowOf_reports (hp : InProgress db a submitted f)
    (hterm : ∀ e ∈ db.entriesOf a.id, Terminal e)
    (hvalue : ∀ e ∈ db.entriesOf a.id, e.candidateAnswer = Take.storedValue a e.questionId)
    {q : QuestionSnapshot} (hq : q ∈ a.questionSnapshot) :
    Reports db a q (rowOf q (f ((expectedEntry submitted q).toRow a.id))) := by
  have hrow : (expectedEntry submitted q).toRow a.id ∈ a.frozenRows submitted := List.mem_map_of_mem hq
  have hprog := hp.rows _ hrow
  have hmem : f ((expectedEntry submitted q).toRow a.id) ∈ db.entriesOf a.id :=
    hp.entries ▸ List.mem_map_of_mem hrow
  have hshape := hprog.shape.trans (expectedEntry_shape submitted a.id q)
  generalize f ((expectedEntry submitted q).toRow a.id) = e at hprog hmem hshape
  have hid : e.questionId = q.originalQuestionId := congrArg Prod.fst hshape
  have hmode : e.gradingMode = questionMode q := congrArg (·.2.1) hshape
  have hmax : e.maxScore = q.score := congrArg (·.2.2) hshape
  obtain ⟨score, hscore, hlow, hhigh⟩ := (hterm e hmem).earned
  have hanswer : e.candidateAnswer = Take.storedValue a q.originalQuestionId := hid ▸ hvalue e hmem
  have hpoints : (rowOf q e).score = score := by simp [rowOf, aggregateResult, hscore]
  refine ⟨⟨rfl, rfl, rfl, rfl, rfl, rfl⟩, ⟨congrArg some hanswer, rfl⟩, ⟨e, hmem, hid, ?_⟩, ?_,
    fun hm => ?_, fun hm => ?_⟩
  · rw [hpoints, hscore]
  · rw [hpoints, ← hmax]
    exact ⟨hlow, hhigh, rfl⟩
  · have hcorrect : e.correct = some (decide (e.maxScore ≤ score)) := by
      have hstatus := (hterm e hmem).status
      cases hprog with
      | fresh => simp [expectedEntry, hm, ExpectedGradingEntry.toRow, expectedTerminalStatus] at hstatus
      | scored _ _ =>
        obtain rfl := Option.some.inj hscore
        rfl
    have hmarked : (rowOf q e).manualGraded = true := Bool.or_eq_true_iff.mpr (.inl hm)
    refine ⟨hmarked, ?_⟩
    rw [hpoints, ← hmax]
    simp only [rowOf, aggregateResult, hcorrect, Option.getD_some, decide_eq_true_eq]
    exact ⟨hhigh.antisymm, fun h => h.ge⟩
  · have hfresh : e = (expectedEntry submitted q).toRow a.id := by
      cases hprog with
      | fresh => rfl
      | scored hmanual _ => simp [expectedEntry, hm, ExpectedGradingEntry.toRow] at hmanual
    subst hfresh
    have hfrozen : orNull (frozenAnswer submitted q.originalQuestionId) = Take.storedValue a
        q.originalQuestionId := by
      simpa [expectedEntry, hm, ExpectedGradingEntry.toRow] using hanswer
    have hauto : q.type ≠ .textResponse := by simpa [isManualGradedQuestion] using hm
    refine ⟨?_, ?_, ?_⟩
    · simp [rowOf, aggregateResult, expectedEntry, hm, ExpectedGradingEntry.toRow, hfrozen]
    · simp [rowOf, aggregateResult, expectedEntry, hm, ExpectedGradingEntry.toRow, hfrozen]
    · simp [rowOf, manualGraded, aggregateResult, hauto]

end

section
variable {db : Db} {a : ExamAttempt}

theorem candidateAttemptResult_eq (ha : db.findAttempt a.id = some a)
    (hexam : a.examId = db.exam.id) (view : CandidateResultView) :
    candidateAttemptResult db a.id (some view) =
      attemptResult .own
        (fun row => CandidateAttemptQuestionResultSchema row.toCandidateAttemptQuestionResult)
        db.exam a := by
  have hfound : db.findExam a.examId = some db.exam := Db.findExam_eq_some.mpr ⟨hexam.symm, rfl⟩
  simp only [candidateAttemptResult, requireScoreView, ha, hfound, orThrow_some, ok_bind]

theorem fullAttemptResult_eq (ha : db.findAttempt a.id = some a) (hexam : a.examId = db.exam.id) :
    fullAttemptResult db a.id (some .all) = attemptResult .all AttemptQuestionResultSchema
      db.exam a := by
  have hfound : db.findExam a.examId = some db.exam := Db.findExam_eq_some.mpr ⟨hexam.symm, rfl⟩
  simp only [fullAttemptResult, requireScoreView, ha, hfound, orThrow_some, ok_bind, require_true]

theorem examIds (h : Reachable db) :
    ∀ attemptId a, db.findAttempt attemptId = some a → a.examId = db.exam.id :=
  h.invariant (P := fun db => ∀ attemptId a, db.findAttempt attemptId = some a → a.examId = db.exam.id)
    (fun db hi attemptId a ha => by rw [hi.findAttempt] at ha; cases ha) fun _ _ _ h hc => hc.examIds h

end

variable [RichContent]

/-- From the draft on, over every run of requests in the order of the clock: a
result that is not graded is not started on either surface, and one that is
graded is one report on both, withheld by the publication of the exam alone. -/
theorem result_routes_sound (db₀ : Db) (h₀ : Initial db₀) (hdraft : db₀.exam.status = .draft)
    (rs : List Request) (clock : Int) (horder : InOrder clock rs) (attemptId : String)
    (a : ExamAttempt) (ha : (run Request.step db₀ rs).findAttempt attemptId = some a) :
    let db := run Request.step db₀ rs
    (a.status ≠ .graded →
      (∀ view, candidateAttemptResult db attemptId (some view) = .ok
          (.hidden attemptId a.status .notStarted)) ∧
        fullAttemptResult db attemptId (some .all) = .ok (.hidden attemptId a.status .notStarted)) ∧
    (a.status = .graded → ∃ totalScore passed gradedAt rows, Report db a totalScore passed rows ∧
      (∀ view, candidateAttemptResult db attemptId (some view) =
        answerOf db.exam a .own totalScore passed gradedAt
          (rows.map (·.toCandidateAttemptQuestionResult))) ∧
      fullAttemptResult db attemptId (some .all) = answerOf db.exam a .all totalScore passed
        gradedAt rows) := by
  intro db
  obtain ⟨hs, hrows⟩ := session_gradedRows h₀ hdraft horder
  obtain rfl : a.id = attemptId := Db.findAttempt_id ha
  have hexam : a.examId = db.exam.id := examIds hs.reachable a.id a ha
  refine ⟨fun hg => ⟨fun view => ?_, ?_⟩, fun hg => ?_⟩
  · rw [candidateAttemptResult_eq ha hexam]
    exact attemptResult_ungraded hg db.exam .own
  · rw [fullAttemptResult_eq ha hexam]
    exact attemptResult_ungraded hg db.exam .all
  · have hrow : GradedRow db a := hrows a.id a ha hg
    obtain ⟨submitted, f, hp⟩ := hs.reachable.worksetsProgress a.id a ha (.inr hg)
    obtain ⟨aggregated, hagg, hresults, hscore, hpassed⟩ := hrow.aggregate
    obtain ⟨gradedAt, hat⟩ := Option.isSome_iff_exists.mp hrow.gradedAt
    rw [results_eq hp hrow] at hresults
    have hterm : ∀ e ∈ db.entriesOf a.id, Terminal e :=
      (aggregate_eq_ok hp.shape hp.distinct).mp ⟨aggregated, hagg⟩
    have hvalue := Take.entry_value hs.reachable ha (.inr hg)
    refine ⟨aggregated.totalScore, aggregated.passed, gradedAt,
      a.questionSnapshot.map fun q => rowOf q (f ((expectedEntry submitted q).toRow a.id)), ⟨?_, ?_,
        ?_⟩, fun view => ?_, ?_⟩
    · refine List.forall₂_map_right_iff.mpr (List.forall₂_same.mpr fun q hq => ?_)
      exact rowOf_reports hp hterm hvalue hq
    · rw [(aggregate_results hagg).2.1, ← Option.some.inj hresults, List.map_map, List.map_map]
      rfl
    · rw [(aggregate_results hagg).2.2]
      exact decide_eq_true_iff
    · rw [candidateAttemptResult_eq ha hexam, List.map_map]
      exact attemptResult_graded _ (fun q e => (rowOf q e).toCandidateAttemptQuestionResult)
        candidateSchema_raw hg hp hrow hscore
        hpassed hat db.exam .own
    · rw [fullAttemptResult_eq ha hexam]
      exact attemptResult_graded _ rowOf schema_raw hg hp hrow hscore hpassed hat db.exam .all

end

/-- Both answers left blank; the second question is marked by hand. -/
def sampleMarked : List Request :=
  [.exam (.publish sampleBank), .sitting (.start (sampleArrival 2000)) rfl,
    .sitting (.submit "attempt" "candidate" 30000) rfl,
    .sitting (.grade "attempt" "q2" 2 "Good" "grader" 40000) rfl]

theorem sampleMarked_inOrder : InOrder 0 sampleMarked := by
  simp [InOrder, sampleMarked, Request.now, ExamCommand.now, Command.now, sampleArrival]

def sampleResult : Db := run (@Request.step sampleHost sampleContent) sampleTimed sampleMarked

/-- Two points of five, and the candidate is shown them. -/
theorem result_routes_sound_sample :
    ∃ a passed gradedAt rows, @Report sampleHost sampleResult a 2 passed rows ∧
      @candidateAttemptResult sampleHost sampleResult "attempt" (some .own) =
        .ok (.visible "attempt" 3 2 passed gradedAt
            (rows.map (·.toCandidateAttemptQuestionResult))) := by
  let _ : Host := sampleHost
  obtain ⟨a, ha, hg⟩ : ∃ a, sampleResult.findAttempt "attempt" = some a ∧ a.status = .graded := by
    have hgraded : ((sampleResult.findAttempt "attempt").map (·.status)) = some .graded := by
      decide +kernel
    exact Option.map_eq_some_iff.mp hgraded
  obtain ⟨-, hreported⟩ :=
    @result_routes_sound sampleHost sampleContent sampleTimed sampleTimed_initial rfl sampleMarked 0
    sampleMarked_inOrder "attempt" a ha
  obtain ⟨totalScore, passed, gradedAt, rows, hreport, hown, -⟩ := hreported hg
  have hshown : succeeds (candidateAttemptResult sampleResult "attempt" (some .own)) (fun
      | .visible attemptId passingScore totalScore _ _ _ => attemptId = "attempt" ∧
          passingScore = 3 ∧ totalScore = 2
      | .hidden _ _ _ => False) = true := by decide +kernel
  obtain ⟨response, hresponse, hfields⟩ := succeeds_iff.mp hshown
  have hanswer := (hown .own).symm.trans hresponse
  unfold answerOf at hanswer
  split at hanswer
  · obtain rfl := Except.ok.inj hanswer
    exact absurd hfields Bool.false_ne_true
  · split_ifs at hanswer with hreadable
    obtain rfl := Except.ok.inj hanswer
    obtain ⟨hid, hpassing, rfl⟩ := of_decide_eq_true hfields
    refine ⟨a, passed, gradedAt, rows, hreport, hresponse.trans ?_⟩
    rw [hid, hpassing]

/-! ## Publication -/

def AttemptResultResponse.isVisible {ρ : Type} : AttemptResultResponse ρ → Bool
  | .hidden _ _ _ => false
  | .visible _ _ _ _ _ _ => true

section
variable {exam exam' : Exam}

def StaysPublished (exam exam' : Exam) : Prop := exam.resultsPublishedAt.isSome →
    exam'.resultsPublishedAt = exam.resultsPublishedAt

theorem StaysPublished.of_eq (h : exam'.resultsPublishedAt = exam.resultsPublishedAt) :
    StaysPublished exam exam' := fun _ => h

theorem reconciled_publication {now : Int} (h : Reconciled now exam exam') :
    exam'.resultsPublishedAt = exam.resultsPublishedAt := by
  cases h <;> rfl

theorem updateDraft_publication {data : UpdateExamRequest} {found : List (Option Question)}
    (h : updateDraft exam data found = .ok exam') :
    exam'.resultsPublishedAt = exam.resultsPublishedAt := by
  unfold updateDraft at h
  split at h
  · rw [pure_eq_ok] at h
    rw [h]
  · split at h
    all_goals split at h
    all_goals simp only [bind_eq_ok, pure_eq_ok] at h
    · obtain ⟨-, -, -, -, -, -, rfl⟩ := h
      rfl
    · obtain ⟨-, -, -, -, rfl⟩ := h
      rfl
    · obtain ⟨-, -, -, -, rfl⟩ := h
      rfl
    · obtain ⟨-, -, rfl⟩ := h
      rfl

end

section
variable {db db' : Db} {examId : String} {now : Int} {r : Exam}

theorem updateExam_publication {data : UpdateExamRequest} {found : List (Option Question)}
    (h : updateExam db examId data found now = .ok (r, db')) :
    r.resultsPublishedAt = db.exam.resultsPublishedAt := by
  simp only [updateExam, bind_eq_ok, orThrow_eq_ok] at h
  obtain ⟨existing, hfound, h⟩ := h
  obtain ⟨-, rfl⟩ := Db.findExam_eq_some.mp hfound
  split at h
  · simp only [pure_eq_ok, Prod.mk.injEq] at h
    obtain ⟨rfl, -⟩ := h
    rfl
  · simp only [bind_eq_ok] at h
    obtain ⟨⟨exam, db₁⟩, hrec, h⟩ := h
    have hreconciled := reconciled_publication (checkAndUpdateExamStatus_ok hrec).1
    split at h
    · simp only [bind_eq_ok, pure_eq_ok, Prod.mk.injEq] at h
      obtain ⟨updated, hup, rfl, -⟩ := h
      exact (updateDraft_publication hup).trans hreconciled
    · simp only [bind_eq_ok, pure_eq_ok, Prod.mk.injEq] at h
      obtain ⟨updated, hup, rfl, -⟩ := h
      simp only [updateSchedule, bind_eq_ok, require_eq_ok, exists_const, pure_eq_ok] at hup
      obtain ⟨-, -, rfl⟩ := hup
      exact hreconciled
    · cases h

theorem transition_publication {db₁ : Db} {target : ExamStatus} {exam : Exam}
    (hrec : checkAndUpdateExamStatus db examId now = .ok (exam, db₁))
    (h : transitionExam db₁ examId target = .ok (r, db')) :
    r.resultsPublishedAt = db.exam.resultsPublishedAt := by
  obtain ⟨hreconciled, rfl⟩ := checkAndUpdateExamStatus_ok hrec
  obtain ⟨-, rfl, -⟩ := transitionExam_ok h
  exact (reconciled_publication hreconciled : exam.resultsPublishedAt = _)

theorem publishResults_publication (h : publishResults db examId now = .ok (r, db')) :
    StaysPublished db.exam r := by
  simp only [publishResults, bind_eq_ok, orThrow_eq_ok, require_eq_ok, exists_const] at h
  obtain ⟨exam, hfound, -, h⟩ := h
  obtain ⟨-, rfl⟩ := Db.findExam_eq_some.mp hfound
  split at h
  · simp only [pure_eq_ok, Prod.mk.injEq] at h
    obtain ⟨rfl, -⟩ := h
    exact .of_eq rfl
  · rename_i hnone
    exact fun hsome => absurd hsome hnone

variable [Host] [RichContent]

theorem examCommand_publication {c : ExamCommand} (h : c.step db = .ok (r, db')) :
    r.resultsPublishedAt = db.exam.resultsPublishedAt := by
  cases c with
  | update data found now => exact updateExam_publication h
  | publish questions =>
    change publishRoute db db.exam.id questions = .ok (r, db') at h
    unfold publishRoute at h
    split at h
    · cases h
    · simp only [publishExam, bind_eq_ok, orThrow_eq_ok, require_eq_ok, exists_const, pure_eq_ok,
        Prod.mk.injEq] at h
      obtain ⟨draft, hfound, _, -, -, -, -, questionSnapshot, -, -, -, rfl, -⟩ := h
      obtain ⟨-, rfl⟩ := Db.findExam_eq_some.mp hfound
      rfl
  | unpublish now =>
    simp only [ExamCommand.step, unpublishRoute, bind_eq_ok, require_eq_ok, exists_const] at h
    obtain ⟨⟨exam, db₁⟩, hrec, -, h⟩ := h
    exact transition_publication hrec h
  | extend extendMinutes now =>
    simp only [ExamCommand.step, extendRoute, bind_eq_ok, require_eq_ok, exists_const] at h
    obtain ⟨⟨exam, db₁⟩, hrec, -, h⟩ := h
    obtain ⟨hreconciled, rfl⟩ := checkAndUpdateExamStatus_ok hrec
    simp only [extendExam, bind_eq_ok, orThrow_eq_ok, require_eq_ok, exists_const, pure_eq_ok,
      Prod.mk.injEq] at h
    obtain ⟨-, e, he, -, close, -, rfl, -⟩ := h
    obtain ⟨-, rfl⟩ := Db.findExam_eq_some.mp he
    exact (reconciled_publication hreconciled : exam.resultsPublishedAt = _)
  | reconcile now => exact reconciled_publication (checkAndUpdateExamStatus_ok h).1
  | close now =>
    simp only [ExamCommand.step, closeRoute, bind_eq_ok, require_eq_ok, exists_const] at h
    obtain ⟨⟨exam, db₁⟩, hrec, -, h⟩ := h
    split at h
    · cases h
    · obtain ⟨hreconciled, rfl⟩ := checkAndUpdateExamStatus_ok hrec
      obtain ⟨-, rfl, -⟩ := closeExam_ok h
      exact (reconciled_publication hreconciled : exam.resultsPublishedAt = _)

omit [RichContent] in
theorem sitting_exam {c : Command} (hc : c.isExamWrite = false) {u : Unit}
    (h : c.step db = .ok (u, db')) : db'.exam = db.exam := by
  rcases step_transacts c db u db' h with ⟨db₁, hadj, hq⟩ | ⟨exam, now, rfl, -, -⟩
  · rw [hq.exam]
    rcases hadj with rfl | ⟨a, row, -, rfl⟩ <;> rfl
  · cases hc

theorem request_publication {q : Request} {u : Unit} (h : q.step db = .ok (u, db')) :
    StaysPublished db.exam db'.exam := by
  cases q with
  | sitting c hc => exact .of_eq (congrArg Exam.resultsPublishedAt (sitting_exam hc h))
  | exam c =>
    simp only [Request.step, bind_eq_ok, pure_eq_ok, Prod.mk.injEq] at h
    obtain ⟨⟨exam, db₁⟩, hx, -, rfl⟩ := h
    rw [(ExamCommand.revised hx).2]
    exact .of_eq (examCommand_publication hx)
  | cancel now =>
    simp only [Request.step, cancelRoute, bind_eq_ok, require_eq_ok, exists_const, pure_eq_ok,
      Prod.mk.injEq] at h
    obtain ⟨⟨exam, db₁⟩, ⟨⟨e, db₂⟩, hrec, -, hx⟩, -, rfl⟩ := h
    split at hx
    · cases hx
    · rw [(transitionExam_ok hx).2.2]
      exact .of_eq (transition_publication hrec hx)
  | archive now =>
    simp only [Request.step, archiveRoute, bind_eq_ok, pure_eq_ok, Prod.mk.injEq] at h
    obtain ⟨⟨exam, db₁⟩, ⟨⟨e, db₂⟩, hrec, hx⟩, -, rfl⟩ := h
    split at hx
    · simp only [pure_eq_ok, Prod.mk.injEq] at hx
      obtain ⟨-, rfl⟩ := hx
      obtain ⟨hreconciled, rfl⟩ := checkAndUpdateExamStatus_ok hrec
      exact .of_eq (reconciled_publication hreconciled)
    · split at hx
      · cases hx
      · rw [(transitionExam_ok hx).2.2]
        exact .of_eq (transition_publication hrec hx)
  | publishResults now =>
    simp only [Request.step, publishResultsRoute, bind_eq_ok, pure_eq_ok, Prod.mk.injEq] at h
    obtain ⟨⟨exam, db₁⟩, hx, -, rfl⟩ := h
    split at hx
    · cases hx
    · cases hx
    · rw [(publishResults_revised hx).2]
      exact publishResults_publication hx

/-! ## What is shown stays -/

section
variable {attemptId : String} {a : ExamAttempt} {exam exam' : Exam} {view : CandidateResultView}

theorem graded_request {q : Request} {u : Unit} (h : q.step db = .ok (u, db'))
    (ha : db.findAttempt attemptId = some a) (hg : a.status = .graded) :
    db'.findAttempt attemptId = some a := by
  rcases Request.step_cases h with ⟨c, hc, rfl, hstep⟩ | ⟨exam, -, rfl⟩
  · exact closure_invariant (P := fun db => db.findAttempt attemptId = some a)
      (fun s t hs hc => hc.elim fun _ hc => graded_stays hc hs hg)
      (step_changes c db u db' hstep) ha
  · exact ha

omit [Host] [RichContent] in
theorem visibility_kept (hk : exam.Kept exam') (hp : StaysPublished exam exam')
    (h : resolveCandidateResultVisibility exam a view = none) :
    resolveCandidateResultVisibility exam' a view = none := by
  have hmode : exam'.resultPublicationMode = exam.resultPublicationMode := by rw [hk.row]
  unfold resolveCandidateResultVisibility at h ⊢
  rw [hmode]
  cases view with
  | all => exact h
  | own =>
    cases hm : exam.resultPublicationMode with
    | immediate | afterGrading => simpa only [hm] using h
    | manual =>
      simp only [hm] at h ⊢
      by_cases hsome : exam.resultsPublishedAt.isSome = true
      · rw [hp hsome]
        exact h
      · rw [if_neg hsome] at h
        split_ifs at h

omit [Host] [RichContent] in
/-- The exam may change its status and its window, and be published. -/
theorem attemptResult_kept {ρ : Type} {readRow : AttemptQuestionResult Json → Result ρ}
    {response : AttemptResultResponse ρ} (hk : exam.Kept exam') (hp : StaysPublished exam exam')
    (h : attemptResult view readRow exam a = .ok response) (hv : response.isVisible = true) :
    a.status = .graded ∧ attemptResult view readRow exam' a = .ok response := by
  have hpassing : exam'.passingScore = exam.passingScore := by rw [hk.row]
  unfold attemptResult at h ⊢
  cases hr : resolveCandidateResultVisibility exam a view with
  | some reason =>
    rw [hr] at h
    dsimp only at h
    rw [pure_eq_ok] at h
    rw [← h] at hv
    cases hv
  | none =>
    rw [hr] at h
    rw [visibility_kept hk hp hr, hpassing]
    refine ⟨by_contra fun hg => ?_, h⟩
    rw [visibility_ungraded hg] at hr
    cases hr

theorem kept_request {clock : Int} {q : Request} {u : Unit} (hs : Session clock db)
    (hclock : ∀ t ∈ q.now, clock ≤ t) (hx : q.step db = .ok (u, db'))
    (ha : db.findAttempt attemptId = some a) : db.exam.Kept db'.exam := by
  have hne : db.attempts ≠ [] := List.ne_nil_of_mem (Db.findAttempt_mem ha)
  rcases Request.step_cases hx with ⟨c, hc, rfl, hstep⟩ | ⟨exam, hr, rfl⟩
  · rw [sitting_exam hc hstep]
    exact .refl (hs.begun hne)
  · exact hs.kept hclock hr hne

theorem shown_request {ρ : Type} {readRow : AttemptQuestionResult Json → Result ρ}
    {response : AttemptResultResponse ρ} {clock : Int} {q : Request} {u : Unit}
    (hs : Session clock db) (hclock : ∀ t ∈ q.now, clock ≤ t) (hx : q.step db = .ok (u, db'))
    (ha : db.findAttempt attemptId = some a) (hexam : a.examId = db.exam.id)
    (h : attemptResult view readRow db.exam a = .ok response) (hv : response.isVisible = true) :
    db'.findAttempt attemptId = some a ∧ db'.findExam a.examId = some db'.exam ∧
      attemptResult view readRow db'.exam a = .ok response := by
  have hk := kept_request hs hclock hx ha
  obtain ⟨hg, h'⟩ := attemptResult_kept hk (request_publication hx) h hv
  have hid : db'.exam.id = db.exam.id := by rw [hk.row]
  exact ⟨graded_request hx ha hg, Db.findExam_eq_some.mpr ⟨hid.trans hexam.symm, rfl⟩, h'⟩

end

end

section
variable [Host] [RichContent]

/-- An answer that no request changes is given after every later run. -/
theorem session_answer {α : Type} (route : Db → Result α) {response : α}
    (hstep : ∀ clock db q u db', Session clock db → (∀ t ∈ Request.now q, clock ≤ t) →
      q.step db = .ok (u, db') → route db = .ok response → route db' = .ok response) {clock : Int}
    {db : Db} {later : List Request} (hs : Session clock db) (hlater : InOrder clock later)
    (h : route db = .ok response) : route (run Request.step db later) = .ok response :=
  (session_run (G := fun _ _ => True) (P := fun _ db => route db = .ok response) (fun _ _ _ _ h => h)
    (fun clock db q u db' hs h hclock _ hx => hstep clock db q u db' hs hclock hx h) later clock db
      hs h hlater
    (along_of_forall _ _ _ fun _ _ _ => trivial)).2

/-- From the draft on, over every run of requests in the order of the clock: once
a surface shows a result, it answers with the same result after every later run. -/
theorem shown_result_stays (db₀ : Db) (h₀ : Initial db₀) (hdraft : db₀.exam.status = .draft)
    (rs later : List Request) (clock : Int) (horder : InOrder clock rs)
    (hlater : InOrder (clockAfter clock rs) later) (attemptId : String)
    (scoreView : Option CandidateResultView) :
    let db := run Request.step db₀ rs
    let db' := run Request.step db later
    (∀ response, candidateAttemptResult db attemptId scoreView = .ok response →
      response.isVisible = true → candidateAttemptResult db' attemptId scoreView = .ok response) ∧
    (∀ response, fullAttemptResult db attemptId scoreView = .ok response → response.isVisible = true →
      fullAttemptResult db' attemptId scoreView = .ok response) := by
  intro db db'
  have hs : Session (clockAfter clock rs) db := (session_gradedRows h₀ hdraft horder).1
  constructor
  · intro response h hv
    refine session_answer (candidateAttemptResult · attemptId scoreView)
      (fun clock db q u db' hs hclock hx h => ?_) hs hlater h
    simp only [candidateAttemptResult, bind_eq_ok, orThrow_eq_ok] at h
    obtain ⟨a, ha, exam, hexam, view, hview, h⟩ := h
    obtain ⟨hid, rfl⟩ := Db.findExam_eq_some.mp hexam
    obtain ⟨ha', hexam', h'⟩ := shown_request hs hclock hx ha hid.symm h hv
    simp only [candidateAttemptResult, ha', hexam', hview, orThrow_some, ok_bind, h']
  · intro response h hv
    refine session_answer (fullAttemptResult · attemptId scoreView)
      (fun clock db q u db' hs hclock hx h => ?_) hs hlater h
    simp only [fullAttemptResult, bind_eq_ok, orThrow_eq_ok, require_eq_ok, exists_const] at h
    obtain ⟨view, hview, hall, a, ha, exam, hexam, h⟩ := h
    obtain ⟨hid, rfl⟩ := Db.findExam_eq_some.mp hexam
    obtain ⟨ha', hexam', h'⟩ := shown_request hs hclock hx ha hid.symm h hv
    simp only [fullAttemptResult, hview, hall, ha', hexam', orThrow_some, ok_bind, require_true, h']

end

def samplePublication : List Request :=
  [.exam (.publish sampleBank), .sitting (.start (sampleArrival 3000)) rfl,
    .sitting (.submit "attempt" "candidate" 4000) rfl,
    .exam (.close 650000), .publishResults 660000]

/-- It stays, also in the archive. -/
theorem shown_result_stays_sample :
    let db := run (@Request.step sampleHost sampleContent) sampleManual samplePublication
    let db' := run (@Request.step sampleHost sampleContent) db [.archive 700000]
    db.exam.status = .closed ∧ db'.exam.status = .archived ∧
      ∃ response, response.isVisible = true ∧ @candidateAttemptResult sampleHost db' "attempt"
        (some .own) = .ok response := by
  intro db db'
  let _ : Host := sampleHost
  have hshown : succeeds (candidateAttemptResult db "attempt" (some .own))
    (·.isVisible) = true := by decide +kernel
  obtain ⟨response, hresponse, hv⟩ := succeeds_iff.mp hshown
  have hstays := @shown_result_stays sampleHost sampleContent sampleManual
    ⟨rfl, rfl, rfl, rfl, rfl, rfl, rfl, rfl, ⟨rfl, rfl, rfl⟩⟩ rfl samplePublication [.archive 700000] 0
    (by simp [InOrder, samplePublication, Request.now, ExamCommand.now, Command.now, sampleArrival])
    (by simp [InOrder, clockAfter, samplePublication, Request.now, ExamCommand.now, Command.now,
        sampleArrival]) "attempt" (some .own)
  exact ⟨by decide +kernel, by decide +kernel, response, hv, hstays.1 response hresponse hv⟩

/-! ## What the candidate is not told -/

def SameAsked (q q' : QuestionSnapshot) : Prop :=
  ∃ standardAnswer gradingRule rubric,
    q' = { q with standardAnswer := standardAnswer, gradingRule := gradingRule, rubric := rubric }

def SameMarked (r r' : QuestionScoreResult) : Prop :=
  ∃ standardAnswer, r' = { r with standardAnswer := standardAnswer } ∧
    (standardAnswer = .null ↔ r.standardAnswer = .null)

def SameSat (a b : ExamAttempt) : Prop :=
  ∃ questionSnapshot gradingResult, b =
    { a with questionSnapshot := questionSnapshot, gradingResult := gradingResult } ∧
    List.Forall₂ SameAsked a.questionSnapshot questionSnapshot ∧
    Option.Rel (List.Forall₂ SameMarked) a.gradingResult gradingResult

/-- The stores differ at most in the reference answers, the grading rules and the
rubrics, and in the entries of the graders. -/
def SameButReferences (db db' : Db) : Prop :=
  ∃ questionSnapshot attempts gradingEntries,
    db' = { db with
      exam := { db.exam with questionSnapshot := questionSnapshot }, attempts := attempts
      gradingEntries := gradingEntries } ∧
    List.Forall₂ SameSat db.attempts attempts

theorem mapM_agree {ε α β γ δ : Type} {R : α → β → Prop} {S : γ → δ → Prop} {f : α → Except ε γ}
    {g : β → Except ε δ} {l : List α} {m : List β} (h : List.Forall₂ R l m)
    (hfg : ∀ a b, R a b → Agree S (f a) (g b)) :
    Agree (List.Forall₂ S) (l.mapM f) (m.mapM g) := by
  induction h with
  | nil => exact .pure .nil
  | cons hab _ ih =>
    rw [List.mapM_cons, List.mapM_cons]
    exact (hfg _ _ hab).bind fun c d hcd => ih.bind fun cs ds hrest => .pure (.cons hcd hrest)

section
variable {a b : ExamAttempt}

theorem SameSat.snapshotOf (h : SameSat a b) (questionId : String) :
    Option.Rel SameAsked (snapshotOf a questionId) (snapshotOf b questionId) := by
  obtain ⟨questionSnapshot, gradingResult, rfl, hq, -⟩ := h
  refine find?_rel (List.rel_reverse hq) fun q q' hqq => ?_
  obtain ⟨_, _, _, rfl⟩ := hqq
  rfl

theorem buildQuestionResult_same (h : SameSat a b) {r r' : QuestionScoreResult} (hr : SameMarked r r') :
    Agree (fun x y => x.toCandidateAttemptQuestionResult = y.toCandidateAttemptQuestionResult)
      (buildQuestionResult a r)
      (buildQuestionResult b r') := by
  obtain ⟨standardAnswer, rfl, hnull⟩ := hr
  refine (Agree.orThrow (h.snapshotOf r.questionId) _).bind fun q q' hqq => ?_
  obtain ⟨_, _, _, rfl⟩ := hqq
  refine .pure ?_
  have hmarked : (r.standardAnswer == .null) = (standardAnswer == .null) := by
    rw [Bool.eq_iff_iff, beq_iff_eq, beq_iff_eq, hnull]
  simp only [manualGraded, hmarked]

theorem SameSat.visibility (h : SameSat a b) (exam : Exam)
    (questionSnapshot : List QuestionSnapshot) (view : CandidateResultView) :
    resolveCandidateResultVisibility exam a view =
      resolveCandidateResultVisibility { exam with questionSnapshot := questionSnapshot } b view := by
  obtain ⟨_, gradingResult, rfl, -, hr⟩ := h
  unfold resolveCandidateResultVisibility
  simp only [rel_eq_none hr]

variable [Host]

theorem SameSat.candidateResult (h : SameSat a b) (exam : Exam)
    (questionSnapshot : List QuestionSnapshot) :
    let readRow := fun row : AttemptQuestionResult Json =>
      CandidateAttemptQuestionResultSchema row.toCandidateAttemptQuestionResult
    attemptResult .own readRow exam a = attemptResult .own readRow
      { exam with questionSnapshot := questionSnapshot } b := by
  intro readRow
  have hvisible := h.visibility exam questionSnapshot .own
  have hbuild := fun r r' (hr : SameMarked r r') => buildQuestionResult_same h hr
  unfold attemptResult
  rw [← hvisible]
  obtain ⟨questions, gradingResult, rfl, -, hresults⟩ := h
  cases resolveCandidateResultVisibility exam a .own with
  | some reason => rfl
  | none =>
    refine Agree.eq (Agree.same rfl fun gradedAt _ => (Agree.orThrow hresults _).bind fun results
        results' hr => ?_)
    refine (mapM_agree hr hbuild).bind fun rows rows' hrows => ?_
    refine Agree.same rfl fun totalScore _ => Agree.same rfl fun passed _ => ?_
    have hread : rows.mapM readRow = rows'.mapM readRow := by
      refine ((mapM_agree (S := Eq) hrows fun x y hxy => .of_eq ?_).mono fun _ _ =>
          List.forall₂_eq_eq_eq ▸ id).eq
      exact congrArg CandidateAttemptQuestionResultSchema hxy
    exact Agree.same hread fun _ _ => .pure rfl

omit [Host] in
theorem SameButReferences.find {db db' : Db} (h : SameButReferences db db') (attemptId : String) :
    Option.Rel SameSat (db.findAttempt attemptId) (db'.findAttempt attemptId) := by
  obtain ⟨_, attempts, _, rfl, ha⟩ := h
  refine find?_rel ha fun a b hab => ?_
  obtain ⟨_, _, rfl, -⟩ := hab
  rfl

omit [Host] in
theorem SameButReferences.findExam {db db' : Db} (h : SameButReferences db db') (examId : String) :
    Option.Rel (fun exam exam' => ∃ questionSnapshot,
        exam' = { exam with questionSnapshot := questionSnapshot })
      (db.findExam examId) (db'.findExam examId) := by
  obtain ⟨questionSnapshot, _, _, rfl, -⟩ := h
  unfold Db.findExam
  dsimp only
  split
  · exact .some ⟨questionSnapshot, rfl⟩
  · exact .none

theorem candidateAttemptResult_references {db db' : Db} (h : SameButReferences db db')
    (attemptId : String) (scoreView : Option CandidateResultView) :
    candidateAttemptResult db attemptId scoreView = candidateAttemptResult db' attemptId scoreView := by
  refine Agree.eq ((Agree.orThrow (h.find attemptId) _).bind fun a b hab => ?_)
  have hexamId : b.examId = a.examId := by
    obtain ⟨_, _, rfl, -⟩ := hab
    rfl
  rw [hexamId]
  refine (Agree.orThrow (h.findExam a.examId) _).bind fun exam exam' hexam =>
    Agree.same rfl fun _ _ => .of_eq ?_
  obtain ⟨questionSnapshot, rfl⟩ := hexam
  exact hab.candidateResult exam questionSnapshot

omit [Host] in
theorem attemptResult_hidden {ρ : Type} {view : CandidateResultView}
    {readRow : AttemptQuestionResult Json → Result ρ} {exam : Exam} {a : ExamAttempt}
    {reason : CandidateResultHiddenReason}
    (h : resolveCandidateResultVisibility exam a view = some reason) :
    attemptResult view readRow exam a = .ok (.hidden a.id a.status reason) := by
  unfold attemptResult
  rw [h]
  rfl

/-- While the result is withheld, the candidate's surface answers alike in stores that differ in it. -/
theorem candidateAttemptResult_alike {db db' : Db} (h : SameButResults db db') {attemptId : String}
    (hhidden : ∀ a exam, db.findAttempt attemptId = some a → db.findExam a.examId = some exam →
      (resolveCandidateResultVisibility exam a .own).isSome)
    (scoreView : Option CandidateResultView) :
    candidateAttemptResult db attemptId scoreView = candidateAttemptResult db' attemptId scoreView := by
  refine Agree.eq ((Agree.orThrow (h.findAttempt attemptId) _).bind_ok fun a b ha _ hab => ?_)
  have hvisible := fun exam => hab.visibility exam .own
  obtain ⟨_, _, _, _, rfl, -⟩ := hab
  refine Agree.same (congrArg (orThrow · _) (h.findExam a.examId)) fun exam hexam =>
    Agree.same rfl fun _ _ => .of_eq ?_
  obtain ⟨reason, hreason⟩ :=
    Option.isSome_iff_exists.mp (hhidden a exam ((orThrow_eq_ok _ _ _).mp ha)
        ((orThrow_eq_ok _ _ _).mp hexam))
  rw [attemptResult_hidden hreason, attemptResult_hidden ((hvisible exam).symm.trans hreason)]

/-- In every two stores: the candidate's surface answers alike when they differ in
what grades the questions, and, while the result is withheld, when they differ in
the result. -/
theorem candidate_result_conceals (db db' : Db) (attemptId : String)
    (scoreView : Option CandidateResultView) :
    (SameButReferences db db' →
      candidateAttemptResult db attemptId scoreView = candidateAttemptResult db' attemptId
        scoreView) ∧
    (SameButResults db db' →
      (∀ a exam, db.findAttempt attemptId = some a → db.findExam a.examId = some exam →
        (resolveCandidateResultVisibility exam a .own).isSome) →
      candidateAttemptResult db attemptId scoreView = candidateAttemptResult db' attemptId scoreView) :=
  ⟨fun h => candidateAttemptResult_references h attemptId scoreView,
    fun h hhidden => candidateAttemptResult_alike h hhidden scoreView⟩

end

/-- Every question with another reference answer, and every mark that has one. -/
def remarked (db : Db) : Db :=
  { db with
    exam := { db.exam with questionSnapshot := db.exam.questionSnapshot.map fun q =>
      { q with standardAnswer := .str (js "z") } }
    attempts := db.attempts.map fun a => { a with
      questionSnapshot := a.questionSnapshot.map fun q => { q with standardAnswer := .str (js "z") }
      gradingResult := a.gradingResult.map fun results => results.map fun r =>
        { r with standardAnswer := if r.standardAnswer = .null then .null else .str (js "z") } } }

theorem remarked_references (db : Db) : SameButReferences db (remarked db) := by
  have hmarked : ∀ r : QuestionScoreResult,
      SameMarked r
        { r with standardAnswer := if r.standardAnswer = .null then .null else .str (js "z") } := by
    intro r
    refine ⟨_, rfl, ?_⟩
    split_ifs with hnull <;> simp [hnull]
  refine ⟨_, _, _, rfl, List.forall₂_map_right_iff.mpr (List.forall₂_same.mpr fun a _ => ⟨_, _,
        rfl, ?_, ?_⟩)⟩
  · exact List.forall₂_map_right_iff.mpr (List.forall₂_same.mpr fun q _ => ⟨_, q.gradingRule,
        q.rubric, rfl⟩)
  · cases a.gradingResult with
    | none => exact .none
    | some results =>
      exact .some (List.forall₂_map_right_iff.mpr (List.forall₂_same.mpr fun r _ => hmarked r))

def references {δ : Type} : AttemptResultResponse (AttemptQuestionResult δ) → List Json
  | .hidden _ _ _ => []
  | .visible _ _ _ _ _ rows => rows.map (·.standardAnswer)

/-- The reference answers are changed and the full result with them; a failed
attempt, not published yet, is turned into a pass. The candidate sees neither. -/
theorem candidate_result_conceals_sample :
    (@fullAttemptResult sampleHost sampleResult "attempt" (some .all)).map references = .ok
      [.str (js "a"), .null] ∧
      (@fullAttemptResult sampleHost (remarked sampleResult) "attempt" (some .all)).map references =
        .ok [.str (js "z"), .null] ∧
      @candidateAttemptResult sampleHost sampleResult "attempt" (some .own) =
        @candidateAttemptResult sampleHost (remarked sampleResult) "attempt" (some .own) ∧
      @candidateAttemptResult sampleHost sampleFailed "attempt" (some .own) =
        @candidateAttemptResult sampleHost sampleFailed.asPassed "attempt" (some .own) := by
  refine ⟨by decide +kernel, by decide +kernel, ?_, ?_⟩
  · exact (@candidate_result_conceals sampleHost _ _ "attempt" (some .own)).1
      (remarked_references sampleResult)
  · refine (@candidate_result_conceals sampleHost _ _ "attempt" (some .own)).2 sampleFailed_alike
      fun a exam ha hexam => ?_
    have hhidden : ∀ a ∈ sampleFailed.attempts,
        (resolveCandidateResultVisibility sampleFailed.exam a .own).isSome = true := by
      decide +kernel
    obtain ⟨-, rfl⟩ := Db.findExam_eq_some.mp hexam
    exact hhidden a (Db.findAttempt_mem ha)

end ExamSystem.Results
